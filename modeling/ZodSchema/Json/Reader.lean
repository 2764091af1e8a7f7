import ZodSchema.Value
import ZodSchema.Text.CodePoint

/-!
# Reading JSON

The grammar of RFC 8259 with the three names `NaN`, `Infinity` and `-Infinity` for numbers.  A
key that comes twice keeps its first place and its last value.

* `Fault`        why a text gives no value
* `Json.read`    the value of a whole text; what stands in its strings is a text already, escapes aside
* `Json.read?`   the same, whatever the fault
-/

namespace ZodSchema.Json

/-- why a text gives no value -/
inductive Fault where
  /-- the text breaks a rule of the format -/
  | malformed
  /-- an integer of more than `Text.maxDigits` digits; what follows it is not looked at -/
  | longInteger (digits : Nat)
  deriving DecidableEq, Repr

/-- a step that cannot be taken breaks a rule of the format -/
def step {α : Type} : Option α → Except Fault α
  | some a => .ok a
  | none => .error .malformed

def isSpace (c : Char) : Bool := c == ' ' || c == '\t' || c == '\n' || c == '\r'

def skip (cs : List Char) : List Char := cs.dropWhile isSpace

def hexValue? (c : Char) : Option Nat :=
  if c.isDigit then some (c.toNat - 48)
  else if 'a' ≤ c ∧ c ≤ 'f' then some (c.toNat - 87)
  else if 'A' ≤ c ∧ c ≤ 'F' then some (c.toNat - 55)
  else none

def hexFour? (a b c d : Char) : Option Nat := do
  pure (Text.ofDigits 16 [← hexValue? a, ← hexValue? b, ← hexValue? c, ← hexValue? d])

/-- a second half of a surrogate pair at the head, with what follows it -/
def lowHalf? : List Char → Option (Nat × List Char)
  | '\\' :: 'u' :: a :: b :: c :: d :: cs =>
    match hexFour? a b c d with
    | some n => if 0xDC00 ≤ n ∧ n ≤ 0xDFFF then some (n, cs) else none
    | none => none
  | _ => none

/-- the character of a one-letter escape -/
def simpleEscape? (c : Char) : Option Char :=
  if c = '"' ∨ c = '\\' ∨ c = '/' then some c
  else if c = 'b' then some '\x08'
  else if c = 'f' then some '\x0c'
  else if c = 'n' then some '\n'
  else if c = 'r' then some '\r'
  else if c = 't' then some '\t'
  else none

/-- what an escape by number puts into a text, in front of what was read before it -/
def scalar (n : Nat) (acc : List Char) : List Char := (Text.CodePoint.ofNat n).keep.reverse ++ acc

/-- the rest of a string after its opening quote; `acc` holds its characters, newest first -/
def stringTail : Nat → List Char → List Char → Option (List Char × List Char)
  | 0, _, _ => none
  | fuel + 1, acc, cs =>
    match cs with
    | [] => none
    | '"' :: cs => some (acc.reverse, cs)
    | '\\' :: 'u' :: a :: b :: c :: d :: cs =>
      match hexFour? a b c d with
      | none => none
      | some n =>
        if 0xD800 ≤ n ∧ n ≤ 0xDBFF then
          match lowHalf? cs with
          | some (m, rest) =>
            stringTail fuel (Char.ofNat (0x10000 + (n - 0xD800) * 1024 + (m - 0xDC00)) :: acc) rest
          | none => stringTail fuel (scalar n acc) cs
        else stringTail fuel (scalar n acc) cs
    | '\\' :: c :: cs =>
      match simpleEscape? c with
      | some e => stringTail fuel (e :: acc) cs
      | none => none
    | c :: cs => if c.toNat < 32 ∨ c = '\\' then none else stringTail fuel (c :: acc) cs

/-- a nonempty run of digits and the rest -/
def digits? (cs : List Char) : Option (List Char × List Char) :=
  match cs.takeWhile Char.isDigit with
  | [] => none
  | ds => some (ds, cs.dropWhile Char.isDigit)

/-- integer part: a single zero or digits that start with no zero -/
def whole? : List Char → Option (List Char × List Char)
  | '0' :: cs => some (['0'], cs)
  | cs => digits? cs

/-- fraction digits and the rest; none when no digit follows the point -/
def fraction : List Char → List Char × List Char
  | '.' :: cs => (digits? cs).getD ([], '.' :: cs)
  | cs => ([], cs)

/-- exponent and the rest, when a mark and digits are there -/
def exponent? : List Char → Option (Int × List Char)
  | c :: cs =>
    if c = 'e' ∨ c = 'E' then
      let (neg, cs) := Text.signOf cs
      match digits? cs with
      | some (ds, rest) =>
        let n : Int := Text.ofDigits 10 (ds.filterMap Text.asciiDigit?)
        some (if neg then -n else n, rest)
      | none => none
    else none
  | [] => none

def digitsValue (ds : List Char) : Nat := Text.ofDigits 10 (ds.filterMap Text.asciiDigit?)

/-- a number after its sign -/
def number (neg : Bool) (cs : List Char) : Except Fault (Value × List Char) := do
  let (ds, cs) ← step (whole? cs)
  let (fs, cs) := fraction cs
  let exp := exponent? cs
  if fs = [] ∧ exp.isNone then
    if Text.maxDigits < ds.length then .error (.longInteger ds.length)
    else .ok (.int (Text.signed neg (digitsValue ds)), cs)
  else
    let (x, cs) := exp.getD (0, cs)
    .ok (.float (Double.ofDecimal neg (digitsValue (ds ++ fs)) (x - fs.length)), cs)

/-- a name of a constant or a number -/
def atom (cs : List Char) : Except Fault (Value × List Char) :=
  let word (w : String) := Text.dropStart? w.toList cs
  match word "null" with
  | some r => .ok (.null, r)
  | none =>
  match word "true" with
  | some r => .ok (.bool true, r)
  | none =>
  match word "false" with
  | some r => .ok (.bool false, r)
  | none =>
  match word "NaN" with
  | some r => .ok (.float .nan, r)
  | none =>
  match word "Infinity" with
  | some r => .ok (.float (.infinite false), r)
  | none =>
  match word "-Infinity" with
  | some r => .ok (.float (.infinite true), r)
  | none =>
  match cs with
  | '-' :: r => number true r
  | r => number false r

mutual

/-- the value at the head; every nested call has passed a character, which the fuel counts -/
def value : Nat → List Char → Except Fault (Value × List Char)
  | 0, _ => .error .malformed
  | fuel + 1, cs =>
    match cs with
    | '"' :: cs =>
      (step (stringTail (cs.length + 1) [] cs)).map fun r => (.text (String.ofList r.1), r.2)
    | '[' :: cs =>
      match skip cs with
      | ']' :: cs => .ok (.list [], cs)
      | cs => (items fuel cs).map fun r => (.list r.1, r.2)
    | '{' :: cs =>
      match skip cs with
      | '}' :: cs => .ok (.map [], cs)
      | cs => (fields fuel [] cs).map fun r => (.map r.1, r.2)
    | cs => atom cs

/-- one or more items up to the closing bracket -/
def items : Nat → List Char → Except Fault (List Value × List Char)
  | 0, _ => .error .malformed
  | fuel + 1, cs =>
    match value fuel cs with
    | .error f => .error f
    | .ok (v, cs) =>
      match skip cs with
      | ']' :: cs => .ok ([v], cs)
      | ',' :: cs => (items fuel (skip cs)).map fun r => (v :: r.1, r.2)
      | _ => .error .malformed

/-- one or more entries up to the closing brace, added to those read before -/
def fields : Nat → Value.Entries → List Char → Except Fault (Value.Entries × List Char)
  | 0, _, _ => .error .malformed
  | fuel + 1, es, cs =>
    match cs with
    | '"' :: cs =>
      match stringTail (cs.length + 1) [] cs with
      | none => .error .malformed
      | some (k, cs) =>
        match skip cs with
        | ':' :: cs =>
          match value fuel (skip cs) with
          | .error f => .error f
          | .ok (v, cs) =>
            let es := Value.put (.text (String.ofList k)) v es
            match skip cs with
            | '}' :: cs => .ok (es, cs)
            | ',' :: cs => fields fuel es (skip cs)
            | _ => .error .malformed
        | _ => .error .malformed
    | _ => .error .malformed

end

/-- the value of a whole text, white space around it aside -/
def read (s : String) : Except Fault Value :=
  let cs := skip s.toList
  match value (2 * cs.length + 2) cs with
  | .ok (v, rest) => if skip rest = [] then .ok v else .error .malformed
  | .error f => .error f

/-- the value of a whole text, if it has one -/
def read? (s : String) : Option Value := (read s).toOption

end ZodSchema.Json
