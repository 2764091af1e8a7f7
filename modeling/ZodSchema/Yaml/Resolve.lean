import ZodSchema.Text.Numeral
import ZodSchema.Text.Chars

/-!
# Kinds of scalars

What a scalar without a tag stands for is told by its form.

* `Kind`      what a tag can say
* `kindOf`    the kind of a plain scalar
* `isInt`, `isFloat`, `isStamp`   the forms of numbers and points in time
-/

namespace ZodSchema.Yaml

/-- what a tag can say; `merge` and `standIn` are the keys `<<` and `=`, and `pairs` is a list of
mappings of one entry each -/
inductive Kind where
  | null | bool | int | float | stamp | text | bytes | list | map | set | pairs | merge | standIn
  | unknown
  deriving DecidableEq, Repr, Inhabited

def nullWords : List String := ["", "~", "null", "Null", "NULL"]

def trueWords : List String := ["yes", "Yes", "YES", "true", "True", "TRUE", "on", "On", "ON"]

def falseWords : List String := ["no", "No", "NO", "false", "False", "FALSE", "off", "Off", "OFF"]

/-- without a sign -/
def unsigned : List Char → List Char
  | '-' :: cs => cs
  | '+' :: cs => cs
  | cs => cs

/-- a nonempty run of characters in `p` and underscores -/
def isRun (p : Char → Bool) (cs : List Char) : Bool :=
  !cs.isEmpty && cs.all fun c => p c || c == '_'

/-- a digit, then digits and underscores -/
def isCount : List Char → Bool
  | [] => false
  | c :: cs => c.isDigit && cs.all fun d => d.isDigit || d == '_'

/-- one digit, or two of which the first is below six -/
def isSixty : List Char → Bool
  | [a] => a.isDigit
  | [a, b] => '0' ≤ a && a ≤ '5' && b.isDigit
  | _ => false

/-- an integer: binary, octal, decimal, hexadecimal or in groups to base sixty -/
def isInt (cs : List Char) : Bool :=
  match unsigned cs with
  | '0' :: 'b' :: ds => isRun (fun c => c == '0' || c == '1') ds
  | '0' :: 'x' :: ds =>
    isRun (fun c => c.isDigit || ('a' ≤ c && c ≤ 'f') || ('A' ≤ c && c ≤ 'F')) ds
  | ['0'] => true
  | '0' :: ds => isRun (fun c => '0' ≤ c && c ≤ '7') ds
  | ds =>
    match Text.splitOnChar ':' ds with
    | [] => false
    | head :: groups => isCount head && groups.all isSixty

/-- nothing, or an exponent with a sign -/
def isExponent : List Char → Bool
  | [] => true
  | e :: s :: ds =>
    (e == 'e' || e == 'E') && (s == '+' || s == '-') && !ds.isEmpty && ds.all Char.isDigit
  | _ => false

/-- a count, a point, digits and an exponent; or groups to base sixty with a point behind -/
def isPointed (cs : List Char) : Bool :=
  match Text.breakOn? ['.'] cs with
  | none => false
  | some (whole, rest) =>
    let fraction := rest.takeWhile fun c => c.isDigit || c == '_'
    let tail := rest.drop fraction.length
    match Text.splitOnChar ':' whole with
    | [] => false
    | [w] => isCount w && isExponent tail
    | head :: groups => isCount head && groups.all isSixty && tail.isEmpty

def infinityWords : List String := [".inf", ".Inf", ".INF"]

def nanWords : List String := [".nan", ".NaN", ".NAN"]

/-- a number with a point -/
def isFloat (cs : List Char) : Bool :=
  nanWords.contains (String.ofList cs) ||
  infinityWords.contains (String.ofList (unsigned cs)) ||
  (match cs with
    | '.' :: rest =>
      let ds := rest.takeWhile fun c => c.isDigit || c == '_'
      isCount ds && isExponent (rest.drop ds.length)
    | _ => isPointed (unsigned cs))

/-! ## points in time -/

/-- the parts of a point in time, as they are written -/
structure Stamp where
  year : Nat
  month : Nat
  day : Nat
  /-- hour, minute and second -/
  time : Option (Nat × Nat × Nat) := none
  fraction : List Char := []
  /-- sign, hours and minutes of the distance from universal time -/
  zone : Option (Bool × Nat × Nat) := none
  deriving DecidableEq, Repr

/-- at least `least` and at most `most` digits at the head, as many as there are -/
def digitsUpTo? (least most : Nat) (cs : List Char) : Option (Nat × List Char) :=
  let ds := (cs.take most).takeWhile Char.isDigit
  if ds.length < least then none
  else (Text.readNat? ds).map fun n => (n, cs.drop ds.length)

/-- past the character `c` -/
def past? (c : Char) : List Char → Option (List Char)
  | [] => none
  | d :: cs => if c = d then some cs else none

/-- the distance from universal time: a `Z`, or a sign, hours and maybe minutes -/
def zone? : List Char → Option (Option (Bool × Nat × Nat))
  | [] => some none
  | ['Z'] => some (some (false, 0, 0))
  | s :: cs =>
    if s = '+' ∨ s = '-' then do
      let (h, cs) ← digitsUpTo? 1 2 cs
      match cs with
      | [] => some (some (s == '-', h, 0))
      | ':' :: cs =>
        match digitsUpTo? 2 2 cs with
        | some (m, []) => some (some (s == '-', h, m))
        | _ => none
      | _ => none
    else none

/-- time of day, fraction of a second and distance from universal time -/
def clock? (d : Stamp) (cs : List Char) : Option Stamp := do
  let (h, cs) ← digitsUpTo? 1 2 cs
  let (m, cs) ← digitsUpTo? 2 2 (← past? ':' cs)
  let (s, cs) ← digitsUpTo? 2 2 (← past? ':' cs)
  let (fraction, cs) : List Char × List Char :=
    match cs with
    | '.' :: cs => (cs.takeWhile Char.isDigit, cs.dropWhile Char.isDigit)
    | cs => ([], cs)
  let gap := fun c : Char => c == ' ' || c == '\t'
  let rest := cs.dropWhile gap
  if rest = [] ∧ cs ≠ [] then none
  else
    let zone ← zone? rest
    some { d with time := some (h, m, s), fraction, zone }

/-- a date, or a date and a time of day -/
def stamp? (cs : List Char) : Option Stamp := do
  let (y, cs) ← digitsUpTo? 4 4 cs
  let (m, md) ← digitsUpTo? 1 2 (← past? '-' cs)
  let (d, rest) ← digitsUpTo? 1 2 (← past? '-' md)
  let day : Stamp := { year := y, month := m, day := d }
  match rest with
  | [] => some day
  | t :: cs =>
    if t = 'T' ∨ t = 't' then clock? day cs
    else if t = ' ' ∨ t = '\t' then clock? day (cs.dropWhile fun c => c == ' ' || c == '\t')
    else none

/-- a point in time; a date alone has two digits for month and day -/
def isStamp (cs : List Char) : Bool :=
  match stamp? cs with
  | none => false
  | some t => t.time.isSome || cs.length == 10

/-- the kind of a plain scalar; a line feed at the end of other text does not count -/
def kindOf (text : String) : Kind :=
  let cs := if text = "\n" then text.toList else Text.dropFinalNewline text.toList
  let s := String.ofList cs
  if nullWords.contains s then .null
  else if trueWords.contains s ∨ falseWords.contains s then .bool
  else if isFloat cs then .float
  else if isInt cs then .int
  else if isStamp cs then .stamp
  else if s = "<<" then .merge
  else if s = "=" then .standIn
  else .text

end ZodSchema.Yaml
