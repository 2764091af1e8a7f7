import ZodSchema.Yaml.Fault
import ZodSchema.Value
import ZodSchema.Text.Lower
import ZodSchema.Text.Base64

/-!
# Values of scalars

* `scalarValue`   the value of a scalar of a given kind
-/

namespace ZodSchema.Yaml

/-- the value of a letter or digit -/
def digitValue? (c : Char) : Option Nat :=
  if 'a' ≤ c ∧ c ≤ 'z' then some (c.toNat - 87)
  else if 'A' ≤ c ∧ c ≤ 'Z' then some (c.toNat - 55)
  else Text.decimalValue? c

/-- the letter that marks a base behind a zero -/
def baseMark (base : Nat) (c : Char) : Bool :=
  (base == 2 && (c == 'b' || c == 'B')) || (base == 8 && (c == 'o' || c == 'O')) ||
    (base == 16 && (c == 'x' || c == 'X'))

/-- a number in a base that is a power of two, with blanks around it, a sign and a mark of the base
if written -/
def readBase? (base : Nat) (cs : List Char) : Option Int :=
  let (neg, cs) := Text.signOf (Text.trimBy Text.isMargin cs)
  let cs := match cs with
    | '0' :: m :: rest => if baseMark base m then rest else cs
    | cs => cs
  if cs = [] then none
  else
    match cs.mapM digitValue? with
    | some ds =>
      if ds.all (· < base) then some (Text.signed neg (Text.ofDigits base ds)) else none
    | none => none

def readInteger (base : Nat) (cs : List Char) : Except Fault Int :=
  match readBase? base cs with
  | some i => .ok i
  | none => .error (.badInteger base (String.ofList cs))

def readDecimal (cs : List Char) : Except Fault Int :=
  match Text.readInt cs with
  | .ok i => .ok i
  | .error .malformed => .error (.badInteger 10 (String.ofList cs))
  | .error (.tooLong n) => .error (.longInteger n)

/-- groups to base sixty, the first one most significant -/
def readSixty (groups : List (List Char)) : Except Fault Int :=
  groups.foldl (fun acc g => do
    let n ← acc
    let d ← readDecimal g
    pure (n * 60 + d)) (.ok 0)

/-- an integer: a sign, then a number in the base that its first characters tell -/
def integerOf (text : String) : Except Fault Int :=
  let cs := text.toList.filter (· != '_')
  let neg := cs.head? = some '-'
  let signed (r : Except Fault Int) := r.map fun i => if neg then -i else i
  match unsigned cs with
  | [] => .error (.uncaught .index)
  | ['0'] => .ok 0
  | '0' :: 'b' :: ds => signed (readInteger 2 ds)
  | '0' :: 'x' :: ds => signed (readInteger 16 ds)
  | '0' :: ds => signed (readInteger 8 ('0' :: ds))
  | ds =>
    signed (if ds.contains ':' then readSixty (Text.splitOnChar ':' ds) else readDecimal ds)

def negate : Double → Double
  | .nan => .nan
  | .infinite s => .infinite !s
  | .finite s m e => .finite (!s) m e

/-- a numeral with a point or an exponent -/
def readNumeral? (neg : Bool) (cs : List Char) : Option Double :=
  let isDigit (c : Char) := (Text.decimalValue? c).isSome
  let value (ds : List Char) := Text.ofDigits 10 (ds.filterMap Text.decimalValue?)
  let whole := cs.takeWhile isDigit
  let rest := cs.dropWhile isDigit
  let (fraction, rest) : List Char × List Char :=
    match rest with
    | '.' :: rest => (rest.takeWhile isDigit, rest.dropWhile isDigit)
    | rest => ([], rest)
  let number (exp : Int) :=
    some (Double.ofDecimal neg (value (whole ++ fraction)) (exp - fraction.length))
  if whole ++ fraction = [] then none
  else
    match rest with
    | [] => number 0
    | e :: rest =>
      let (expNeg, ds) := Text.signOf rest
      if (e = 'e' ∨ e = 'E') ∧ ds ≠ [] ∧ ds.all isDigit then
        number (if expNeg then -(value ds : Int) else value ds)
      else none

/-- a number with blanks around it and a sign, or a word for infinity or for no number -/
def readNumber? (cs : List Char) : Option Double :=
  let (neg, cs) := Text.signOf (Text.trimBy Text.isMargin cs)
  let word := String.ofList (Text.lower cs)
  if word = "inf" ∨ word = "infinity" then some (.infinite neg)
  else if word = "nan" then some .nan
  else readNumeral? neg cs

def readNumber (cs : List Char) : Except Fault Double :=
  match readNumber? cs with
  | some d => .ok d
  | none => .error (.badNumber (String.ofList cs))

/-- the sum of the groups, the last one first, each times its power of sixty; power, product and
sum are rounded -/
def sumSixty (ds : List Double) : Double :=
  (ds.reverse.foldl (fun (acc : Double × Nat) d => (acc.1.add (d.scale acc.2), acc.2 * 60))
    (.finite false 0 (-1074), 1)).1

/-- a power of sixty that is too large for a number takes part in the sum of so many groups -/
def isLongSum (groups : Nat) : Bool := decide (Nat.pow 2 1024 ≤ Nat.pow 60 (groups - 1))

def numberOf (text : String) : Except Fault Double :=
  let cs := Text.lower (text.toList.filter (· != '_'))
  let signed (d : Double) := if cs.head? = some '-' then negate d else d
  let ds := unsigned cs
  if cs = [] then .error (.uncaught .index)
  else if ds = ".inf".toList then .ok (signed (.infinite false))
  else if ds = ".nan".toList then .ok .nan
  else if ds.contains ':' then
    match (Text.splitOnChar ':' ds).mapM readNumber with
    | .error f => .error f
    | .ok xs =>
      if isLongSum xs.length then .error (.uncaught .overflow) else .ok (signed (sumSixty xs))
  else (readNumber ds).map signed

def truthOf (text : String) : Except Fault Bool :=
  let t := Text.Str.lower text
  if t = "yes" ∨ t = "true" ∨ t = "on" then .ok true
  else if t = "no" ∨ t = "false" ∨ t = "off" then .ok false
  else .error (.uncaught (.key t))

def dateOf (text : String) : Except Fault Moment :=
  match stamp? (Text.dropFinalNewline text.toList) with
  | none => .error (.uncaught .member)
  | some t => t.moment.mapError .badDate

/-- bytes in the sixty-four letters, and no character outside seven bits -/
def bytesOf (text : String) : Except Fault (List UInt8) :=
  if text.toList.all (·.toNat < 128) then step (Text.Base64.decode? text.toList)
  else .error .malformed

/-- the value of a scalar of a given kind -/
def scalarValue (kind : Kind) (text : String) : Except Fault Value :=
  match kind with
  | .null => .ok .null
  | .bool => (truthOf text).map .bool
  | .int => (integerOf text).map .int
  | .float => (numberOf text).map .float
  | .stamp => (dateOf text).map .date
  | .text => .ok (.text text)
  | .bytes => (bytesOf text).map .bytes
  | _ => .error .malformed

end ZodSchema.Yaml
