import ZodSchema.Value
import ZodSchema.Text.CodePoint

/-!
# Values in messages

How messages and reports show a value.

* `quoted`   a text in single quotes, unless it holds one and no double quote
* `show`     a value, texts quoted
* `plain`    a value, a text on its own as it is
-/

namespace ZodSchema.Display

/-- the last `n` hexadecimal digits of a number -/
def hexDigits (n value : Nat) : List Char :=
  (List.range n).map fun i => Text.hexDigit (value / Nat.pow 16 (n - 1 - i) % 16)

/-- a character between marks `q` -/
def showChar (q c : Char) : List Char :=
  if c = q ∨ c = '\\' then ['\\', c]
  else if c = '\n' then ['\\', 'n']
  else if c = '\r' then ['\\', 'r']
  else if c = '\t' then ['\\', 't']
  else if Text.isPrintable c then [c]
  else if c.toNat < 0x100 then ['\\', 'x'] ++ hexDigits 2 c.toNat
  else if c.toNat < 0x10000 then ['\\', 'u'] ++ hexDigits 4 c.toNat
  else ['\\', 'U'] ++ hexDigits 8 c.toNat

/-- a code point between marks `q` -/
def showPoint (q : Char) : Text.CodePoint → List Char
  | .char c => showChar q c
  | .surrogate n => Text.hexEscape (Text.CodePoint.surrogate n).toNat

def quoted (s : String) : String :=
  let cs := s.toList
  let q := if cs.contains '\'' && !cs.contains '"' then '"' else '\''
  String.ofList (q :: (Text.Str.codePoints s).flatMap (showPoint q) ++ [q])

/-- bytes as text: those above seven bits by their number -/
def showBytes (bs : List UInt8) : String :=
  let cs := bs.map fun b => Char.ofNat b.toNat
  let q := if cs.contains '\'' && !cs.contains '"' then '"' else '\''
  let show_ (c : Char) := if c.toNat < 128 then showChar q c else ['\\', 'x'] ++ hexDigits 2 c.toNat
  String.ofList ('b' :: q :: cs.flatMap show_ ++ [q])

mutual

/-- a value inside a list or a mapping -/
def showValue : Value → String
  | .null => "None"
  | .bool b => if b then "True" else "False"
  | .int i => Text.intText i
  | .float d => d.text
  | .text s => quoted s
  | .date m => m.iso
  | .bytes bs => showBytes bs
  | .list vs => "[" ++ Text.Str.join ", " (showItems vs) ++ "]"
  | .set [] => "set()"
  | .set (v :: vs) => "\x7b" ++ Text.Str.join ", " (showItems (v :: vs)) ++ "\x7d"
  | .map es => "\x7b" ++ Text.Str.join ", " (showEntries es) ++ "\x7d"

def showItems : List Value → List String
  | [] => []
  | v :: vs => showValue v :: showItems vs

def showEntries : List (Value × Value) → List String
  | [] => []
  | (k, v) :: es => (showValue k ++ ": " ++ showValue v) :: showEntries es

end

/-- a value on its own -/
def plain : Value → String
  | .text s => s
  | v => showValue v

def quotedList (xs : List String) : String :=
  "[" ++ Text.Str.join ", " (xs.map quoted) ++ "]"

end ZodSchema.Display
