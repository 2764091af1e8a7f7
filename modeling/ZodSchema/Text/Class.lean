import ZodSchema.Text.Alnum
import ZodSchema.Text.Unprintable

/-!
# Character classes

* `isWord`        letters, numbers and the underscore
* `isBlank`       white space, the four separators below the space included
* `isLineBreak`   characters that end a line
* `decimalValue?` the value of a decimal digit of any script
* `isPrintable`   characters that a quoted display shows as they are
-/

namespace ZodSchema.Text

/-- letters and numbers of any script, and the underscore -/
def isWord (c : Char) : Bool :=
  if c.toNat < 128 then c.isAlphanum || c == '_' else inRanges alnumRanges c.toNat

def blankRanges : Ranges :=
  [(0x9, 0xD), (0x1C, 0x20), (0x85, 0x85), (0xA0, 0xA0), (0x1680, 0x1680), (0x2000, 0x200A),
   (0x2028, 0x2029), (0x202F, 0x202F), (0x205F, 0x205F), (0x3000, 0x3000)]

def isBlank (c : Char) : Bool := inRanges blankRanges c.toNat

/-- characters that end a line; a carriage return and a line feed together end one line -/
def isLineBreak (c : Char) : Bool :=
  inRanges [(0xA, 0xD), (0x1C, 0x1E), (0x85, 0x85), (0x2028, 0x2029)] c.toNat

/-- the value of a decimal digit of any script -/
def decimalValue? (c : Char) : Option Nat :=
  (digitZeros.find? fun z => decide (z ≤ c.toNat) && decide (c.toNat < z + 10)).map (c.toNat - ·)

/-- the digits `0` to `9` alone -/
def asciiDigit? (c : Char) : Option Nat :=
  if c.isDigit then some (c.toNat - 48) else none

/-- shown as it is in a quoted display -/
def isPrintable (c : Char) : Bool := !inRanges unprintableRanges c.toNat

/-- `A` to `Z`, `a` to `z`, the underscore and the dollar sign -/
def isIdentStart (c : Char) : Bool := c.isAlpha || c == '_' || c == '$'

/-- what may follow the first character of an identifier -/
def isIdentRest (c : Char) : Bool := c.isAlphanum || c == '_' || c == '$'

end ZodSchema.Text
