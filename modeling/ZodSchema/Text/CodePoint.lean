import ZodSchema.Text.Numeral
import ZodSchema.Text.Literal

/-!
# Code points

A text consists of code points.  An escape can put half of a surrogate pair into it, which is no
character and has no encoding.  Such a lone surrogate is kept as two characters: `mark`, and one
that tells which surrogate it is.  The character `mark` itself is kept twice.  In this way texts
compare in the order of their code points, and nothing that looks at characters takes a surrogate
for a letter, a blank or a sign.

* `CodePoint`    a character or a surrogate, and how it is kept
* `codePoints`   what a text consists of
* `keep`         genuine characters as a text
* `bytes`        the encoding of a text
* `lone?`        the first surrogates of a text, for which it has none
* `unnamed?`     the first surrogates for which it is no name of a file
-/

namespace ZodSchema.Text

/-- announces a surrogate -/
def mark : Char := '\uD7FF'

inductive CodePoint where
  | char (c : Char)
  /-- the surrogate `0xD800 + n` -/
  | surrogate (n : Fin 2048)
  deriving DecidableEq, Repr

namespace CodePoint

def toNat : CodePoint → Nat
  | char c => c.toNat
  | surrogate n => 0xD800 + n

def ofNat (n : Nat) : CodePoint :=
  if 0xD800 ≤ n ∧ n < 0xE000 then surrogate (Fin.ofNat 2048 (n - 0xD800)) else char (Char.ofNat n)

/-- a code point as it is kept -/
def keep : CodePoint → List Char
  | char c => if c = mark then [mark, mark] else [c]
  | surrogate n => [mark, Char.ofNat (0xE000 + n)]

/-- what `mark` announces with the character behind it -/
def behindMark (c : Char) : CodePoint :=
  if c = mark then char mark else surrogate (Fin.ofNat 2048 (c.toNat - 0xE000))

def char? : CodePoint → Option Char
  | char c => some c
  | surrogate _ => none

end CodePoint

/-- what a text consists of; behind its last character there is nothing to be announced -/
def codePoints : List Char → List CodePoint
  | [] => []
  | [c] => if c = mark then [.surrogate 0] else [.char c]
  | c :: d :: cs =>
    if c = mark then CodePoint.behindMark d :: codePoints cs else .char c :: codePoints (d :: cs)

/-- genuine characters as a text -/
def keep (cs : List Char) : List Char := cs.flatMap fun c => (CodePoint.char c).keep

/-- surrogates that stand in a row: the position and the number of the first one, and how many
there are -/
structure Lone where
  position : Nat
  first : Nat
  count : Nat
  deriving DecidableEq, Repr

def Lone.message (l : Lone) : String :=
  "'utf-8' codec can't encode " ++
    (if l.count = 1 then
      "character '" ++ String.ofList (hexEscape l.first) ++ "' in position " ++ natText l.position
    else
      "characters in position " ++ natText l.position ++ "-" ++
        natText (l.position + l.count - 1)) ++
    ": surrogates not allowed"

/-- the first surrogates from position `i` on, apart from those that `stands` lets pass -/
def loneFrom? (stands : Fin 2048 → Bool) (i : Nat) : List CodePoint → Option Lone
  | [] => none
  | .char _ :: ps => loneFrom? stands (i + 1) ps
  | .surrogate n :: ps =>
    if stands n then loneFrom? stands (i + 1) ps
    else some ⟨i, (CodePoint.surrogate n).toNat, 1 + (ps.takeWhile (·.char?.isNone)).length⟩

/-- in the name of a file, a surrogate that stands for a byte from 128 on -/
def isNameByte (n : Fin 2048) : Bool := decide (0xDC80 ≤ 0xD800 + n.val ∧ 0xD800 + n.val < 0xDD00)

namespace Str

def codePoints (s : String) : List CodePoint := Text.codePoints s.toList

def keep (s : String) : String := String.ofList (Text.keep s.toList)

/-- the first surrogates of a text -/
def lone? (s : String) : Option Lone := loneFrom? (fun _ => false) 0 (codePoints s)

/-- the first surrogates of a text that no name of a file can hold -/
def unnamed? (s : String) : Option Lone := loneFrom? isNameByte 0 (codePoints s)

/-- a file can have this name -/
def canName (s : String) : Bool := (unnamed? s).isNone && !s.toList.contains (Char.ofNat 0)

/-- the genuine characters of a text, the other way of `keep` -/
def genuine (s : String) : String := String.ofList ((codePoints s).filterMap CodePoint.char?)

/-- the encoding of a text; a surrogate has none -/
def bytes (s : String) : ByteArray := (genuine s).toUTF8

/-- the length of a name in bytes -/
def nameSize (s : String) : Nat :=
  (bytes s).size + (codePoints s).countP (·.char?.isNone)

end Str

end ZodSchema.Text
