import ZodSchema.Text.Chars

/-!
# A place in a text

* `Cursor`          the text ahead, with line, column and number of characters passed
* `Cursor.span`     the longest run of a character class, and the place behind it
* `Cursor.lineBreak?`  a line break, as it is kept in a folded text
-/

namespace ZodSchema.Yaml

/-- ends a line -/
def isBreak (c : Char) : Bool :=
  c == '\n' || c == '\r' || c == '\u0085' || c == '\u2028' || c == '\u2029'

def isGap (c : Char) : Bool := c == ' ' || c == '\t'

/-- a blank, a line break or the end of the text -/
def isGapOrEnd : Option Char → Bool
  | none => true
  | some c => isGap c || isBreak c

/-- a line break or the end of the text -/
def isBreakOrEnd : Option Char → Bool
  | none => true
  | some c => isBreak c

/-- a space, a line break or the end of the text -/
def isSpaceOrEnd : Option Char → Bool
  | none => true
  | some c => c == ' ' || isBreak c

/-- a place in a text: what lies ahead and how far it is from the beginning -/
structure Cursor where
  ahead : List Char
  index : Nat := 0
  line : Nat := 0
  column : Nat := 0

namespace Cursor

def peek? (c : Cursor) : Option Char := c.ahead.head?

/-- the character `n` places ahead -/
def peekAt? (n : Nat) (c : Cursor) : Option Char := c.ahead[n]?

/-- past one character; a byte order mark takes no column, and a carriage return ends a line
unless a line feed follows -/
def next (c : Cursor) : Cursor :=
  match c.ahead with
  | [] => c
  | ch :: rest =>
    if ch == '\n' || ch == '\u0085' || ch == '\u2028' || ch == '\u2029' ||
        (ch == '\r' && rest.head? != some '\n') then
      ⟨rest, c.index + 1, c.line + 1, 0⟩
    else ⟨rest, c.index + 1, c.line, if ch == '\uFEFF' then c.column else c.column + 1⟩

/-- past `n` characters -/
def skip : Nat → Cursor → Cursor
  | 0, c => c
  | n + 1, c => skip n c.next

/-- the longest run of characters in `p`, and the place behind it -/
def span (p : Char → Bool) (c : Cursor) : List Char × Cursor :=
  let cs := c.ahead.takeWhile p
  (cs, c.skip cs.length)

def skipWhile (p : Char → Bool) (c : Cursor) : Cursor := (c.span p).2

def skipSpaces (c : Cursor) : Cursor := c.skipWhile (· == ' ')

/-- past the rest of the line, its end not included -/
def skipLine (c : Cursor) : Cursor := c.skipWhile (!isBreak ·)

def skipComment (c : Cursor) : Cursor := if c.peek? = some '#' then c.skipLine else c

/-- a line break and the place behind it: separators of lines and paragraphs stay, any other
break is a line feed -/
def lineBreak? (c : Cursor) : Option (Char × Cursor) :=
  match c.ahead with
  | '\r' :: '\n' :: _ => some ('\n', c.skip 2)
  | ch :: _ =>
    if ch == '\u2028' || ch == '\u2029' then some (ch, c.next)
    else if isBreak ch then some ('\n', c.next) else none
  | [] => none

/-- past a line break, if one is here -/
def skipBreak (c : Cursor) : Cursor := (c.lineBreak?.map (·.2)).getD c

/-- the next three characters are `mark` and a blank or an end follows -/
def atMark (mark : String) (c : Cursor) : Bool :=
  c.ahead.take 3 == mark.toList && isGapOrEnd (c.peekAt? 3)

/-- at a line that begins or ends a document -/
def atSeparator (c : Cursor) : Bool := c.atMark "---" || c.atMark "..."

/-- past spaces and a comment up to the end of the line, which must be here -/
def restOfLine? (c : Cursor) : Option Cursor :=
  let c := c.skipSpaces.skipComment
  if isBreakOrEnd c.peek? then some c.skipBreak else none

end Cursor

end ZodSchema.Yaml
