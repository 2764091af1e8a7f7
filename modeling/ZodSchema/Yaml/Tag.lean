import ZodSchema.Yaml.Cursor
import ZodSchema.Yaml.Fault
import ZodSchema.Json.Reader
import ZodSchema.Text.Utf8

/-!
# Tags, anchors and directives

* `anchor?`      the name of an anchor or an alias
* `tag?`         a tag: its handle, if any, and the rest
* `Directive`, `directive`   a line that starts with a percent sign
-/

namespace ZodSchema.Yaml

open Text

/-- letters, digits, hyphen and underscore -/
def isNameChar (c : Char) : Bool := c.isAlphanum || c == '-' || c == '_'

/-- the name behind `*` or `&`, and the place behind it -/
def anchor? (c : Cursor) : Option (String × Cursor) :=
  let (name, c) := c.next.span isNameChar
  let ends : Bool := match c.peek? with
    | none => true
    | some ch => isGap ch || isBreak ch || "?:,]\x7d%@\x60".toList.contains ch
  if name ≠ [] ∧ ends then some (String.ofList name, c) else none

/-- what a tag may hold -/
def isUriChar (c : Char) : Bool := c.isAlphanum || "-;/?:@&=+$,_.!~*'()[]%".toList.contains c

/-- bytes written as a percent sign and two digits each -/
def escapedBytes : List Char → Option (List UInt8 × List Char)
  | '%' :: a :: b :: cs => do
    let hi ← Json.hexValue? a
    let lo ← Json.hexValue? b
    let (bytes, rest) ← escapedBytes cs
    some ((hi * 16 + lo).toUInt8 :: bytes, rest)
  | '%' :: _ => none
  | cs => some ([], cs)

/-- the characters of a tag with its escapes read -/
def unescapeUri : Nat → List Char → Option (List Char)
  | 0, _ => none
  | _ + 1, [] => some []
  | fuel + 1, c :: cs =>
    if c = '%' then do
      let (bytes, rest) ← escapedBytes (c :: cs)
      let text ← (Utf8.decodeFrom 0 bytes).toOption
      (unescapeUri fuel rest).map (text ++ ·)
    else (unescapeUri fuel cs).map (c :: ·)

/-- a nonempty run of tag characters -/
def uri? (c : Cursor) : Option (String × Cursor) :=
  let (cs, c) := c.span isUriChar
  if cs = [] then none
  else (unescapeUri (cs.length + 1) cs).map fun u => (String.ofList u, c)

/-- a handle: one exclamation mark, or two around a name -/
def handle? (c : Cursor) : Option (String × Cursor) :=
  match c.ahead with
  | '!' :: rest =>
    if rest.head? = some ' ' then some ("!", c.next)
    else
      let name := rest.takeWhile isNameChar
      if (rest.drop name.length).head? = some '!' then
        some (String.ofList ('!' :: name ++ ['!']), c.skip (name.length + 2))
      else none
  | _ => none

/-- a tag: the handle, none for a tag in full, and what follows it -/
def tag? (c : Cursor) : Option ((Option String × String) × Cursor) := do
  let (tag, c) ←
    if c.peekAt? 1 = some '<' then do
      let (u, c) ← uri? (c.skip 2)
      if c.peek? = some '>' then some ((none, u), c.next) else none
    else if isGapOrEnd (c.peekAt? 1) then some ((none, "!"), c.next)
    else if (c.next.ahead.takeWhile fun ch => ch != ' ' && !isBreak ch).contains '!' then do
      let (h, c) ← handle? c
      let (u, c) ← uri? c
      some ((some h, u), c)
    else do
      let (u, c) ← uri? c.next
      some ((some "!", u), c)
  if isSpaceOrEnd c.peek? then some (tag, c) else none

/-- a line that starts with a percent sign -/
inductive Directive where
  | version (major : Nat)
  | handle (handle pre : String)
  | reserved
  deriving DecidableEq, Repr

/-- a part of a version number -/
def versionPart (c : Cursor) : Except Fault (Nat × Cursor) := do
  let (ds, c) := c.span Char.isDigit
  let n ← step (readNat? ds)
  if maxDigits < ds.length then .error (.longInteger ds.length) else .ok (n, c)

/-- the first part of a version number of two parts -/
def version (c : Cursor) : Except Fault (Nat × Cursor) := do
  let (major, c) ← versionPart c.skipSpaces
  if c.peek? = some '.' then
    let (_, c) ← versionPart c.next
    if isSpaceOrEnd c.peek? then .ok (major, c) else .error .malformed
  else .error .malformed

/-- a handle and what it stands for -/
def handleDirective? (c : Cursor) : Option (Directive × Cursor) := do
  let (h, c) ← handle? c.skipSpaces
  if c.peek? ≠ some ' ' then none
  else
    let (u, c) ← uri? c.skipSpaces
    if isSpaceOrEnd c.peek? then some (.handle h u, c) else none

/-- a directive and the place behind its line -/
def directive (c : Cursor) : Except Fault (Directive × Cursor) := do
  let (name, c) := c.next.span isNameChar
  if name = [] ∨ !isSpaceOrEnd c.peek? then .error .malformed
  else
    let (d, c) ←
      if name = "YAML".toList then (version c).map fun r => (Directive.version r.1, r.2)
      else if name = "TAG".toList then step (handleDirective? c)
      else .ok (Directive.reserved, c.skipLine)
    (step c.restOfLine?).map fun c => (d, c)

end ZodSchema.Yaml
