import ZodSchema.Yaml.Cursor

/-!
# Block scalars

Indented lines after `|` or `>`.

* `Header`   how the end is kept and where the lines begin
* `block?`   the text of a block scalar
-/

namespace ZodSchema.Yaml

/-- what becomes of the line breaks at the end -/
inductive Chomp where
  | strip | clip | keep
  deriving DecidableEq, Repr

/-- how the end is kept, and an indentation that is given -/
structure Header where
  chomp : Chomp := .clip
  indent : Option Nat := none

def chompOf? : Option Char → Option Chomp
  | some '+' => some .keep
  | some '-' => some .strip
  | _ => none

/-- a digit from 1 to 9 -/
def indentOf? : Option Char → Option Nat
  | some c => if '1' ≤ c ∧ c ≤ '9' then some (c.toNat - 48) else none
  | none => none

/-- the marks behind `|` or `>`, in either order, and the rest of their line -/
def header? (c : Cursor) : Option (Header × Cursor) :=
  let (h, c) : Header × Cursor :=
    match chompOf? c.peek? with
    | some k =>
      let c := c.next
      match indentOf? c.peek? with
      | some n => (⟨k, some n⟩, c.next)
      | none => (⟨k, none⟩, c)
    | none =>
      match indentOf? c.peek? with
      | some n =>
        let c := c.next
        match chompOf? c.peek? with
        | some k => (⟨k, some n⟩, c.next)
        | none => (⟨.clip, some n⟩, c)
      | none => ({}, c)
  if isSpaceOrEnd c.peek? then (c.restOfLine?).map fun c => (h, c) else none

/-- empty lines before the first line of text, with the widest indentation among them -/
def leading : Nat → Nat → Cursor → List Char × Nat × Cursor
  | 0, width, c => ([], width, c)
  | fuel + 1, width, c =>
    if c.peek? = some ' ' then leading fuel (max width c.next.column) c.next
    else
      match c.lineBreak? with
      | none => ([], width, c)
      | some (b, c) =>
        let r := leading fuel width c
        (b :: r.1, r.2)

/-- past spaces up to a column -/
def skipIndent (indent : Nat) (c : Cursor) : Cursor :=
  c.skip ((c.ahead.take (indent - c.column)).takeWhile (· == ' ')).length

/-- empty lines between lines of text, and the beginning of the next line -/
def emptyLines (indent : Nat) : Nat → Cursor → List Char × Cursor
  | 0, c => ([], c)
  | fuel + 1, c =>
    let c := skipIndent indent c
    match c.lineBreak? with
    | none => ([], c)
    | some (b, c) =>
      let r := emptyLines indent fuel c
      (b :: r.1, r.2)

/-- lines of text behind empty lines `breaks`: the text, the break behind it if there was a line,
and the empty lines at the end -/
def blockLines (folded : Bool) (indent : Nat) :
    Nat → List Char → Cursor → List Char × List Char × List Char × Cursor
  | 0, breaks, c => ([], [], breaks, c)
  | fuel + 1, breaks, c =>
    if c.column ≠ indent ∨ c.ahead = [] then ([], [], breaks, c)
    else
      let starts := !(c.peek?.map isGap).getD false
      let (line, c) := c.span (!isBreak ·)
      let brk := (c.lineBreak?.map fun b => [b.1]).getD []
      let (empty, c) := emptyLines indent (c.ahead.length + 1) c.skipBreak
      if c.column = indent ∧ c.ahead ≠ [] then
        let fold := folded && brk == ['\n'] && starts && !(c.peek?.map isGap).getD false
        let joint := if fold then (if empty = [] then [' '] else []) else brk
        let r := blockLines folded indent fuel empty c
        (breaks ++ line ++ joint ++ r.1, r.2)
      else (breaks ++ line, brk, empty, c)

/-- a block scalar: its text and the place behind; `parent` is the column of what it belongs to -/
def block? (folded : Bool) (parent : Int) (c : Cursor) : Option (List Char × Cursor) := do
  let (h, c) ← header? c.next
  let least := max 1 (parent + 1).toNat
  let fuel := c.ahead.length + 1
  let (breaks, indent, c) : List Char × Nat × Cursor :=
    match h.indent with
    | none =>
      let r := leading fuel 0 c
      (r.1, max least r.2.1, r.2.2)
    | some n =>
      let r := emptyLines (least + n - 1) fuel c
      (r.1, least + n - 1, r.2)
  let (text, last, empty, c) := blockLines folded indent fuel breaks c
  some (text ++ (if h.chomp = .strip then [] else last) ++ (if h.chomp = .keep then empty else []),
    c)

end ZodSchema.Yaml
