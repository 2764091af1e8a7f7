import ZodSchema.Yaml.Cursor
import ZodSchema.Yaml.Fault
import ZodSchema.Json.Reader

/-!
# Quoted scalars

* `quoted`   the text of a scalar in single or double quotes, which may go on over several lines
-/

namespace ZodSchema.Yaml

/-- the character of a one-letter escape -/
def escaped? (c : Char) : Option Char :=
  match c with
  | '0' => some (Char.ofNat 0)
  | 'a' => some '\x07'
  | 'b' => some '\x08'
  | 't' => some '\t'
  | '\t' => some '\t'
  | 'n' => some '\n'
  | 'v' => some '\x0b'
  | 'f' => some '\x0c'
  | 'r' => some '\r'
  | 'e' => some '\x1b'
  | ' ' => some ' '
  | '"' => some '"'
  | '\\' => some '\\'
  | '/' => some '/'
  | 'N' => some '\u0085'
  | '_' => some '\u00a0'
  | 'L' => some '\u2028'
  | 'P' => some '\u2029'
  | _ => none

/-- number of hexadecimal digits of an escape by number -/
def codeLength? (c : Char) : Option Nat :=
  match c with
  | 'x' => some 2
  | 'u' => some 4
  | 'U' => some 8
  | _ => none

/-- a code point by its number, written with `n` hexadecimal digits; two halves of a surrogate
pair are not joined -/
def codePoint (n : Nat) (cs : List Char) : Except Fault Text.CodePoint := do
  let ds ← step ((cs.take n).mapM Json.hexValue?)
  if ds.length ≠ n then .error .malformed
  else if Text.ofDigits 16 ds < 0x110000 then .ok (.ofNat (Text.ofDigits 16 ds))
  else .error .badCode

/-- empty lines inside a quoted scalar; a separator of documents is refused -/
def quotedBreaks? : Nat → Cursor → Option (List Char × Cursor)
  | 0, _ => none
  | fuel + 1, c =>
    if c.atSeparator then none
    else
      let c := c.skipWhile isGap
      match c.lineBreak? with
      | none => some ([], c)
      | some (b, c) => (quotedBreaks? fuel c).map fun r => (b :: r.1, r.2)

/-- a gap inside a quoted scalar: blanks stay, a single line break is a space -/
def quotedGap? (c : Cursor) : Option (List Char × Cursor) :=
  let (blanks, c) := c.span isGap
  match c.peek? with
  | none => none
  | some _ =>
    match c.lineBreak? with
    | none => some (blanks, c)
    | some (b, c) => do
      let (breaks, c) ← quotedBreaks? (c.ahead.length + 1) c
      some ((if b != '\n' then [b] else if breaks = [] then [' '] else []) ++ breaks, c)

/-- the rest of a quoted scalar up to the closing quote -/
def quotedFrom (double : Bool) : Nat → Cursor → Except Fault (List Char × Cursor)
  | 0, _ => .error .malformed
  | fuel + 1, c =>
    let more (front : List Char) (c : Cursor) : Except Fault (List Char × Cursor) :=
      (quotedFrom double fuel c).map fun r => (front ++ r.1, r.2)
    match c.ahead with
    | [] => .error .malformed
    | '\'' :: rest =>
      if double then more ['\''] c.next
      else if rest.head? = some '\'' then more ['\''] (c.skip 2)
      else .ok ([], c.next)
    | '"' :: _ => if double then .ok ([], c.next) else more ['"'] c.next
    | '\\' :: rest =>
      if !double then more ['\\'] c.next
      else
        match rest with
        | [] => .error .malformed
        | e :: digits =>
          match escaped? e, codeLength? e with
          | some ch, _ => more [ch] (c.skip 2)
          | none, some n =>
            match codePoint n digits with
            | .ok p => more p.keep (c.skip (n + 2))
            | .error f => .error f
          | none, none =>
            match c.next.lineBreak? with
            | none => .error .malformed
            | some (_, c) =>
              match quotedBreaks? (c.ahead.length + 1) c with
              | none => .error .malformed
              | some (breaks, c) => more breaks c
    | ch :: _ =>
      if isGap ch || isBreak ch then
        match quotedGap? c with
        | none => .error .malformed
        | some (gap, c) => more gap c
      else more [ch] c.next

/-- a quoted scalar: its text and the place behind -/
def quoted (double : Bool) (c : Cursor) : Except Fault (List Char × Cursor) :=
  quotedFrom double (c.ahead.length + 1) c.next

end ZodSchema.Yaml
