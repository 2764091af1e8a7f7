import ZodSchema.Yaml.Tag
import ZodSchema.Yaml.Plain
import ZodSchema.Yaml.Quoted
import ZodSchema.Yaml.Block

/-!
# Tokens

A text as marks, names and scalars.  Indentation becomes the tokens that open and close block
collections, and a key that is only known by the colon behind it gets its token put in front.

* `Token`     the tokens
* `Lexer`     the tokens so far, the place, the open indentations and the keys that may come
* `Lexer.advance`   one token more
* `Lexer.settled`   the tokens that cannot change any more
* `tokens`   the tokens of a text, up to the place where it cannot be read on
-/

namespace ZodSchema.Yaml

inductive Token where
  | directive (d : Directive)
  | documentStart
  | documentEnd
  | blockSequence
  | blockMapping
  | blockEnd
  | flowSequence
  | flowMapping
  | flowSequenceEnd
  | flowMappingEnd
  | entry
  | comma
  | key
  | value
  | reference (name : String)
  | anchor (name : String)
  | tag (handle : Option String) (suffix : String)
  | scalar (text : String) (isPlain : Bool)
  /-- the text cannot be read on -/
  | fault (f : Fault)
  deriving DecidableEq, Repr

/-- a token that turns out a key if a colon follows on its line -/
structure Candidate where
  /-- number of the token -/
  token : Nat
  /-- only a key can stand here -/
  required : Bool
  index : Nat
  line : Nat
  column : Nat

/-- longest key without a mark of its own -/
def longestKey : Nat := 1024

structure Lexer where
  place : Cursor
  tokens : Array Token := #[]
  /-- number of open flow collections -/
  depth : Nat := 0
  /-- column of the innermost block collection, or -1 -/
  indent : Int := -1
  outer : List Int := []
  /-- a key may start here -/
  keyAllowed : Bool := true
  /-- possible keys by flow depth -/
  candidates : List (Nat × Candidate) := []

namespace Lexer

def inFlow (s : Lexer) : Bool := s.depth != 0

def push (t : Token) (s : Lexer) : Lexer := { s with tokens := s.tokens.push t }

def moveTo (c : Cursor) (s : Lexer) : Lexer := { s with place := c }

def allowKey (b : Bool) (s : Lexer) : Lexer := { s with keyAllowed := b }

/-- past blanks and comments; outside flow collections a key may start on a new line -/
def skipBlank : Nat → Lexer → Lexer
  | 0, s => s
  | fuel + 1, s =>
    let c := s.place.skipSpaces.skipComment
    match c.lineBreak? with
    | none => s.moveTo c
    | some (_, c) => skipBlank fuel ((s.moveTo c).allowKey (s.keyAllowed || !s.inFlow))

/-- closes the block collections that start right of a column -/
def closeBlocks (column : Int) (s : Lexer) : Lexer :=
  let rec go (indent : Int) (tokens : Array Token) : List Int → Int × Array Token × List Int
    | [] => (indent, tokens, [])
    | o :: outer =>
      if column < indent then go o (tokens.push .blockEnd) outer else (indent, tokens, o :: outer)
  if s.inFlow then s
  else
    let r := go s.indent s.tokens s.outer
    { s with indent := r.1, tokens := r.2.1, outer := r.2.2 }

/-- opens a block collection at a column right of the innermost one, in front of token `before` -/
def openBlock (t : Token) (column : Int) (before : Nat) (s : Lexer) : Lexer :=
  if s.inFlow ∨ column ≤ s.indent then s
  else
    { s with
      indent := column
      outer := s.indent :: s.outer
      tokens := s.tokens.insertIdxIfInBounds before t }

def candidate? (s : Lexer) : Option Candidate :=
  (s.candidates.find? fun e => e.1 == s.depth).map (·.2)

/-- gives up the possible key of this depth; a required one must not be given up -/
def dropCandidate? (s : Lexer) : Option Lexer :=
  if (s.candidate?.map (·.required)).getD false then none
  else some { s with candidates := s.candidates.filter fun e => e.1 != s.depth }

/-- a possible key of an earlier line, or one that is too long -/
def isStale (s : Lexer) (k : Candidate) : Bool :=
  k.line != s.place.line || s.place.index > k.index + longestKey

/-- gives up the possible keys that are stale -/
def dropStale? (s : Lexer) : Option Lexer :=
  if s.candidates.any fun e => s.isStale e.2 && e.2.required then none
  else some { s with candidates := s.candidates.filter fun e => !s.isStale e.2 }

/-- the tokens that cannot change any more: those before the first one that may turn out a key -/
def settled (s : Lexer) : List Token :=
  let waiting := (s.candidates.filter fun e => !s.isStale e.2).map fun e => e.2.token
  s.tokens.toList.take (waiting.foldl min s.tokens.size)

/-- notes that the next token may be a key -/
def mark? (s : Lexer) : Option Lexer :=
  if s.keyAllowed then do
    let required := !s.inFlow && s.indent == (s.place.column : Int)
    let k : Candidate :=
      ⟨s.tokens.size, required, s.place.index, s.place.line, s.place.column⟩
    let s ← s.dropCandidate?
    some { s with candidates := (s.depth, k) :: s.candidates }
  else some s

/-- ends all blocks before a line that belongs to no document -/
def endBlocks? (s : Lexer) : Option Lexer :=
  ((s.closeBlocks (-1)).dropCandidate?).map (·.allowKey false)

def openFlow? (t : Token) (s : Lexer) : Option Lexer := do
  let s ← s.mark?
  some (({ s with depth := s.depth + 1, keyAllowed := true }.moveTo s.place.next).push t)

def closeFlow? (t : Token) (s : Lexer) : Option Lexer := do
  let s ← s.dropCandidate?
  if s.depth = 0 then none
  else some (({ s with depth := s.depth - 1, keyAllowed := false }.moveTo s.place.next).push t)

/-- a mark that opens a block collection of its own, or goes on with one -/
def blockMark? (opens mark : Token) (keyAfter : Bool) (s : Lexer) : Option Lexer := do
  if !s.inFlow && !s.keyAllowed then none
  else
    let s := s.openBlock opens s.place.column s.tokens.size
    let s ← (s.allowKey keyAfter).dropCandidate?
    some ((s.moveTo s.place.next).push mark)

/-- a colon: what came before it on the line becomes a key -/
def valueMark? (s : Lexer) : Option Lexer :=
  match s.candidate? with
  | some k =>
    let s := { s with
      candidates := s.candidates.filter fun e => e.1 != s.depth
      tokens := s.tokens.insertIdxIfInBounds k.token .key }
    let s := (s.openBlock .blockMapping k.column k.token).allowKey false
    some ((s.moveTo s.place.next).push .value)
  | none => s.blockMark? .blockMapping .value (!s.inFlow)

/-- a token that may be a key -/
def keyLike (s : Lexer) (read : Cursor → Except Fault (Token × Cursor)) : Except Fault Lexer := do
  let s ← step s.mark?
  let (t, c) ← read s.place
  .ok (((s.allowKey false).moveTo c).push t)

/-- a quoted scalar, which may be a key -/
def quotedToken (double : Bool) (s : Lexer) : Except Fault Lexer :=
  s.keyLike fun c => (quoted double c).map fun r => (.scalar (String.ofList r.1) false, r.2)

/-- a name behind a mark of one character, which may be a key -/
def nameToken (named : String → Token) (s : Lexer) : Except Fault Lexer :=
  s.keyLike fun c => step ((anchor? c).map fun r => (named r.1, r.2))

def tagToken (s : Lexer) : Except Fault Lexer :=
  s.keyLike fun c => step ((tag? c).map fun r => (.tag r.1.1 r.1.2, r.2))

def blockToken? (folded : Bool) (s : Lexer) : Option Lexer := do
  let s ← (s.allowKey true).dropCandidate?
  let (text, c) ← block? folded s.indent s.place
  some ((s.moveTo c).push (.scalar (String.ofList text) false))

def plainToken? (s : Lexer) : Option Lexer := do
  let s ← s.mark?
  let (text, broke, c) := plain s.inFlow (s.indent + 1) s.place
  some (((s.allowKey broke).moveTo c).push (.scalar (String.ofList text) true))

def directiveToken (s : Lexer) : Except Fault Lexer := do
  let s ← step s.endBlocks?
  let (d, c) ← directive s.place
  .ok ((s.moveTo c).push (.directive d))

/-- a mark of three characters at the beginning of a line -/
def documentMark? (t : Token) (s : Lexer) : Option Lexer := do
  let s ← s.endBlocks?
  some ((s.moveTo (s.place.skip 3)).push t)

def comma? (s : Lexer) : Option Lexer := do
  let s ← (s.allowKey true).dropCandidate?
  some ((s.moveTo s.place.next).push .comma)

/-- the token at a character that is not blank -/
def token (ch : Char) (s : Lexer) : Except Fault Lexer :=
  let c := s.place
  let gapAfter := isGapOrEnd (c.peekAt? 1)
  if c.column = 0 ∧ ch = '%' then s.directiveToken
  else if c.column = 0 ∧ c.atMark "---" then step (s.documentMark? .documentStart)
  else if c.column = 0 ∧ c.atMark "..." then step (s.documentMark? .documentEnd)
  else if ch = '[' then step (s.openFlow? .flowSequence)
  else if ch = '{' then step (s.openFlow? .flowMapping)
  else if ch = ']' then step (s.closeFlow? .flowSequenceEnd)
  else if ch = '}' then step (s.closeFlow? .flowMappingEnd)
  else if ch = ',' then step s.comma?
  else if ch = '-' ∧ gapAfter then step (s.blockMark? .blockSequence .entry true)
  else if ch = '?' ∧ (s.inFlow ∨ gapAfter) then step (s.blockMark? .blockMapping .key (!s.inFlow))
  else if ch = ':' ∧ (s.inFlow ∨ gapAfter) then step s.valueMark?
  else if ch = '*' then s.nameToken .reference
  else if ch = '&' then s.nameToken .anchor
  else if ch = '!' then s.tagToken
  else if ch = '|' ∧ !s.inFlow then step (s.blockToken? false)
  else if ch = '>' ∧ !s.inFlow then step (s.blockToken? true)
  else if ch = '\'' then s.quotedToken false
  else if ch = '"' then s.quotedToken true
  else if startsPlain s.inFlow c then step s.plainToken?
  else .error .malformed

/-- one token more; the flag is set at the end of the text -/
def advance (s : Lexer) : Except Fault (Lexer × Bool) := do
  let s := s.skipBlank (s.place.ahead.length + 1)
  let s ← step s.dropStale?
  let s := s.closeBlocks s.place.column
  match s.place.peek? with
  | none => (step s.endBlocks?).map (·, true)
  | some ch => (s.token ch).map (·, false)

/-- the tokens up to the end of the text, or up to a fault -/
def run : Nat → Lexer → List Token
  | 0, s => s.settled ++ [.fault .malformed]
  | fuel + 1, s =>
    match s.advance with
    | .error f => s.settled ++ [.fault f]
    | .ok (s, true) => s.tokens.toList
    | .ok (s, false) => run fuel s

end Lexer

/-- characters that a text may hold -/
def isAllowed (c : Char) : Bool :=
  c == '\t' || c == '\n' || c == '\r' || c == '\u0085' || (' ' ≤ c && c ≤ '~') ||
    ('\u00a0' ≤ c && c ≤ '\uFFFD') || c ≥ Char.ofNat 0x10000

/-- past a byte order mark at the very beginning -/
def start (cs : List Char) : Cursor :=
  let c : Cursor := ⟨cs, 0, 0, 0⟩
  if c.peek? = some '\uFEFF' then c.next else c

/-- the tokens of a text -/
def tokens (cs : List Char) : List Token :=
  if cs.all isAllowed then Lexer.run (cs.length + 2) { place := start cs } else [.fault .malformed]

end ZodSchema.Yaml
