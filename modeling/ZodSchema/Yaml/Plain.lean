import ZodSchema.Yaml.Cursor

/-!
# Plain scalars

Text without quotes, which may go on over several lines.

* `startsPlain`   a plain scalar may start here
* `plain`         the text of a plain scalar, and whether it ended behind a line break
-/

namespace ZodSchema.Yaml

/-- characters with a meaning of their own at the start of a token -/
def isIndicator (c : Char) : Bool := "-?:,[]\x7b\x7d#&*!|>'\"%@\x60".toList.contains c

/-- the brackets and marks of flow collections -/
def isFlowMark (c : Char) : Bool := ",?[]\x7b\x7d".toList.contains c

/-- a plain scalar may start here -/
def startsPlain (inFlow : Bool) (c : Cursor) : Bool :=
  match c.peek? with
  | none => false
  | some ch =>
    (!isGapOrEnd (some ch) && !isIndicator ch) ||
      (!isGapOrEnd (c.peekAt? 1) && (ch == '-' || (!inFlow && (ch == '?' || ch == ':'))))

/-- what follows a colon that ends a plain scalar -/
def endsKey (inFlow : Bool) (after : Option Char) : Bool :=
  isGapOrEnd after || (inFlow && (after.map ",[]\x7b\x7d".toList.contains).getD false)

/-- length of the run of plain characters at the head -/
def plainLength (inFlow : Bool) : List Char → Nat
  | [] => 0
  | ch :: cs =>
    if isGap ch || isBreak ch || (ch == ':' && endsKey inFlow cs.head?) ||
        (inFlow && isFlowMark ch) then 0
    else plainLength inFlow cs + 1

/-- line breaks among spaces, up to a separator of documents: the breaks, whether a separator was
met, and the place behind -/
def plainBreaks : Nat → Cursor → List Char × Bool × Cursor
  | 0, c => ([], false, c)
  | fuel + 1, c =>
    if c.peek? = some ' ' then plainBreaks fuel c.next
    else
      match c.lineBreak? with
      | none => ([], false, c)
      | some (b, c) =>
        if c.atSeparator then ([b], true, c)
        else
          let r := plainBreaks fuel c
          (b :: r.1, r.2)

/-- the gap after a run of plain characters: its folded text, whether it holds a line break, and
the place behind.  The text is empty when the scalar ends here. -/
def plainGap (c : Cursor) : List Char × Bool × Cursor :=
  let (spaces, c) := c.span (· == ' ')
  match c.lineBreak? with
  | none => (spaces, false, c)
  | some (b, c) =>
    if c.atSeparator then ([], true, c)
    else
      let (breaks, stop, c) := plainBreaks (c.ahead.length + 1) c
      if stop then ([], true, c)
      else ((if b != '\n' then [b] else if breaks = [] then [' '] else []) ++ breaks, true, c)

/-- the rest of a plain scalar behind a `gap`; `indent` is the least column of a later line -/
def plainFrom (inFlow : Bool) (indent : Int) :
    Nat → List Char → Bool → Cursor → List Char × Bool × Cursor
  | 0, _, broke, c => ([], broke, c)
  | fuel + 1, gap, broke, c =>
    let n := plainLength inFlow c.ahead
    if c.peek? = some '#' ∨ n = 0 then ([], broke, c)
    else
      let text := gap ++ c.ahead.take n
      let (gap, broke, c) := plainGap (c.skip n)
      if gap = [] ∨ c.peek? = some '#' ∨ (!inFlow && decide ((c.column : Int) < indent)) then
        (text, broke, c)
      else
        let r := plainFrom inFlow indent fuel gap broke c
        (text ++ r.1, r.2)

/-- a plain scalar: its text, whether it ended behind a line break, and the place behind -/
def plain (inFlow : Bool) (indent : Int) (c : Cursor) : List Char × Bool × Cursor :=
  plainFrom inFlow indent (c.ahead.length + 1) [] false c

end ZodSchema.Yaml
