import ZodSchema.Text.Chars

/-!
# Validator chains

A chain is cut at the dots outside parentheses, quotes and regular expressions.

* `ChainState.next`  the scanner's step, which also says whether the character is a cut
* `splitChain`       the nonempty parts between the cuts
-/

namespace ZodSchema.Annotations

def isQuoteMark (c : Char) : Bool := c == '\'' || c == '"' || c == '`'

/-- where the chain scanner stands -/
structure ChainState where
  depth : Int
  regex : Bool
  quote : Option Char
  /-- the character before was a backslash -/
  escaped : Bool
  deriving DecidableEq, Repr

namespace ChainState

def start : ChainState := ⟨0, false, none, false⟩

/-- the state after `c`, and whether `c` is a dot that cuts -/
def next (st : ChainState) (c : Char) : ChainState × Bool :=
  let esc := c == '\\'
  match st.quote with
  | some q =>
    (⟨st.depth, st.regex, if c = q ∧ st.escaped = false then none else some q, esc⟩, false)
  | none =>
    if c = '/' ∧ st.escaped = false then (⟨st.depth, !st.regex, none, esc⟩, false)
    else if st.regex then (⟨st.depth, true, none, esc⟩, false)
    else if isQuoteMark c then (⟨st.depth, false, some c, esc⟩, false)
    else if c = '(' then (⟨st.depth + 1, false, none, esc⟩, false)
    else if c = ')' then (⟨st.depth - 1, false, none, esc⟩, false)
    else (⟨st.depth, false, none, esc⟩, c == '.' && st.depth == 0)

end ChainState

/-- `acc` as a part, unless it is empty -/
def closePart (acc : List Char) : List (List Char) := if acc = [] then [] else [acc.reverse]

/-- the parts from state `st` on, `acc` being the open part, newest character first -/
def splitChainFrom (st : ChainState) (acc : List Char) : List Char → List (List Char)
  | [] => closePart acc
  | c :: cs =>
    match st.next c with
    | (st', true) => closePart acc ++ splitChainFrom st' [] cs
    | (st', false) => splitChainFrom st' (c :: acc) cs

def splitChain (cs : List Char) : List (List Char) := splitChainFrom .start [] cs

end ZodSchema.Annotations
