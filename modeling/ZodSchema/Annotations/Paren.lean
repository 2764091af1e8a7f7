import ZodSchema.Annotations.Chain

/-!
# Matching parentheses

* `closing?`   how far the parenthesis that closes the first one is from the head
* `enclosed?`  the text inside the parentheses that open at the head, and the text after them
-/

namespace ZodSchema.Annotations

/-- inside quotes: the mark that ends them, and whether the character before was a backslash -/
abbrev Quoting := Option (Char × Bool)

/-- offset of the parenthesis that brings `depth` to zero; marks inside quotes do not count -/
def closingFrom (depth : Int) (quoting : Quoting) : List Char → Option Nat
  | [] => none
  | c :: cs =>
    let next (d : Int) (q : Quoting) := (closingFrom d q cs).map (· + 1)
    match quoting with
    | some (_, true) => next depth (quoting.map fun q => (q.1, false))
    | some (q, false) =>
      if c = '\\' then next depth (some (q, true))
      else if c = q then next depth none else next depth (some (q, false))
    | none =>
      if isQuoteMark c then next depth (some (c, false))
      else if c = '(' then next (depth + 1) none
      else if c = ')' then (if depth = 1 then some 0 else next (depth - 1) none)
      else next depth none

/-- offset of the closing parenthesis of a text that opens at its head -/
def closing? (cs : List Char) : Option Nat := closingFrom 0 none cs

/-- position of the parenthesis that closes the one at `start`; a negative start counts from the
end, and the search goes on at the head of the text -/
def closingAt? (text : List Char) (start : Int) : Option Int :=
  let ahead :=
    if start < 0 then text.drop (text.length + start).toNat ++ text else text.drop start.toNat
  (closing? ahead).map fun n => start + n

/-- inside and after the parentheses that open at the head -/
def enclosed? (cs : List Char) : Option (List Char × List Char) :=
  (closing? cs).map fun j => ((cs.take j).drop 1, cs.drop (j + 1))

theorem enclosed?_length {cs inner after : List Char} (h : enclosed? cs = some (inner, after)) :
    after.length < cs.length := by
  obtain ⟨j, hj, he⟩ := Option.map_eq_some_iff.1 h
  obtain ⟨_, rfl⟩ := Prod.mk.inj he
  cases cs with
  | nil => simp [closing?, closingFrom] at hj
  | cons c cs => simp only [List.length_drop, List.length_cons]; omega

end ZodSchema.Annotations
