import ZodSchema.Annotations.Paren
import ZodSchema.Proofs.Annotations.Chain

/-!
# Where an argument list ends

Two scanners look for the end of an argument list: `closing?` for the parenthesis that closes the
first one, and the scanner of `splitChain` for the dot behind it.  They read quotes differently.
For `closing?` a backslash may be escaped itself; for the scanner of chains a mark behind any
backslash is escaped.

* `nextQuoting`, `nextDepth`   the step of `closing?`
* `endsBehindSlash`            a quoted text ends right behind a backslash
* `InStep.next`                otherwise the scanners stay in step
* `IsCall`                     a name and arguments up to the closing parenthesis
* `splitChain_calls_iff`       when calls that are joined by dots are cut into these calls
-/

namespace ZodSchema.Annotations

open ChainState

variable {q : Quoting} {d : Int} {st : ChainState} {c : Char} {cs s : List Char}

/-! ## the search for a closing parenthesis -/

/-- the quotes that are open behind a character -/
def nextQuoting (q : Quoting) (c : Char) : Quoting :=
  match q with
  | some (m, true) => some (m, false)
  | some (m, false) => if c = '\\' then some (m, true) else if c = m then none else some (m, false)
  | none => if isQuoteMark c then some (c, false) else none

/-- the open parentheses behind a character -/
def nextDepth (q : Quoting) (d : Int) (c : Char) : Int :=
  if q = none then if c = '(' then d + 1 else if c = ')' then d - 1 else d else d

theorem ne_paren_of_isQuoteMark (h : isQuoteMark c = true) : c ≠ '(' ∧ c ≠ ')' := by
  constructor <;> rintro rfl <;> exact absurd h (by decide)

theorem closingFrom_cons (d : Int) (q : Quoting) (c : Char) (cs : List Char) :
    closingFrom d q (c :: cs) =
      if q = none ∧ c = ')' ∧ d = 1 then some 0
      else (closingFrom (nextDepth q d c) (nextQuoting q c) cs).map (· + 1) := by
  cases q with
  | some q =>
    obtain ⟨m, e⟩ := q
    rw [if_neg fun h => Option.some_ne_none _ h.1]
    cases e with
    | true => rw [closingFrom]; rfl
    | false =>
      rw [closingFrom]
      simp only [nextDepth, nextQuoting]
      split
      · rfl
      · split <;> rfl
  | none =>
    rw [closingFrom]
    simp only [nextDepth, nextQuoting, true_and, if_true]
    by_cases hm : isQuoteMark c = true
    · have hne := ne_paren_of_isQuoteMark hm
      simp [hm, hne.1, hne.2]
    · by_cases ho : c = '('
      · simp [ho, isQuoteMark]
      · by_cases hc : c = ')'
        · simp [hc, isQuoteMark]
        · simp [hm, ho, hc]

/-- below one open parenthesis comes only what closes the last one -/
theorem nextDepth_cases (hd : 1 ≤ d) (q : Quoting) (c : Char) :
    (q = none ∧ c = ')' ∧ d = 1) ∧ nextDepth q d c = 0 ∨
      ¬(q = none ∧ c = ')' ∧ d = 1) ∧ 1 ≤ nextDepth q d c := by
  unfold nextDepth
  by_cases hq : q = none
  · by_cases ho : c = '('
    · subst ho
      exact Or.inr ⟨fun h => absurd h.2.1 (by decide), by simp [hq]; omega⟩
    · by_cases hp : c = ')'
      · subst hp
        simp [hq]
        omega
      · exact Or.inr ⟨fun h => hp h.2.1, by simpa [ho, hp] using hd⟩
  · exact Or.inr ⟨fun h => hq h.1, by simpa [hq] using hd⟩

/-- the search starts at the head of what follows -/
theorem closingAt?_append (cs ahead : List Char) :
    closingAt? (cs ++ ahead) cs.length =
      (closing? ahead).map fun n => ((cs.length + n : Nat) : Int) := by
  unfold closingAt?
  dsimp only
  rw [if_neg (by omega), Int.toNat_natCast, List.drop_left]
  cases closing? ahead with
  | none => rfl
  | some n => exact congrArg some (Int.natCast_add ..).symm

/-! ## both scanners -/

/-- a quoted text ends right behind a backslash, which is escaped itself then; `slash` says whether
a backslash stands before the text -/
def endsBehindSlash (q : Quoting) (slash : Bool) : List Char → Bool
  | [] => false
  | c :: cs =>
    (slash && q == some (c, false)) || endsBehindSlash (nextQuoting q c) (c == '\\') cs

/-- the scanner of chains stands where the search for a closing parenthesis stands -/
structure InStep (q : Quoting) (d : Int) (st : ChainState) : Prop where
  depth : st.depth = d
  regex : st.regex = false
  quote : st.quote = q.map Prod.fst
  mark : ∀ m e, q = some (m, e) → isQuoteMark m = true
  escaped : ∀ m, q = some (m, true) → st.escaped = true

/-- One step.  The scanners part only at the end of a quoted text behind a backslash. -/
theorem InStep.next (h : InStep q d st) (hc : c ≠ '/')
    (hs : (st.escaped && q == some (c, false)) = false) :
    InStep (nextQuoting q c) (nextDepth q d c) (st.next c).1 := by
  obtain ⟨depth, regex, quote, escaped⟩ := st
  obtain ⟨rfl, rfl, rfl, hm, he⟩ := h
  cases q with
  | some q =>
    obtain ⟨m, e⟩ := q
    have hmark := hm m e rfl
    have hslash : '\\' ≠ m := fun h => by
      rw [← h] at hmark
      exact absurd hmark (by decide)
    cases e with
    | true =>
      -- the character is escaped for both
      have he := he m rfl
      dsimp only at he
      subst he
      exact ⟨rfl, rfl, by simp [ChainState.next, nextQuoting], by simp [nextQuoting, hmark],
        by simp [nextQuoting]⟩
    | false =>
      by_cases hcs : c = '\\'
      · subst hcs
        exact ⟨rfl, rfl, by simp [ChainState.next, nextQuoting, hslash],
          by simp [nextQuoting, hmark], fun _ _ => rfl⟩
      · by_cases hcm : c = m
        · -- no backslash stands before the mark
          subst hcm
          have hesc : escaped = false := by simpa using hs
          subst hesc
          exact ⟨rfl, rfl, by simp [ChainState.next, nextQuoting, hcs], by simp [nextQuoting, hcs],
            by simp [nextQuoting, hcs]⟩
        · exact ⟨rfl, rfl, by simp [ChainState.next, nextQuoting, hcs, hcm],
            by simp [nextQuoting, hcs, hcm, hmark], by simp [nextQuoting, hcs, hcm]⟩
  | none =>
    by_cases hmark : isQuoteMark c = true
    · have hne := ne_paren_of_isQuoteMark hmark
      constructor <;> simp [ChainState.next, nextQuoting, nextDepth, hc, hmark, hne.1, hne.2]
    · by_cases ho : c = '('
      · subst ho
        constructor <;> simp [ChainState.next, nextQuoting, nextDepth, isQuoteMark]
      · by_cases hp : c = ')'
        · subst hp
          constructor <;> simp [ChainState.next, nextQuoting, nextDepth, isQuoteMark]
        · constructor <;> simp [ChainState.next, nextQuoting, nextDepth, hc, hmark, ho, hp]

/-- A whole run.  Where the parenthesis closes at the last character, nothing is open behind it. -/
theorem InStep.pass? {n : Nat} (h : InStep q d st) (hd : 1 ≤ d) (hc : '/' ∉ cs)
    (hs : endsBehindSlash q st.escaped cs = false) (hn : closingFrom d q cs = some n)
    (hl : n + 1 = cs.length) : ∃ st', st.pass? cs = some st' ∧ st'.IsLevel := by
  induction cs generalizing q d st n with
  | nil => exact absurd hl (Nat.succ_ne_zero n)
  | cons c cs ih =>
    obtain ⟨hs1, hs2⟩ := Bool.or_eq_false_iff.1 hs
    have hcut : (st.next c).2 = false := next_snd_of_not_isLevel fun hlevel => by
      have := h.depth.symm.trans hlevel.1
      omega
    have hstep := h.next (fun hx => hc (hx ▸ List.mem_cons_self)) hs1
    rw [pass?_cons hcut]
    rw [closingFrom_cons] at hn
    split at hn
    · next hlast =>
      obtain ⟨rfl, rfl, rfl⟩ := hlast
      obtain rfl := Option.some.inj hn
      obtain rfl : cs = [] := List.length_eq_zero_iff.1 (Nat.succ.inj hl).symm
      exact ⟨_, rfl, hstep.depth, hstep.regex, hstep.quote⟩
    · next hlast =>
      obtain ⟨k, hk, rfl⟩ := Option.map_eq_some_iff.1 hn
      have hd' : 1 ≤ nextDepth q d c := (nextDepth_cases hd q c).elim (fun h => absurd h.1 hlast) (·.2)
      refine ih hstep hd' (fun hx => hc (List.mem_cons_of_mem _ hx)) ?_ hk (Nat.succ.inj hl)
      rwa [next_escaped]

/-! ## calls -/

/-- a name and arguments up to the parenthesis that closes the first one; no regular expression -/
def IsCall (s : List Char) : Prop :=
  ∃ name args, s = name ++ '(' :: (args ++ [')']) ∧ (∀ c ∈ name, Text.isWord c = true) ∧ '/' ∉ s ∧
    closingAt? s name.length = some (s.length - 1 : Int)

theorem endsBehindSlash_word {name : List Char} (hw : ∀ c ∈ name, Text.isWord c = true)
    (cs : List Char) :
    endsBehindSlash none false (name ++ cs) = endsBehindSlash none false cs := by
  induction name with
  | nil => rfl
  | cons c name ih =>
    have hc := hw c List.mem_cons_self
    have hm := (isOrdinary_iff.1 (isOrdinary_of_isWord hc)).2.1
    have hb : (c == '\\') = false := beq_eq_false_iff_ne.2 fun h => by
      rw [h] at hc
      exact absurd hc (by decide)
    rw [List.cons_append, endsBehindSlash, nextQuoting, hm, hb]
    exact ih fun x hx => hw x (List.mem_cons_of_mem _ hx)

theorem IsCall.ne_nil (h : IsCall s) : s ≠ [] := by
  obtain ⟨name, args, rfl, _⟩ := h
  simp

/-- a call without a quoted text that ends behind a backslash is closed -/
theorem IsCall.closed (h : IsCall s) (hs : endsBehindSlash none false s = false) : Closed s := by
  obtain ⟨name, args, rfl, hw, hslash, hclose⟩ := h
  rw [closingAt?_append, closing?, closingFrom_cons, if_neg (by simp), Option.map_map] at hclose
  obtain ⟨n, hn, hlen⟩ := Option.map_eq_some_iff.1 hclose
  have hl : n + 1 = (args ++ [')']).length := by
    simp only [Function.comp_apply, List.length_append, List.length_cons] at hlen ⊢
    omega
  -- behind the parenthesis that opens, the two scanners are in step
  have hopen : InStep none 1 opened :=
    ⟨rfl, rfl, rfl, fun _ _ h => (Option.some_ne_none _ h.symm).elim,
      fun _ h => (Option.some_ne_none _ h.symm).elim⟩
  rw [endsBehindSlash_word hw] at hs
  obtain ⟨st, hst, hlevel⟩ := hopen.pass? (Int.le_refl 1)
    (fun hm => hslash (List.mem_append_right _ (List.mem_cons_of_mem _ hm))) hs hn hl
  exact ⟨st, (pass?_call hw _).trans hst, hlevel⟩

/-- **Calls joined by dots** are cut into these calls exactly when, for the scanner of chains, no
dot in a call cuts and nothing is open at the end of any but the last.  This is so when no quoted
text ends right behind a backslash. -/
theorem splitChain_calls_iff {calls : List (List Char)} (h : ∀ s ∈ calls, IsCall s) :
    (splitChain (['.'].intercalate calls) = calls ↔
      (∀ s ∈ calls, Whole s) ∧ ∀ s ∈ calls.dropLast, Closed s) ∧
    ((∀ s ∈ calls, endsBehindSlash none false s = false) →
      splitChain (['.'].intercalate calls) = calls) := by
  have hiff := splitChain_intercalate_iff fun s hs => (h s hs).ne_nil
  refine ⟨hiff, fun hs => hiff.2 ⟨fun s hm => ?_, fun s hm => ?_⟩⟩
  · exact ((h s hm).closed (hs s hm)).whole
  · have hm := List.dropLast_subset _ hm
    exact (h s hm).closed (hs s hm)

/-- two calls with dots, parentheses and an escaped mark in quotes -/
def quotedCalls : List (List Char) :=
  ["includes(\"x.(\\\"\")".toList, "refine(f('.'), 1)".toList]

theorem isCall_quotedCalls : ∀ s ∈ quotedCalls, IsCall s := by
  intro s hs
  rcases List.mem_cons.1 hs with rfl | hs
  · exact ⟨"includes".toList, "\"x.(\\\"\"".toList,
      by decide, List.all_eq_true.1 (by decide), by decide, by decide⟩
  · obtain rfl := List.mem_singleton.1 hs
    exact ⟨"refine".toList, "f('.'), 1".toList,
      by decide, List.all_eq_true.1 (by decide), by decide, by decide⟩

theorem splitChain_quotedCalls :
    (∀ s ∈ quotedCalls, IsCall s) ∧ (∀ s ∈ quotedCalls, endsBehindSlash none false s = false) ∧
      splitChain (['.'].intercalate quotedCalls) = quotedCalls := by
  have hs : ∀ s ∈ quotedCalls, endsBehindSlash none false s = false := by decide
  exact ⟨isCall_quotedCalls, hs, (splitChain_calls_iff isCall_quotedCalls).2 hs⟩

/-- two calls, the first with a quoted text that ends with an escaped backslash -/
def pathCalls : List (List Char) := ["startsWith(\"C:\\\\\")".toList, "max(9)".toList]

/-- The mark behind the escaped backslash ends the text for the search and not for the scanner of
chains, which therefore takes both calls for one. -/
theorem pathCalls_not_cut :
    (∀ s ∈ pathCalls, IsCall s) ∧ splitChain (['.'].intercalate pathCalls) ≠ pathCalls ∧
      splitChain (['.'].intercalate pathCalls) = [['.'].intercalate pathCalls] := by
  refine ⟨fun s hs => ?_, by decide, by decide⟩
  rcases List.mem_cons.1 hs with rfl | hs
  · exact ⟨"startsWith".toList, "\"C:\\\\\"".toList,
      by decide, List.all_eq_true.1 (by decide), by decide, by decide⟩
  · obtain rfl := List.mem_singleton.1 hs
    exact ⟨"max".toList, "9".toList,
      by decide, List.all_eq_true.1 (by decide), by decide, by decide⟩

end ZodSchema.Annotations
