import Mathlib.Data.List.Infix
import ZodSchema.Proofs.Annotations.Directive

/-!
# Rules line by line

The mark of a rule and its key stand on one line, and what stands behind a closing parenthesis does
not matter.  So a text that closes every rule it opens is scanned on its own, whatever comes below
it.

* `OpensRule`, `RulesClosed`, `Ruleless`   the rules that a text opens
* `rulesClosed_iff`, `ruleless_iff`        the same by the heads of its rests
* `ruleless_cons_iff`                      the same for one character more
* `ruleAt?_append`         what a rule does not reach over
* `ruleAt?_append_line`, `enclosed?_append_of_isSome`   what a line below does not change
* `scanRules_below`                        the rules of texts one below the other
-/

namespace ZodSchema.Annotations

variable {cs key rest : List Char}

/-! ## the rules that a text opens -/

/-- a rule is opened: `i` is the position of the parenthesis behind its key -/
def OpensRule (text : List Char) (i : Nat) : Prop :=
  ∃ before key, IsKey key ∧ before ++ ruleMark ++ key ++ ['('] <+: text ∧
    i = (before ++ ruleMark ++ key).length

/-- every rule that the text opens is closed in it -/
def RulesClosed (text : List Char) : Prop :=
  ∀ i, OpensRule text i → ∃ j, closingAt? text i = some j

/-- no rule is opened -/
def Ruleless (text : List Char) : Prop := ∀ i, ¬OpensRule text i

theorem opensRule_of_ruleAt? {s : List Char} {r : List Char × List Char} (hs : s ∈ cs.tails)
    (hr : ruleAt? s = some r) : ∃ before, cs = before ++ r.2 ∧ OpensRule cs before.length := by
  obtain ⟨front, rfl⟩ := (List.mem_tails _ _).1 hs
  obtain ⟨key, ahead⟩ := r
  obtain ⟨hk, tail, rfl, rfl⟩ := ruleAt?_eq_some_iff.1 hr
  exact ⟨front ++ ruleMark ++ key, by simp, front, key, hk, ⟨tail, by simp⟩, rfl⟩

theorem OpensRule.exists_ruleAt? {i : Nat} (h : OpensRule cs i) :
    ∃ s ∈ cs.tails, ∃ r before, ruleAt? s = some r ∧ cs = before ++ r.2 ∧ i = before.length := by
  obtain ⟨before, key, hk, ⟨tail, rfl⟩, rfl⟩ := h
  exact ⟨ruleMark ++ (key ++ '(' :: tail), (List.mem_tails _ _).2 ⟨before, by simp⟩, (key, '(' :: tail),
    before ++ ruleMark ++ key, ruleAt?_key hk tail, by simp, rfl⟩

theorem rulesClosed_iff : RulesClosed cs ↔
    ∀ s ∈ cs.tails, ∀ r ∈ ruleAt? s, (closing? r.2).isSome = true := by
  have hat : ∀ before ahead : List Char, (∃ j, closingAt? (before ++ ahead) before.length = some j) ↔
      (closing? ahead).isSome = true := by
    intro before ahead
    rw [closingAt?_append, ← Option.isSome_iff_exists, Option.isSome_map]
  constructor
  · intro h s hs r hr
    obtain ⟨before, rfl, hopen⟩ := opensRule_of_ruleAt? hs hr
    exact (hat before r.2).1 (h _ hopen)
  · intro h i hi
    obtain ⟨s, hs, r, before, hr, rfl, rfl⟩ := hi.exists_ruleAt?
    exact (hat before r.2).2 (h s hs r hr)

theorem ruleless_iff : Ruleless cs ↔ ∀ s ∈ cs.tails, ruleAt? s = none := by
  constructor
  · intro h s hs
    rw [Option.eq_none_iff_forall_ne_some]
    intro r hr
    obtain ⟨before, -, hopen⟩ := opensRule_of_ruleAt? hs hr
    exact h _ hopen
  · intro h i hi
    obtain ⟨s, hs, r, -, hr, -⟩ := hi.exists_ruleAt?
    rw [h s hs] at hr
    cases hr

theorem ruleless_nil : Ruleless [] := ruleless_iff.2 (List.forall_mem_singleton.2 rfl)

theorem ruleless_cons_iff {c : Char} :
    Ruleless (c :: cs) ↔ ruleAt? (c :: cs) = none ∧ Ruleless cs := by
  rw [ruleless_iff, List.tails_cons, List.forall_mem_cons, ← ruleless_iff]

instance (cs : List Char) : Decidable (RulesClosed cs) := decidable_of_iff' _ rulesClosed_iff

instance (cs : List Char) : Decidable (Ruleless cs) := decidable_of_iff' _ ruleless_iff

theorem Ruleless.rulesClosed (h : Ruleless cs) : RulesClosed cs := fun i hi => absurd hi (h i)

/-! ## texts one below the other -/

theorem eq_append_of_append_cons_eq {x : Char} {as bs ps : List Char}
    (h : as ++ x :: bs = ps ++ rest) (hx : x ∉ ps) : ∃ t, as = ps ++ t ∧ rest = t ++ x :: bs := by
  rcases List.append_eq_append_iff.1 h with ⟨u, rfl, hu⟩ | ⟨u, rfl, hu⟩
  · cases u with
    | nil => exact ⟨[], by simp, by simpa using hu.symm⟩
    | cons y u =>
      obtain ⟨rfl, _⟩ := List.cons.inj hu
      simp at hx
  · exact ⟨u, rfl, hu⟩

/-- the mark of a rule and its key do not reach over a character that neither has -/
theorem ruleAt?_append {x : Char} (hx : x ∉ ruleMark ++ ['(']) (hs : isKeyStart x = false)
    (hr : isKeyRest x = false) (cs rest : List Char) :
    ruleAt? (cs ++ x :: rest) = (ruleAt? cs).map fun r => (r.1, r.2 ++ x :: rest) := by
  ext ⟨key, ahead⟩
  simp only [ruleAt?_eq_some_iff, Option.map_eq_some_iff, Prod.exists, Prod.mk.injEq]
  constructor
  · rintro ⟨hk, tail, rfl, he⟩
    have hmark : x ∉ ruleMark ++ key ++ ['('] := by
      simp only [List.mem_append, not_or] at hx ⊢
      exact ⟨⟨hx.1, hk.not_mem hs hr⟩, hx.2⟩
    have hsplit : ruleMark ++ (key ++ '(' :: tail) = (ruleMark ++ key ++ ['(']) ++ tail := by simp
    obtain ⟨t, rfl, rfl⟩ := eq_append_of_append_cons_eq (he.trans hsplit) hmark
    exact ⟨key, '(' :: t, ⟨hk, t, rfl, by simp⟩, rfl, rfl⟩
  · rintro ⟨key, ahead, ⟨hk, tail, rfl, rfl⟩, rfl, rfl⟩
    exact ⟨hk, tail ++ x :: rest, rfl, by simp⟩

/-- the mark of a rule and its key stand on one line -/
theorem ruleAt?_append_line (cs rest : List Char) :
    ruleAt? (cs ++ '\n' :: rest) = (ruleAt? cs).map fun r => (r.1, r.2 ++ '\n' :: rest) :=
  ruleAt?_append (by decide) (by decide) (by decide) cs rest

/-- what stands behind a parenthesis that closes does not matter -/
theorem enclosed?_append_of_isSome (h : (closing? cs).isSome = true) (rest : List Char) :
    enclosed? (cs ++ rest) = (enclosed? cs).map fun r => (r.1, r.2 ++ rest) := by
  obtain ⟨n, hn⟩ := Option.isSome_iff_exists.1 h
  obtain ⟨inner, after, rfl, hlen⟩ := eq_append_of_closingFrom hn
  have hlt : n < (inner ++ ')' :: after).length := by
    rw [← hlen, List.length_append, List.length_cons]
    omega
  have hr : closing? (inner ++ ')' :: after ++ rest) = some n :=
    (closingFrom_append_iff rest hlt).2 hn
  unfold enclosed?
  rw [hr, hn, Option.map_some, Option.map_some, Option.map_some,
    List.take_append_of_le_length (Nat.le_of_lt hlt), List.drop_append_of_le_length hlt]

theorem scanRulesIn_append_line (h : RulesClosed cs) (rest : List Char) :
    scanRulesIn (cs ++ '\n' :: rest) = scanRulesIn cs ++ scanRulesIn rest := by
  rw [rulesClosed_iff] at h
  induction cs with
  | nil =>
    have hat : '@' ∉ ['\n'] := by decide
    exact scanRulesIn_append_of_not_mem hat rest
  | cons c cs ih =>
    rw [List.tails_cons, List.forall_mem_cons] at h
    have hhead : balancedRuleAt? (c :: cs ++ '\n' :: rest) = balancedRuleAt? (c :: cs) := by
      unfold balancedRuleAt?
      rw [ruleAt?_append_line]
      cases hr : ruleAt? (c :: cs) with
      | none => rfl
      | some r =>
        show (enclosed? (r.2 ++ '\n' :: rest)).map _ = (enclosed? r.2).map _
        rw [enclosed?_append_of_isSome (h.1 r hr), Option.map_map]
        rfl
    rw [List.cons_append, scanRulesIn, ← List.cons_append, hhead, ih h.2, scanRulesIn,
      List.append_assoc]

theorem Ruleless.scanRulesIn (h : Ruleless cs) : scanRulesIn cs = [] := by
  induction cs with
  | nil => rfl
  | cons c cs ih =>
    obtain ⟨hr, hless⟩ := ruleless_cons_iff.1 h
    rw [Annotations.scanRulesIn, ih hless, balancedRuleAt?, hr]
    rfl

theorem scanRules_append_line {doc : String} (h : RulesClosed doc.toList) (d : String) :
    scanRules (doc ++ "\n" ++ d) = scanRules doc ++ scanRules d := by
  unfold scanRules
  rw [String.append_assoc, String.toList_append, String.toList_append]
  exact scanRulesIn_append_line h _

/-- **Rules of texts one below the other** are those of the upper text and then those of the lower
one, when the upper one closes every rule that it opens.  So lines without a rule put before a text
do not change the rules that are read of it. -/
theorem scanRules_below (d : String) :
    (∀ doc : String, RulesClosed doc.toList →
      scanRules (doc ++ "\n" ++ d) = scanRules doc ++ scanRules d) ∧
    ∀ lines : List String, (∀ l ∈ lines, Ruleless l.toList) →
      scanRules (Text.Str.unlines (lines ++ [d])) = scanRules d := by
  refine ⟨fun doc h => scanRules_append_line h d, fun lines h => ?_⟩
  induction lines with
  | nil => rw [List.nil_append, Text.Str.unlines, Text.Str.join, String.intercalate_singleton]
  | cons l lines ih =>
    obtain ⟨hl, hlines⟩ := List.forall_mem_cons.1 h
    rw [List.cons_append, Text.Str.unlines_cons (by simp), scanRules_append_line hl.rulesClosed,
      ih hlines]
    exact congrArg (· ++ scanRules d) hl.scanRulesIn

/-- a rule with an unpaired parenthesis and an escaped mark in quotes, between prose -/
def noted : String := "A note.\n@crud.create.refine(\"a smile :) or \\\" alone\") is asked for"

theorem scanRules_below_noted : RulesClosed noted.toList ∧
    (∀ l ∈ ["It's (not yet", "@crud.list: see @crud."], Ruleless l.toList) ∧
    scanRules (noted ++ "\n" ++ "@crud.list.maxPageSize(50)") =
      [⟨"create.refine", "\"a smile :) or \\\" alone\""⟩, ⟨"list.maxPageSize", "50"⟩] ∧
    scanRules (Text.Str.unlines
      (["It's (not yet", "@crud.list: see @crud."] ++ ["@crud.list.maxPageSize(50)"])) =
      [⟨"list.maxPageSize", "50"⟩] := by
  have hclosed : RulesClosed noted.toList := by decide +kernel
  have hless : ∀ l ∈ ["It's (not yet", "@crud.list: see @crud."], Ruleless l.toList := by
    decide +kernel
  obtain ⟨hbelow, hlines⟩ := scanRules_below "@crud.list.maxPageSize(50)"
  have hnoted : scanRules noted = [⟨"create.refine", "\"a smile :) or \\\" alone\""⟩] := by
    decide +kernel
  have hsize : scanRules "@crud.list.maxPageSize(50)" = [⟨"list.maxPageSize", "50"⟩] := by
    decide +kernel
  refine ⟨hclosed, hless, ?_, ?_⟩
  · rw [hbelow noted hclosed, hnoted, hsize]
    rfl
  · rw [hlines _ hless, hsize]

end ZodSchema.Annotations
