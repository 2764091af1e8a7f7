import ZodSchema.Proofs.Annotations.Lines
import ZodSchema.Proofs.Annotations.Prose

/-!
# Cutting ends and leaves no directive

A round of cutting takes the first rule out of a line, joins the text around it by a space, and the
next round searches the line that is made so.  A rule does not reach over a space, so no round makes
a new one: there are no more rounds than rules.

* `Text.not_infix_of_breakOn?`, `Text.trim_trim`   the text before a pattern, and trimmed texts
* `openings`, `openings_append_space`   how many rules a line opens, and that a space keeps them apart
* `firstRule?_eq_none_iff`, `firstRule?_eq_some`   the first rule of a line
* `cutRound`, `cutWithin`      one round, and a number of them
* `openings_of_again`          a round leaves fewer rules
* `cutRules_of_rounds`         what every round keeps, cutting keeps
* `Bare`, `bare_of_mem_prose`  lines without directives
* `prose_bare`                 the rounds end, and what they leave is bare
-/

namespace ZodSchema

namespace Text

variable {pat cs a b l : List Char}

theorem dropStart?_isSome_iff : (dropStart? pat cs).isSome = true ↔ pat <+: cs := by
  rw [Option.isSome_iff_exists]
  exact exists_congr fun r => dropStart?_eq_some_iff.trans eq_comm

theorem not_infix_of_breakOn?_eq_none (h : breakOn? pat cs = none) : ¬pat <:+: cs := by
  induction cs with
  | nil =>
    intro hi
    rw [List.eq_nil_of_infix_nil hi] at h
    cases h
  | cons c cs ih =>
    rw [breakOn?] at h
    split at h
    · cases h
    · next hd =>
      rw [List.infix_cons_iff, not_or]
      refine ⟨fun hp => ?_, ih (Option.map_eq_none_iff.1 h)⟩
      rw [← dropStart?_isSome_iff, hd] at hp
      cases hp

/-- the first occurrence of a pattern is behind a text without it -/
theorem not_infix_of_breakOn? (hp : pat ≠ []) (h : breakOn? pat cs = some (a, b)) :
    ¬pat <:+: a := by
  induction cs generalizing a b with
  | nil =>
    rw [breakOn?, if_neg hp] at h
    cases h
  | cons c cs ih =>
    have hcs := breakOn?_eq_some h
    rw [breakOn?] at h
    split at h
    · obtain ⟨rfl, rfl⟩ := Prod.mk.inj (Option.some.inj h)
      exact fun hi => hp (List.eq_nil_of_infix_nil hi)
    · next hd =>
      obtain ⟨⟨a, b⟩, hr, he⟩ := Option.map_eq_some_iff.1 h
      obtain ⟨rfl, rfl⟩ := Prod.mk.inj he
      rw [List.infix_cons_iff, not_or]
      refine ⟨fun hpre => ?_, ih hr⟩
      have hlong : pat <+: c :: cs := by
        rw [hcs, List.append_assoc]
        exact List.prefix_append_of_prefix hpre
      rw [← dropStart?_isSome_iff, hd] at hlong
      cases hlong

theorem head?_dropWhile {p : Char → Bool} : ∀ c ∈ (cs.dropWhile p).head?, p c = false := by
  intro c hc
  have h := List.head?_dropWhile_not p cs
  rw [hc] at h
  exact h

theorem trim_trim (cs : List Char) : trim (trim cs) = trim cs := by
  refine trim_eq_self (fun c hc => ?_) fun c hc => ?_
  · obtain ⟨t, ht⟩ := trimRight_prefix (trimLeft cs)
    have hhead : (trimLeft cs).head? = some c := by
      rw [← ht, List.head?_append, show (trimRight (trimLeft cs)).head? = some c from hc,
        Option.some_or]
    exact head?_dropWhile c hhead
  · unfold trim trimRight at hc
    rw [List.getLast?_reverse] at hc
    exact head?_dropWhile c hc

theorem isLineBreak_of_mem_splitLinesFrom {acc : List Char}
    (ha : ∀ c ∈ acc, isLineBreak c = false) (hl : l ∈ splitLinesFrom acc cs) :
    ∀ c ∈ l, isLineBreak c = false := by
  have hopen : ∀ {acc : List Char}, (∀ c ∈ acc, isLineBreak c = false) →
      ∀ c ∈ acc.reverse, isLineBreak c = false := fun ha c hc => ha c (List.mem_reverse.1 hc)
  fun_induction splitLinesFrom acc cs with
  | case1 => cases hl
  | case2 acc _ =>
    rw [List.mem_singleton.1 hl]
    exact hopen ha
  | case3 acc cs ih | case4 acc c cs _ hb ih =>
    rcases List.mem_cons.1 hl with rfl | hl
    · exact hopen ha
    · exact ih (fun _ h => absurd h List.not_mem_nil) hl
  | case5 acc c cs _ hb ih =>
    exact ih (List.forall_mem_cons.2 ⟨Bool.eq_false_iff.2 hb, ha⟩) hl

theorem isLineBreak_of_mem_splitLines (hl : l ∈ splitLines cs) :
    ∀ c ∈ l, isLineBreak c = false :=
  isLineBreak_of_mem_splitLinesFrom (fun _ h => absurd h List.not_mem_nil) hl

end Text

namespace Annotations

variable {cs before rest line next out : List Char}

/-! ## the rules that a line opens -/

/-- how many rules a line opens -/
def openings : List Char → Nat
  | [] => 0
  | c :: cs => (ruleAt? (c :: cs)).isSome.toNat + openings cs

theorem openings_eq_zero_iff : openings cs = 0 ↔ Ruleless cs := by
  induction cs with
  | nil => exact iff_of_true rfl ruleless_nil
  | cons c cs ih =>
    rw [ruleless_cons_iff, ← ih, openings, Nat.add_eq_zero_iff, Bool.toNat_eq_zero,
      Option.isSome_eq_false_iff, Option.isNone_iff_eq_none]

theorem openings_le_append (as bs : List Char) : openings bs ≤ openings (as ++ bs) := by
  induction as with
  | nil => exact Nat.le_refl _
  | cons a as ih => exact Nat.le_trans ih (Nat.le_add_left _ _)

theorem openings_trimLeft_le (cs : List Char) : openings (Text.trimLeft cs) ≤ openings cs := by
  obtain ⟨blanks, hb⟩ := List.dropWhile_suffix (l := cs) Text.isBlank
  have hle := openings_le_append blanks (Text.trimLeft cs)
  rwa [Text.trimLeft, hb] at hle

/-- no rule reaches over a space -/
theorem openings_append_space (as bs : List Char) :
    openings (as ++ ' ' :: bs) = openings as + openings bs := by
  have hspace := fun cs => ruleAt?_append (x := ' ') (by decide) (by decide) (by decide) cs bs
  induction as with
  | nil =>
    show (ruleAt? ([] ++ ' ' :: bs)).isSome.toNat + openings bs = 0 + openings bs
    rw [hspace []]
    rfl
  | cons a as ih =>
    rw [List.cons_append, openings, openings, ih, ← List.cons_append, hspace, Option.isSome_map,
      Nat.add_assoc]

theorem Ruleless.mono (h : Ruleless cs) (hi : line <:+: cs) : Ruleless line := by
  rintro i ⟨front, key, hk, hp, -⟩
  obtain ⟨s, t, rfl⟩ := hi
  refine h (s ++ front ++ ruleMark ++ key).length ⟨s ++ front, key, hk, ?_, rfl⟩
  obtain ⟨u, rfl⟩ := hp
  exact ⟨u ++ t, by simp only [List.append_assoc]⟩

/-! ## the first rule of a line -/

/-- a rule at the head of a text is one of every longer text -/
theorem ruleAt?_eq_none_mono (hp : line <+: cs) (h : ruleAt? cs = none) : ruleAt? line = none := by
  obtain ⟨t, rfl⟩ := hp
  rw [Option.eq_none_iff_forall_ne_some]
  rintro ⟨key, r⟩ hr
  obtain ⟨hk, tail, rfl, rfl⟩ := ruleAt?_eq_some_iff.1 hr
  rw [List.append_assoc, List.append_assoc, List.cons_append, ruleAt?_key hk] at h
  cases h

theorem firstRule?_eq_none_iff : firstRule? cs = none ↔ Ruleless cs := by
  induction cs with
  | nil => exact iff_of_true rfl ruleless_nil
  | cons c cs ih =>
    rw [ruleless_cons_iff, ← ih, firstRule?]
    cases ruleAt? (c :: cs) with
    | none => simp
    | some r => simp

/-- the first rule stands behind a text without rules -/
theorem firstRule?_eq_some (h : firstRule? cs = some (before, rest)) :
    Ruleless before ∧ ∃ key tail, IsKey key ∧ rest = '(' :: tail ∧
      cs = before ++ (ruleMark ++ (key ++ '(' :: tail)) := by
  induction cs generalizing before with
  | nil => cases h
  | cons c cs ih =>
    rw [firstRule?] at h
    split at h
    · next key r hr =>
      obtain ⟨rfl, rfl⟩ := Prod.mk.inj (Option.some.inj h)
      obtain ⟨hk, tail, rfl, hcs⟩ := ruleAt?_eq_some_iff.1 hr
      exact ⟨ruleless_nil, key, tail, hk, rfl, hcs⟩
    · next hr =>
      obtain ⟨⟨front, r⟩, hf, he⟩ := Option.map_eq_some_iff.1 h
      obtain ⟨rfl, rfl⟩ := Prod.mk.inj he
      obtain ⟨hless, key, tail, hk, rfl, rfl⟩ := ih hf
      have hhead := ruleAt?_eq_none_mono (List.cons_prefix_cons.2 ⟨rfl, List.prefix_append front _⟩) hr
      exact ⟨ruleless_cons_iff.2 ⟨hhead, hless⟩, key, tail, hk, rfl, rfl⟩

/-! ## rounds -/

/-- where a round leads: the line that is left, or the line of the next round -/
inductive Round where
  | done (line : List Char)
  | again (line : List Char)

/-- the line is searched for its first rule, and built again without it -/
def cutRound (line : List Char) : Round :=
  match firstRule? line with
  | none => .done line
  | some (before, rest) =>
    match enclosed? rest with
    | none => .done before
    | some (_, after) => .again (Text.trimRight before ++ ' ' :: Text.trimLeft after)

/-- the line that is left, when `n` rounds are enough -/
def cutWithin : Nat → List Char → Option (List Char)
  | 0, _ => none
  | n + 1, line =>
    match cutRound line with
    | .done out => some out
    | .again next => cutWithin n next

theorem cutRound_of_done (h : cutRound line = .done out) :
    cutRules line = out ∧ Ruleless out ∧ out <+: line := by
  unfold cutRound at h
  split at h
  · next hf =>
    obtain rfl := Round.done.inj h
    exact ⟨cutRules_of_none hf, firstRule?_eq_none_iff.1 hf, List.prefix_rfl⟩
  · next before rest hf =>
    split at h
    · next he =>
      obtain rfl := Round.done.inj h
      obtain ⟨hless, key, tail, -, -, rfl⟩ := firstRule?_eq_some hf
      exact ⟨cutRules_of_open hf he, hless, List.prefix_append _ _⟩
    · cases h

theorem cutRound_of_again (h : cutRound line = .again next) :
    cutRules line = cutRules next ∧ ∃ before key inner after,
      next = Text.trimRight before ++ ' ' :: Text.trimLeft after ∧ Ruleless before ∧ IsKey key ∧
        line = before ++ (ruleMark ++ (key ++ '(' :: (inner ++ ')' :: after))) := by
  unfold cutRound at h
  split at h
  · cases h
  · next before rest hf =>
    split at h
    · cases h
    · next inner after he =>
      obtain rfl := Round.again.inj h
      obtain ⟨hless, key, tail, hk, rfl, rfl⟩ := firstRule?_eq_some hf
      obtain ⟨rfl, -⟩ := enclosed?_eq_some_iff.1 he
      exact ⟨cutRules_of_closed hf he, before, key, inner, after, rfl, hless, hk, rfl⟩

/-- One round.  The rule that is taken out is gone, and joining the rest makes no new one. -/
theorem openings_of_again (h : cutRound line = .again next) : openings next < openings line := by
  obtain ⟨-, before, key, inner, after, rfl, hless, hk, rfl⟩ := cutRound_of_again h
  have hbefore : openings (Text.trimRight before) = 0 :=
    openings_eq_zero_iff.2 (hless.mono (Text.trimRight_prefix before).isInfix)
  have hafter : openings after ≤
      openings ("crud.".toList ++ (key ++ '(' :: (inner ++ ')' :: after))) := by
    have hle := openings_le_append ("crud.".toList ++ (key ++ '(' :: (inner ++ [')']))) after
    simpa only [List.append_assoc, List.cons_append, List.nil_append] using hle
  have hrule : openings (ruleMark ++ (key ++ '(' :: (inner ++ ')' :: after))) =
      1 + openings ("crud.".toList ++ (key ++ '(' :: (inner ++ ')' :: after))) := by
    have hr := ruleAt?_key hk (inner ++ ')' :: after)
    have hm : ruleMark ++ (key ++ '(' :: (inner ++ ')' :: after)) =
        '@' :: ("crud.".toList ++ (key ++ '(' :: (inner ++ ')' :: after))) := rfl
    rw [hm] at hr ⊢
    rw [openings, hr]
    rfl
  calc openings (Text.trimRight before ++ ' ' :: Text.trimLeft after)
      = openings (Text.trimLeft after) := by rw [openings_append_space, hbefore, Nat.zero_add]
    _ ≤ openings after := openings_trimLeft_le after
    _ < openings (ruleMark ++ (key ++ '(' :: (inner ++ ')' :: after))) := by omega
    _ ≤ openings (before ++ (ruleMark ++ (key ++ '(' :: (inner ++ ')' :: after)))) :=
      openings_le_append _ _

/-- All rounds.  One more than there are rules is enough. -/
theorem cutWithin_eq {n : Nat} (h : openings line < n) : cutWithin n line = some (cutRules line) := by
  induction n generalizing line with
  | zero => exact absurd h (Nat.not_lt_zero _)
  | succ n ih =>
    rw [cutWithin]
    cases hr : cutRound line with
    | done out => exact congrArg some (cutRound_of_done hr).1.symm
    | again next =>
      have hlt := openings_of_again hr
      rw [(cutRound_of_again hr).1]
      exact ih (by omega)

/-- what every round keeps, and the last one makes of it -/
theorem cutRules_of_rounds {P Q : List Char → Prop}
    (hagain : ∀ {line next}, cutRound line = .again next → P line → P next)
    (hdone : ∀ {line out}, cutRound line = .done out → P line → Q out) (h : P line) :
    Q (cutRules line) := by
  induction hn : openings line using Nat.strong_induction_on generalizing line with
  | _ n ih =>
    subst hn
    cases hr : cutRound line with
    | done out =>
      rw [(cutRound_of_done hr).1]
      exact hdone hr h
    | again next =>
      rw [(cutRound_of_again hr).1]
      exact ih _ (openings_of_again hr) (hagain hr h) rfl

theorem ruleless_cutRules (line : List Char) : Ruleless (cutRules line) :=
  cutRules_of_rounds (P := fun _ => True) (fun _ _ => trivial)
    (fun hr _ => (cutRound_of_done hr).2.1) trivial

theorem isLineBreak_of_mem_cutRules (h : ∀ c ∈ line, Text.isLineBreak c = false) :
    ∀ c ∈ cutRules line, Text.isLineBreak c = false := by
  refine cutRules_of_rounds (P := fun l => ∀ c ∈ l, Text.isLineBreak c = false)
    (Q := fun l => ∀ c ∈ l, Text.isLineBreak c = false) (fun hr h c hc => ?_) (fun hr h c hc => ?_) h
  · obtain ⟨-, before, key, inner, after, rfl, -, -, rfl⟩ := cutRound_of_again hr
    rcases List.mem_append.1 hc with hc | hc
    · exact h c (List.mem_append_left _ ((Text.trimRight_prefix before).subset hc))
    · rcases List.mem_cons.1 hc with rfl | hc
      · decide
      · have hm := (List.dropWhile_suffix Text.isBlank).subset hc
        exact h c (by simp [hm])
  · exact h c ((cutRound_of_done hr).2.2.subset hc)

/-! ## lines of prose -/

/-- not empty, without white space around it, on one line, and without a chain or a rule -/
structure Bare (s : String) : Prop where
  ne_empty : s ≠ ""
  trimmed : Text.Str.trim s = s
  line : ∀ c ∈ s.toList, Text.isLineBreak c = false
  chainless : ¬chainMark <:+: s.toList
  ruleless : Ruleless s.toList

/-- of the line without rules, what is before its chain is left, trimmed -/
theorem exists_cutDirectives (line : List Char) :
    ∃ front, front <+: cutRules line ∧ ¬chainMark <:+: front ∧
      cutDirectives line = Text.trim front := by
  cases hb : Text.breakOn? chainMark (cutRules line) with
  | none =>
    refine ⟨cutRules line, List.prefix_rfl, Text.not_infix_of_breakOn?_eq_none hb, ?_⟩
    rw [cutDirectives, hb]
    rfl
  | some r =>
    have hcut := Text.breakOn?_eq_some hb
    rw [List.append_assoc] at hcut
    refine ⟨r.1, ⟨_, hcut.symm⟩, Text.not_infix_of_breakOn? (by decide) hb, ?_⟩
    rw [cutDirectives, hb]
    rfl

theorem bareLine_isInfix (line : List Char) : bareLine line <:+: line := by
  unfold bareLine
  dsimp only
  split
  · next rest hd =>
    have hr : rest <:+: Text.trim line := ⟨_, [], by
      rw [Text.dropStart?_eq_some_iff.1 hd, List.append_nil]⟩
    exact ((Text.trim_infix rest).trans hr).trans (Text.trim_infix line)
  · exact Text.trim_infix line

theorem bare_cutDirectives (h : ∀ c ∈ line, Text.isLineBreak c = false)
    (hn : cutDirectives line ≠ []) : Bare (String.ofList (cutDirectives line)) := by
  obtain ⟨front, hf, hchain, he⟩ := exists_cutDirectives line
  have hi : cutDirectives line <:+: cutRules line := he ▸ (Text.trim_infix front).trans hf.isInfix
  constructor
  case ne_empty => exact mt String.ofList_eq_empty_iff.1 hn
  case trimmed => rw [Text.Str.trim, String.toList_ofList, he, Text.trim_trim]
  all_goals rw [String.toList_ofList]
  case line => exact fun c hc => isLineBreak_of_mem_cutRules h c (hi.subset hc)
  case chainless => exact fun hm => hchain (hm.trans (he ▸ Text.trim_infix front))
  case ruleless => exact (ruleless_cutRules line).mono hi

theorem bare_of_mem_prose {doc s : String} (hs : s ∈ prose doc) : Bare s := by
  obtain ⟨cut, hcut, rfl⟩ := List.mem_map.1 hs
  obtain ⟨hm, hn⟩ := List.mem_filter.1 hcut
  obtain ⟨line, hl, rfl⟩ := List.mem_map.1 hm
  have hline := Text.isLineBreak_of_mem_splitLines hl
  exact bare_cutDirectives (fun c hc => hline c ((bareLine_isInfix line).subset hc))
    (of_decide_eq_true hn)

/-- **Cutting** comes to an end on every line, after no more rounds than one for each rule that the
line opens and a last one, and every line of prose is bare. -/
theorem prose_bare :
    (∀ (line : List Char) (n : Nat), openings line < n → cutWithin n line = some (cutRules line)) ∧
      ∀ (doc : String), ∀ s ∈ prose doc, Bare s :=
  ⟨fun _ _ => cutWithin_eq, fun _ _ => bare_of_mem_prose⟩

/-- a rule inside the beginning of another, one behind them, and a chain -/
def nested : String :=
  "/// Slug @crud.@crud.list.x(\"a)\")create.omit([a]) of @crud.list.y() a post @zod.min(3)"

/-- What stands around the first rule would be another rule if it were joined without a space. -/
theorem prose_bare_nested :
    openings (bareLine nested.toList) < 3 ∧ cutWithin 2 (bareLine nested.toList) = none ∧
      cutRules (bareLine nested.toList) =
        "Slug @crud. create.omit([a]) of a post @zod.min(3)".toList ∧
      "Slug @crud. create.omit([a]) of a post" ∈ prose nested ∧
      Bare "Slug @crud. create.omit([a]) of a post" := by
  have hopen : openings (bareLine nested.toList) < 3 := by decide +kernel
  have hcut : cutWithin 3 (bareLine nested.toList) =
      some "Slug @crud. create.omit([a]) of a post @zod.min(3)".toList := by decide +kernel
  have hmem : "Slug @crud. create.omit([a]) of a post" ∈ prose nested := by decide +kernel
  exact ⟨hopen, by decide +kernel, Option.some.inj ((prose_bare.1 _ 3 hopen).symm.trans hcut), hmem,
    prose_bare.2 nested _ hmem⟩

end Annotations

end ZodSchema
