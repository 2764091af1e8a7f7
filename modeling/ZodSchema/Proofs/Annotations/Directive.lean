import Mathlib.Data.List.TakeWhile
import ZodSchema.Annotations.Directive
import ZodSchema.Proofs.Annotations.Paren
import ZodSchema.Proofs.Text.Chars

/-!
# Rules as they are written

A rule is written as its key and, in parentheses, its arguments.  Rules are looked for at every
place of a text, also inside the arguments of a rule that was found.

* `eq_append_of_closingFrom`, `closingFrom_append_iff`   where a search ends, and what it looks at
* `enclosed?_eq_some_iff`   what stands inside the parentheses
* `ruleAt?_eq_some_iff`     the key at the head of a text
* `Rule.text`, `Rule.Balanced`   a rule written out, and whether its parentheses enclose its arguments
* `mem_scanRules_iff`       the rules of a text
* `scanRulesIn_text`        the rules of a text with a rule at its head
* `scanRules_text_iff`      when a rule is all that is read of its own text
-/

namespace ZodSchema.Annotations

variable {q : Quoting} {d : Int} {c : Char} {cs key inner after rest : List Char} {n : Nat}

/-! ## the closing parenthesis -/

/-- the search ends at a closing parenthesis -/
theorem eq_append_of_closingFrom (h : closingFrom d q cs = some n) :
    ∃ inner after, cs = inner ++ ')' :: after ∧ inner.length = n := by
  induction cs generalizing d q n with
  | nil => cases h
  | cons c cs ih =>
    rw [closingFrom_cons] at h
    split at h
    · next hc =>
      obtain rfl := Option.some.inj h
      exact ⟨[], cs, by rw [hc.2.1]; rfl, rfl⟩
    · obtain ⟨k, hk, rfl⟩ := Option.map_eq_some_iff.1 h
      obtain ⟨inner, after, rfl, rfl⟩ := ih hk
      exact ⟨c :: inner, after, rfl, rfl⟩

/-- what stands behind the place does not matter -/
theorem closingFrom_append_iff (rest : List Char) (hn : n < cs.length) :
    closingFrom d q (cs ++ rest) = some n ↔ closingFrom d q cs = some n := by
  induction cs generalizing d q n with
  | nil => exact absurd hn (Nat.not_lt_zero n)
  | cons c cs ih =>
    rw [List.cons_append, closingFrom_cons, closingFrom_cons]
    split
    · exact Iff.rfl
    · simp only [Option.map_eq_some_iff]
      constructor
      · rintro ⟨k, hk, rfl⟩
        exact ⟨k, (ih (Nat.lt_of_succ_lt_succ hn)).1 hk, rfl⟩
      · rintro ⟨k, hk, rfl⟩
        exact ⟨k, (ih (Nat.lt_of_succ_lt_succ hn)).2 hk, rfl⟩

/-- up to the place itself, nothing closes -/
theorem closingFrom_eq_none (hp : cs <+: rest) (hn : cs.length ≤ n)
    (h : closingFrom d q rest = some n) : closingFrom d q cs = none := by
  obtain ⟨t, rfl⟩ := hp
  rw [Option.eq_none_iff_forall_ne_some]
  intro k hk
  obtain ⟨inner, after, rfl, rfl⟩ := eq_append_of_closingFrom hk
  have hlt : inner.length < (inner ++ ')' :: after).length := by simp
  rw [(closingFrom_append_iff t hlt).2 hk] at h
  have := Option.some.inj h
  omega

theorem closing?_paren (cs : List Char) :
    closing? ('(' :: cs) = (closingFrom 1 none cs).map (· + 1) := rfl

theorem closing?_call_iff {inner : List Char} :
    closing? ('(' :: (inner ++ [')'])) = some (inner.length + 1) ↔
      closingFrom 1 none (inner ++ [')']) = some inner.length := by
  rw [closing?_paren, Option.map_eq_some_iff]
  constructor
  · rintro ⟨k, hk, he⟩
    rw [hk, Nat.succ.inj he]
  · exact fun h => ⟨_, h, rfl⟩

theorem enclosed?_eq_some_iff :
    enclosed? ('(' :: cs) = some (inner, after) ↔
      cs = inner ++ ')' :: after ∧ closing? ('(' :: (inner ++ [')'])) = some (inner.length + 1) := by
  have hcut : ∀ as bs : List Char, ((('(' :: (as ++ ')' :: bs)).take (as.length + 1)).drop 1,
      ('(' :: (as ++ ')' :: bs)).drop (as.length + 1 + 1)) = (as, bs) := by
    intro as bs
    simp
  have happ : ∀ as bs : List Char, closingFrom 1 none (as ++ ')' :: bs) = some as.length ↔
      closingFrom 1 none (as ++ [')']) = some as.length := by
    intro as bs
    have hsplit : as ++ ')' :: bs = (as ++ [')']) ++ bs := by simp
    rw [hsplit, closingFrom_append_iff bs (by simp)]
  unfold enclosed?
  rw [closing?_paren, Option.map_map, Option.map_eq_some_iff, closing?_call_iff]
  constructor
  · rintro ⟨k, hk, he⟩
    obtain ⟨as, bs, rfl, rfl⟩ := eq_append_of_closingFrom hk
    obtain ⟨rfl, rfl⟩ := Prod.mk.inj ((hcut as bs).symm.trans he)
    exact ⟨rfl, (happ as bs).1 hk⟩
  · rintro ⟨rfl, hk⟩
    exact ⟨inner.length, (happ inner after).2 hk, hcut inner after⟩

/-! ## keys -/

/-- a letter or an underscore, then word characters and dots -/
def IsKey (key : List Char) : Prop :=
  ∃ c cs, key = c :: cs ∧ isKeyStart c = true ∧ ∀ x ∈ cs, isKeyRest x = true

/-- a character that may stand nowhere in a key -/
theorem IsKey.not_mem (h : IsKey key) (hs : isKeyStart c = false) (hr : isKeyRest c = false) :
    c ∉ key := by
  obtain ⟨x, xs, rfl, hx, hxs⟩ := h
  intro hm
  rcases List.mem_cons.1 hm with rfl | hm
  · exact Bool.false_ne_true (hs.symm.trans hx)
  · exact Bool.false_ne_true (hr.symm.trans (hxs _ hm))

theorem IsKey.at_not_mem (h : IsKey key) : '@' ∉ key := h.not_mem (by decide) (by decide)

theorem IsKey.space_not_mem (h : IsKey key) : ' ' ∉ key := h.not_mem (by decide) (by decide)

/-- the key of a rule reaches up to its parenthesis -/
theorem ruleAt?_key (h : IsKey key) (rest : List Char) :
    ruleAt? (ruleMark ++ (key ++ '(' :: rest)) = some (key, '(' :: rest) := by
  obtain ⟨c, cs, rfl, hc, hcs⟩ := h
  have hp : isKeyRest '(' = false := by decide
  unfold ruleAt?
  rw [Text.dropStart?_eq_some_iff.2 rfl, List.cons_append]
  dsimp only
  rw [hc, Text.dropWhile_run hcs hp, Text.takeWhile_run hcs hp]
  rfl

theorem ruleAt?_eq_some_iff :
    ruleAt? cs = some (key, rest) ↔
      IsKey key ∧ ∃ tail, rest = '(' :: tail ∧ cs = ruleMark ++ (key ++ '(' :: tail) := by
  constructor
  · intro h
    unfold ruleAt? at h
    split at h
    · next c cs' hd =>
      split at h
      · next tail hc ht =>
        obtain ⟨rfl, rfl⟩ := Prod.mk.inj (Option.some.inj h)
        refine ⟨⟨c, _, rfl, hc, fun x hx => List.mem_takeWhile_imp hx⟩, tail, rfl, ?_⟩
        rw [Text.dropStart?_eq_some_iff.1 hd, List.cons_append, ← ht, List.takeWhile_append_dropWhile]
      · cases h
    · cases h
  · rintro ⟨hk, tail, rfl, rfl⟩
    exact ruleAt?_key hk tail

/-! ## rules -/

namespace Rule

variable {r : Rule}

/-- a rule written out, its arguments as they are -/
def text (r : Rule) : String := "@crud." ++ r.key ++ "(" ++ r.args ++ ")"

/-- the rule as it is read -/
def read (r : Rule) : Rule := ⟨r.key, Text.Str.trim r.args⟩

/-- a key, and arguments up to the parenthesis that closes the first one -/
structure Balanced (r : Rule) : Prop where
  key : IsKey r.key.toList
  closes : closingAt? r.text.toList (ruleMark ++ r.key.toList).length =
    some (r.text.toList.length - 1 : Int)

theorem toList_text (r : Rule) :
    r.text.toList = ruleMark ++ (r.key.toList ++ '(' :: (r.args.toList ++ [')'])) := by
  unfold text
  simp only [String.toList_append, List.append_assoc]
  rfl

theorem toList_text_append (r : Rule) (rest : List Char) : r.text.toList ++ rest =
    ruleMark ++ (r.key.toList ++ '(' :: (r.args.toList ++ ')' :: rest)) := by
  rw [toList_text]
  simp only [List.append_assoc, List.cons_append, List.nil_append]

theorem Balanced.closing (h : r.Balanced) :
    closing? ('(' :: (r.args.toList ++ [')'])) = some (r.args.toList.length + 1) := by
  have hc := h.closes
  rw [toList_text, ← List.append_assoc, closingAt?_append] at hc
  obtain ⟨k, hk, he⟩ := Option.map_eq_some_iff.1 hc
  simp only [List.length_append, List.length_cons, List.length_nil] at he
  rw [hk]
  exact congrArg some (by omega)

theorem balanced_of_closing (hk : IsKey r.key.toList)
    (hc : closing? ('(' :: (r.args.toList ++ [')'])) = some (r.args.toList.length + 1)) :
    r.Balanced := by
  refine ⟨hk, ?_⟩
  rw [toList_text, ← List.append_assoc, closingAt?_append, hc]
  refine congrArg some ?_
  simp only [List.length_append, List.length_cons, List.length_nil]
  omega

end Rule

theorem balancedRuleAt?_eq_some_iff {e : Rule} :
    balancedRuleAt? cs = some e ↔
      ∃ r : Rule, r.Balanced ∧ r.text.toList <+: cs ∧ r.read = e := by
  constructor
  · intro h
    unfold balancedRuleAt? at h
    split at h
    · next key rest hr =>
      obtain ⟨hk, tail, rfl, rfl⟩ := ruleAt?_eq_some_iff.1 hr
      obtain ⟨⟨inner, after⟩, he, rfl⟩ := Option.map_eq_some_iff.1 h
      obtain ⟨rfl, hc⟩ := enclosed?_eq_some_iff.1 he
      refine ⟨⟨String.ofList key, String.ofList inner⟩, ?balanced, ⟨after, ?text⟩, ?read⟩
      case balanced =>
        refine Rule.balanced_of_closing ?_ ?_
        · rwa [String.toList_ofList]
        · rwa [String.toList_ofList]
      case text =>
        rw [Rule.toList_text, String.toList_ofList, String.toList_ofList]
        simp only [List.append_assoc, List.cons_append, List.nil_append]
      case read =>
        unfold Rule.read Text.Str.trim
        rw [String.toList_ofList]
    · cases h
  · rintro ⟨r, hb, ⟨after, rfl⟩, rfl⟩
    unfold balancedRuleAt?
    rw [Rule.toList_text_append, ruleAt?_key hb.key]
    dsimp only
    rw [enclosed?_eq_some_iff.2 ⟨rfl, hb.closing⟩, Option.map_some, String.ofList_toList]
    rfl

/-! ## the rules of a text -/

theorem mem_scanRulesIn_iff {e : Rule} :
    e ∈ scanRulesIn cs ↔ ∃ r : Rule, r.Balanced ∧ r.text.toList <:+: cs ∧ r.read = e := by
  induction cs with
  | nil =>
    refine ⟨fun h => absurd h List.not_mem_nil, ?_⟩
    rintro ⟨r, -, hi, -⟩
    rw [Rule.toList_text] at hi
    cases List.eq_nil_of_infix_nil hi
  | cons c cs ih =>
    rw [scanRulesIn, List.mem_append, Option.mem_toList,
      balancedRuleAt?_eq_some_iff, ih]
    constructor
    · rintro (⟨r, hb, hp, rfl⟩ | ⟨r, hb, hi, rfl⟩)
      · exact ⟨r, hb, hp.isInfix, rfl⟩
      · exact ⟨r, hb, List.infix_cons hi, rfl⟩
    · rintro ⟨r, hb, hi, rfl⟩
      rcases List.infix_cons_iff.1 hi with hp | hi
      · exact Or.inl ⟨r, hb, hp, rfl⟩
      · exact Or.inr ⟨r, hb, hi, rfl⟩

/-- **Rules of a text**: the balanced ones that are written anywhere in it. -/
theorem mem_scanRules_iff {doc : String} {e : Rule} :
    e ∈ scanRules doc ↔ ∃ r : Rule, r.Balanced ∧ r.text.toList <:+: doc.toList ∧ r.read = e :=
  mem_scanRulesIn_iff

/-- rules begin with an at sign -/
theorem scanRulesIn_append_of_not_mem (h : '@' ∉ cs) (rest : List Char) :
    scanRulesIn (cs ++ rest) = scanRulesIn rest := by
  induction cs with
  | nil => rfl
  | cons c cs ih =>
    have hc : '@' ≠ c := fun e => h (e ▸ List.mem_cons_self)
    have hd : Text.dropStart? ruleMark (c :: (cs ++ rest)) = none := if_neg hc
    rw [List.cons_append, scanRulesIn, ih fun hm => h (List.mem_cons_of_mem _ hm),
      balancedRuleAt?, ruleAt?, hd]
    rfl

theorem scanRulesIn_eq_nil (h : '@' ∉ cs) : scanRulesIn cs = [] := by
  rw [← List.append_nil cs, scanRulesIn_append_of_not_mem h]
  rfl

/-- a balanced rule is read, and after it those inside its arguments and behind it -/
theorem scanRulesIn_text {r : Rule} (h : r.Balanced) (rest : List Char) :
    scanRulesIn (r.text.toList ++ rest) =
      r.read :: scanRulesIn (r.args.toList ++ ')' :: rest) := by
  have hb : balancedRuleAt? (r.text.toList ++ rest) = some r.read :=
    balancedRuleAt?_eq_some_iff.2 ⟨r, h, List.prefix_append _ _, rfl⟩
  have ht : r.text.toList ++ rest =
      '@' :: ("crud.".toList ++ r.key.toList ++ ['('] ++ (r.args.toList ++ ')' :: rest)) := by
    rw [Rule.toList_text_append]
    simp only [List.append_assoc, List.cons_append, List.nil_append]
    rfl
  have hat : '@' ∉ "crud.".toList ++ r.key.toList ++ ['('] := by
    simp only [List.mem_append, not_or]
    exact ⟨⟨by decide, h.key.at_not_mem⟩, by decide⟩
  rw [ht] at hb ⊢
  rw [scanRulesIn, hb, scanRulesIn_append_of_not_mem hat]
  rfl

/-- the rule is read first, and then whatever rules its arguments and the closing parenthesis hold -/
theorem scanRules_eq_cons {r : Rule} (h : r.Balanced) :
    scanRules r.text = r.read :: scanRules (r.args ++ ")") := by
  have ht := scanRulesIn_text h []
  rw [List.append_nil] at ht
  unfold scanRules
  rw [ht, String.toList_append]
  rfl

/-- **Arguments are searched as well.**  Of the text of a balanced rule this rule is read first, and
then whatever rules are written in its arguments and the closing parenthesis; it is the only one if
and only if no balanced rule is written there. -/
theorem scanRules_text_iff {r : Rule} (h : r.Balanced) :
    scanRules r.text = r.read :: scanRules (r.args ++ ")") ∧
      (scanRules r.text = [r.read] ↔
        ∀ e : Rule, e.Balanced → ¬e.text.toList <:+: (r.args ++ ")").toList) := by
  have hs := scanRules_eq_cons h
  refine ⟨hs, ?_⟩
  rw [hs, List.cons_eq_cons, List.eq_nil_iff_forall_not_mem]
  simp only [true_and, mem_scanRules_iff]
  constructor
  · exact fun hno e he hi => hno e.read ⟨e, he, hi, rfl⟩
  · rintro hno _ ⟨e, he, hi, -⟩
    exact hno e he hi

/-- a rule with the beginning of another in quotes, which does not close -/
def reminder : Rule := ⟨"update.refine", " \"see (@crud.list.filters(\" "⟩

theorem scanRules_text_reminder :
    reminder.Balanced ∧ scanRules reminder.text = [⟨"update.refine", "\"see (@crud.list.filters(\""⟩] ∧
      ∀ e : Rule, e.Balanced → ¬e.text.toList <:+: (reminder.args ++ ")").toList := by
  have hb : reminder.Balanced :=
    Rule.balanced_of_closing ⟨'u', "pdate.refine".toList, rfl, by decide,
      List.all_eq_true.1 (by decide)⟩ (by decide)
  have hs : scanRules reminder.text = [reminder.read] := by decide +kernel
  have hr : reminder.read = ⟨"update.refine", "\"see (@crud.list.filters(\""⟩ := by decide +kernel
  exact ⟨hb, hs.trans (congrArg ([·]) hr), (scanRules_text_iff hb).2.1 hs⟩

/-- a rule with another one in quotes -/
def advice : Rule := ⟨"create.refine", "\"use @crud.update.omit([slug]) for it\""⟩

/-- The rule in quotes is read as well. -/
theorem scanRules_advice :
    advice.Balanced ∧ scanRules advice.text ≠ [advice.read] ∧
      scanRules advice.text = [advice.read, ⟨"update.omit", "[slug]"⟩] := by
  have hb : advice.Balanced :=
    Rule.balanced_of_closing ⟨'c', "reate.refine".toList, rfl, by decide,
      List.all_eq_true.1 (by decide)⟩ (by decide)
  exact ⟨hb, by decide +kernel, by decide +kernel⟩

end ZodSchema.Annotations
