import ZodSchema.Annotations.Prose
import ZodSchema.Proofs.Annotations.Directive
import ZodSchema.Proofs.Text.Literal

/-!
# Prose around a rule

Rules are looked for in a whole documentation and cut from its lines one by one, after its type
directive was cut out.  A rule over several lines is therefore read and not cut.

* `Text.exists_splitLines`   the first line of a text
* `withoutType_between`      the type directive of a text is that of its rule
* `cutDirectives_between`, `cutDirectives_open`   a line with a rule, and one with a part of a rule
* `IsProse`                  one line of text without directives
* `prose_text_iff`           when a rule between prose leaves the prose alone
-/

namespace ZodSchema

namespace Text

variable {cs as rest pat : List Char} {c x : Char}

/-! ## lines -/

theorem isBlank_of_isLineBreak (h : isLineBreak c = true) : isBlank c = true := by
  unfold isBlank
  obtain ⟨r, hr, h1, h2⟩ := (inRanges_iff _ _).1 h
  rw [inRanges_iff]
  simp only [List.mem_cons, List.not_mem_nil, or_false] at hr
  rcases hr with rfl | rfl | rfl | rfl
  · exact ⟨(0x9, 0xD), by decide, Nat.le_trans (by decide) h1, h2⟩
  · exact ⟨(0x1C, 0x20), by decide, h1, Nat.le_trans h2 (by decide)⟩
  · exact ⟨(0x85, 0x85), by decide, h1, h2⟩
  · exact ⟨(0x2028, 0x2029), by decide, h1, h2⟩

theorem splitLinesFrom_cons (acc rest : List Char) (h : isLineBreak c = false) :
    splitLinesFrom acc (c :: rest) = splitLinesFrom (c :: acc) rest := by
  rw [splitLinesFrom, h]
  · rfl
  · rintro _ rfl _
    exact absurd h (by decide)

/-- characters that end no line go to the open line -/
theorem splitLinesFrom_append (acc rest : List Char) (h : ∀ c ∈ cs, isLineBreak c = false) :
    splitLinesFrom acc (cs ++ rest) = splitLinesFrom (cs.reverse ++ acc) rest := by
  induction cs generalizing acc with
  | nil => rfl
  | cons c cs ih =>
    obtain ⟨hc, hcs⟩ := List.forall_mem_cons.1 h
    rw [List.cons_append, splitLinesFrom_cons _ _ hc, ih _ hcs, List.reverse_cons, List.append_assoc]
    rfl

theorem splitLines_line (hn : cs ≠ []) (h : ∀ c ∈ cs, isLineBreak c = false) :
    splitLines cs = [cs] := by
  have hs := splitLinesFrom_append [] [] h
  rw [List.append_nil, List.append_nil] at hs
  unfold splitLines
  rw [hs, splitLinesFrom, List.reverse_reverse]
  exact fun he => hn (List.reverse_eq_nil_iff.1 he)

/-- a line reaches up to the first break -/
theorem exists_splitLines (rest : List Char) (h : ∀ c ∈ cs, isLineBreak c = false)
    (hx : isLineBreak x = true) : ∃ ls, splitLines (cs ++ x :: rest) = cs :: ls := by
  unfold splitLines
  rw [splitLinesFrom_append _ _ h, List.append_nil]
  unfold splitLinesFrom
  split
  · next he => cases he
  · next he _ => cases he
  · next he =>
    rw [List.reverse_reverse]
    exact ⟨_, rfl⟩
  · next c' cs' _ he =>
    obtain ⟨rfl, rfl⟩ := List.cons.inj he
    rw [if_pos hx, List.reverse_reverse]
    exact ⟨_, rfl⟩

/-! ## trimmed texts -/

theorem head?_of_dropWhile_eq {q : Char → Bool} (h : cs.dropWhile q = cs) :
    ∀ c ∈ cs.head?, q c = false := by
  intro c hc
  cases cs with
  | nil => cases hc
  | cons c' cs =>
    obtain rfl := Option.some.inj hc
    rw [List.dropWhile_cons] at h
    split at h
    · have hl := (List.dropWhile_suffix (l := cs) q).length_le
      rw [h, List.length_cons] at hl
      omega
    · next hq => exact Bool.eq_false_iff.2 hq

theorem trimLeft_of_trim_eq (h : trim cs = cs) : trimLeft cs = cs := by
  have hr := Annotations.trimRight_length (trimLeft cs)
  have hl := Annotations.trimLeft_length cs
  have he := congrArg List.length h
  unfold trim at he
  exact (List.dropWhile_suffix isBlank).eq_of_length (Nat.le_antisymm hl (he ▸ hr))

theorem trimLeft_of_head? (h : ∀ c ∈ cs.head?, isBlank c = false) : trimLeft cs = cs := by
  cases cs with
  | nil => rfl
  | cons c cs => exact List.dropWhile_cons_of_neg (by rw [h c rfl]; decide)

theorem head?_of_trim_eq (h : trim cs = cs) : ∀ c ∈ cs.head?, isBlank c = false :=
  head?_of_dropWhile_eq (trimLeft_of_trim_eq h)

theorem getLast?_of_trim_eq (h : trim cs = cs) : ∀ c ∈ cs.getLast?, isBlank c = false := by
  have hr : trimRight cs = cs := by
    unfold trim at h
    rwa [trimLeft_of_trim_eq h] at h
  rw [← List.head?_reverse]
  exact head?_of_dropWhile_eq (List.reverse_eq_iff.1 hr)

/-! ## search -/

theorem breakOn?_append_of_not_mem (pat rest : List Char) (h : x ∉ cs) :
    breakOn? (x :: pat) (cs ++ rest) =
      (breakOn? (x :: pat) rest).map fun r => (cs ++ r.1, r.2) := by
  induction cs with
  | nil =>
    show _ = (breakOn? (x :: pat) rest).map id
    rw [Option.map_id]
    rfl
  | cons c cs ih =>
    obtain ⟨hc, hcs⟩ := not_or.1 (mt List.mem_cons.2 h)
    have hd : dropStart? (x :: pat) (c :: (cs ++ rest)) = none := if_neg hc
    rw [List.cons_append, breakOn?, hd, ih hcs, Option.map_map]
    rfl

theorem breakOn?_eq_none (pat : List Char) (h : x ∉ cs) : breakOn? (x :: pat) cs = none := by
  have hb := breakOn?_append_of_not_mem pat [] h
  rw [List.append_nil] at hb
  rw [hb]
  rfl

/-- a pattern does not reach over a character that it does not have -/
theorem dropStart?_append (cs rest : List Char) (h : x ∉ pat) :
    dropStart? pat (cs ++ x :: rest) = (dropStart? pat cs).map (· ++ x :: rest) := by
  induction pat generalizing cs with
  | nil => rfl
  | cons p pat ih =>
    obtain ⟨hp, hpat⟩ := not_or.1 (mt List.mem_cons.2 h)
    cases cs with
    | nil => exact if_neg (Ne.symm hp)
    | cons c cs =>
      rw [List.cons_append, dropStart?, dropStart?]
      split
      · exact ih cs hpat
      · rfl

theorem breakOn?_append (hp : pat ≠ []) (h : x ∉ pat) (hr : breakOn? pat rest = none) :
    breakOn? pat (cs ++ x :: rest) = (breakOn? pat cs).map fun r => (r.1, r.2 ++ x :: rest) := by
  induction cs with
  | nil =>
    have hd := dropStart?_append [] rest h
    have hn : dropStart? pat [] = none := by
      cases pat with
      | nil => exact absurd rfl hp
      | cons p pat => rfl
    rw [hn, List.nil_append] at hd
    have hx : breakOn? pat (x :: rest) = none := by
      rw [breakOn?, hd, hr]
      rfl
    rw [List.nil_append, hx, breakOn?, if_neg hp]
    rfl
  | cons c cs ih =>
    have hd := dropStart?_append (c :: cs) rest h
    rw [List.cons_append] at hd
    rw [List.cons_append, breakOn?, hd, breakOn?]
    cases dropStart? pat (c :: cs) with
    | some r => rfl
    | none =>
      show (breakOn? pat (cs ++ x :: rest)).map _ = _
      rw [ih, Option.map_map]
      show _ = ((breakOn? pat cs).map _).map _
      rw [Option.map_map]
      rfl

end Text

namespace Annotations

variable {p s a cs key inner after : List Char} {r : Rule}

/-! ## the type directive -/

theorem enclosed?_append {t : List Char} (ht : ')' ∉ t) :
    enclosed? ('(' :: (cs ++ t)) = (enclosed? ('(' :: cs)).map fun r => (r.1, r.2 ++ t) := by
  ext ⟨inner, after⟩
  simp only [enclosed?_eq_some_iff, Option.map_eq_some_iff, Prod.exists, Prod.mk.injEq]
  constructor
  · rintro ⟨he, hc⟩
    rcases List.append_eq_append_iff.1 he with ⟨u, rfl, hu⟩ | ⟨u, hu, hs⟩
    · exact absurd (hu ▸ List.mem_append_right u List.mem_cons_self) ht
    · cases u with
      | nil =>
        rw [List.nil_append] at hs
        exact absurd (hs ▸ List.mem_cons_self) ht
      | cons c u =>
        obtain ⟨rfl, rfl⟩ := List.cons.inj hs
        exact ⟨inner, u, ⟨hu, hc⟩, rfl, rfl⟩
  · rintro ⟨i, u, ⟨rfl, hc⟩, rfl, rfl⟩
    exact ⟨by simp, hc⟩

theorem breakOn?_between (hp : '@' ∉ p) (hs : '@' ∉ s) (cs : List Char) :
    Text.breakOn? (typeMark ++ ['(']) (p ++ ' ' :: (cs ++ ' ' :: s)) =
      (Text.breakOn? (typeMark ++ ['(']) cs).map fun t => (p ++ ' ' :: t.1, t.2 ++ ' ' :: s) := by
  have hmark : typeMark ++ ['('] = '@' :: "kyselyType(".toList := by decide
  have hp' : '@' ∉ p ++ [' '] := by simpa using hp
  have hsplit : p ++ ' ' :: (cs ++ ' ' :: s) = (p ++ [' ']) ++ (cs ++ ' ' :: s) := by simp
  have hspace : ' ' ∉ '@' :: "kyselyType(".toList := by decide
  have hnone : Text.breakOn? ('@' :: "kyselyType(".toList) s = none := Text.breakOn?_eq_none _ hs
  rw [hmark, hsplit, Text.breakOn?_append_of_not_mem _ _ hp',
    Text.breakOn?_append (List.cons_ne_nil _ _) hspace hnone, Option.map_map]
  cases Text.breakOn? ('@' :: "kyselyType(".toList) cs with
  | none => rfl
  | some t =>
    show some _ = some _
    simp only [Function.comp_apply, List.append_assoc, List.cons_append, List.nil_append]

theorem typeParts?_between (hp : '@' ∉ p) (hs : '@' ∉ s) (hc : ')' ∉ s) (cs : List Char) :
    typeParts? (p ++ ' ' :: (cs ++ ' ' :: s)) =
      (typeParts? cs).map fun t => (p ++ ' ' :: t.1, t.2.1, t.2.2 ++ ' ' :: s) := by
  have hc' : ')' ∉ ' ' :: s := by simpa using hc
  unfold typeParts?
  rw [breakOn?_between hp hs]
  cases Text.breakOn? (typeMark ++ ['(']) cs with
  | none => rfl
  | some t =>
    show (enclosed? ('(' :: (t.2 ++ ' ' :: s))).map _ = ((enclosed? ('(' :: t.2)).map _).map _
    rw [enclosed?_append hc', Option.map_map, Option.map_map]
    rfl

/-- no type directive ends or begins outside the rule -/
theorem withoutType_between (hp : '@' ∉ p) (hs : '@' ∉ s) (hc : ')' ∉ s) (cs : List Char) :
    withoutType (p ++ ' ' :: (cs ++ ' ' :: s)) = p ++ ' ' :: (withoutType cs ++ ' ' :: s) := by
  unfold withoutType
  rw [typeParts?_between hp hs hc]
  cases typeParts? cs with
  | none => rfl
  | some t =>
    dsimp only [Option.map_some]
    split
    · rfl
    · simp

/-! ## cutting a line -/

theorem firstRule?_append_of_not_mem (h : '@' ∉ cs) (rest : List Char) :
    firstRule? (cs ++ rest) = (firstRule? rest).map fun r => (cs ++ r.1, r.2) := by
  induction cs with
  | nil =>
    show _ = (firstRule? rest).map id
    rw [Option.map_id]
    rfl
  | cons c cs ih =>
    obtain ⟨hc, hcs⟩ := not_or.1 (mt List.mem_cons.2 h)
    have hd : Text.dropStart? ruleMark (c :: (cs ++ rest)) = none := if_neg hc
    have hr : ruleAt? (c :: (cs ++ rest)) = none := by
      unfold ruleAt?
      rw [hd]
    rw [List.cons_append, firstRule?, hr, ih hcs, Option.map_map]
    rfl

theorem firstRule?_eq_none (h : '@' ∉ cs) : firstRule? cs = none := by
  have hf := firstRule?_append_of_not_mem h []
  rw [List.append_nil] at hf
  rw [hf]
  rfl

/-- the first rule of a line behind prose -/
theorem firstRule?_prose (hp : '@' ∉ p) (hk : IsKey key) (rest : List Char) :
    firstRule? (p ++ ' ' :: (ruleMark ++ (key ++ '(' :: rest))) = some (p ++ [' '], '(' :: rest) := by
  have hp' : '@' ∉ p ++ [' '] := by simpa using hp
  have hhead : firstRule? (ruleMark ++ (key ++ '(' :: rest)) = some ([], '(' :: rest) := by
    have hr := ruleAt?_key hk rest
    have hm : ruleMark ++ (key ++ '(' :: rest) = '@' :: ("crud.".toList ++ (key ++ '(' :: rest)) := rfl
    rw [hm] at hr ⊢
    rw [firstRule?, hr]
  have hsplit : p ++ ' ' :: (ruleMark ++ (key ++ '(' :: rest)) =
      (p ++ [' ']) ++ (ruleMark ++ (key ++ '(' :: rest)) := by simp
  rw [hsplit, firstRule?_append_of_not_mem hp', hhead, Option.map_some, List.append_nil]

/-- one round of cutting, without the facts that its recursion goes by -/
theorem cutRules_eq (line : List Char) : cutRules line =
    match firstRule? line with
    | none => line
    | some (before, rest) =>
      match enclosed? rest with
      | none => before
      | some (_, after) => cutRules (Text.trimRight before ++ ' ' :: Text.trimLeft after) := by
  rw [cutRules]
  split
  · next hf => rw [hf]
  · next hf =>
    rw [hf]
    dsimp only
    split <;> next he => rw [he]

theorem cutRules_of_none (h : firstRule? cs = none) : cutRules cs = cs := by
  rw [cutRules_eq, h]

theorem cutRules_of_open {before rest : List Char} (h : firstRule? cs = some (before, rest))
    (he : enclosed? rest = none) : cutRules cs = before := by
  rw [cutRules_eq, h]
  dsimp only
  rw [he]

theorem cutRules_of_closed {before rest : List Char} (h : firstRule? cs = some (before, rest))
    (he : enclosed? rest = some (inner, after)) :
    cutRules cs = cutRules (Text.trimRight before ++ ' ' :: Text.trimLeft after) := by
  rw [cutRules_eq, h]
  dsimp only
  rw [he]

/-! ## one line -/

/-- one line of text without a directive and without white space around it; quotes and opening
parentheses may stand in it -/
structure IsProse (s : String) : Prop where
  ne_empty : s ≠ ""
  trimmed : Text.Str.trim s = s
  line : ∀ c ∈ s.toList, Text.isLineBreak c = false
  at_not_mem : '@' ∉ s.toList
  paren_not_mem : ')' ∉ s.toList
  slashes : Text.Str.startsWith s "///" = false

section
variable {s : String}

theorem IsProse.toList_ne_nil (h : IsProse s) : s.toList ≠ [] :=
  fun he => h.ne_empty (String.toList_inj.1 he)

theorem IsProse.trim_eq (h : IsProse s) : Text.trim s.toList = s.toList := by
  have ht := congrArg String.toList h.trimmed
  rwa [Text.Str.trim, String.toList_ofList] at ht

theorem IsProse.head? (h : IsProse s) : ∀ c ∈ s.toList.head?, Text.isBlank c = false :=
  Text.head?_of_trim_eq h.trim_eq

theorem IsProse.getLast? (h : IsProse s) : ∀ c ∈ s.toList.getLast?, Text.isBlank c = false :=
  Text.getLast?_of_trim_eq h.trim_eq

theorem IsProse.head?_append (h : IsProse s) (rest : List Char) :
    ∀ c ∈ (s.toList ++ rest).head?, Text.isBlank c = false := by
  rw [List.head?_append_of_ne_nil _ h.toList_ne_nil]
  exact h.head?

theorem IsProse.getLast?_append (h : IsProse s) (rest : List Char) :
    ∀ c ∈ (rest ++ ' ' :: s.toList).getLast?, Text.isBlank c = false := by
  have hl : (rest ++ ' ' :: s.toList).getLast? = s.toList.getLast? := by
    rw [← List.singleton_append, ← List.append_assoc, List.getLast?_append_of_ne_nil _ h.toList_ne_nil]
  rw [hl]
  exact h.getLast?

/-- prose does not get slashes in front from what follows it -/
theorem IsProse.slashes_append (h : IsProse s) (rest : List Char) :
    Text.dropStart? "///".toList (s.toList ++ ' ' :: rest) = none := by
  have hs : Text.dropStart? "///".toList s.toList = none :=
    Option.isNone_iff_eq_none.1 (Option.isSome_eq_false_iff.1 h.slashes)
  rw [Text.dropStart?_append s.toList rest (by decide), hs]
  rfl

end

section
variable {p s : String}

theorem bareLine_of {line bare : List Char} (ht : Text.trim line = bare)
    (hd : Text.dropStart? "///".toList bare = none) : bareLine line = bare := by
  unfold bareLine
  rw [ht]
  dsimp only
  rw [hd]

/-- the chain mark, like every other, begins with an at sign -/
theorem breakOn?_chainMark {cs : List Char} (h : '@' ∉ cs) : Text.breakOn? chainMark cs = none :=
  Text.breakOn?_eq_none "zod.".toList h

/-- a rule that closes is cut from its line, and the prose is joined -/
theorem cutDirectives_between (hp : IsProse p) (hs : IsProse s) (h : r.Balanced) :
    cutDirectives (p.toList ++ ' ' :: (r.text.toList ++ ' ' :: s.toList)) =
      p.toList ++ ' ' :: s.toList := by
  have hat : '@' ∉ p.toList ++ ' ' :: s.toList := by
    simp only [List.mem_append, List.mem_cons, not_or]
    exact ⟨hp.at_not_mem, by decide, hs.at_not_mem⟩
  have hclose : enclosed? ('(' :: (r.args.toList ++ ')' :: ' ' :: s.toList)) =
      some (r.args.toList, ' ' :: s.toList) := enclosed?_eq_some_iff.2 ⟨rfl, h.closing⟩
  have hjoin : Text.trimRight (p.toList ++ [' ']) ++ ' ' :: Text.trimLeft (' ' :: s.toList) =
      p.toList ++ ' ' :: s.toList := by
    have hleft : Text.trimLeft (' ' :: s.toList) = s.toList :=
      (List.dropWhile_cons_of_pos (by decide)).trans (Text.trimLeft_of_trim_eq hs.trim_eq)
    have hright : Text.trimRight [' '] = [] := by decide
    rw [Text.trimRight_append [' '] hp.getLast?, hleft, hright, List.append_nil]
  have hcut : cutRules (p.toList ++ ' ' :: (r.text.toList ++ ' ' :: s.toList)) =
      p.toList ++ ' ' :: s.toList := by
    rw [Rule.toList_text_append, cutRules_of_closed (firstRule?_prose hp.at_not_mem h.key _) hclose,
      hjoin, cutRules_of_none (firstRule?_eq_none hat)]
  have htrim : Text.trim (p.toList ++ ' ' :: s.toList) = p.toList ++ ' ' :: s.toList :=
    Text.trim_eq_self (hp.head?_append _) (hs.getLast?_append _)
  unfold cutDirectives
  rw [hcut]
  dsimp only
  rw [breakOn?_chainMark hat]
  exact htrim

/-- of a rule that does not close on its line, nothing is left, and nothing of what follows it -/
theorem cutDirectives_open {key a : List Char} (hp : IsProse p) (hk : IsKey key)
    (ha : closing? ('(' :: a) = none) :
    cutDirectives (p.toList ++ ' ' :: (ruleMark ++ (key ++ '(' :: a))) = p.toList := by
  have hat : '@' ∉ p.toList ++ [' '] := by simpa using hp.at_not_mem
  have hopen : enclosed? ('(' :: a) = none := by
    unfold enclosed?
    rw [ha]
    rfl
  have htrim : Text.trim (p.toList ++ [' ']) = p.toList := by
    unfold Text.trim
    rw [Text.trimLeft_of_head? (hp.head?_append [' ']), Text.trimRight_append [' '] hp.getLast?]
    exact List.append_nil _
  unfold cutDirectives
  rw [cutRules_of_open (firstRule?_prose hp.at_not_mem hk a) hopen]
  dsimp only
  rw [breakOn?_chainMark hat]
  exact htrim

/-! ## the lines of a documentation -/

theorem isWord_of_isKeyStart {c : Char} (h : isKeyStart c = true) : Text.isWord c = true := by
  have hr : (c.isAlphanum || c == '_') = true := by
    simp only [isKeyStart, Char.isAlphanum, Bool.or_eq_true] at h ⊢
    tauto
  have hlt : c.toNat < 128 := Text.toNat_lt_of_isIdentRest (by
    unfold Text.isIdentRest
    rw [hr]
    rfl)
  unfold Text.isWord
  rw [if_pos hlt, hr]

theorem IsKey.line {key : List Char} (h : IsKey key) : ∀ c ∈ key, Text.isLineBreak c = false := by
  have hword : ∀ c, Text.isWord c = true → Text.isLineBreak c = false := fun c hc =>
    Bool.eq_false_iff.2 fun hb => by
      have := Text.isBlank_of_isWord hc
      rw [Text.isBlank_of_isLineBreak hb] at this
      cases this
  obtain ⟨c, cs, rfl, hc, hcs⟩ := h
  intro x hx
  rcases List.mem_cons.1 hx with rfl | hx
  · exact hword _ (isWord_of_isKeyStart hc)
  · rcases Bool.or_eq_true_iff.1 (hcs x hx) with hw | hd
    · exact hword x hw
    · rw [beq_iff_eq.1 hd]
      decide

/-- the line of a rule between prose, up to a place in its arguments -/
theorem line_open {key a : List Char} (hp : IsProse p) (hk : IsKey key)
    (ha : ∀ c ∈ a, Text.isLineBreak c = false) :
    ∀ c ∈ p.toList ++ ' ' :: (ruleMark ++ (key ++ '(' :: a)), Text.isLineBreak c = false := by
  have hmark : ∀ c ∈ ruleMark, Text.isLineBreak c = false := Text.forall_eq_false (by decide)
  intro c hc
  simp only [List.mem_append, List.mem_cons] at hc
  rcases hc with hc | rfl | hc | hc | rfl | hc
  · exact hp.line c hc
  · decide
  · exact hmark c hc
  · exact hk.line c hc
  · decide
  · exact ha c hc

theorem prose_of_withoutType {doc : String} {text : List Char}
    (h : withoutType doc.toList = text) :
    prose doc = (((Text.splitLines text).map fun l => cutDirectives (bareLine l)).filter
      (· ≠ [])).map String.ofList := by
  subst h
  rfl

theorem toList_between (p s : String) (r : Rule) : (p ++ " " ++ r.text ++ " " ++ s).toList =
    p.toList ++ ' ' :: (r.text.toList ++ ' ' :: s.toList) := by
  simp only [String.toList_append, List.append_assoc]
  rfl

theorem withoutType_eq_self {doc : String} (h : typeOverride? doc = none) :
    withoutType doc.toList = doc.toList := by
  unfold typeOverride? at h
  unfold withoutType
  cases ht : typeParts? doc.toList with
  | none => rfl
  | some parts =>
    rw [ht] at h
    dsimp only at h ⊢
    split at h
    · next hi => rw [if_pos hi]
    · cases h

section
variable {e : Rule} (hp : IsProse p) (hs : IsProse s)
  (hw : withoutType r.text.toList = e.text.toList)
include hp hs hw

theorem withoutType_doc : withoutType (p ++ " " ++ r.text ++ " " ++ s).toList =
    p.toList ++ ' ' :: (e.text.toList ++ ' ' :: s.toList) := by
  rw [toList_between, withoutType_between hp.at_not_mem hs.at_not_mem hs.paren_not_mem, hw]

variable (he : e.Balanced)
include he

/-- a rule on one line leaves the prose around it -/
theorem prose_line (hl : ∀ c ∈ e.args.toList, Text.isLineBreak c = false) :
    prose (p ++ " " ++ r.text ++ " " ++ s) = [p ++ " " ++ s] := by
  have hline : ∀ c ∈ p.toList ++ ' ' :: (e.text.toList ++ ' ' :: s.toList),
      Text.isLineBreak c = false := by
    rw [Rule.toList_text_append]
    refine line_open hp he.key fun c hc => ?_
    simp only [List.mem_append, List.mem_cons] at hc
    rcases hc with hc | rfl | rfl | hc
    · exact hl c hc
    · decide
    · decide
    · exact hs.line c hc
  have hbare : bareLine (p.toList ++ ' ' :: (e.text.toList ++ ' ' :: s.toList)) =
      p.toList ++ ' ' :: (e.text.toList ++ ' ' :: s.toList) := by
    refine bareLine_of (Text.trim_eq_self (hp.head?_append _) ?_) (hp.slashes_append _)
    have hassoc : p.toList ++ ' ' :: (e.text.toList ++ ' ' :: s.toList) =
        (p.toList ++ ' ' :: e.text.toList) ++ ' ' :: s.toList := by
      simp only [List.append_assoc, List.cons_append]
    rw [hassoc]
    exact hs.getLast?_append _
  have htext : String.ofList (p.toList ++ ' ' :: s.toList) = p ++ " " ++ s := by
    rw [← String.toList_inj, String.toList_ofList]
    simp only [String.toList_append, List.append_assoc]
    rfl
  rw [prose_of_withoutType (withoutType_doc hp hs hw), Text.splitLines_line (by simp) hline,
    List.map_singleton, hbare, cutDirectives_between hp hs he, List.filter_cons_of_pos (by simp),
    List.filter_nil, List.map_singleton, htext]

/-- a rule over several lines cuts the line in which it begins, and leaves the others -/
theorem head?_prose (hl : ¬∀ c ∈ e.args.toList, Text.isLineBreak c = false) :
    (prose (p ++ " " ++ r.text ++ " " ++ s)).head? = some p := by
  obtain ⟨a, x, b, hargs, ha, hx⟩ : ∃ a x b, e.args.toList = a ++ x :: b ∧
      (∀ c ∈ a, Text.isLineBreak c = false) ∧ Text.isLineBreak x = true := by
    obtain ⟨c, hc, hb⟩ := not_forall₂.1 hl
    obtain ⟨x, hf⟩ := Option.isSome_iff_exists.1
      (List.find?_isSome.2 ⟨c, hc, Bool.not_eq_false _ ▸ hb⟩)
    obtain ⟨hx, a, b, hab, ha⟩ := List.find?_eq_some_iff_append.1 hf
    exact ⟨a, x, b, hab, fun c hc => by simpa using ha c hc, hx⟩
  have hdoc : p.toList ++ ' ' :: (e.text.toList ++ ' ' :: s.toList) =
      (p.toList ++ ' ' :: (ruleMark ++ (e.key.toList ++ '(' :: a))) ++
        x :: (b ++ ')' :: ' ' :: s.toList) := by
    rw [Rule.toList_text_append, hargs]
    simp only [List.append_assoc, List.cons_append]
  obtain ⟨ls, hls⟩ := Text.exists_splitLines (b ++ ')' :: ' ' :: s.toList)
    (line_open hp he.key ha) hx
  -- the rule begins in the first line, and does not close in it
  have htrim : Text.trim (p.toList ++ ' ' :: (ruleMark ++ (e.key.toList ++ '(' :: a))) =
      p.toList ++ ' ' :: (ruleMark ++ (e.key.toList ++ '(' :: Text.trimRight a)) := by
    have hassoc : ∀ t : List Char, p.toList ++ ' ' :: (ruleMark ++ (e.key.toList ++ '(' :: t)) =
        ((p.toList ++ ' ' :: (ruleMark ++ e.key.toList)) ++ ['(']) ++ t := fun t => by
      simp only [List.append_assoc, List.cons_append, List.nil_append]
    have hlast : ∀ c ∈ ((p.toList ++ ' ' :: (ruleMark ++ e.key.toList)) ++ ['(']).getLast?,
        Text.isBlank c = false := by
      rw [List.getLast?_concat]
      rintro _ ⟨⟩
      decide
    unfold Text.trim
    rw [Text.trimLeft_of_head? (hp.head?_append _), hassoc, Text.trimRight_append a hlast, ← hassoc]
  have hopen : closing? ('(' :: Text.trimRight a) = none := by
    have hpre : Text.trimRight a <+: e.args.toList ++ [')'] := by
      rw [hargs, List.append_assoc]
      exact (Text.trimRight_prefix a).trans (List.prefix_append _ _)
    have hlen : (Text.trimRight a).length ≤ e.args.toList.length := by
      have := (Text.trimRight_prefix a).length_le
      rw [hargs, List.length_append]
      omega
    exact closingFrom_eq_none (List.cons_prefix_cons.2 ⟨rfl, hpre⟩) (Nat.succ_le_succ hlen) he.closing
  have hbare := bareLine_of htrim (hp.slashes_append _)
  rw [prose_of_withoutType (withoutType_doc hp hs hw), hdoc, hls, List.map_cons, hbare,
    cutDirectives_open hp he.key hopen, List.filter_cons_of_pos (by simpa using hp.toList_ne_nil),
    List.map_cons, List.head?_cons, String.ofList_toList]

end

/-- **A rule between prose.**  A rule is read where it stands between prose, whatever its arguments
are.  Where a balanced rule is left of it without its type directive, it is cut as well and the prose
is all that is left, if and only if no line ends in the arguments that are left; otherwise the prose
before it is left as a line of its own.  A rule without a type directive is left as it is. -/
theorem prose_text_iff (h : r.Balanced) (hp : IsProse p) (hs : IsProse s) :
    let doc := p ++ " " ++ r.text ++ " " ++ s
    (scanRules doc).head? = some r.read ∧
      (typeOverride? r.text = none → withoutType r.text.toList = r.text.toList) ∧
      ∀ e : Rule, e.Balanced → withoutType r.text.toList = e.text.toList →
        (prose doc = [p ++ " " ++ s] ↔ ∀ c ∈ e.args.toList, Text.isLineBreak c = false) ∧
        ((∃ c ∈ e.args.toList, Text.isLineBreak c = true) → (prose doc).head? = some p) := by
  intro doc
  refine ⟨?read, withoutType_eq_self, fun e he hw => ⟨⟨fun hd => ?_, prose_line hp hs hw he⟩, ?_⟩⟩
  case read =>
    have hat : '@' ∉ p.toList ++ [' '] := by simpa using hp.at_not_mem
    have hsplit : doc.toList = p.toList ++ [' '] ++ (r.text.toList ++ ' ' :: s.toList) := by
      show (p ++ " " ++ r.text ++ " " ++ s).toList = _
      rw [toList_between]
      simp
    unfold scanRules
    rw [hsplit, scanRulesIn_append_of_not_mem hat, scanRulesIn_text h]
    rfl
  · by_contra hl
    have hhead := head?_prose hp hs hw he hl
    have hsame : p ++ " " ++ s = p := by
      rw [hd] at hhead
      exact Option.some.inj hhead
    have hlen := congrArg (fun t : String => t.toList.length) hsame
    simp only [String.toList_append, List.length_append] at hlen
    have hspace : (" " : String).toList.length = 1 := rfl
    omega
  · rintro ⟨c, hc, hb⟩
    refine head?_prose hp hs hw he fun hl => ?_
    rw [hl c hc] at hb
    cases hb

/-- a rule on one line, with a parenthesis and another rule in quotes -/
def spacing : Rule := ⟨"create.refine", "\"no (\", '@crud.update.omit([x])'"⟩

/-- The rule is cut, and with it the one in its arguments. -/
theorem prose_around_spacing :
    spacing.Balanced ∧ IsProse "Unique slug" ∧ IsProse "for /* URLs */" ∧
      prose ("Unique slug" ++ " " ++ spacing.text ++ " " ++ "for /* URLs */") =
        ["Unique slug" ++ " " ++ "for /* URLs */"] := by
  have hb : spacing.Balanced :=
    Rule.balanced_of_closing ⟨'c', "reate.refine".toList, rfl, by decide,
      List.all_eq_true.1 (by decide)⟩ (by decide)
  have hp : IsProse "Unique slug" :=
    ⟨by decide, by decide, Text.forall_eq_false (by decide), by decide, by decide, by decide⟩
  have hs : IsProse "for /* URLs */" :=
    ⟨by decide, by decide, Text.forall_eq_false (by decide), by decide, by decide, by decide⟩
  obtain ⟨-, hw, hall⟩ := prose_text_iff hb hp hs
  exact ⟨hb, hp, hs, (hall spacing hb (hw (by decide))).1.2 (Text.forall_eq_false (by decide))⟩

/-- a rule over two lines -/
def differing : Rule := ⟨"create.refine", "\"Title and body\nmust differ\""⟩

/-- a rule with the mark of a type directive in quotes, which closes with the rule -/
def marking : Rule := ⟨"create.refine", "\"@kyselyType(\" '\"\\''"⟩

/-- Both rules are read.  A part of the first one stays in the prose, and the second one takes the
prose behind it away. -/
theorem prose_around_differing :
    (differing.Balanced ∧ scanRules ("A post" ++ " " ++ differing.text ++ " " ++ "of a blog") =
        [differing.read] ∧
      prose ("A post" ++ " " ++ differing.text ++ " " ++ "of a blog") =
        ["A post", "must differ\") of a blog"]) ∧
    (marking.Balanced ∧ scanRules ("A post" ++ " " ++ marking.text ++ " " ++ "of a blog") =
        [marking.read] ∧
      prose ("A post" ++ " " ++ marking.text ++ " " ++ "of a blog") = ["A post"]) := by
  have hk : IsKey "create.refine".toList :=
    ⟨'c', "reate.refine".toList, rfl, by decide, List.all_eq_true.1 (by decide)⟩
  exact ⟨⟨Rule.balanced_of_closing hk (by decide), by decide +kernel, by decide +kernel⟩,
    Rule.balanced_of_closing hk (by decide), by decide +kernel, by decide +kernel⟩

end

end Annotations

end ZodSchema
