import ZodSchema.Annotations.Basic
import ZodSchema.Annotations.Prose
import ZodSchema.Proofs.Annotations.Member

/-!
# An annotation written out again

The type selector, the validators and the brand, joined by dots, are a chain again.  When the chain
they come from leaves nothing open and has segments of the known shapes only, this chain is read as
the same selector, the same validators and the same brand.

* `addPart_fields` ..     what one part adds
* `Renderable`            selector, validators and brand can stand in a chain
* `slashChainAt?_eq_some_iff` ..   where a chain stands in a text
* `exists_parts_of_of?`   an annotation comes from parts of its chain
* `brand_of?`             a brand is one line without quote marks
* `renderable_of?`        they can when nothing is open at the end of a chain of named segments
* `renderedParts`         the parts of the chain that is written out
* `of?_rendered`          it is read as the annotation that it was written from
-/

namespace ZodSchema.Annotations

open ChainState

variable {a : Annotations} {p w : List Char} {ps ws : List (List Char)}

/-! ## what a part adds -/

section
variable (a p)

theorem addPart_fields :
    (a.addPart p).segments = a.segments ++ [Segment.read p] ∧
    (a.addPart p).validators = a.validators ++ (Segment.read p).validator?.toList ∧
    (a.addPart p).brand = (Segment.read p).brand?.or a.brand ∧
    (a.addPart p).description = (Segment.read p).description?.or a.description ∧
    (a.addPart p).typeSelector = a.typeSelector ∧ (a.addPart p).chain = a.chain := by
  unfold addPart Segment.validator? Segment.brand? Segment.description?
  cases Segment.read p with
  | verbatim raw => exact ⟨rfl, rfl, rfl, rfl, rfl, rfl⟩
  | named raw name args =>
    dsimp only
    by_cases hb : name = "brand"
    · have hd : ¬ name = "describe" := by rw [hb]; decide
      cases hn : brandName? (args.getD "") <;> simp [hb]
    · by_cases hd : name = "describe"
      · cases hn : Annotations.description? (args.getD "") <;> simp [hd]
      · cases hn : customError? args <;> simp [hb, hd]

end

/-- what parts have left in a field that each replaces is from one of them, or was there before -/
theorem exists_of_foldl_addPart {β : Type} {get : Annotations → Option β}
    {give : Segment → Option β} {x : β}
    (hstep : ∀ a p, get (addPart a p) = (give (Segment.read p)).or (get a))
    (h : get (ps.foldl addPart a) = some x) :
    get a = some x ∨ ∃ p ∈ ps, give (Segment.read p) = some x := by
  induction ps generalizing a with
  | nil => exact Or.inl h
  | cons p ps ih =>
    rcases ih h with h | ⟨q, hq, h⟩
    · rw [hstep, Option.or_eq_some_iff] at h
      rcases h with h | ⟨-, h⟩
      · exact Or.inr ⟨p, List.mem_cons_self, h⟩
      · exact Or.inl h
    · exact Or.inr ⟨q, List.mem_cons_of_mem _ hq, h⟩

theorem foldl_segments (a : Annotations) (ps : List (List Char)) :
    (ps.foldl addPart a).segments = a.segments ++ ps.map Segment.read := by
  induction ps generalizing a with
  | nil => exact (List.append_nil _).symm
  | cons p ps ih =>
    rw [List.foldl_cons, ih, (addPart_fields a p).1, List.append_assoc, List.map_cons]
    rfl

theorem foldl_chain (a : Annotations) (ps : List (List Char)) :
    (ps.foldl addPart a).chain = a.chain := by
  induction ps generalizing a with
  | nil => rfl
  | cons p ps ih =>
    obtain ⟨_, _, _, _, _, hc⟩ := addPart_fields a p
    rw [List.foldl_cons, ih, hc]

/-- a first part that selects the type -/
def isSelector (p : List Char) : Bool :=
  !topLevelFirst.contains (String.ofList p) && typeSelectors.contains (String.ofList p)

theorem addParts_selector (h : isSelector p = true) (a : Annotations) (ps : List (List Char)) :
    a.addParts (p :: ps) = ps.foldl addPart { a with
      typeSelector := some (String.ofList p),
      segments := [.named (String.ofList p) (String.ofList p) none] } :=
  congrArg (ps.foldl addPart) (if_pos h)

theorem addParts_of_not_selector (h : isSelector p = false) (a : Annotations)
    (ps : List (List Char)) : a.addParts (p :: ps) = (p :: ps).foldl addPart a :=
  congrArg (ps.foldl addPart) (if_neg (Bool.eq_false_iff.1 h))

theorem mem_of_isSelector (h : isSelector p = true) :
    ∃ t ∈ typeSelectors, p = t.toList := by
  have hm := List.contains_iff_mem.1 (Bool.and_eq_true_iff.1 h).2
  exact ⟨_, hm, String.toList_ofList.symm⟩

theorem isWord_of_isSelector (h : isSelector p = true) :
    p ≠ [] ∧ ∀ c ∈ p, Text.isWord c = true := by
  obtain ⟨t, ht, rfl⟩ := mem_of_isSelector h
  have hall : ∀ t ∈ typeSelectors, t.toList ≠ [] ∧ t.toList.all Text.isWord = true := by
    decide
  exact ⟨(hall t ht).1, List.all_eq_true.1 (hall t ht).2⟩

/-- a selector as a later part is a call -/
theorem not_isSelector_of_validator?
    (h : (Segment.read p).validator? = some ("." ++ String.ofList p)) : isSelector p = false := by
  rw [Bool.eq_false_iff]
  intro hs
  obtain ⟨t, ht, rfl⟩ := mem_of_isSelector hs
  have hall : ∀ t ∈ typeSelectors,
      (Segment.read t.toList).validator? ≠ some ("." ++ String.ofList t.toList) := by
    decide +kernel
  exact hall t ht h

/-! ## what can stand in a chain -/

structure Renderable (a : Annotations) : Prop where
  selector : ∀ t, a.typeSelector = some t → isSelector t.toList = true
  validators : ∀ v ∈ a.validators, ∃ w, v = "." ++ String.ofList w ∧ Stable w
  brand : ∀ b, a.brand = some b → Quotable b.toList ∧ '\n' ∉ b.toList

theorem quotable_of_brand? {b : String} (hn : '\n' ∉ p) (h : (Segment.read p).brand? = some b) :
    Quotable b.toList ∧ '\n' ∉ b.toList := by
  cases hs : Segment.read p with
  | verbatim raw =>
    rw [hs] at h
    cases h
  | named raw name args =>
    rw [hs, Segment.brand?] at h
    split at h
    · obtain ⟨m, hm, rfl⟩ := Option.map_eq_some_iff.1 h
      obtain ⟨hq, hsub⟩ := exists_of_firstQuoted? hm
      rw [String.toList_ofList]
      exact ⟨hq, fun hx => hn ((args_sublist hs hn).subset (hsub hx))⟩
    · cases h

/-- a brand that one part more leaves is the part's or was there before -/
theorem brand_addPart {P : String → Prop} (h : ∀ b, a.brand = some b → P b)
    (hp : ∀ b, (Segment.read p).brand? = some b → P b) :
    ∀ b, (a.addPart p).brand = some b → P b := by
  rw [(addPart_fields a p).2.2.1]
  intro b hb
  rcases Option.or_eq_some_iff.1 hb with hb | hb
  · exact hp b hb
  · exact h b hb.2

theorem Renderable.addPart (h : Renderable a) (hc : Closed p) (hn : '\n' ∉ p)
    (hs : ∃ raw name args, Segment.read p = .named raw name args) : Renderable (a.addPart p) := by
  obtain ⟨_, hv, _, _, ht, _⟩ := addPart_fields a p
  obtain ⟨raw, name, args, hs⟩ := hs
  refine ⟨?_, ?_, brand_addPart h.brand fun b => quotable_of_brand? hn⟩
  · rw [ht]
    exact h.selector
  · rw [hv]
    intro v hm
    rcases List.mem_append.1 hm with hm | hm
    · exact h.validators v hm
    · exact stable_of_validator? hc hn hs (Option.mem_toList.1 hm)

theorem Renderable.foldl (h : Renderable a)
    (hp : ∀ p ∈ ps, Closed p ∧ '\n' ∉ p ∧ ∃ raw name args, Segment.read p = .named raw name args) :
    Renderable (ps.foldl Annotations.addPart a) := by
  induction ps generalizing a with
  | nil => exact h
  | cons p ps ih =>
    obtain ⟨hc, hn, hs⟩ := hp p List.mem_cons_self
    exact ih (h.addPart hc hn hs) fun q hq => hp q (List.mem_cons_of_mem _ hq)

/-! ## the chain of a text -/

theorem chainAt?_eq_some_iff {cs t : List Char} : chainAt? cs = some t ↔
    ∃ rest, cs = chainMark ++ (t ++ rest) ∧ t ≠ [] ∧ '\n' ∉ t ∧ ∀ c ∈ rest.head?, c = '\n' := by
  constructor
  · intro h
    unfold chainAt? at h
    split at h
    · next text htext =>
      split at h
      · cases h
      · next hne =>
        obtain rfl := Option.some.inj h
        refine ⟨text.dropWhile (· != '\n'), ?_, hne, ?_, ?_⟩
        · rw [List.takeWhile_append_dropWhile]
          exact Text.dropStart?_eq_some_iff.1 htext
        · exact fun hm => absurd (List.mem_takeWhile_imp hm) (by decide)
        · intro c hc
          have hstop := List.head?_dropWhile_not (· != '\n') text
          rw [Option.mem_def.1 hc] at hstop
          simpa using hstop
    · cases h
  · rintro ⟨rest, rfl, hne, hn, hrest⟩
    have hline : ∀ c ∈ t, (c != '\n') = true := fun c hc => bne_iff_ne.2 fun he => hn (he ▸ hc)
    have htake : (t ++ rest).takeWhile (· != '\n') = t := by
      rw [List.takeWhile_append_of_pos hline]
      cases rest with
      | nil => exact List.append_nil t
      | cons c rest => rw [hrest c rfl, List.takeWhile_cons_of_neg (by decide), List.append_nil]
    have hdrop : Text.dropStart? "@zod.".toList (chainMark ++ (t ++ rest)) = some (t ++ rest) :=
      Text.dropStart?_eq_some_iff.2 rfl
    obtain ⟨c, t, rfl⟩ := List.exists_cons_of_ne_nil hne
    rw [chainAt?, hdrop]
    dsimp only
    rw [htake]

theorem slashChainAt?_eq_some_iff {cs t : List Char} : slashChainAt? cs = some t ↔
    ∃ gap rest, cs = "///".toList ++ (gap ++ rest) ∧ (∀ c ∈ gap, Text.isBlank c = true) ∧
      chainAt? rest = some t := by
  constructor
  · intro h
    unfold slashChainAt? at h
    split at h
    · next rest hr =>
      refine ⟨rest.takeWhile Text.isBlank, Text.trimLeft rest, ?_, ?_, h⟩
      · rw [Text.trimLeft, List.takeWhile_append_dropWhile]
        exact Text.dropStart?_eq_some_iff.1 hr
      · exact fun c hc => List.mem_takeWhile_imp hc
    · cases h
  · rintro ⟨gap, rest, rfl, hgap, h⟩
    obtain ⟨after, rfl, -⟩ := chainAt?_eq_some_iff.1 h
    have htrim : Text.trimLeft (gap ++ (chainMark ++ (t ++ after))) = chainMark ++ (t ++ after) :=
      Text.dropWhile_run hgap (by decide)
    rw [slashChainAt?, Text.dropStart?_eq_some_iff.2 rfl]
    dsimp only
    rw [htrim, h]

theorem exists_of_firstAlong {α : Type} {f : List Char → Option α} {cs : List Char} {r : α}
    (h : firstAlong f cs = some r) : ∃ cs', f cs' = some r ∧ cs' <:+ cs := by
  induction cs with
  | nil => exact ⟨[], h, List.suffix_rfl⟩
  | cons c cs ih =>
    rw [firstAlong] at h
    split at h
    · next r hr => exact ⟨_, Option.some.inj h ▸ hr, List.suffix_rfl⟩
    · obtain ⟨cs', hf, hs⟩ := ih h
      exact ⟨cs', hf, hs.trans (List.suffix_cons c cs)⟩

theorem firstAlong_eq_none_iff {α : Type} {f : List Char → Option α} {cs : List Char} :
    firstAlong f cs = none ↔ ∀ s, s <:+ cs → f s = none := by
  induction cs with
  | nil => simp [firstAlong]
  | cons c cs ih =>
    simp only [List.suffix_cons_iff, forall_eq_or_imp, ← ih]
    rw [firstAlong]
    cases f (c :: cs) <;> simp

theorem trim_sublist (cs : List Char) : (Text.trim cs).Sublist cs := (Text.trim_infix cs).sublist

/-- a chain stands behind its mark, the blanks at its ends aside -/
theorem exists_of_chain? {doc : String} {t : List Char} (h : chain? doc = some t) :
    ∃ rest text, chainAt? rest = some text ∧ t = Text.trim text := by
  obtain ⟨text, htext, rfl⟩ := Option.map_eq_some_iff.1 h
  split at htext
  · next hf =>
    obtain rfl := Option.some.inj htext
    obtain ⟨_, hslash, -⟩ := exists_of_firstAlong hf
    obtain ⟨_, rest, -, -, hat⟩ := slashChainAt?_eq_some_iff.1 hslash
    exact ⟨rest, _, hat, rfl⟩
  · obtain ⟨rest, hat, -⟩ := exists_of_firstAlong htext
    exact ⟨rest, _, hat, rfl⟩

/-- a chain ends with its line -/
theorem line_of_chain? {doc : String} {t : List Char} (h : chain? doc = some t) : '\n' ∉ t := by
  obtain ⟨_, text, hat, rfl⟩ := exists_of_chain? h
  obtain ⟨_, -, -, hn, -⟩ := chainAt?_eq_some_iff.1 hat
  exact fun hm => hn ((trim_sublist text).subset hm)

theorem line_getD_chain? (doc : String) : '\n' ∉ (chain? doc).getD [] := by
  cases hc : chain? doc with
  | none => exact List.not_mem_nil
  | some t => exact line_of_chain? hc

/-- An annotation is made of the parts of its chain, one after another; a first part that selects the
type is no part of this kind. -/
theorem exists_parts_of_of? {doc : String} (h : of? (some doc) = some a) :
    ∃ a₀ ps, a = ps.foldl Annotations.addPart a₀ ∧
      a₀.chain = String.ofList ((chain? doc).getD []) ∧ a₀.validators = [] ∧ a₀.brand = none ∧
      a₀.description = none ∧ (∀ t, a₀.typeSelector = some t → isSelector t.toList = true) ∧
      ps ⊆ splitChain ((chain? doc).getD []) := by
  have hnone : ∀ t : String, (none : Option String) = some t → isSelector t.toList = true :=
    fun _ ht => by cases ht
  unfold of? at h
  dsimp only at h
  split at h
  · cases h
  obtain rfl := Option.some.inj h
  generalize (chain? doc).getD [] = text
  cases hps : splitChain text with
  | nil => exact ⟨_, [], rfl, rfl, rfl, rfl, rfl, hnone, List.Subset.refl _⟩
  | cons p ps =>
    cases hsel : isSelector p with
    | true =>
      refine ⟨_, ps, addParts_selector hsel _ ps, rfl, rfl, rfl, rfl, ?_, List.subset_cons_self p ps⟩
      intro t ht
      rwa [← Option.some.inj ht, String.toList_ofList]
    | false =>
      exact ⟨_, p :: ps, addParts_of_not_selector hsel _ ps, rfl, rfl, rfl, rfl, hnone,
        List.Subset.refl _⟩

/-- a brand is one line, and no quote mark stands in it -/
theorem brand_of? {doc b : String} (h : of? (some doc) = some a) (hb : a.brand = some b) :
    Quotable b.toList ∧ '\n' ∉ b.toList := by
  obtain ⟨a₀, ps, rfl, -, -, hb₀, -, -, hps⟩ := exists_parts_of_of? h
  rcases exists_of_foldl_addPart (fun a p => (addPart_fields a p).2.2.1) hb with hb | ⟨p, hp, hb⟩
  · rw [hb₀] at hb
    cases hb
  · have hsub := sublist_of_mem_splitChain (hps hp)
    exact quotable_of_brand? (fun hm => line_getD_chain? doc (hsub.subset hm)) hb

/-- **Chains of named segments** that leave nothing open can be written out again. -/
theorem renderable_of? {doc : String} (h : of? (some doc) = some a)
    (hl : (start.run a.chain.toList).IsLevel)
    (hs : ∀ s ∈ a.segments, ∃ raw name args, s = .named raw name args) : Renderable a := by
  obtain ⟨a₀, ps, rfl, hc, hv, hb, -, ht, hps⟩ := exists_parts_of_of? h
  rw [foldl_chain, hc, String.toList_ofList] at hl
  rw [foldl_segments] at hs
  have hstart : Renderable a₀ := by
    refine ⟨ht, fun v hm => ?_, fun b hm => ?_⟩
    · rw [hv] at hm
      cases hm
    · rw [hb] at hm
      cases hm
  refine hstart.foldl fun p hp => ⟨(mem_splitChain (hps hp)).2.2 hl, ?_, ?_⟩
  · exact fun hm => line_getD_chain? doc ((sublist_of_mem_splitChain (hps hp)).subset hm)
  · exact hs _ (List.mem_append_right _ (List.mem_map_of_mem hp))

/-! ## the chain that is written out -/

/-- selector, validators and brand; without a selector no dot stands in front -/
def rendered (a : Annotations) : String :=
  match a.typeSelector with
  | some t => t ++ a.validatorChain
  | none => String.ofList (a.validatorChain.toList.drop 1)

/-- a validator is written with a dot in front -/
def undotted (v : String) : List Char := v.toList.drop 1

def brandPart (b : String) : List Char :=
  "brand".toList ++ '(' :: (('"' :: (b.toList ++ ['"'])) ++ [')'])

theorem brandPart_eq (b : String) :
    brandPart b = "brand".toList ++ '(' :: (('"' :: (b.toList ++ ['"'])) ++ [')']) := rfl

def memberParts (a : Annotations) : List (List Char) :=
  a.validators.map undotted ++ a.brand.toList.map brandPart

def renderedParts (a : Annotations) : List (List Char) :=
  a.typeSelector.toList.map String.toList ++ memberParts a

theorem intercalate_dot (p : List Char) (ps : List (List Char)) :
    ['.'].intercalate (p :: ps) = p ++ ps.flatMap ('.' :: ·) := by
  induction ps generalizing p with
  | nil => rw [List.intercalate_singleton, List.flatMap_nil, List.append_nil]
  | cons q qs ih =>
    rw [List.intercalate_cons_cons, ih, List.flatMap_cons, List.append_assoc]
    rfl

theorem Renderable.undotted (h : Renderable a) {v : String} (hv : v ∈ a.validators) :
    v = "." ++ String.ofList (undotted v) ∧ Stable (undotted v) := by
  obtain ⟨w, rfl, hw⟩ := h.validators v hv
  have hu : Annotations.undotted ("." ++ String.ofList w) = w := by simp [Annotations.undotted]
  rw [hu]
  exact ⟨rfl, hw⟩

theorem Renderable.toList_validatorChain (h : Renderable a) :
    a.validatorChain.toList = (memberParts a).flatMap ('.' :: ·) := by
  have hv : a.validators.flatMap String.toList =
      (a.validators.map Annotations.undotted).flatMap ('.' :: ·) := by
    rw [List.flatMap_map]
    refine List.flatMap_congr fun v hv => ?_
    have := congrArg String.toList (h.undotted hv).1
    rwa [String.toList_append, String.toList_ofList (l := Annotations.undotted v)] at this
  have hb : a.brandMarker.toList = (a.brand.toList.map brandPart).flatMap ('.' :: ·) := by
    unfold brandMarker
    cases hb : a.brand with
    | none => rfl
    | some b =>
      have hne : b ≠ "" := fun he => (h.brand b hb).1.1 (he ▸ rfl)
      simp [hne, brandPart_eq]
  rw [validatorChain, String.toList_append, String.toList_join, hv, hb, memberParts,
    List.flatMap_append]

theorem Renderable.toList_rendered (h : Renderable a) :
    (rendered a).toList = ['.'].intercalate (renderedParts a) := by
  unfold rendered renderedParts
  cases a.typeSelector with
  | some t =>
    show (t ++ a.validatorChain).toList = ['.'].intercalate (t.toList :: memberParts a)
    rw [String.toList_append, h.toList_validatorChain, intercalate_dot]
  | none =>
    show (String.ofList (a.validatorChain.toList.drop 1)).toList = ['.'].intercalate (memberParts a)
    rw [String.toList_ofList, h.toList_validatorChain]
    cases memberParts a with
    | nil => rfl
    | cons p ps => rw [intercalate_dot, List.flatMap_cons, List.cons_append, List.drop_one,
        List.tail_cons]

/-! ## its parts -/

/-- a text on one line without blanks at its ends -/
structure Firm (cs : List Char) : Prop where
  ne_nil : cs ≠ []
  line : '\n' ∉ cs
  head : ∀ c ∈ cs.head?, Text.isBlank c = false
  last : ∀ c ∈ cs.getLast?, Text.isBlank c = false

theorem Firm.append {cs : List Char} (hp : Firm p) (hc : Firm cs) : Firm (p ++ '.' :: cs) := by
  obtain ⟨x, p, rfl⟩ := List.exists_cons_of_ne_nil hp.ne_nil
  obtain ⟨y, cs, rfl⟩ := List.exists_cons_of_ne_nil hc.ne_nil
  refine ⟨List.cons_ne_nil _ _, ?_, hp.head, ?_⟩
  · simp only [List.mem_append, List.mem_cons (b := '.'), not_or]
    exact ⟨hp.line, by decide, hc.line⟩
  · rw [List.getLast?_append_cons, List.getLast?_cons_cons]
    exact hc.last

theorem firm_intercalate (hne : ps ≠ []) (h : ∀ p ∈ ps, Firm p) : Firm (['.'].intercalate ps) := by
  induction ps with
  | nil => exact absurd rfl hne
  | cons p ps ih =>
    have hp := h p List.mem_cons_self
    cases ps with
    | nil => rwa [List.intercalate_singleton]
    | cons q qs =>
      rw [List.intercalate_cons_cons, List.append_assoc]
      exact hp.append (ih (List.cons_ne_nil _ _) fun r hr => h r (List.mem_cons_of_mem _ hr))

theorem firm_of_read {raw name : String} {args : Option String} (hn : '\n' ∉ p)
    (hs : Segment.read p = .named raw name args) : Firm p := by
  obtain ⟨_, hne, hw, hshape⟩ := shape_of_read hs hn
  obtain ⟨x, cs, hx⟩ := List.exists_cons_of_ne_nil hne
  have hblank : ∀ c ∈ name.toList, Text.isBlank c = false := fun c hc =>
    Text.isBlank_of_isWord (hw c hc)
  rcases hshape with ⟨_, rfl⟩ | ⟨as, _, rfl⟩
  · exact ⟨hne, hn, fun c hc => hblank c (List.mem_of_head? hc),
      fun c hc => hblank c (List.mem_of_getLast? hc)⟩
  · refine ⟨by simp, hn, ?_, ?_⟩
    · rw [hx] at hblank ⊢
      intro c hc
      obtain rfl := Option.some.inj hc
      exact hblank _ List.mem_cons_self
    · rw [List.getLast?_append_cons, ← List.cons_append, List.getLast?_concat]
      intro c hc
      obtain rfl := Option.some.inj hc
      decide

theorem closed_word (h : ∀ c ∈ p, Text.isWord c = true) : Closed p := by
  obtain ⟨e, he⟩ := pass?_word h
  exact ⟨_, he, rfl, rfl, rfl⟩

theorem read_brandPart (b : String) : Segment.read (brandPart b) =
    .named (String.ofList (brandPart b)) "brand"
      (some (String.ofList ('"' :: (b.toList ++ ['"'])))) :=
  read_call (by decide) (List.all_eq_true.1 (by decide)) _

/-- what is open behind the brand does not matter, since nothing follows it -/
theorem whole_brandPart {b : String} (hb : Quotable b.toList) : Whole (brandPart b) := by
  have hword : ∀ c ∈ "brand".toList, Text.isWord c = true := List.all_eq_true.1 (by decide)
  have hq : isPlainQuote '"' = true := by decide
  have hm := pass?_message (e := false) (fun _ h => absurd h List.not_mem_nil) hb hq hq
  rw [Whole, brandPart_eq, pass?_call hword, pass?_append]
  show ((opened.pass? ([] ++ _)).bind _).isSome = true
  rw [opened, hm, Option.bind_some, pass?_cons (next_snd_of_ne (by decide))]
  rfl

theorem Renderable.mem_memberParts (h : Renderable a) (hp : p ∈ memberParts a) :
    Stable p ∨ ∃ b, a.brand = some b ∧ p = brandPart b := by
  rcases List.mem_append.1 hp with hp | hp
  · obtain ⟨v, hv, rfl⟩ := List.mem_map.1 hp
    exact Or.inl (h.undotted hv).2
  · obtain ⟨b, hb, rfl⟩ := List.mem_map.1 hp
    exact Or.inr ⟨b, Option.mem_toList.1 hb, rfl⟩

theorem Renderable.firm (h : Renderable a) (hp : p ∈ renderedParts a) : Firm p := by
  rcases List.mem_append.1 hp with hp | hp
  · obtain ⟨t, ht, rfl⟩ := List.mem_map.1 hp
    obtain ⟨hne, hw⟩ := isWord_of_isSelector (h.selector t (Option.mem_toList.1 ht))
    exact firm_of_read (fun hx => absurd (hw _ hx) (by decide)) (read_name hne hw)
  · rcases h.mem_memberParts hp with hs | ⟨b, hb, rfl⟩
    · obtain ⟨_, _, _, hr⟩ := hs.named
      exact firm_of_read hs.line hr
    · refine firm_of_read ?_ (read_brandPart b)
      simp [brandPart_eq, (h.brand b hb).2]

theorem Renderable.whole (h : Renderable a) (hp : p ∈ renderedParts a) : Whole p := by
  rcases List.mem_append.1 hp with hp | hp
  · obtain ⟨t, ht, rfl⟩ := List.mem_map.1 hp
    exact (closed_word (isWord_of_isSelector (h.selector t (Option.mem_toList.1 ht))).2).whole
  · rcases h.mem_memberParts hp with hs | ⟨b, hb, rfl⟩
    · exact hs.closed.whole
    · exact whole_brandPart (h.brand b hb).1

theorem Renderable.closed (h : Renderable a) (hp : p ∈ (renderedParts a).dropLast) : Closed p := by
  -- only the brand can leave something open, and it comes last
  have hfront : p ∈ a.typeSelector.toList.map String.toList ++
      a.validators.map Annotations.undotted := by
    unfold renderedParts memberParts at hp
    rw [← List.append_assoc] at hp
    cases hb : a.brand with
    | none =>
      rw [hb] at hp
      exact List.dropLast_subset _ (by simpa using hp)
    | some b =>
      rw [hb] at hp
      simpa using hp
  rcases List.mem_append.1 hfront with hp | hp
  · obtain ⟨t, ht, rfl⟩ := List.mem_map.1 hp
    exact closed_word (isWord_of_isSelector (h.selector t (Option.mem_toList.1 ht))).2
  · obtain ⟨v, hv, rfl⟩ := List.mem_map.1 hp
    exact (h.undotted hv).2.closed

theorem Renderable.splitChain (h : Renderable a) :
    splitChain (rendered a).toList = renderedParts a := by
  rw [h.toList_rendered]
  exact splitChain_intercalate (fun p hp => ⟨(h.firm hp).ne_nil, h.whole hp⟩)
    fun p hp => h.closed hp

/-! ## and read again -/

theorem firstAlong_of_head {α : Type} {f : List Char → Option α} {cs : List Char} {r : α}
    (h : f cs = some r) : firstAlong f cs = some r := by
  cases cs with
  | nil => exact h
  | cons c cs => rw [firstAlong, h]

theorem chain?_slashes {cs : List Char} (h : Firm cs) :
    chain? ("/// @zod." ++ String.ofList cs) = some cs := by
  have hat : chainAt? (chainMark ++ cs) = some cs :=
    chainAt?_eq_some_iff.2 ⟨[], by rw [List.append_nil], h.ne_nil, h.line, nofun⟩
  have hslash : slashChainAt? ("/// @zod.".toList ++ cs) = some cs :=
    slashChainAt?_eq_some_iff.2 ⟨[' '], chainMark ++ cs, rfl,
      List.forall_mem_singleton.2 (by decide), hat⟩
  have ht : ("/// @zod." ++ String.ofList cs).toList = "/// @zod.".toList ++ cs := by
    rw [String.toList_append, String.toList_ofList (l := cs)]
  rw [chain?, ht, firstAlong_of_head hslash, Option.map_some, Text.trim_eq_self h.head h.last]

/-- validators that stand for themselves are taken up as they are -/
theorem foldl_stable {vs : List String}
    (h : ∀ v ∈ vs, v = "." ++ String.ofList (undotted v) ∧ Stable (undotted v)) (a : Annotations) :
    ((vs.map undotted).foldl addPart a).validators = a.validators ++ vs ∧
    ((vs.map undotted).foldl addPart a).brand = a.brand ∧
    ((vs.map undotted).foldl addPart a).description = a.description ∧
    ((vs.map undotted).foldl addPart a).typeSelector = a.typeSelector := by
  induction vs generalizing a with
  | nil => exact ⟨(List.append_nil _).symm, rfl, rfl, rfl⟩
  | cons v vs ih =>
    obtain ⟨hv, hs⟩ := h v List.mem_cons_self
    obtain ⟨_, h1, h2, h3, h4, _⟩ := addPart_fields a (undotted v)
    -- what is a validator gives no brand and no description
    obtain ⟨hb, hd⟩ := Segment.brand?_of_validator? hs.validator
    rw [hs.validator, ← hv] at h1
    rw [hb] at h2
    rw [hd] at h3
    obtain ⟨k1, k2, k3, k4⟩ := ih (fun w hw => h w (List.mem_cons_of_mem _ hw))
      (a.addPart (undotted v))
    rw [List.map_cons, List.foldl_cons, k1, k2, k3, k4, h1, h2, h3, h4, List.append_assoc]
    exact ⟨rfl, rfl, rfl, rfl⟩

theorem Renderable.foldl_memberParts (h : Renderable a) {a₀ : Annotations}
    (hv : a₀.validators = []) (hb : a₀.brand = none) (hd : a₀.description = none) :
    ((memberParts a).foldl Annotations.addPart a₀).validators = a.validators ∧
    ((memberParts a).foldl Annotations.addPart a₀).brand = a.brand ∧
    ((memberParts a).foldl Annotations.addPart a₀).description = none ∧
    ((memberParts a).foldl Annotations.addPart a₀).typeSelector = a₀.typeSelector := by
  obtain ⟨h1, h2, h3, h4⟩ := foldl_stable (fun v hv => h.undotted hv) a₀
  unfold memberParts
  rw [List.foldl_append]
  cases hbrand : a.brand with
  | none =>
    refine ⟨?_, h2.trans hb, h3.trans hd, h4⟩
    exact h1.trans (by rw [hv, List.nil_append])
  | some b =>
    obtain ⟨_, k1, k2, k3, k4, _⟩ :=
      addPart_fields ((a.validators.map Annotations.undotted).foldl Annotations.addPart a₀)
        (brandPart b)
    have hname : brandName? (String.ofList ('"' :: (b.toList ++ ['"']))) = some b := by
      rw [brandName?, String.toList_ofList, firstQuoted?_quoted (h.brand b hbrand).1,
        Option.map_some, String.ofList_toList]
    have hread := read_brandPart b
    have hv? : (Segment.read (brandPart b)).validator? = none := by
      rw [hread, Segment.validator?, if_pos rfl, Option.getD_some, hname]
      rfl
    have hb? : (Segment.read (brandPart b)).brand? = some b := by
      rw [hread, Segment.brand?, if_pos rfl, Option.getD_some, hname]
    have hd? : (Segment.read (brandPart b)).description? = none := by
      rw [hread]
      rfl
    rw [hv?] at k1
    rw [hb?] at k2
    rw [hd?] at k3
    rw [Option.toList_some, List.map_singleton, List.foldl_cons, List.foldl_nil]
    refine ⟨k1.trans ?_, k2, k3.trans (h3.trans hd), k4.trans h4⟩
    rw [h1, hv, List.nil_append]
    exact List.append_nil _

/-- a member at the head selects no type -/
theorem Renderable.not_isSelector (h : Renderable a) (hp : p ∈ memberParts a) :
    isSelector p = false := by
  rcases h.mem_memberParts hp with hs | ⟨b, _, rfl⟩
  · exact not_isSelector_of_validator? hs.validator
  · rw [Bool.eq_false_iff]
    intro hs
    have hw := (isWord_of_isSelector hs).2 '(' (by simp [brandPart_eq])
    exact absurd hw (by decide)

theorem Renderable.addParts_renderedParts (h : Renderable a) (hne : renderedParts a ≠ [])
    {a₀ : Annotations} (hs : a₀.typeSelector = none) (hv : a₀.validators = [])
    (hb : a₀.brand = none) (hd : a₀.description = none) :
    (a₀.addParts (renderedParts a)).typeSelector = a.typeSelector ∧
    (a₀.addParts (renderedParts a)).validators = a.validators ∧
    (a₀.addParts (renderedParts a)).brand = a.brand ∧
    (a₀.addParts (renderedParts a)).description = none := by
  cases ht : a.typeSelector with
  | some t =>
    have hparts : renderedParts a = t.toList :: memberParts a := by
      rw [renderedParts, ht]
      rfl
    rw [hparts, addParts_selector (h.selector t ht), String.ofList_toList]
    obtain ⟨h1, h2, h3, h4⟩ := @foldl_memberParts a h { a₀ with
      typeSelector := some t, segments := [.named t t none] } hv hb hd
    exact ⟨h4, h1, h2, h3⟩
  | none =>
    have hparts : renderedParts a = memberParts a := by
      rw [renderedParts, ht]
      rfl
    obtain ⟨h1, h2, h3, h4⟩ := h.foldl_memberParts hv hb hd
    rw [hparts] at hne ⊢
    obtain ⟨p, ps, hp⟩ := List.exists_cons_of_ne_nil hne
    have hsel := h.not_isSelector (hp ▸ List.mem_cons_self : p ∈ memberParts a)
    rw [hp] at h1 h2 h3 h4 ⊢
    rw [addParts_of_not_selector hsel]
    exact ⟨h4.trans hs, h1, h2, h3⟩

theorem Renderable.of?_slashes (h : Renderable a) (hne : rendered a ≠ "") :
    ∃ a', of? (some ("/// @zod." ++ rendered a)) = some a' ∧
      a'.typeSelector = a.typeSelector ∧ a'.validators = a.validators ∧ a'.brand = a.brand ∧
      a'.description = none := by
  have hparts : renderedParts a ≠ [] := by
    intro hnil
    have ht := h.toList_rendered
    rw [hnil] at ht
    exact hne (String.toList_injective ht)
  have hfirm : Firm (rendered a).toList := by
    rw [h.toList_rendered]
    exact firm_intercalate hparts fun p hp => h.firm hp
  have hchain := chain?_slashes hfirm
  rw [String.ofList_toList] at hchain
  unfold of?
  dsimp only
  rw [hchain, if_neg (by simp), Option.getD_some, h.splitChain]
  exact ⟨_, rfl, h.addParts_renderedParts hparts rfl rfl rfl rfl⟩

/-- **An annotation written out again** is read as it was, when its chain leaves nothing open and
has segments of the known shapes only; its description is left out. -/
theorem of?_rendered {doc : String} (h : of? (some doc) = some a)
    (hl : (start.run a.chain.toList).IsLevel)
    (hs : ∀ s ∈ a.segments, ∃ raw name args, s = .named raw name args) (hne : rendered a ≠ "") :
    ∃ a', of? (some ("/// @zod." ++ rendered a)) = some a' ∧
      a'.typeSelector = a.typeSelector ∧ a'.validators = a.validators ∧ a'.brand = a.brand ∧
      a'.description = none :=
  (renderable_of? h hl hs).of?_slashes hne

/-- a chain whose brand stands in the middle and whose message is in single quotes -/
def codeDoc : String :=
  "In lists.\n/// @zod.string.min.brand('Code').regex(/^[a-z]+\\.$/i , 'only (letters').describe('A code')"

def codeStated : Annotations :=
  { chain := "string.min.brand('Code').regex(/^[a-z]+\\.$/i , 'only (letters').describe('A code')"
    segments := [.named "string" "string" none, .named "min" "min" none,
      .named "brand('Code')" "brand" (some "'Code'"),
      .named "regex(/^[a-z]+\\.$/i , 'only (letters')" "regex"
        (some "/^[a-z]+\\.$/i , 'only (letters'"),
      .named "describe('A code')" "describe" (some "'A code'")]
    typeSelector := some "string"
    validators := [".min()", ".regex(/^[a-z]+\\.$/i, \"only (letters\")"]
    brand := some "Code"
    description := some "A code" }

theorem rendered_codeStated :
    rendered codeStated =
      "string.min().regex(/^[a-z]+\\.$/i, \"only (letters\").brand(\"Code\")" := by
  decide +kernel

theorem of?_rendered_code :
    of? (some codeDoc) = some codeStated ∧ (start.run codeStated.chain.toList).IsLevel ∧
      (∀ s ∈ codeStated.segments, ∃ raw name args, s = .named raw name args) ∧
      ∃ a', of? (some ("/// @zod." ++ rendered codeStated)) = some a' ∧
        a'.typeSelector = some "string" ∧ a'.validators = codeStated.validators ∧
        a'.brand = some "Code" ∧ a'.description = none := by
  have hdoc : of? (some codeDoc) = some codeStated := by decide +kernel
  have hl : (start.run codeStated.chain.toList).IsLevel := by
    unfold IsLevel
    decide +kernel
  have hs : ∀ s ∈ codeStated.segments, ∃ raw name args, s = .named raw name args := by
    simp [codeStated]
  have hne : rendered codeStated ≠ "" := by
    rw [rendered_codeStated]
    decide
  exact ⟨hdoc, hl, hs, of?_rendered hdoc hl hs hne⟩

end ZodSchema.Annotations
