import ZodSchema.Proofs.Annotations.Escapes
import ZodSchema.Proofs.Annotations.Rendering

/-!
# A description read again

A text is described by a chain that has its literal as an argument.  Reading this chain gives the
text back, apart from two kinds of texts.  A letter behind a backslash is read as an escape, if it
is the letter of one.  And slashes with the mark of a chain behind them start a chain inside the
description, since such a chain comes before any other.

* `describing`            the chain that describes a text
* `HasSlashChain`         the texts in which a chain starts
* `of?_describing`        what is read of the other ones
* `count_description_le`  a description has no more of a character than the chain
* `of?_describing_iff`    the texts that are read as they were written
-/

namespace ZodSchema.Annotations

open ChainState

variable {a : Annotations} {w cs gap : List Char} {c : Char} {d x : String}

/-- the chain that describes a text, with its mark -/
def describing (d : String) : String := "@zod.string.describe(" ++ Text.quote d ++ ")"

theorem describing_eq (d : String) :
    describing d = "@zod.string.describe(" ++ Text.quote d ++ ")" := rfl

/-- three slashes and the mark of a chain -/
def slashMark (gap : List Char) : List Char := "///".toList ++ (gap ++ chainMark)

/-- Slashes and the mark of a chain stand in the text, with nothing but blanks between them.  A
control character is none of these blanks, since it is written as an escape. -/
def HasSlashChain (cs : List Char) : Prop :=
  ∃ gap, (∀ c ∈ gap, Text.isBlank c = true ∧ 32 ≤ c.toNat) ∧ slashMark gap <:+: cs

/-! ## pieces of a literal -/

/-- what stands behind the text in the chain that describes it -/
def ending : List Char := ['"', ')']

theorem low_le_of_mem_escape (h : Writable cs) (hc : c ∈ cs.flatMap Text.escapeChar) :
    32 ≤ c.toNat := by
  obtain ⟨x, hx, hc⟩ := List.mem_flatMap.1 hc
  rcases escapeChar_pair_or_self (h x hx) with ⟨e, he, hlow, -⟩ | ⟨he, hlow, -⟩
  · rw [he] at hc
    simp only [List.mem_cons, List.not_mem_nil, or_false] at hc
    rcases hc with rfl | rfl
    · decide
    · exact hlow
  · rw [he, List.mem_singleton] at hc
    exact hc ▸ hlow

theorem low_le_of_mem_ending (h : Writable cs) (hc : c ∈ cs.flatMap Text.escapeChar ++ ending) :
    32 ≤ c.toNat := by
  rcases List.mem_append.1 hc with hc | hc
  · exact low_le_of_mem_escape h hc
  · rcases List.mem_pair.1 hc with rfl | rfl <;> decide

theorem line_escape (h : Writable cs) : '\n' ∉ cs.flatMap Text.escapeChar := fun hm =>
  absurd (low_le_of_mem_escape h hm) (by decide)

theorem count_escape_le (h : Writable cs) :
    (cs.flatMap Text.escapeChar).count '@' ≤ cs.count '@' := by
  induction cs with
  | nil => exact Nat.le_refl _
  | cons c cs ih =>
    obtain ⟨hc, hcs⟩ := List.forall_mem_cons.1 h
    rw [List.flatMap_cons, List.count_append, List.count_cons, Nat.add_comm]
    refine Nat.add_le_add (ih hcs) ?_
    rcases escapeChar_pair_or_self hc with ⟨e, he, -, -, hne⟩ | ⟨he, -⟩
    · rw [he, List.count_eq_zero.2 (by simp [hne.symm])]
      exact Nat.zero_le _
    · rw [he, List.count_singleton]

theorem prefix_of_prefix_escape (h : Writable cs) (hs : '\\' ∉ w) (hq : '"' ∉ w)
    (hp : w <+: cs.flatMap Text.escapeChar ++ ending) : w <+: cs := by
  induction w generalizing cs with
  | nil => exact List.nil_prefix
  | cons x w ih =>
    rw [List.mem_cons, not_or] at hs hq
    cases cs with
    | nil => exact absurd (List.cons_prefix_cons.1 hp).1.symm hq.1
    | cons c cs =>
      obtain ⟨hc, hcs⟩ := List.forall_mem_cons.1 h
      rw [List.flatMap_cons, List.append_assoc] at hp
      rcases escapeChar_pair_or_self hc with ⟨e, he, -⟩ | ⟨he, -⟩
      · rw [he] at hp
        exact absurd (List.cons_prefix_cons.1 hp).1.symm hs.1
      · rw [he, List.singleton_append] at hp
        obtain ⟨rfl, hrest⟩ := List.cons_prefix_cons.1 hp
        exact List.cons_prefix_cons.2 ⟨rfl, ih hcs hs.2 hq.2 hrest⟩

/-- a slash and what follows it come from the text itself -/
theorem infix_of_infix_escape (h : Writable cs) (hs : '\\' ∉ '/' :: w) (hq : '"' ∉ '/' :: w)
    (hi : '/' :: w <:+: cs.flatMap Text.escapeChar ++ ending) : '/' :: w <:+: cs := by
  induction cs with
  | nil => exact absurd (hi.subset List.mem_cons_self) (by decide)
  | cons c cs ih =>
    obtain ⟨hc, hcs⟩ := List.forall_mem_cons.1 h
    rcases escapeChar_pair_or_self hc with ⟨e, he, -, hne, -⟩ | ⟨he, -⟩
    · rw [List.flatMap_cons, List.append_assoc, he] at hi
      -- neither the backslash nor its letter is a slash
      have hi := (List.infix_cons_iff.1 hi).resolve_left fun hp =>
        absurd (List.cons_prefix_cons.1 hp).1 (by decide)
      have hi := (List.infix_cons_iff.1 hi).resolve_left fun hp =>
        hne (List.cons_prefix_cons.1 hp).1.symm
      exact List.infix_cons (ih hcs hi)
    · have hcons : (c :: cs).flatMap Text.escapeChar ++ ending =
          c :: (cs.flatMap Text.escapeChar ++ ending) := by rw [List.flatMap_cons, he]; rfl
      rw [hcons] at hi
      rcases List.infix_cons_iff.1 hi with hp | hi
      · exact (prefix_of_prefix_escape h hs hq (hcons ▸ hp)).isInfix
      · exact List.infix_cons (ih hcs hi)

theorem not_mem_slashMark (hgap : ∀ x ∈ gap, Text.isBlank x = true)
    (hc : Text.isBlank c = false) (hm : c ∉ "///@zod.".toList) : c ∉ slashMark gap := by
  have hfront : "///@zod.".toList = "///".toList ++ chainMark := by decide
  rw [hfront, List.mem_append, not_or] at hm
  simp only [slashMark, List.mem_append, not_or]
  refine ⟨hm.1, fun hmem => ?_, hm.2⟩
  rw [hgap c hmem] at hc
  cases hc

theorem infix_of_infix_append {as bs : List Char} (hc : c ∉ as) (h : c :: w <:+: as ++ bs) :
    c :: w <:+: bs := by
  rcases List.infix_append_iff.1 h with h | h | ⟨l, r, hl, hs, hp⟩
  · exact absurd (h.subset List.mem_cons_self) hc
  · exact h
  · cases l with
    | nil => exact hl ▸ hp.isInfix
    | cons x l =>
      obtain ⟨rfl, -⟩ := List.cons.inj hl
      exact absurd (hs.subset List.mem_cons_self) hc

/-! ## the parts of the chain -/

def describePart (d : String) : List Char :=
  "describe".toList ++ '(' :: (('"' :: (d.toList.flatMap Text.escapeChar ++ ['"'])) ++ [')'])

theorem describePart_eq (d : String) : describePart d = "describe".toList ++
    '(' :: (('"' :: (d.toList.flatMap Text.escapeChar ++ ['"'])) ++ [')']) := rfl

def describeParts (d : String) : List (List Char) := ["string".toList, describePart d]

theorem toList_describing (d : String) :
    (describing d).toList = chainMark ++ ['.'].intercalate (describeParts d) := by
  simp [describing_eq, describeParts, describePart_eq, chainMark, Text.quote, Text.quoteChars]

theorem toList_describing_escape (d : String) : (describing d).toList =
    "@zod.string.describe(\"".toList ++ (d.toList.flatMap Text.escapeChar ++ ending) := by
  simp [describing_eq, Text.quote, Text.quoteChars, ending]

theorem line_describePart (h : Writable d.toList) : '\n' ∉ describePart d := by
  simp [describePart_eq, line_escape h]

theorem read_describePart (d : String) : Segment.read (describePart d) =
    .named (String.ofList (describePart d)) "describe"
      (some (String.ofList ('"' :: (d.toList.flatMap Text.escapeChar ++ ['"'])))) :=
  read_call (by decide) (List.all_eq_true.1 (by decide)) _

/-- a quote mark of the text does not end the literal, as a backslash stands in front of it -/
theorem pass?_escape {n : Int} {r e : Bool} (h : Writable cs) :
    ∃ e', (⟨n, r, some '"', e⟩ : ChainState).pass? (cs.flatMap Text.escapeChar) =
      some ⟨n, r, some '"', e'⟩ := by
  induction cs generalizing e with
  | nil => exact ⟨e, rfl⟩
  | cons c cs ih =>
    obtain ⟨hc, hcs⟩ := List.forall_mem_cons.1 h
    suffices hpass : ∃ e', (⟨n, r, some '"', e⟩ : ChainState).pass? (Text.escapeChar c) =
        some ⟨n, r, some '"', e'⟩ by
      obtain ⟨e', he⟩ := hpass
      obtain ⟨e'', he'⟩ := @ih e' hcs
      exact ⟨e'', by rw [List.flatMap_cons, pass?_append, he, Option.bind_some, he']⟩
    rcases escapeChar_pair_or_self hc with ⟨x, hx, -⟩ | ⟨hx, -, hq⟩
    · exact ⟨x == '\\', by simp [hx, ChainState.pass?, next]⟩
    · exact ⟨c == '\\', by simp [hx, ChainState.pass?, next, hq]⟩

/-- a backslash at the end of the text can leave the literal open, but no dot follows -/
theorem whole_describePart (h : Writable d.toList) : Whole (describePart d) := by
  have hword : ∀ c ∈ "describe".toList, Text.isWord c = true := List.all_eq_true.1 (by decide)
  obtain ⟨e, he⟩ := @pass?_escape _ 1 false false h
  rw [Whole, describePart_eq, pass?_call hword, List.cons_append, List.append_assoc,
    pass?_cons (next_snd_of_ne (by decide)), pass?_append]
  show (((⟨1, false, some '"', false⟩ : ChainState).pass? _).bind _).isSome = true
  rw [he, Option.bind_some, List.singleton_append, pass?_cons (next_snd_of_ne (by decide)),
    pass?_cons (next_snd_of_ne (by decide))]
  rfl

theorem firm_describeParts (h : Writable d.toList) : ∀ p ∈ describeParts d, Firm p := by
  simp only [describeParts, List.forall_mem_cons, List.not_mem_nil, false_imp_iff, implies_true,
    and_true]
  exact ⟨firm_of_read (by decide) (read_name (by decide) (List.all_eq_true.1 (by decide))),
    firm_of_read (line_describePart h) (read_describePart d)⟩

theorem splitChain_describing (h : Writable d.toList) :
    splitChain (['.'].intercalate (describeParts d)) = describeParts d := by
  have hstring : Closed "string".toList := closed_word (List.all_eq_true.1 (by decide))
  refine splitChain_intercalate (fun p hp => ⟨(firm_describeParts h p hp).ne_nil, ?_⟩)
    (List.forall_mem_singleton.2 hstring)
  rcases List.mem_pair.1 hp with rfl | rfl
  · exact hstring.whole
  · exact whole_describePart h

/-! ## what is read of it -/

theorem describePart_gives (h : Writable d.toList) :
    (Segment.read (describePart d)).description? = some (String.ofList (misread d.toList)) ∧
      (Segment.read (describePart d)).validator? = none := by
  have hargs : description?
      (String.ofList ('"' :: (d.toList.flatMap Text.escapeChar ++ ['"']))) =
      some (String.ofList (misread d.toList)) := by
    rw [description?, String.toList_ofList, wholeQuoted?_quoted, Option.map_some, unescape_escape h]
  rw [read_describePart, Segment.description?, if_pos rfl, Segment.validator?, if_neg (by decide),
    if_pos rfl, Option.getD_some, hargs]
  exact ⟨rfl, rfl⟩

theorem slashChain_describing (h : Writable d.toList) (hs : ¬HasSlashChain d.toList) :
    firstAlong slashChainAt? (describing d).toList = none := by
  rw [firstAlong_eq_none_iff]
  intro s hsuffix
  rw [Option.eq_none_iff_forall_ne_some]
  intro t ht
  obtain ⟨gap, rest, rfl, hgap, hat⟩ := slashChainAt?_eq_some_iff.1 ht
  obtain ⟨after, rfl, -⟩ := chainAt?_eq_some_iff.1 hat
  have hmark : slashMark gap <:+: (describing d).toList := by
    refine List.IsInfix.trans ?_ hsuffix.isInfix
    exact ⟨[], t ++ after, by simp [slashMark]⟩
  rw [toList_describing_escape] at hmark
  have hmark := infix_of_infix_append (by decide) hmark
  have hs' : '\\' ∉ slashMark gap := not_mem_slashMark hgap (by decide) (by decide)
  have hq : '"' ∉ slashMark gap := not_mem_slashMark hgap (by decide) (by decide)
  refine hs ⟨gap, fun c hc => ⟨hgap c hc, ?_⟩, infix_of_infix_escape h hs' hq hmark⟩
  have hc : c ∈ d.toList.flatMap Text.escapeChar ++ ending := hmark.subset (by simp [hc])
  exact low_le_of_mem_ending h hc

theorem chain?_describing (h : Writable d.toList) (hs : ¬HasSlashChain d.toList) :
    chain? (describing d) = some (['.'].intercalate (describeParts d)) := by
  have hfirm : Firm (['.'].intercalate (describeParts d)) :=
    firm_intercalate (List.cons_ne_nil _ _) (firm_describeParts h)
  have hat : chainAt? (describing d).toList = some (['.'].intercalate (describeParts d)) :=
    chainAt?_eq_some_iff.2 ⟨[], by rw [toList_describing, List.append_nil], hfirm.ne_nil,
      hfirm.line, nofun⟩
  rw [chain?, slashChain_describing h hs]
  dsimp only
  rw [firstAlong_of_head hat, Option.map_some, Text.trim_eq_self hfirm.head hfirm.last]

/-- **What is read of a text without a chain in it.** -/
theorem of?_describing (h : Writable d.toList) (hs : ¬HasSlashChain d.toList) :
    ∃ a, of? (some (describing d)) = some a ∧
      a.description = some (String.ofList (misread d.toList)) ∧ a.validators = [] := by
  have hsel : isSelector "string".toList = true := by decide
  unfold of?
  dsimp only
  rw [chain?_describing h hs, if_neg (by simp), Option.getD_some, splitChain_describing h,
    describeParts, addParts_selector hsel, List.foldl_cons, List.foldl_nil]
  obtain ⟨-, hv, -, hd, -⟩ := addPart_fields _ (describePart d)
  obtain ⟨hd', hv'⟩ := describePart_gives h
  refine ⟨_, rfl, ?_, ?_⟩
  · rw [hd, hd']
    rfl
  · rw [hv, hv']
    rfl

/-! ## a chain inside the text -/

/-- a character that no escape stands for is in the chain at least as often as in a description -/
theorem count_description_le {doc : String} (h : of? (some doc) = some a)
    (hx : a.description = some x) (hc : ∀ e ∈ unescapes, c ∉ e.2) :
    x.toList.count c ≤ ((chain? doc).getD []).count c := by
  obtain ⟨a₀, ps, rfl, -, -, -, hd₀, -, hps⟩ := exists_parts_of_of? h
  have hgive : ∀ a p, (addPart a p).description =
      (Segment.read p).description?.or a.description := fun a p => (addPart_fields a p).2.2.2.1
  rcases exists_of_foldl_addPart hgive hx with hx | ⟨p, hp, hx⟩
  · rw [hd₀] at hx
    cases hx
  · have hsub := sublist_of_mem_splitChain (hps hp)
    obtain ⟨t, rfl, ht⟩ :=
      exists_of_description? (fun hm => line_getD_chain? doc (hsub.subset hm)) hx
    rw [String.toList_ofList]
    exact (count_unescape_le hc t).trans ((ht.trans hsub).count_le c)

theorem escape_slashMark (hgap : ∀ c ∈ gap, Text.isBlank c = true ∧ 32 ≤ c.toNat) :
    (slashMark gap).flatMap Text.escapeChar = slashMark gap := by
  have hslashes : "///".toList.flatMap Text.escapeChar = "///".toList := by decide
  have hmark : chainMark.flatMap Text.escapeChar = chainMark := by decide
  have hself : ∀ c ∈ gap, Text.escapeChar c = [c] := by
    intro c hc
    obtain ⟨hblank, hlow⟩ := hgap c hc
    refine Json.escapeChar_ordinary hlow ?_ ?_ <;> rintro rfl <;> exact absurd hblank (by decide)
  rw [slashMark, List.flatMap_append, List.flatMap_append, hslashes, hmark,
    List.flatMap_congr hself, List.flatMap_singleton']

/-- the chain in the text is found, or one before it -/
theorem exists_slashChain (hw : Writable d.toList) (hs : HasSlashChain d.toList) :
    ∃ t, firstAlong slashChainAt? (describing d).toList = some t := by
  obtain ⟨gap, hgap, before, after, hd⟩ := hs
  have hline : '\n' ∉ after.flatMap Text.escapeChar :=
    line_escape fun c hc => hw c (hd ▸ List.mem_append_right _ hc)
  have hat : slashChainAt? (slashMark gap ++ (after.flatMap Text.escapeChar ++ ending)) =
      some (after.flatMap Text.escapeChar ++ ending) := by
    refine slashChainAt?_eq_some_iff.2 ⟨gap, chainMark ++ (after.flatMap Text.escapeChar ++ ending),
      by simp [slashMark], fun c hc => (hgap c hc).1, ?_⟩
    refine chainAt?_eq_some_iff.2 ⟨[], by rw [List.append_nil], by simp [ending], ?_, nofun⟩
    simp [ending, hline]
  have hsuffix : slashMark gap ++ (after.flatMap Text.escapeChar ++ ending) <:+
      (describing d).toList := by
    refine ⟨"@zod.string.describe(\"".toList ++ before.flatMap Text.escapeChar, ?_⟩
    rw [toList_describing_escape, ← hd, List.flatMap_append, List.flatMap_append,
      escape_slashMark hgap]
    simp only [List.append_assoc]
  refine Option.ne_none_iff_exists'.1 fun hnone => ?_
  rw [firstAlong_eq_none_iff.1 hnone _ hsuffix] at hat
  cases hat

/-- the chain is a part of the text behind a mark in the text, so it lacks the sign of this mark -/
theorem count_chain_describing (hw : Writable d.toList) (hs : HasSlashChain d.toList) :
    ((chain? (describing d)).getD []).count '@' < d.toList.count '@' := by
  obtain ⟨t, ht⟩ := exists_slashChain hw hs
  have hchain : chain? (describing d) = some (Text.trim t) := by
    rw [chain?, ht]
    rfl
  obtain ⟨s, hs, hsuffix⟩ := exists_of_firstAlong ht
  obtain ⟨gap, rest, rfl, -, hat⟩ := slashChainAt?_eq_some_iff.1 hs
  obtain ⟨after, rfl, -⟩ := chainAt?_eq_some_iff.1 hat
  -- it starts with a slash, hence behind the mark in front
  have hfront : "@zod.string.describe(\"".toList = '@' :: "zod.string.describe(\"".toList := by
    decide
  rw [toList_describing_escape, hfront, List.cons_append, List.suffix_cons_iff] at hsuffix
  have hsuffix := hsuffix.resolve_left fun he => absurd (List.cons.inj he).1 (by decide)
  have hmark : chainMark.count '@' = 1 := by decide
  have hname : "zod.string.describe(\"".toList.count '@' = 0 := by decide
  have hend : ending.count '@' = 0 := by decide
  have hle := hsuffix.sublist.count_le '@'
  simp only [List.count_append, hmark, hname, hend] at hle
  have hesc := count_escape_le hw
  have htrim := (trim_sublist t).count_le '@'
  rw [hchain, Option.getD_some]
  omega

/-- **The texts that are read as they were written** are those in which no letter behind a backslash
is an escape and no chain starts. -/
theorem of?_describing_iff (h : Writable d.toList) :
    (∃ a, of? (some (describing d)) = some a ∧ a.description = some d ∧ a.validators = []) ↔
      ¬HasEscape d.toList ∧ ¬HasSlashChain d.toList := by
  by_cases hs : HasSlashChain d.toList
  · refine iff_of_false ?_ fun hd => hd.2 hs
    rintro ⟨a, ha, hd, -⟩
    have hle := count_description_le ha hd (by decide : ∀ e ∈ unescapes, '@' ∉ e.2)
    exact absurd (count_chain_describing h hs) (Nat.not_lt.2 hle)
  · obtain ⟨a, ha, hd, hv⟩ := of?_describing h hs
    rw [and_iff_left hs, ← misread_eq_self_iff]
    constructor
    · rintro ⟨a', ha', hd', -⟩
      obtain rfl := Option.some.inj (ha.symm.trans ha')
      rw [hd] at hd'
      rw [← String.toList_ofList (l := misread d.toList), Option.some.inj hd']
    · intro hm
      rw [hm, String.ofList_toList] at hd
      exact ⟨a, ha, hd, hv⟩

/-- quote marks and backslashes, a line break and the mark of a chain without slashes in front -/
def quotation : String := "\"C:\\dir\\\"\r\nand it\\'s\tin @zod.array, // or\\"

theorem of?_describing_iff_quotation :
    Writable quotation.toList ∧ ∃ a, of? (some (describing quotation)) = some a ∧
      a.description = some quotation ∧ a.validators = [] := by
  have hw : Writable quotation.toList := by decide
  have he : ¬HasEscape quotation.toList := by
    unfold HasEscape
    decide
  have hs : ¬HasSlashChain quotation.toList := by
    rintro ⟨gap, -, hi⟩
    have hslashes : ¬"///".toList <:+: quotation.toList := by decide
    exact hslashes (List.IsInfix.trans (List.infix_append' [] _ _) hi)
  exact ⟨hw, (of?_describing_iff hw).2 ⟨he, hs⟩⟩

/-- a folder whose name starts with the letter of a line feed -/
def folder : String := "C:\\new"

/-- a text about a chain -/
def hint : String := "Written as /// @zod.uuid"

/-- The letter behind the backslash is read as a line feed, and of a text about a chain only this
chain is read. -/
theorem of?_describing_lost :
    (Writable folder.toList ∧ folder ≠ "C:\\\new" ∧
      (of? (some (describing folder))).map (fun a => (a.description, a.validators)) =
        some (some "C:\\\new", [])) ∧
    Writable hint.toList ∧
      (of? (some (describing hint))).map (fun a => (a.description, a.validators)) =
        some (none, [".uuid\")"]) :=
  ⟨⟨by decide, by decide, by decide +kernel⟩, by decide, by decide +kernel⟩

end ZodSchema.Annotations
