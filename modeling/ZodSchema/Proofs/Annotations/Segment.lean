import Mathlib.Data.List.TakeWhile
import ZodSchema.Annotations.Segment
import ZodSchema.Proofs.Text.Chars

/-!
# What a segment stands for

A segment gives the chain a validator, a brand or a description.

* `Segment.validator?`, `Segment.brand?`, `Segment.description?`   what a segment gives
* `Segment.brand?_of_validator?`      it gives one thing only
* `read_name`, `read_call`            a name and a call as segments
* `shape_of_read`                     all named segments are of these two kinds
* `Quotable`                          the texts that are read between quote marks
* `exists_of_description?`            a description is taken from its segment
-/

namespace ZodSchema.Annotations

namespace Segment

/-- the validator of a segment -/
def validator? : Segment → Option String
  | .verbatim raw => some ("." ++ raw)
  | .named raw name args =>
    if name = "brand" then
      if (brandName? (args.getD "")).isSome then none else some ("." ++ raw)
    else if name = "describe" then
      if (Annotations.description? (args.getD "")).isSome then none else some ("." ++ raw)
    else some (callMember name args)

/-- the brand that a segment names -/
def brand? : Segment → Option String
  | .verbatim _ => none
  | .named _ name args => if name = "brand" then brandName? (args.getD "") else none

/-- the description that a segment gives -/
def description? : Segment → Option String
  | .verbatim _ => none
  | .named _ name args =>
    if name = "describe" then Annotations.description? (args.getD "") else none

/-- a segment gives one thing only -/
theorem brand?_of_validator? {s : Segment} {v : String} (h : s.validator? = some v) :
    s.brand? = none ∧ s.description? = none := by
  cases s with
  | verbatim raw => exact ⟨rfl, rfl⟩
  | named raw name args =>
    unfold validator? at h
    unfold brand? description?
    dsimp only at h ⊢
    by_cases hb : name = "brand"
    · rw [if_pos hb] at h ⊢
      split at h
      · cases h
      · next hn =>
        rw [if_neg (by rw [hb]; decide)]
        exact ⟨Option.not_isSome_iff_eq_none.1 hn, rfl⟩
    · rw [if_neg hb] at h ⊢
      refine ⟨rfl, ?_⟩
      split at h
      · next hd =>
        rw [if_pos hd]
        split at h
        · cases h
        · next hn => exact Option.not_isSome_iff_eq_none.1 hn
      · next hd => rw [if_neg hd]

end Segment

/-! ## how named segments are written -/

theorem dropFinalNewline_enclosed {b : Char} (hb : b ≠ '\n') (a : Char) (cs : List Char) :
    Text.dropFinalNewline (a :: (cs ++ [b])) = a :: (cs ++ [b]) := by
  have hlast : (a :: (cs ++ [b])).getLast? = some b := by
    rw [← List.cons_append, List.getLast?_concat]
  rw [Text.dropFinalNewline, hlast, if_neg fun h => hb (Option.some.inj h)]

theorem dropFinalNewline_call (args : List Char) :
    Text.dropFinalNewline ('(' :: (args ++ [')'])) = '(' :: (args ++ [')']) :=
  dropFinalNewline_enclosed (by decide) '(' args

theorem eq_of_callArgs? {cs args : List Char} (h : callArgs? cs = some args) :
    cs = '(' :: (args ++ [')']) := by
  unfold callArgs? at h
  split at h
  · next rest =>
    split at h
    · next hlast =>
      obtain ⟨as, rfl⟩ := List.getLast?_eq_some_iff.1 hlast
      rw [List.dropLast_concat] at h
      rw [Option.some.inj h]
    · cases h
  · cases h

theorem callArgs?_call (args : List Char) : callArgs? ('(' :: (args ++ [')'])) = some args := by
  rw [callArgs?, List.getLast?_concat, if_pos rfl, List.dropLast_concat]

section
variable {name : List Char} (hne : name ≠ []) (hw : ∀ c ∈ name, Text.isWord c = true)
include hne hw

theorem read_name :
    Segment.read name = .named (String.ofList name) (String.ofList name) none := by
  have ht : name.takeWhile Text.isWord = name := List.takeWhile_eq_self_iff.2 hw
  have hd : name.dropWhile Text.isWord = [] := List.dropWhile_eq_nil_iff.2 hw
  have hl : Text.dropFinalNewline [] = [] := rfl
  unfold Segment.read
  simp only [ht, hd, hl]

theorem read_call (args : List Char) :
    Segment.read (name ++ '(' :: (args ++ [')'])) =
      .named (String.ofList (name ++ '(' :: (args ++ [')']))) (String.ofList name)
        (some (String.ofList args)) := by
  have hp : Text.isWord '(' = false := by decide
  unfold Segment.read
  simp only [Text.takeWhile_run hw hp, Text.dropWhile_run hw hp, dropFinalNewline_call,
    callArgs?_call]

end

/-- a named segment is its name, alone or with arguments in parentheses -/
theorem shape_of_read {p : List Char} {raw name : String} {args : Option String}
    (h : Segment.read p = .named raw name args) (hn : '\n' ∉ p) :
    raw = String.ofList p ∧ name.toList ≠ [] ∧ (∀ c ∈ name.toList, Text.isWord c = true) ∧
      (args = none ∧ p = name.toList ∨
        ∃ as, args = some (String.ofList as) ∧ p = name.toList ++ '(' :: (as ++ [')'])) := by
  have hp : p.takeWhile Text.isWord ++ p.dropWhile Text.isWord = p :=
    List.takeWhile_append_dropWhile
  have hd : Text.dropFinalNewline (p.dropWhile Text.isWord) = p.dropWhile Text.isWord :=
    Text.dropFinalNewline_of_not_mem fun hm => hn ((List.dropWhile_suffix _).subset hm)
  have hw : ∀ c ∈ p.takeWhile Text.isWord, Text.isWord c = true := fun c hc =>
    List.mem_takeWhile_imp hc
  unfold Segment.read at h
  simp only [hd] at h
  split at h
  · cases h
  · next n hne =>
    split at h
    · next hnil =>
      obtain ⟨rfl, rfl, rfl⟩ := Segment.named.inj h
      rw [String.toList_ofList]
      exact ⟨rfl, hne, hw, Or.inl ⟨rfl, by rw [hnil, List.append_nil] at hp; exact hp.symm⟩⟩
    · split at h
      · next args hargs =>
        obtain ⟨rfl, rfl, rfl⟩ := Segment.named.inj h
        rw [String.toList_ofList]
        refine ⟨rfl, hne, hw, Or.inr ⟨args, rfl, ?_⟩⟩
        rw [← eq_of_callArgs? hargs, hp]
      · cases h

theorem args_sublist {p : List Char} {raw name : String} {args : Option String}
    (h : Segment.read p = .named raw name args) (hn : '\n' ∉ p) :
    (args.getD "").toList.Sublist p := by
  obtain ⟨_, _, _, ⟨rfl, _⟩ | ⟨as, rfl, rfl⟩⟩ := shape_of_read h hn
  · exact List.nil_sublist _
  · rw [Option.getD_some, String.toList_ofList, ← List.singleton_append, ← List.append_assoc]
    exact (List.sublist_append_left as [')']).trans (List.sublist_append_right _ _)

/-! ## quoted texts -/

/-- a text that can stand between quote marks -/
def Quotable (m : List Char) : Prop := m ≠ [] ∧ ∀ c ∈ m, isPlainQuote c = false

theorem quotedAt?_eq_some_iff {cs m rest : List Char} :
    quotedAt? cs = some (m, rest) ↔
      ∃ q q', cs = q :: (m ++ q' :: rest) ∧ isPlainQuote q = true ∧ isPlainQuote q' = true ∧
        Quotable m := by
  constructor
  · intro h
    unfold quotedAt? at h
    split at h
    · next q cs =>
      split at h
      · next hq =>
        split at h
        · next c name q' rest' ht hd =>
          obtain ⟨rfl, rfl⟩ := Prod.mk.inj (Option.some.inj h)
          refine ⟨q, q', ?_, hq, ?_, List.cons_ne_nil _ _, ?_⟩
          · rw [← ht, ← hd, List.takeWhile_append_dropWhile]
          · have hq' := List.head?_dropWhile_not (fun c => !isPlainQuote c) cs
            rw [hd] at hq'
            simpa using hq'
          · intro x hx
            rw [← ht] at hx
            simpa using List.mem_takeWhile_imp hx
        · cases h
      · cases h
    · cases h
  · rintro ⟨q, q', rfl, hq, hq', hne, hm⟩
    have hp : ∀ c ∈ m, (!isPlainQuote c) = true := fun c hc => by rw [hm c hc]; rfl
    have hn : (!isPlainQuote q') = false := by rw [hq']; rfl
    obtain ⟨c, name, rfl⟩ := List.exists_cons_of_ne_nil hne
    rw [quotedAt?, if_pos hq, Text.takeWhile_run hp hn, Text.dropWhile_run hp hn]

theorem exists_of_firstQuoted? {cs m : List Char} (h : firstQuoted? cs = some m) :
    Quotable m ∧ m ⊆ cs := by
  induction cs with
  | nil => cases h
  | cons c cs ih =>
    rw [firstQuoted?] at h
    split at h
    · next t rest hq =>
      obtain ⟨q, q', hcs, _, _, hm⟩ := quotedAt?_eq_some_iff.1 hq
      obtain rfl := Option.some.inj h
      refine ⟨hm, fun x hx => ?_⟩
      rw [hcs]
      exact List.mem_cons_of_mem _ (List.mem_append_left _ hx)
    · exact ⟨(ih h).1, fun x hx => List.mem_cons_of_mem _ ((ih h).2 hx)⟩

theorem quotedAt?_quoted {m : List Char} (hm : Quotable m) :
    quotedAt? ('"' :: (m ++ ['"'])) = some (m, []) :=
  quotedAt?_eq_some_iff.2 ⟨'"', '"', rfl, rfl, rfl, hm⟩

theorem firstQuoted?_quoted {m : List Char} (hm : Quotable m) :
    firstQuoted? ('"' :: (m ++ ['"'])) = some m := by
  rw [firstQuoted?, quotedAt?_quoted hm]

theorem wholeQuoted?_quoted (cs : List Char) : wholeQuoted? ('"' :: (cs ++ ['"'])) = some cs := by
  have hq : (isPlainQuote '"' && isPlainQuote '"') = true := rfl
  rw [wholeQuoted?, dropFinalNewline_enclosed (by decide)]
  dsimp only
  rw [List.getLast?_concat]
  dsimp only
  rw [if_pos hq, List.dropLast_concat]

theorem wholeQuoted?_sublist {cs t : List Char} (h : wholeQuoted? cs = some t) : t.Sublist cs := by
  have hdrop : (Text.dropFinalNewline cs).Sublist cs := by
    unfold Text.dropFinalNewline
    split
    · exact List.dropLast_sublist cs
    · exact List.Sublist.refl cs
  refine List.Sublist.trans ?_ hdrop
  unfold wholeQuoted? at h
  split at h
  · next q rest hq =>
    split at h
    · split at h
      · obtain rfl := Option.some.inj h
        exact hq ▸ (List.dropLast_sublist rest).trans (List.sublist_cons_self q rest)
      · cases h
    · cases h
  · cases h

/-- escapes aside, a description is taken from its part of the chain -/
theorem exists_of_description? {p : List Char} {x : String} (hn : '\n' ∉ p)
    (h : (Segment.read p).description? = some x) :
    ∃ t, x = String.ofList (unescape t) ∧ t.Sublist p := by
  cases hs : Segment.read p with
  | verbatim raw =>
    rw [hs] at h
    cases h
  | named raw name args =>
    rw [hs, Segment.description?] at h
    split at h
    · obtain ⟨t, ht, rfl⟩ := Option.map_eq_some_iff.1 h
      exact ⟨t, rfl, (wholeQuoted?_sublist ht).trans (args_sublist hs hn)⟩
    · cases h

end ZodSchema.Annotations
