import Mathlib.Data.List.Induction
import ZodSchema.Proofs.Files.Opened
import ZodSchema.Proofs.Files.Write

/-!
# File systems that are trees

* `Tree`                what is there is in a directory, under a name that a file can have
* `tree_makeDirs`, `tree_clear`   they stay trees
* `nothing_of_locate`   where no place is found, nothing is there or below
-/

namespace ZodSchema.Files

open Text

namespace FileSystem

variable {p q cur rest full path : Parts} {part : String} {fs fs' : FileSystem} {e : Entry}

/-- everything is in a directory, and no name holds a NUL character -/
structure Tree (fs : FileSystem) : Prop where
  parent : ∀ p, p ≠ [] → (fs.get? p).isSome = true → fs.get? p.dropLast = some .dir
  named : ∀ p, (fs.get? p).isSome = true → hasBadName p = false

theorem tree_of_entries (h : ∀ e ∈ fs.entries,
    fs.isDir e.1.dropLast = true ∧ hasBadName e.1 = false) : Tree fs := by
  have hmem : ∀ p, p ≠ [] → (fs.get? p).isSome = true →
      fs.isDir p.dropLast = true ∧ hasBadName p = false := by
    intro p hp hs
    obtain ⟨e, he⟩ := Option.isSome_iff_exists.1 hs
    obtain ⟨x, hx, rfl⟩ := List.mem_map.1 (mem_paths_of_get? hp he)
    exact h x hx
  refine ⟨fun p hp hs => ?_, fun p hs => ?_⟩
  · have hd := (hmem p hp hs).1
    unfold isDir at hd
    split at hd
    · next hg => exact hg
    · cases hd
  · by_cases hp : p = []
    · rw [hp]
      rfl
    · exact (hmem p hp hs).2

namespace Tree

/-- all on the way to what is there are directories -/
theorem get?_on_way (h : Tree fs) (hs : (fs.get? p).isSome = true) (hq : q <+: p)
    (hne : q ≠ p) : fs.get? q = some .dir := by
  obtain ⟨r, rfl⟩ := hq
  induction r using List.reverseRecOn with
  | nil => exact absurd (List.append_nil q).symm hne
  | append_singleton r x ih =>
    have hparent : fs.get? (q ++ r) = some .dir := by
      have hp := h.parent _ (List.append_ne_nil_of_right_ne_nil _
        (List.append_ne_nil_of_right_ne_nil r (List.cons_ne_nil x []))) hs
      rwa [← List.append_assoc, List.dropLast_concat] at hp
    by_cases hr : q = q ++ r
    · rw [hr]
      exact hparent
    · exact ih (by rw [hparent]; rfl) hr

/-- below what is no directory there is nothing -/
theorem get?_eq_none (h : Tree fs) (hq : fs.isDir q = false) (hp : q <+: p) (hne : q ≠ p) :
    fs.get? p = none := by
  cases hg : fs.get? p with
  | none => rfl
  | some e =>
    have hd := h.get?_on_way (by rw [hg]; rfl) hp hne
    unfold isDir at hq
    rw [hd] at hq
    cases hq

end Tree

/-! ## operations -/

theorem tree_put_dir (h : Tree fs) (hcur : fs.get? cur = some .dir)
    (hn : hasBadName (cur ++ [part]) = false)
    (hg : ∀ p, fs'.get? p = if p = cur ++ [part] then some .dir else fs.get? p) : Tree fs' := by
  have hstay : ∀ p, fs.get? p = some .dir → fs'.get? p = some .dir := by
    intro p hp
    rw [hg]
    split
    · rfl
    · exact hp
  refine ⟨fun p hp hs => ?_, fun p hs => ?_⟩
  · rw [hg] at hs
    split at hs
    · next he =>
      rw [he, List.dropLast_concat]
      exact hstay cur hcur
    · exact hstay _ (h.parent p hp hs)
  · rw [hg] at hs
    split at hs
    · next he =>
      rw [he]
      exact hn
    · exact h.named p hs

theorem hasBadName_on_way (h : hasBadName p = false) (hq : q <+: p) : hasBadName q = false := by
  unfold hasBadName at h ⊢
  rw [List.any_eq_false] at h ⊢
  exact fun x hx => h x (hq.subset hx)

theorem tree_makeDirsFrom (made : Bool) (h : Tree fs) (hcur : fs.get? cur = some .dir)
    (hn : hasBadName (cur ++ rest) = false) : Tree (makeDirsFrom full made cur rest fs).1 := by
  induction rest generalizing made cur fs with
  | nil => exact h
  | cons part rest ih =>
    rw [List.append_cons] at hn
    cases hl : isLongName part with
    | true =>
      rw [makeDirsFrom_long full made cur rest fs hl]
      exact h
    | false =>
      cases hf : fs.isFile (cur ++ [part]) with
      | true =>
        rw [makeDirsFrom_file full made cur rest fs hl hf]
        exact h
      | false =>
        obtain ⟨made', fs', hg, he⟩ := makeDirsFrom_pass full made cur rest fs hl hf
        have ht := tree_put_dir h hcur (hasBadName_on_way hn (List.prefix_append ..)) hg
        rw [he]
        exact ih made' ht (by rw [hg, if_pos rfl]) hn

theorem tree_makeDirs (dir : Parts) (h : Tree fs) : Tree (fs.makeDirs dir).1 := by
  unfold makeDirs
  split
  · exact h
  · next hn =>
    split
    · exact h
    · exact tree_makeDirsFrom false h rfl (by simpa using hn)

/-- what is cleared goes with all that is below it -/
theorem isCleared_of_dropLast {keep : List String} (h : isCleared keep q p.dropLast = true) :
    isCleared keep q p = true := by
  unfold isCleared at h ⊢
  obtain ⟨hb, hk⟩ := Bool.and_eq_true_iff.1 h
  obtain ⟨h1, h2⟩ := isBelow_iff.1 hb
  have hl := (List.dropLast_prefix p).length_le
  have hname : p.getD q.length "" = p.dropLast.getD q.length "" := by
    rw [List.getD_eq_getElem?_getD, List.getD_eq_getElem?_getD,
      List.getElem?_dropLast, if_pos (by rw [List.length_dropLast] at h2; exact h2)]
  rw [hname, hk, Bool.and_true]
  exact isBelow_iff.2 ⟨h1.trans (List.dropLast_prefix p), Nat.lt_of_lt_of_le h2 hl⟩

theorem tree_clear (keep : List String) (q : Parts) (h : Tree fs) :
    Tree (fs.eraseAll (isCleared keep q)) := by
  refine ⟨fun p hp hs => ?_, fun p hs => ?_⟩
  · rw [get?_eraseAll] at hs ⊢
    split at hs
    · cases hs
    · next hno =>
      rw [if_neg fun hd => hno ⟨hp, isCleared_of_dropLast hd.2⟩]
      exact h.parent p hp hs
  · rw [get?_eraseAll] at hs
    split at hs
    · cases hs
    · exact h.named p hs

/-! ## places -/

theorem nothing_of_locateFrom (h : Tree fs) (hdots : ∀ x ∈ rest, x ≠ "..")
    (hl : locateFrom fs path cur rest = .ok none) (hp : cur ++ rest <+: p) :
    fs.get? p = none := by
  induction rest generalizing cur with
  | nil => cases hl
  | cons part rest ih =>
    have hnext : cur ++ [part] <+: p := by
      rw [List.append_cons] at hp
      exact (List.prefix_append _ _).trans hp
    have hcur : cur <+: p := (List.prefix_append _ _).trans hnext
    have hshort : cur.length < p.length := by
      have := hnext.length_le
      rw [List.length_append, List.length_singleton] at this
      omega
    unfold locateFrom at hl
    split at hl
    · next hd =>
      refine h.get?_eq_none (by simpa using hd) hcur ?_
      rintro rfl
      exact Nat.lt_irrefl _ hshort
    · rw [if_neg (hdots part List.mem_cons_self)] at hl
      split at hl
      · cases hl
      · split at hl
        · refine ih (fun x hx => hdots x (List.mem_cons_of_mem _ hx)) hl ?_
          rw [← List.append_cons]
          exact hp
        · next hs =>
          by_cases he : cur ++ [part] = p
          · rw [← he]
            simpa using hs
          · refine h.get?_eq_none ?_ hnext he
            unfold isDir
            rw [Option.not_isSome_iff_eq_none.1 hs]

/-- where no place is found, nothing is there or below -/
theorem nothing_of_locate (h : Tree fs) (hdots : ∀ x ∈ path, x ≠ "..")
    (hl : fs.locate path = .ok none) (hp : path <+: p) : fs.get? p = none := by
  unfold locate at hl
  split at hl
  · next hn =>
    cases hg : fs.get? p with
    | none => rfl
    | some e =>
      have hno := hasBadName_on_way (h.named p (by rw [hg]; rfl)) hp
      rw [hn] at hno
      cases hno
  · split at hl
    · cases hl
    · exact nothing_of_locateFrom h hdots hl hp

end FileSystem

end ZodSchema.Files
