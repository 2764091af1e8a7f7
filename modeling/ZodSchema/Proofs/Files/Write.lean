import Mathlib.Data.List.Nodup
import Mathlib.Data.List.Perm.Subperm
import ZodSchema.Proofs.Files.Opened
import ZodSchema.Proofs.Text.Literal

/-!
# One write

* `get?_freshTemp`   the path of a temporary file is free
* `fault_write`      the fault of a write, in the order in which it comes to light
* `get?_write`       what a write leaves at every path; nothing of the temporary file
* `alike_write`      the fault depends on the files in the way and on what stands at the target
-/

namespace ZodSchema.Files

open Text FileSystem

variable {target p q : Parts} {text : String} {fs fs' : FileSystem}

theorem not_prefix_dropLast (ht : target ≠ []) : ¬ target <+: target.dropLast := by
  intro h
  have hl := h.length_le
  have hp := List.length_pos_iff.2 ht
  rw [List.length_dropLast] at hl
  omega

/-! ## temporary files -/

theorem tempName_injective (name : String) : Function.Injective (tempName name) := by
  intro m n h
  have hl := congrArg String.toList h
  simp only [tempName, String.toList_append] at hl
  exact padded_injective 8 (String.toList_injective
    (List.append_cancel_left (List.append_cancel_right hl)))

theorem tempPath_injective (target : Parts) : Function.Injective (tempPath target) := by
  intro m n h
  exact tempName_injective _ (List.singleton_inj.1 (List.append_cancel_left h))

theorem tempPath_ne_nil (target : Parts) (n : Nat) : tempPath target n ≠ [] :=
  List.append_ne_nil_of_right_ne_nil _ (List.cons_ne_nil _ _)

theorem mem_paths_of_get? {e : Entry} (hp : p ≠ []) (h : fs.get? p = some e) :
    p ∈ fs.entries.map (·.1) := by
  have hl : ∀ es : List (Parts × Entry), lookup p es = some e → p ∈ es.map (·.1) := by
    intro es
    induction es with
    | nil => exact fun h => nomatch h
    | cons x es ih =>
      intro h
      unfold lookup at h
      rw [List.map_cons, List.mem_cons]
      split at h
      · next hx => exact Or.inl hx.symm
      · exact Or.inr (ih h)
  rw [get?, if_neg hp] at h
  exact hl _ h

/-- one path more than there are entries cannot all be taken -/
theorem exists_free (target : Parts) (fs : FileSystem) :
    ∃ n ∈ List.range (fs.entries.length + 1), (fs.get? (tempPath target n)).isNone = true := by
  by_contra hno
  have hsub : (List.range (fs.entries.length + 1)).map (tempPath target) ⊆
      fs.entries.map (·.1) := by
    intro x hx
    obtain ⟨n, hn, rfl⟩ := List.mem_map.1 hx
    cases hg : fs.get? (tempPath target n) with
    | none => exact absurd ⟨n, hn, by rw [hg]; rfl⟩ hno
    | some e => exact mem_paths_of_get? (tempPath_ne_nil target n) hg
  have hnd : ((List.range (fs.entries.length + 1)).map (tempPath target)).Nodup :=
    List.Nodup.map (tempPath_injective target) List.nodup_range
  have hl := (List.subperm_of_subset hnd hsub).length_le
  rw [List.length_map, List.length_map, List.length_range] at hl
  omega

/-- the path of a temporary file is free -/
theorem get?_freshTemp (target : Parts) (fs : FileSystem) :
    fs.get? (freshTemp target fs) = none := by
  obtain ⟨n, hn, hf⟩ := exists_free target fs
  unfold freshTemp
  cases h : (List.range (fs.entries.length + 1)).find?
      fun n => (fs.get? (tempPath target n)).isNone with
  | none => exact absurd hf (List.find?_eq_none.1 h n hn)
  | some m =>
    have hm := List.find?_some (p := fun n => (fs.get? (tempPath target n)).isNone) h
    exact Option.isNone_iff_eq_none.1 hm

/-- a file that is put where nothing stood leaves nothing when it is taken away -/
theorem get?_erase_put (h : fs.get? q = none) (e e' : Entry) (p : Parts) :
    (((fs.put q e).put q e').erase q).get? p = fs.get? p := by
  by_cases hp : p ≠ [] ∧ p = q
  · rw [get?_erase, if_pos hp, hp.2, h]
  · rw [get?_erase, if_neg hp, get?_put, if_neg hp, get?_put, if_neg hp]

theorem get?_put_of_ne (h : p ≠ q) (e : Entry) : (fs.put q e).get? p = fs.get? p := by
  rw [get?_put, if_neg fun hp => h hp.2]

/-- a file with a longer name than its neighbour -/
theorem ne_beside {name : String}
    (h : (Path.fileName target).toList.length < name.toList.length) :
    target ≠ target.dropLast ++ [name] := by
  intro he
  have hn := congrArg (fun p => (Path.fileName p).toList.length) he
  simp only [Path.fileName, List.getLast?_concat, Option.getD_some] at hn
  exact Nat.ne_of_lt h hn

theorem tempPath_ne (target : Parts) (n : Nat) : target ≠ tempPath target n := by
  refine ne_beside ?_
  have hd : ".".toList.length = 1 := rfl
  simp only [tempName, String.toList_append, List.length_append]
  omega

theorem ne_freshTemp (target : Parts) (fs : FileSystem) : target ≠ freshTemp target fs :=
  tempPath_ne target _

/-! ## what a write can come to -/

/-- why no file can be opened in a write: no temporary file, or not the target itself -/
def openFault? (atomic : Bool) (target : Parts) : Option Fault :=
  pathFault? (if atomic then tempPath target 0 else target)

/-- the fault of a write whose target is a directory -/
def dirFault (atomic : Bool) (target : Parts) (fs : FileSystem) : Fault :=
  if atomic then .isDirectoryAt (freshTemp target (fs.makeDirs target.dropLast).1) target
  else .isDirectory target

/-- what a write can leave, and with which fault; of a temporary file it leaves nothing -/
inductive Wrote (atomic : Bool) (target : Parts) (text : String) (fs : FileSystem) :
    FileSystem → Option Fault → Prop where
  | unready {fs' : FileSystem} {e : Fault} (hd : (prepare target text fs).2 = some e)
      (hg : ∀ p, fs'.get? p = (prepare target text fs).1.get? p) :
      Wrote atomic target text fs fs' (some e)
  | noOpen {fs' : FileSystem} {e : Fault} (hd : (prepare target text fs).2 = none)
      (ho : openFault? atomic target = some e)
      (hg : ∀ p, fs'.get? p = (prepare target text fs).1.get? p) :
      Wrote atomic target text fs fs' (some e)
  | onDir {fs' : FileSystem} (hd : (prepare target text fs).2 = none)
      (ho : openFault? atomic target = none) (ht : fs.isDir target = true)
      (hg : ∀ p, fs'.get? p = (prepare target text fs).1.get? p) :
      Wrote atomic target text fs fs' (some (dirFault atomic target fs))
  | done {fs' : FileSystem} (hd : (prepare target text fs).2 = none)
      (ho : openFault? atomic target = none) (ht : fs.isDir target = false)
      (hg : ∀ p, fs'.get? p =
        if p = target then some (.file (Str.bytes text)) else (prepare target text fs).1.get? p) :
      Wrote atomic target text fs fs' none

theorem prepare_fst (target : Parts) (text : String) (fs : FileSystem) :
    (prepare target text fs).1 = (fs.makeDirs target.dropLast).1 := rfl

theorem prepare_snd (target : Parts) (text : String) (fs : FileSystem) :
    (prepare target text fs).2 = (fs.makeDirs target.dropLast).2.or (textFault? text) := rfl

theorem isDir_prepare (ht : target ≠ []) (text : String) (fs : FileSystem) :
    (prepare target text fs).1.isDir target = fs.isDir target := by
  unfold isDir
  rw [prepare_fst, get?_makeDirs_off_way (not_prefix_dropLast ht)]

/-- the target filled, where the rest is as in `fs₁` -/
theorem get?_put_target (ht : target ≠ []) {fs₁ fs₂ : FileSystem}
    (h : ∀ p, fs₂.get? p = fs₁.get? p) (e : Entry) (p : Parts) :
    (fs₂.put target e).get? p = if p = target then some e else fs₁.get? p := by
  rw [get?_put, h]
  by_cases hp : p = target
  · rw [if_pos ⟨hp ▸ ht, hp⟩, if_pos hp]
  · rw [if_neg fun he => hp he.2, if_neg hp]

theorem wrote_writePlain (ht : target ≠ []) (text : String) (fs : FileSystem) :
    Wrote false target text fs (writePlain target text fs).1 (writePlain target text fs).2 := by
  have hdir := isDir_prepare ht text fs
  unfold writePlain
  cases hm : prepare target text fs with
  | mk fs₁ f =>
    rw [hm] at hdir
    cases f with
    | some e => exact .unready (by rw [hm]) fun p => by rw [hm]
    | none =>
      cases ho : pathFault? target with
      | some e => exact .noOpen (by rw [hm]) ho fun p => by rw [hm]
      | none =>
        dsimp only at hdir ⊢
        cases hd : fs₁.isDir target with
        | true => exact .onDir (by rw [hm]) ho (hdir ▸ hd) fun p => by rw [hm]; rfl
        | false =>
          refine .done (by rw [hm]) ho (hdir ▸ hd) fun p => ?_
          rw [hm]
          exact get?_put_target ht (fun _ => rfl) _ p

/-- an empty file that was put is filled -/
theorem fill_put {t : Parts} (ht : t ≠ []) (text : String) (fs : FileSystem) :
    fill t text (fs.put t (.file ByteArray.empty)) =
      (fs.put t (.file ByteArray.empty)).put t (.file (Str.bytes text)) := by
  unfold fill
  rw [get?_put, if_pos ⟨ht, rfl⟩]
  rfl

/-- the temporary file of a write is there and full -/
theorem steps_filled {fs₁ : FileSystem} (hm : prepare target text fs = (fs₁, none))
    (ho : pathFault? (tempPath target 0) = none) :
    Progress.steps target text 4 (fs, .begun) =
      Progress.step target text ((fs₁.put (freshTemp target fs₁) (.file ByteArray.empty)).put
        (freshTemp target fs₁) (.file (Str.bytes text))) (.filled (freshTemp target fs₁)) := by
  have h₁ : Progress.step target text fs .begun = (fs₁, .parents) := by
    simp only [Progress.step, hm]
  have h₂ : Progress.step target text fs₁ .parents =
      (fs₁.put (freshTemp target fs₁) (.file ByteArray.empty), .temp (freshTemp target fs₁)) := by
    simp only [Progress.step, ho]
  have h₃ := fill_put (t := freshTemp target fs₁) (tempPath_ne_nil target _) text fs₁
  simp only [Progress.steps, h₁, h₂]
  rw [← h₃]
  rfl

theorem wrote_writeAtomic (ht : target ≠ []) (text : String) (fs : FileSystem) :
    Wrote true target text fs (writeAtomic target text fs).1 (writeAtomic target text fs).2 := by
  have hdir := isDir_prepare ht text fs
  unfold writeAtomic
  cases hm : prepare target text fs with
  | mk fs₁ f =>
    rw [hm] at hdir
    cases f with
    | some e =>
      have h₁ : Progress.step target text fs .begun = (fs₁, .failed e) := by
        simp only [Progress.step, hm]
      simp only [Progress.steps, h₁]
      exact .unready (by rw [hm]) fun p => by rw [hm]; rfl
    | none =>
      cases ho : pathFault? (tempPath target 0) with
      | some e =>
        simp only [Progress.steps, Progress.step, hm, ho]
        exact .noOpen (by rw [hm]) ho fun p => by rw [hm]
      | none =>
        -- the temporary file is neither at the target nor does it stay
        have hback := get?_erase_put (get?_freshTemp target fs₁) (.file ByteArray.empty)
          (.file (Str.bytes text))
        have hthere := get?_put (fs₁.put (freshTemp target fs₁) (.file ByteArray.empty))
          (freshTemp target fs₁) (.file (Str.bytes text)) (freshTemp target fs₁)
        rw [if_pos ⟨tempPath_ne_nil target _, rfl⟩] at hthere
        have hfilled : ((fs₁.put (freshTemp target fs₁) (.file ByteArray.empty)).put
            (freshTemp target fs₁) (.file (Str.bytes text))).isDir target = fs₁.isDir target := by
          have hne := ne_freshTemp target fs₁
          unfold isDir
          rw [get?_put_of_ne hne, get?_put_of_ne hne]
        rw [steps_filled hm ho]
        simp only [Progress.step, hthere, hfilled]
        cases hd : fs₁.isDir target with
        | true =>
          have hf : dirFault true target fs = .isDirectoryAt (freshTemp target fs₁) target := by
            unfold dirFault
            rw [← prepare_fst target text, hm]
            rfl
          refine hf ▸ .onDir (by rw [hm]) ho (hdir ▸ hd) fun p => ?_
          rw [hm]
          exact hback p
        | false =>
          refine .done (by rw [hm]) ho (hdir ▸ hd) fun p => ?_
          rw [hm]
          exact get?_put_target ht hback _ p

theorem wrote_write (atomic : Bool) (ht : target ≠ []) (text : String) (fs : FileSystem) :
    Wrote atomic target text fs (write atomic target text fs).1
      (write atomic target text fs).2 := by
  cases atomic with
  | false => exact wrote_writePlain ht text fs
  | true => exact wrote_writeAtomic ht text fs

/-! ## target and fault -/

/-- the fault of a write, in the order in which it comes to light -/
theorem fault_write (atomic : Bool) (ht : target ≠ []) (text : String) (fs : FileSystem) :
    (write atomic target text fs).2 =
      (((fs.makeDirs target.dropLast).2.or (textFault? text)).or (openFault? atomic target)).or
        (if fs.isDir target then some (dirFault atomic target fs) else none) := by
  have hw := wrote_write atomic ht text fs
  generalize write atomic target text fs = r at hw ⊢
  rw [← prepare_snd]
  obtain ⟨fs', f⟩ := r
  cases hw with
  | unready hd hg => rw [hd]; rfl
  | noOpen hd ho hg => rw [hd, ho]; rfl
  | onDir hd ho ht hg => rw [hd, ho, if_pos ht]; rfl
  | done hd ho ht hg => rw [hd, ho, if_neg (by rw [ht]; decide)]; rfl

/-- what a write leaves at every path -/
theorem get?_write (atomic : Bool) (ht : target ≠ []) (text : String) (fs : FileSystem)
    (p : Parts) : (write atomic target text fs).1.get? p =
      if (write atomic target text fs).2 = none ∧ p = target then
        some (.file (Str.bytes text))
      else if p ∈ opened target.dropLast fs then some .dir else fs.get? p := by
  have hw := wrote_write atomic ht text fs
  generalize write atomic target text fs = r at hw ⊢
  obtain ⟨fs', f⟩ := r
  rw [← get?_makeDirs, ← prepare_fst target text]
  cases hw with
  | unready hd hg => rw [hg, if_neg fun h => nomatch h.1]
  | noOpen hd ho hg => rw [hg, if_neg fun h => nomatch h.1]
  | onDir hd ho ht hg => rw [hg, if_neg fun h => nomatch h.1]
  | done hd ho ht hg => rw [hg]; simp only [true_and]

theorem alike_dirFault (atomic : Bool) (target : Parts) (fs fs' : FileSystem) :
    Fault.Alike target (dirFault atomic target fs) (dirFault atomic target fs') := by
  unfold dirFault
  cases atomic with
  | false =>
    rw [if_neg Bool.false_ne_true, if_neg Bool.false_ne_true]
    exact .refl _
  | true =>
    rw [if_pos rfl, if_pos rfl]
    exact .temp _ _ _

/-- two file systems in which a write to `target` meets the same files and the same target -/
structure SameFor (target : Parts) (fs fs' : FileSystem) : Prop where
  isFile : ∀ q, q <+: target.dropLast → fs.isFile q = fs'.isFile q
  isDir : fs.isDir target = fs'.isDir target

theorem SameFor.opened_eq (h : SameFor target fs fs') :
    opened target.dropLast fs = opened target.dropLast fs' :=
  opened_congr h.isFile

/-- the same write comes to the same -/
theorem SameFor.alike_write (h : SameFor target fs fs') (atomic : Bool) (ht : target ≠ [])
    (text : String) : AlikeFaults target (write atomic target text fs).2
      (write atomic target text fs').2 := by
  have hm := alike_makeDirs h.isFile
  rw [fault_write atomic ht, fault_write atomic ht, ← h.isDir]
  generalize (fs.makeDirs target.dropLast).2 = f at hm ⊢
  generalize (fs'.makeDirs target.dropLast).2 = f' at hm ⊢
  cases hm with
  | some h => exact .some (h.mono (List.dropLast_prefix target))
  | none =>
    rw [Option.none_or]
    cases textFault? text with
    | some e => exact .some (.refl e)
    | none =>
    cases openFault? atomic target with
    | some e => exact .some (.refl e)
    | none =>
      cases fs.isDir target with
      | false => exact .none
      | true => exact .some (alike_dirFault ..)

end ZodSchema.Files
