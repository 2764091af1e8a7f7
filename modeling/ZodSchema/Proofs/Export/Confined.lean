import ZodSchema.Export.Basic
import ZodSchema.Proofs.Files.Frame

/-!
# What the passes of an export reach

The files and the manifest are written below the output directory.  The clearing pass follows the
directories of the families wherever they lead.

* `found`               the directories that the clearing pass finds, each when its turn comes
* `Clears`              a path is removed by the clearing pass
* `get?_clearFamilies`  the clearing pass, path by path
* `kept_writeFiles`, `kept_writeManifest`   the other passes keep what is outside
-/

namespace ZodSchema.Export

open Files FileSystem Text

variable {root p q : Parts} {fs : FileSystem}

/-- the directories that the clearing pass finds from `fs` on -/
def found (root : Parts) : List (Family × String) → FileSystem → List Parts
  | [], _ => []
  | (_, dir) :: rest, fs =>
    match fs.locate (Path.absolute root dir) with
    | .ok (some q) =>
      if fs.isDir q then q :: found root rest (fs.eraseAll (isCleared keptNames q))
      else found root rest fs
    | _ => found root rest fs

/-- an export into `fs` removes `p` when it clears the directories of its families -/
def Clears (s : Settings) (fs : FileSystem) (p : Parts) : Prop :=
  s.clean = true ∧ (fs.makeDirs s.root).2 = none ∧
    (found s.root (sortedDirs s.config) (fs.makeDirs s.root).1).any (isCleared keptNames · p) = true

/-- neither within `root` nor on the way to it -/
def Apart (root p : Parts) : Prop := ¬ root <+: p ∧ ¬ p <+: root

theorem Apart.not_isBelow (h : Apart root p) : ¬ isBelow root p = true :=
  fun hb => h.1 (isBelow_iff.1 hb).1

/-! ## the clearing pass -/

/-- clearing a directory that is found removes what is cleared; any other clearing removes
nothing -/
theorem clearFamilies_cons (s : Settings) (d : Family × String) (rest : List (Family × String))
    (l : Log) (fs : FileSystem) :
    ∃ l', (clearFamilies s (d :: rest) (l, fs)).2.2 =
      match fs.locate (Path.absolute s.root d.2) with
      | .ok (some q) =>
        if fs.isDir q then
          (clearFamilies s rest (l', fs.eraseAll (isCleared keptNames q))).2.2
        else (clearFamilies s rest (l', fs)).2.2
      | _ => (clearFamilies s rest (l', fs)).2.2 := by
  obtain ⟨family, dir⟩ := d
  cases hl : fs.locate (Path.absolute s.root dir) with
  | error e => simp only [clearFamilies, FileSystem.clear, hl]; exact ⟨_, rfl⟩
  | ok place =>
    cases place with
    | none => simp only [clearFamilies, FileSystem.clear, hl]; exact ⟨_, rfl⟩
    | some q =>
      by_cases hd : fs.isDir q = true
      · simp only [clearFamilies, FileSystem.clear, hl, if_pos hd]; exact ⟨_, rfl⟩
      · simp only [clearFamilies, FileSystem.clear, hl, if_neg hd]; exact ⟨_, rfl⟩

/-- the clearing pass removes what lies in the directories that it finds, and nothing else -/
theorem get?_clearFamilies (s : Settings) (dirs : List (Family × String)) (l : Log)
    (fs : FileSystem) (p : Parts) :
    (clearFamilies s dirs (l, fs)).2.2.get? p =
      if (found s.root dirs fs).any (isCleared keptNames · p) then none else fs.get? p := by
  -- the log changes from directory to directory but decides nothing
  induction dirs generalizing l fs with
  | nil => rfl
  | cons d rest ih =>
    obtain ⟨l', h⟩ := clearFamilies_cons s d rest l fs
    rw [h]
    unfold found
    cases fs.locate (Path.absolute s.root d.2) with
    | error e => exact ih l' fs
    | ok place =>
      cases place with
      | none => exact ih l' fs
      | some q =>
        dsimp only
        split
        · rw [ih, get?_eraseAll, List.any_cons]
          by_cases hc : isCleared keptNames q p = true
          · have hne := ne_nil_of_isBelow (isBelow_of_isCleared hc)
            simp [hc, hne]
          · simp [hc]
        · exact ih l' fs

theorem absolute_names (hr : Path.Resolved root) (dir : String) :
    ∀ x ∈ Path.absolute root dir, x ≠ "" ∧ x ≠ "." := by
  have hd : ∀ x ∈ (Path.parts dir).filter (· ≠ "."), x ≠ "" ∧ x ≠ "." := fun x hx => by
    obtain ⟨h1, h2⟩ := List.mem_filter.1 hx
    exact ⟨by simpa using (List.mem_filter.1 h1).2, by simpa using h2⟩
  intro x hx
  unfold Path.absolute at hx
  dsimp only at hx
  split at hx
  · exact hd x hx
  · rcases List.mem_append.1 hx with hx | hx
    · exact ⟨(hr x hx).1, (hr x hx).2.1⟩
    · exact hd x hx

/-- every directory that is found is the normal form of a family's directory -/
theorem mem_found (hr : Path.Resolved root) {dirs : List (Family × String)}
    (h : q ∈ found root dirs fs) :
    ∃ d ∈ dirs, q = Path.normalize (Path.absolute root d.2) := by
  induction dirs generalizing fs with
  | nil => cases h
  | cons d rest ih =>
    have tail : ∀ {fs'}, q ∈ found root rest fs' →
        ∃ d' ∈ d :: rest, q = Path.normalize (Path.absolute root d'.2) := fun h' => by
      obtain ⟨d', hd', he⟩ := ih h'
      exact ⟨d', List.mem_cons_of_mem _ hd', he⟩
    unfold found at h
    split at h
    · next q' hl =>
      split at h
      · rcases List.mem_cons.1 h with rfl | h
        · exact ⟨d, List.mem_cons_self, locate_eq_normalize (absolute_names hr _) hl⟩
        · exact tail h
      · exact tail h
    · exact tail h

/-- directories within the output directory are cleared below it -/
theorem Clears.isBelow {s : Settings} (hr : Path.Resolved s.root)
    (hd : ∀ d ∈ s.config.familyDirs,
      isWithin s.root (Path.normalize (Path.absolute s.root d.2)) = true)
    (h : Clears s fs p) : isBelow s.root p = true := by
  obtain ⟨q, hq, hc⟩ := List.any_eq_true.1 h.2.2
  obtain ⟨d, hmem, rfl⟩ := mem_found hr hq
  exact isBelow_of_isWithin (hd d (List.mem_mergeSort.1 hmem)) (isBelow_of_isCleared hc)

/-! ## the other passes -/

theorem isBelow_targetOf {path : String} {target : Parts} (h : targetOf? root path = .ok target) :
    isBelow root target = true := by
  unfold targetOf? at h
  dsimp only at h
  split at h
  · cases h
  · split at h
    · next hb => rw [← Except.ok.inj h]; exact hb
    · cases h

/-- a file is written below the output directory or not at all -/
theorem kept_writeFile (s : Settings) (st : Log × FileSystem) (f : GeneratedFile)
    (hp : ¬ isBelow s.root p = true) : Kept s.root st.2 (writeFile s st f).2 p := by
  unfold writeFile
  split
  · exact Kept.refl ..
  · next target ht =>
    have hk := kept_write s.atomic (isBelow_targetOf ht) f.content st.2 hp
    split <;> next hw => rw [hw] at hk; exact hk

theorem kept_writeFiles (s : Settings) (files : List GeneratedFile) (st : Log × FileSystem)
    (hp : ¬ isBelow s.root p = true) : Kept s.root st.2 (writeFiles s files st).2 p := by
  induction files generalizing st with
  | nil => exact Kept.refl ..
  | cons f files ih => exact (kept_writeFile s st f hp).trans (ih (writeFile s st f))

theorem kept_writeManifest (s : Settings) (st : Log × FileSystem)
    (hp : ¬ isBelow s.root p = true) : Kept s.root st.2 (writeManifest s st).2 p := by
  have ht : FileSystem.isBelow s.root (s.root ++ [manifestName]) = true :=
    isBelow_iff.2 ⟨List.prefix_append .., by simp⟩
  unfold writeManifest
  split
  · have hk := kept_write s.atomic ht (st.1.manifest s.config).json st.2 hp
    split <;> next hw => rw [hw] at hk; exact hk
  · exact Kept.refl ..

end ZodSchema.Export
