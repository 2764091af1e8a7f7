import ZodSchema.Proofs.Export.Passes

/-!
# How the files of an export fare

* `Outcome`, `written`, `refused`   a file and why it was not written, if so
* `Manner.outcomes`      the outcomes of a writing pass
* `Manner.write_log`     what the pass notes: a record or a failure for every file
* `Manner.get?_written`  a file that was written is at its place when the pass is over
-/

namespace ZodSchema.Export

open Files FileSystem Text

variable {s : Settings} {w : Manner} {f : GeneratedFile} {files : List GeneratedFile}
  {fs : FileSystem} {l : Log} {st : Log × FileSystem} {t : Parts}

/-! ## outcomes -/

/-- how the write of a file went -/
structure Outcome where
  file : GeneratedFile
  refusal : Option Refusal
  deriving DecidableEq, Repr

/-- the files that were written -/
def written (os : List Outcome) : List GeneratedFile :=
  (os.filter (·.refusal.isNone)).map (·.file)

/-- a failure for each of the others -/
def refused (os : List Outcome) : List Failure :=
  os.filterMap fun o => o.refusal.map (.notWritten o.file.path)

theorem mem_written {os : List Outcome} : f ∈ written os ↔ ⟨f, none⟩ ∈ os := by
  unfold written
  simp only [List.mem_map, List.mem_filter, Option.isNone_iff_eq_none]
  constructor
  · rintro ⟨⟨g, why⟩, ⟨ho, hn⟩, hf⟩
    obtain rfl : g = f := hf
    obtain rfl : why = none := hn
    exact ho
  · exact fun h => ⟨_, ⟨h, rfl⟩, rfl⟩

/-- all files are written when nothing is refused -/
theorem written_of_refused_eq_nil {os : List Outcome} (h : refused os = []) :
    written os = os.map (·.file) := by
  unfold refused at h
  rw [List.filterMap_eq_nil_iff] at h
  unfold written
  rw [List.filter_eq_self.2 fun o ho => ?_]
  exact Option.isNone_iff_eq_none.2 (Option.map_eq_none_iff.1 (h o ho))

theorem foldl_note (os : List Outcome) (l : Log) :
    os.foldl (fun l o => note o.file o.refusal l) l =
      { l with
        records := l.records ++ (written os).map Record.of
        failures := l.failures ++ refused os } := by
  induction os generalizing l with
  | nil => simp [written, refused]
  | cons o os ih =>
    obtain ⟨g, why⟩ := o
    rw [List.foldl_cons, ih]
    cases why <;> simp [note, Log.fail, written, refused]

/-! ## the writing pass -/

/-- outcomes of files that are written one after another -/
def outcomesFrom (s : Settings) : FileSystem → List GeneratedFile → List Outcome
  | _, [] => []
  | fs, f :: files => ⟨f, fate s fs f⟩ :: outcomesFrom s (writeFile s ({}, fs) f).2 files

/-- the outcomes of a writing pass, in the order of the files -/
def Manner.outcomes (w : Manner) (s : Settings) (files : List GeneratedFile) (fs : FileSystem) :
    List Outcome :=
  match w.turns? files with
  | none => outcomesFrom s fs files
  | some turns => files.map fun f => ⟨f, fateIn s (poolOf s turns files fs) f⟩

theorem map_file_outcomesFrom (s : Settings) (fs : FileSystem) (files : List GeneratedFile) :
    (outcomesFrom s fs files).map (·.file) = files := by
  induction files generalizing fs with
  | nil => rfl
  | cons f files ih => exact congrArg (f :: ·) (ih _)

/-- every file has its outcome -/
theorem Manner.map_file_outcomes (w : Manner) (s : Settings) (files : List GeneratedFile)
    (fs : FileSystem) : (w.outcomes s files fs).map (·.file) = files := by
  unfold Manner.outcomes
  split
  · exact map_file_outcomesFrom s fs files
  · rw [List.map_map]
    exact List.map_id _

/-- what is there already is written over, whatever has been noted -/
theorem writeFile_eq (s : Settings) (st : Log × FileSystem) (f : GeneratedFile) :
    writeFile s st f = (note f (fate s st.2 f) st.1, (writeFile s ({}, st.2) f).2) := by
  cases ht : targetOf? s.root f.path with
  | error why => rw [writeFile_of_refused ht, writeFile_of_refused ht]
  | ok t => rw [writeFile_of_target ht, writeFile_of_target ht]

theorem writeFiles_log (s : Settings) (files : List GeneratedFile) (st : Log × FileSystem) :
    (writeFiles s files st).1 =
      (outcomesFrom s st.2 files).foldl (fun l o => note o.file o.refusal l) st.1 := by
  induction files generalizing st with
  | nil => rfl
  | cons f files ih =>
    show (writeFiles s files (writeFile s st f)).1 = _
    rw [ih, writeFile_eq]
    rfl

/-- every file is noted with its outcome -/
theorem Manner.write_log (w : Manner) (s : Settings) (files : List GeneratedFile)
    (st : Log × FileSystem) :
    (w.write s files st).1 =
      { st.1 with
        records := st.1.records ++ (written (w.outcomes s files st.2)).map Record.of
        failures := st.1.failures ++ refused (w.outcomes s files st.2) } := by
  rw [← foldl_note]
  unfold Manner.write Manner.outcomes
  cases w.turns? files with
  | none => exact writeFiles_log s files st
  | some turns =>
    show files.foldl (noteOutcome s _) st.1 = _
    rw [noteOutcome_eq, List.foldl_map]

/-! ## what is left on the disk -/

/-- a file that is written has a place -/
theorem exists_target_of_fate (h : fate s fs f = none) : ∃ t, targetOf? s.root f.path = .ok t := by
  cases ht : targetOf? s.root f.path with
  | ok t => exact ⟨t, rfl⟩
  | error why =>
    unfold fate at h
    rw [ht] at h
    cases h

theorem exists_target_of_fateIn {pool : Pool} (h : fateIn s pool f = none) :
    ∃ t, targetOf? s.root f.path = .ok t ∧ (pool.progress t).fault? = none := by
  cases ht : targetOf? s.root f.path with
  | ok t =>
    rw [fateIn_of_target ht, Option.map_eq_none_iff] at h
    exact ⟨t, rfl, h⟩
  | error why =>
    unfold fateIn at h
    rw [ht] at h
    cases h

/-- one file after another: those that come later are apart from the place of the first -/
theorem get?_writeFiles (hsep : Separate s.root files)
    (hf : f ∈ written (outcomesFrom s st.2 files)) :
    ∃ t, targetOf? s.root f.path = .ok t ∧ Str.lone? f.content = none ∧
      (writeFiles s files st).2.get? t = some (.file (Str.bytes f.content)) := by
  induction files generalizing st with
  | nil => cases hf
  | cons g files ih =>
    have hrest : Separate s.root files := hsep.sublist (List.sublist_cons_self g files)
    have hfs : (writeFile s st g).2 = (writeFile s ({}, st.2) g).2 := by rw [writeFile_eq]
    rcases List.mem_cons.1 (mem_written.1 hf) with he | hf
    · obtain ⟨rfl, hn⟩ := Outcome.mk.inj he
      obtain ⟨t, ht⟩ := exists_target_of_fate hn.symm
      have hone : Separate s.root [f] := hsep.sublist (List.singleton_sublist.2 List.mem_cons_self)
      have hset := (writeFiles_noted hone st).1
      have hfirst : (writeFile s st f).2.get? t = some (.file (Str.bytes f.content)) :=
        get?_of_written hset (List.mem_singleton_self f) ht hn.symm
      refine ⟨t, ht, lone?_of_fate hn.symm, ?_⟩
      rw [← hfirst]
      refine (writeFiles_noted hrest (writeFile s st f)).1.get?_of_apart fun j hj => ?_
      obtain ⟨g, hg, hu, -⟩ := mem_jobsOf hj
      have hp : (targets s.root (f :: files)).Pairwise Apart := hsep
      rw [targets_cons ht] at hp
      exact List.rel_of_pairwise_cons hp (mem_targets hg hu)
    · exact ih hrest (mem_written.2 (hfs ▸ hf))

/-- A file that was written has an encoding, which is at its place when the pass is over. -/
theorem Manner.get?_written (w : Manner) (hsep : Separate s.root files) (hc : w.Clear s files)
    (hf : f ∈ written (w.outcomes s files st.2)) :
    ∃ t, targetOf? s.root f.path = .ok t ∧ Str.lone? f.content = none ∧
      (w.write s files st).2.get? t = some (.file (Str.bytes f.content)) := by
  unfold Manner.outcomes at hf
  unfold Manner.write
  cases hturns : w.turns? files with
  | none =>
    rw [hturns] at hf
    exact get?_writeFiles hsep hf
  | some turns =>
    rw [hturns] at hf
    obtain ⟨g, hg, he⟩ := List.mem_map.1 (mem_written.1 hf)
    obtain ⟨rfl, hn⟩ := Outcome.mk.inj he
    obtain ⟨t, ht, hfault⟩ := exists_target_of_fateIn hn
    obtain ⟨hset, halike⟩ := settled_poolOf s files (batch_jobsOf hsep) (hc.tempsApart hturns)
      turns st.2
    have hwritten := (halike _ (mem_jobsOf_of_target hg ht)).eq_none_iff.1 hfault
    have hfate : fate s st.2 g = none := by rw [fate_of_target ht, hwritten, Option.map_none]
    exact ⟨t, ht, lone?_of_fate hfate, get?_of_written hset hg ht hfate⟩

end ZodSchema.Export
