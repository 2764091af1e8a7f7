import ZodSchema.Contract.Config
import ZodSchema.Proofs.Export.Passes

/-!
# What an export changes outside the output directory

A step of a write below the output directory changes nothing outside, whoever comes before it and
whatever its temporary file is called.  So outside an export leaves what its clearing pass leaves,
also where files that are written in turns get into each other's way.

* `Progress.kept_turn`, `Progress.kept_plainTurn`   one step
* `Enclosed`              the temporary files of a pool are below a directory
* `Enclosed.turnBy`       a turn keeps them there, and all that is outside
* `Manner.kept_write`     the writing pass
* `run_outside`           what an export does to every path outside
* `run_clears_neighbour`  a configuration that clears a directory beside the output
-/

namespace ZodSchema.Files

open Text FileSystem

variable {root : Parts} {j : Job} {pr : Progress}

theorem isBelow_pickTemp (ht : isBelow root j.target = true) (word : String) (fs : FileSystem) :
    isBelow root (pickTemp word j.target fs) = true := by
  unfold pickTemp
  split
  · exact isBelow_beside ht _
  · exact isBelow_freshTemp ht fs

/-- a step by way of a temporary file of any name -/
theorem Progress.kept_turn (ht : isBelow root j.target = true) (word : String) (fs : FileSystem)
    (hi : pr.Inside root) :
    (pr.turn word j fs).2.Inside root ∧
      ∀ p, ¬ isBelow root p = true → Kept root fs (pr.turn word j fs).1 p := by
  cases pr with
  | parents =>
    have hb := isBelow_pickTemp ht word fs
    unfold Progress.turn
    dsimp only
    split
    · exact ⟨trivial, fun p _ => Kept.refl ..⟩
    · exact ⟨hb, fun p hp => kept_put (ne_of_isBelow hp hb) _⟩
  | _ => exact Progress.kept_step ht j.text fs hi

/-- a step straight into the target, which is its own temporary file -/
theorem Progress.kept_plainTurn (ht : isBelow root j.target = true) (fs : FileSystem)
    (hi : pr.Inside root) :
    (pr.plainTurn j fs).2.Inside root ∧
      ∀ p, ¬ isBelow root p = true → Kept root fs (pr.plainTurn j fs).1 p := by
  have hput : ∀ e p, ¬ isBelow root p = true → Kept root fs (fs.put j.target e) p :=
    fun e p hp => kept_put (ne_of_isBelow hp ht) e
  cases pr with
  | parents =>
    unfold Progress.plainTurn
    dsimp only
    split
    · exact ⟨trivial, fun p _ => Kept.refl ..⟩
    · split
      · exact ⟨trivial, fun p _ => Kept.refl ..⟩
      · exact ⟨ht, hput _⟩
  | temp | filled => exact ⟨trivial, hput _⟩
  | begun | finished | failed => exact Progress.kept_step ht j.text fs hi

end ZodSchema.Files

namespace ZodSchema.Export

open Files FileSystem Text

variable {root p : Parts} {jobs : List Job} {pool : Pool} {s : Settings} {st : Log × FileSystem}

/-! ## a pool -/

/-- all temporary files are below `root` -/
def Enclosed (root : Parts) (pool : Pool) : Prop := ∀ t, (pool.progress t).Inside root

section
variable (step : String → Job → FileSystem → Progress → FileSystem × Progress)
  (hstep : ∀ w, ∀ j ∈ jobs, ∀ fs pr, Progress.Inside root pr →
    (step w j fs pr).2.Inside root ∧
      ∀ p, ¬ isBelow root p = true → Kept root fs (step w j fs pr).1 p)
include hstep

theorem Enclosed.turnBy (h : Enclosed root pool) (tn : Turn) :
    Enclosed root (turnBy step jobs pool tn) ∧
      ∀ p, ¬ isBelow root p = true → Kept root pool.files (turnBy step jobs pool tn).files p := by
  unfold Export.turnBy
  cases hfind : jobs.find? (·.target = tn.target) with
  | none => exact ⟨h, fun p _ => Kept.refl ..⟩
  | some j =>
    have hj : j ∈ jobs := List.mem_of_find?_eq_some hfind
    obtain ⟨hi, hk⟩ := hstep tn.word j hj pool.files _ (h j.target)
    refine ⟨fun t => ?_, hk⟩
    dsimp only
    split
    · exact hi
    · exact h t

/-- all turns keep what is outside -/
theorem Enclosed.foldl (h : Enclosed root pool) (turns : List Turn)
    (hp : ¬ isBelow root p = true) :
    Kept root pool.files (turns.foldl (Export.turnBy step jobs) pool).files p := by
  induction turns generalizing pool with
  | nil => exact Kept.refl ..
  | cons tn turns ih =>
    obtain ⟨hnext, hk⟩ := h.turnBy step hstep tn
    exact (hk p hp).trans (ih hnext)

end

theorem kept_poolOf (s : Settings) (turns : List Turn) (files : List GeneratedFile)
    (fs : FileSystem) (hp : ¬ isBelow s.root p = true) :
    Kept s.root fs (poolOf s turns files fs).files p := by
  have hbelow : ∀ j ∈ jobsOf s.root files, isBelow s.root j.target = true := fun j hj => by
    obtain ⟨f, -, ht, -⟩ := mem_jobsOf hj
    exact isBelow_targetOf ht
  have hbegun : Enclosed s.root ⟨fs, fun _ => .begun⟩ := fun _ => trivial
  unfold poolOf
  split
  · exact hbegun.foldl (fun w j fs pr => pr.turn w j fs)
      (fun w j hj fs _ hi => Progress.kept_turn (hbelow j hj) w fs hi) _ hp
  · exact hbegun.foldl (fun _ j fs pr => pr.plainTurn j fs)
      (fun _ j hj fs _ hi => Progress.kept_plainTurn (hbelow j hj) fs hi) _ hp

/-! ## the export -/

theorem Manner.kept_write (w : Manner) (s : Settings) (files : List GeneratedFile)
    (st : Log × FileSystem) (hp : ¬ isBelow s.root p = true) :
    Kept s.root st.2 (w.write s files st).2 p := by
  unfold Manner.write
  split
  · exact kept_writeFiles s files st hp
  · next turns _ => exact kept_poolOf s turns files st.2 hp

/-- what the clearing pass leaves is what is cleared, and the rest -/
theorem get?_swept (s : Settings) (h : (st.2.makeDirs s.root).2 = none) :
    (Clears s st.2 p → (swept s st).2.2.get? p = none) ∧
      (¬ Clears s st.2 p → (swept s st).2.2.get? p = (st.2.makeDirs s.root).1.get? p) := by
  unfold swept
  dsimp only
  split
  · next hc =>
    rw [get?_clearFamilies]
    exact ⟨fun hp => if_pos hp.2.2, fun hp => if_neg fun ha => hp ⟨hc, h, ha⟩⟩
  · next hc => exact ⟨fun hp => absurd hp.1 hc, fun _ => rfl⟩

variable {w : Manner} {files : List GeneratedFile}

/-- after the clearing pass nothing changes outside -/
theorem kept_run (w : Manner) (h : (st.2.makeDirs s.root).2 = none) (files : List GeneratedFile)
    (hp : ¬ isBelow s.root p = true) :
    Kept s.root (swept s st).2.2 (run w s files st).2 p := by
  rw [run_of_root w st h]
  exact (w.kept_write s _ (swept s st).2 hp).trans (kept_writeManifest s _ hp)

theorem kept_run_of_not_clears (hp : ¬ isBelow s.root p = true) (hc : ¬ Clears s st.2 p) :
    Kept s.root st.2 (run w s files st).2 p := by
  have hd := kept_makeDirs s.root st.2 p
  cases hm : (st.2.makeDirs s.root).2 with
  | none =>
    have h1 : Kept s.root (st.2.makeDirs s.root).1 (swept s st).2.2 p :=
      Or.inl ((get?_swept s hm).2 hc)
    exact hd.trans (h1.trans (kept_run w hm files hp))
  | some e =>
    rw [run_of_fault w hm]
    exact hd

theorem get?_run_of_clears (ha : Apart s.root p) (hc : Clears s st.2 p) :
    (run w s files st).2.get? p = none := by
  rw [(kept_run w hc.2.1 files ha.not_isBelow).get?_eq ha.2]
  exact (get?_swept s hc.2.1).1 hc

/-- **What an export does outside the output directory.**  In whatever manner the files are written,
except for the output directory and its missing parents, every path that is not cleared is as
before; a path apart from the output directory is as before exactly when it is not cleared or was
not there; and when every family has its directory within the output directory, all paths outside
are as before. -/
theorem run_outside (w : Manner) (s : Settings) (files : List GeneratedFile)
    (st : Log × FileSystem) :
    (∀ p, ¬ isBelow s.root p = true → ¬ Clears s st.2 p →
      Kept s.root st.2 (run w s files st).2 p) ∧
    (∀ p, Apart s.root p →
      ((run w s files st).2.get? p = st.2.get? p ↔ (Clears s st.2 p → st.2.get? p = none))) ∧
    (∀ dir, s.root = Path.normalize dir →
      (∀ d ∈ s.config.familyDirs,
        isWithin s.root (Path.normalize (Path.absolute s.root d.2)) = true) →
      ∀ p, ¬ isBelow s.root p = true → Kept s.root st.2 (run w s files st).2 p) := by
  have hkept : ∀ p, ¬ isBelow s.root p = true → ¬ Clears s st.2 p →
      Kept s.root st.2 (run w s files st).2 p := fun p hp hc => kept_run_of_not_clears hp hc
  refine ⟨hkept, fun p ha => ?_, fun dir hr hd p hp => ?_⟩
  · by_cases hc : Clears s st.2 p
    · rw [get?_run_of_clears ha hc]
      exact ⟨fun h _ => h.symm, fun h => (h hc).symm⟩
    · exact iff_of_true ((hkept p ha.not_isBelow hc).get?_eq ha.2) fun h => absurd h hc
  · have hroot : Path.Resolved s.root := hr ▸ Path.resolved_normalize dir
    exact hkept p hp fun hc => hp (hc.isBelow hroot hd)

/-! ## a family directory beside the output directory -/

/-- settings whose schemas directory is a sibling of the output directory -/
def neighbour : Settings :=
  { config := { schemasDir := "../victim" }, root := ["w", "out"] }

/-- a file of somebody else in the sibling -/
def neighbourFiles : FileSystem :=
  ⟨[(["w"], .dir), (["w", "victim"], .dir), (["w", "victim", "keep.txt"], .file ⟨#[107]⟩)]⟩

theorem found_neighbour :
    found neighbour.root (sortedDirs neighbour.config) (neighbourFiles.makeDirs neighbour.root).1 =
      [["w", "victim"]] := by
  decide +kernel

/-- The configuration is accepted, and the export removes the file in the sibling directory. -/
theorem run_clears_neighbour :
    Contract.configOf (.map [(.text "zod_schemas_dir", .text "../victim")]) =
        .ok neighbour.config ∧
      ¬ isBelow neighbour.root ["w", "victim", "keep.txt"] = true ∧
      (neighbourFiles.get? ["w", "victim", "keep.txt"]).isSome = true ∧
      (run (.of neighbour.config []) neighbour [⟨"schemas", "../victim/User.ts", "x"⟩]
        ({}, neighbourFiles)).2.get? ["w", "victim", "keep.txt"] = none := by
  have hc : Clears neighbour neighbourFiles ["w", "victim", "keep.txt"] := by
    refine ⟨rfl, by decide +kernel, ?_⟩
    rw [found_neighbour]
    decide +kernel
  refine ⟨rfl, by decide, by decide, ?_⟩
  exact get?_run_of_clears ⟨by decide, by decide⟩ hc

end ZodSchema.Export
