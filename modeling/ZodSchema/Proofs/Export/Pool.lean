import ZodSchema.Export.Run
import ZodSchema.Proofs.Export.Plain

/-!
# Writes in any order of their steps

While writes take turns, every path is as it was at the beginning, except where a write shows: where
it has its file open, at its target once it is there, and at the directories on the way.  Two writes
show together at directories only.

* `turnBy`           a turn in a pool
* `Reached`          the invariant; `Reached.turnBy` keeps it
* `turnsLeft_of_rest`   every write comes to its end, whatever its steps are
* `settled_of_steady`   a batch of writes in turns leaves what it would leave one by one
* `settled_run`, `settled_poolOf`   by way of temporary files, and in an export
* `run_of_ended`     a run is over when every write has ended
-/

namespace ZodSchema.Export

open Files FileSystem Text

variable {atomic : Bool} {jobs : List Job} {j : Job} {p t : Parts} {w : String} {fs : FileSystem}
  {pool : Pool} {step : String → Job → FileSystem → Progress → FileSystem × Progress}

/-- a turn in a pool whose writes take their steps by `step` -/
def turnBy (step : String → Job → FileSystem → Progress → FileSystem × Progress)
    (jobs : List Job) (pool : Pool) (tn : Turn) : Pool :=
  match jobs.find? (·.target = tn.target) with
  | none => pool
  | some j =>
    let r := step tn.word j pool.files (pool.progress j.target)
    ⟨r.1, fun p => if p = j.target then r.2 else pool.progress p⟩

/-! ## the invariant -/

/-- the pool of a batch that began in `fs`: every path is as it was there, except where a write
shows -/
structure Reached (atomic : Bool) (jobs : List Job) (fs : FileSystem) (pool : Pool) : Prop where
  phase : ∀ j ∈ jobs, Phase atomic fs j (pool.progress j.target)
  shown : ∀ j ∈ jobs, ∀ p e, Shows fs j (pool.progress j.target) p e → pool.files.get? p = some e
  kept : ∀ p, (∀ j ∈ jobs, ∀ e, ¬ Shows fs j (pool.progress j.target) p e) →
    pool.files.get? p = fs.get? p

theorem Reached.begun (atomic : Bool) (jobs : List Job) (fs : FileSystem) :
    Reached atomic jobs fs ⟨fs, fun _ => .begun⟩ :=
  ⟨fun _ _ => .begun, fun _ _ _ _ h => absurd h not_shows_begun, fun _ _ => rfl⟩

section
variable (hb : Batch jobs) (ht : atomic = true → TempsApart jobs) (hj : j ∈ jobs)
  (h : Reached atomic jobs fs pool)
include hb ht hj h

/-- a write that does not show at its target meets what it would have met at the beginning -/
theorem Reached.sameFor (hno : ∀ e, ¬ Shows fs j (pool.progress j.target) j.target e) :
    SameFor j.target fs pool.files := by
  -- whoever shows on the way to the target shows a directory there
  have hway : ∀ k ∈ jobs, ∀ p e, p <+: j.target → Shows fs k (pool.progress k.target) p e →
      e = .dir ∧ p ∈ FileSystem.opened k.target.dropLast fs := by
    intro k hk p e hp hs
    rcases hs.cases_path (h.phase k hk) with hm | hm | rfl
    · exact hm
    · by_cases hjk : j = k
      · subst hjk
        cases hm with
        | temp hm _ => exact absurd hp ((ht rfl).not_on_way hk hj hm)
        | target => exact absurd hs (hno e)
      · exact absurd hp (hm.not_on_way hb ht hk hj (Ne.symm hjk))
    · by_cases hjk : j = k
      · subst hjk
        exact absurd hs (hno e)
      · exact absurd hp (hb.apart_of_ne hj hk hjk).2
  refine ⟨fun q hq => ?_, ?_⟩
  · by_cases hs : ∃ k ∈ jobs, ∃ e, Shows fs k (pool.progress k.target) q e
    · obtain ⟨k, hk, e, hs⟩ := hs
      obtain ⟨rfl, hm⟩ := hway k hk q e (hq.trans (List.dropLast_prefix _)) hs
      rw [(of_mem_opened hm).2.2, isFile_of_dir (h.shown k hk q _ hs)]
    · exact (isFile_congr (h.kept q fun k hk e he => hs ⟨k, hk, e, he⟩)).symm
  · have hnone : ∀ k ∈ jobs, ∀ e, ¬ Shows fs k (pool.progress k.target) j.target e := by
      intro k hk e hs
      by_cases hjk : j = k
      · subst hjk
        exact hno e hs
      · exact ne_target_of_shows hb ht hj hk hjk hs (h.phase k hk) rfl
    unfold FileSystem.isDir
    rw [h.kept _ hnone]

/-- what is free was free at the beginning -/
theorem Reached.meets : Meets atomic fs j pool.files (pool.progress j.target) := by
  refine ⟨hb.ne_nil j hj, h.phase j hj, h.sameFor hb ht hj, h.shown j hj, fun p hf => ?_⟩
  have hno : ∀ k ∈ jobs, ∀ e, ¬ Shows fs k (pool.progress k.target) p e := by
    intro k hk e hs
    rw [h.shown k hk p e hs] at hf
    cases hf
  rw [← h.kept p hno, hf]

end

section
variable (hstep : Steady atomic step) (hb : Batch jobs) (ht : atomic = true → TempsApart jobs)
include hstep hb ht

theorem Reached.turnBy (h : Reached atomic jobs fs pool) (tn : Turn) :
    Reached atomic jobs fs (turnBy step jobs pool tn) := by
  unfold Export.turnBy
  cases hfind : jobs.find? (·.target = tn.target) with
  | none => exact h
  | some j =>
    have hj : j ∈ jobs := List.mem_of_find?_eq_some hfind
    have hs := hstep tn.word (h.meets hb ht hj)
    dsimp only
    generalize step tn.word j pool.files (pool.progress j.target) = r at hs
    -- the others stay where they are
    have hother : ∀ k ∈ jobs, k ≠ j →
        (if k.target = j.target then r.2 else pool.progress k.target) = pool.progress k.target := by
      intro k hk hne
      rw [if_neg fun he => hne (hb.eq_of_target_eq hk hj he)]
    refine ⟨fun k hk => ?_, fun k hk p e he => ?_, fun p hp => ?_⟩
    · dsimp only
      by_cases hkj : k = j
      · rw [hkj, if_pos rfl]
        exact hs.phase
      · rw [hother k hk hkj]
        exact h.phase k hk
    · dsimp only at he ⊢
      by_cases hkj : k = j
      · rw [hkj, if_pos rfl] at he
        exact hs.shown p e he
      · rw [hother k hk hkj] at he
        by_cases hown : ∃ e', Shows fs j r.2 p e'
        · obtain ⟨e', he'⟩ := hown
          have heq := Shows.unique hb ht hk hj hkj he (h.phase k hk) he' hs.phase
          rw [hs.shown p e' he', heq]
        · rcases hs.kept p fun e' he' => hown ⟨e', he'⟩ with ⟨_, heq⟩ | ⟨hspot, _⟩
          · rw [heq, h.shown k hk p e he]
          · exact absurd hspot
              (not_spot_of_shows hb ht hj hk (Ne.symm hkj) he (h.phase k hk))
    · dsimp only at hp ⊢
      -- nobody shows at `p` now; before the turn only `j` can have, with the file it had open
      have hj' : ∀ e, ¬ Shows fs j r.2 p e := fun e he => hp j hj e (by rwa [if_pos rfl])
      rcases hs.kept p hj' with ⟨hbefore, heq⟩ | ⟨_, heq⟩
      · rw [heq]
        refine h.kept p fun k hk e he => ?_
        by_cases hkj : k = j
        · rw [hkj] at he
          exact hbefore e he
        · exact hp k hk e (by rwa [hother k hk hkj])
      · exact heq

theorem Reached.foldl (h : Reached atomic jobs fs pool) (turns : List Turn) :
    Reached atomic jobs fs (turns.foldl (Export.turnBy step jobs) pool) := by
  induction turns generalizing pool with
  | nil => exact h
  | cons tn turns ih => exact ih (h.turnBy hstep hb ht tn)

end

/-! ## the end -/

section
variable (hstep : Advancing step) (hj : j ∈ jobs)
include hstep hj

/-- a turn of a target that is in the batch brings its write nearer to its end -/
theorem turnsLeft_turnBy (tn : Turn) (pool : Pool) :
    turnsLeft ((turnBy step jobs pool tn).progress j.target) ≤
      turnsLeft (pool.progress j.target) - if tn.target = j.target then 1 else 0 := by
  unfold turnBy
  cases hfind : jobs.find? (·.target = tn.target) with
  | none =>
    have hne : tn.target ≠ j.target := by
      intro he
      have hno := List.find?_eq_none.1 hfind j hj
      exact hno (decide_eq_true he.symm)
    rw [if_neg hne]
    exact Nat.le_refl _
  | some k =>
    have hk : k.target = tn.target := by simpa using List.find?_some hfind
    dsimp only
    rw [hk]
    by_cases he : tn.target = j.target
    · rw [if_pos he.symm, if_pos he, ← he]
      exact hstep _ k _ _
    · rw [if_neg fun h => he h.symm, if_neg he]
      exact Nat.le_refl _

theorem turnsLeft_foldl (turns : List Turn) (pool : Pool) :
    turnsLeft ((turns.foldl (turnBy step jobs) pool).progress j.target) ≤
      turnsLeft (pool.progress j.target) - turns.countP (·.target = j.target) := by
  induction turns generalizing pool with
  | nil => exact Nat.le_refl _
  | cons tn turns ih =>
    have hone := turnsLeft_turnBy hstep hj tn pool
    have hrest := ih (turnBy step jobs pool tn)
    rw [List.countP_cons]
    simp only [decide_eq_true_eq]
    show turnsLeft ((turns.foldl (turnBy step jobs) (turnBy step jobs pool tn)).progress
      j.target) ≤ _
    omega

omit hstep in
theorem four_le_countP_rest : 4 ≤ (Pool.rest jobs).countP (·.target = j.target) := by
  obtain ⟨l, l', rfl⟩ := List.append_of_mem hj
  have hown : (List.replicate 4 (⟨j.target, ""⟩ : Turn)).countP (·.target = j.target) = 4 := by
    simp
  unfold Pool.rest
  rw [List.flatMap_append, List.flatMap_cons, List.countP_append, List.countP_append, hown]
  omega

/-- every write is at its end once its last four turns are over -/
theorem turnsLeft_of_rest (turns : List Turn) (fs : FileSystem) :
    turnsLeft (((turns ++ Pool.rest jobs).foldl (turnBy step jobs)
      ⟨fs, fun _ => .begun⟩).progress j.target) = 0 := by
  have hl := turnsLeft_foldl hstep hj (turns ++ Pool.rest jobs) ⟨fs, fun _ => .begun⟩
  have hc := four_le_countP_rest hj
  have hb : turnsLeft .begun = 4 := rfl
  rw [List.countP_append] at hl
  dsimp only at hl
  rw [hb] at hl
  omega

end

/-- Writes in turns come to their ends, whatever the order of their steps: the files are as the
same writes leave them one after another, and each write fares as it would alone. -/
theorem settled_of_steady (hstep : Steady atomic step) (hend : Advancing step) (hb : Batch jobs)
    (ht : atomic = true → TempsApart jobs) (turns : List Turn) (fs : FileSystem) :
    let pool := (turns ++ Pool.rest jobs).foldl (turnBy step jobs) ⟨fs, fun _ => .begun⟩
    Settled atomic jobs fs pool.files ∧
      ∀ j ∈ jobs, AlikeFaults j.target (pool.progress j.target).fault?
        (writeJob atomic j fs).2 := by
  have hend := fun (j : Job) (hj : j ∈ jobs) => turnsLeft_of_rest hend hj turns fs
  have h := (Reached.begun atomic jobs fs).foldl hstep hb ht (turns ++ Pool.rest jobs)
  dsimp only
  generalize (turns ++ Pool.rest jobs).foldl (turnBy step jobs) ⟨fs, fun _ => .begun⟩ = pool
    at hend h ⊢
  -- no write is on its way any more, so each has finished or failed
  have hfault : ∀ j ∈ jobs,
      AlikeFaults j.target (pool.progress j.target).fault? (writeJob atomic j fs).2 := by
    intro j hj
    have he := hend j hj
    have hph := h.phase j hj
    generalize pool.progress j.target = pr at he hph
    cases hph with
    | finished hw =>
      rw [hw]
      exact .none
    | failed hw => exact hw
    | _ => cases he
  refine ⟨⟨fun j hj hw => ?_, fun j hj p hp => ?_, fun p hw ho => ?_⟩, hfault⟩
  · have he := hend j hj
    have hf := hfault j hj
    have hs := h.shown j hj
    generalize pool.progress j.target = pr at he hf hs
    rw [hw] at hf
    cases pr with
    | finished => exact hs _ _ .written
    | failed f => cases hf
    | _ => cases he
  · refine h.shown j hj p _ (.opened (fun hbegun => ?_) hp)
    have he := hend j hj
    rw [hbegun] at he
    cases he
  · refine h.kept p fun j hj e hs => ?_
    have he := hend j hj
    have hf := hfault j hj
    generalize pool.progress j.target = pr at he hf hs
    cases hs with
    | opened _ hp => exact ho j hj hp
    | written => exact hw j hj (hf.eq_none_iff.1 rfl) rfl
    | _ => cases he

theorem settled_run (hb : Batch jobs) (ht : TempsApart jobs) (turns : List Turn)
    (fs : FileSystem) : Settled true jobs fs (Pool.run jobs turns fs).files ∧
      ∀ j ∈ jobs, AlikeFaults j.target ((Pool.run jobs turns fs).progress j.target).fault?
        (writeJob true j fs).2 :=
  settled_of_steady steady_turn advancing_turn hb (fun _ => ht) turns fs

/-- the writes of files in turns, by way of temporary files or straight into the targets -/
theorem settled_poolOf (s : Settings) (files : List GeneratedFile)
    (hb : Batch (jobsOf s.root files))
    (ht : s.atomic = true → TempsApart (jobsOf s.root files)) (turns : List Turn)
    (fs : FileSystem) :
    Settled s.atomic (jobsOf s.root files) fs (poolOf s turns files fs).files ∧
      ∀ j ∈ jobsOf s.root files, AlikeFaults j.target
        ((poolOf s turns files fs).progress j.target).fault? (writeJob s.atomic j fs).2 := by
  unfold poolOf
  cases ha : s.atomic with
  | true => exact settled_run hb (ht ha) turns fs
  | false =>
    exact settled_of_steady steady_plainTurn advancing_plainTurn hb (fun h => nomatch h) turns fs

/-! ## runs step by step -/

theorem play_of_ended (h : ∀ j ∈ jobs, turnsLeft (pool.progress j.target) = 0)
    (turns : List Turn) : pool.play jobs turns = pool := by
  induction turns with
  | nil => rfl
  | cons tn turns ih =>
    have hstay : pool.turn jobs tn = pool := by
      unfold Pool.turn
      cases hfind : jobs.find? (·.target = tn.target) with
      | none => rfl
      | some j =>
        have hj := h j (List.mem_of_find?_eq_some hfind)
        have hturn : (pool.progress j.target).turn tn.word j pool.files =
            (pool.files, pool.progress j.target) := by
          cases hp : pool.progress j.target <;> rw [hp] at hj
          case finished => rfl
          case failed f => rfl
          all_goals cases hj
        dsimp only
        rw [hturn]
        have hsame : (fun p => if p = j.target then pool.progress j.target else pool.progress p) =
            pool.progress := by
          funext p
          split
          · next he => rw [he]
          · rfl
        rw [hsame]
    show (pool.turn jobs tn).play jobs turns = pool
    rw [hstay]
    exact ih

theorem run_cons (jobs : List Job) (tn : Turn) (turns : List Turn) (fs : FileSystem) :
    Pool.run jobs (tn :: turns) fs = Pool.play jobs (turns ++ Pool.rest jobs)
      (Pool.turn jobs ⟨fs, fun _ => .begun⟩ tn) :=
  rfl

theorem progress_turn {tn : Turn} (h : jobs.find? (·.target = tn.target) = some j) :
    (pool.turn jobs tn).progress j.target =
      ((pool.progress j.target).turn tn.word j pool.files).2 := by
  unfold Pool.turn
  rw [h]
  exact if_pos rfl

/-- a write fails where its directories cannot be made -/
theorem turn_begun_of_fault {f : Fault} (h : (fs.makeDirs j.target.dropLast).2 = some f) :
    (Progress.begun.turn w j fs).2 = .failed f := by
  have hm : prepare j.target j.text fs = ((fs.makeDirs j.target.dropLast).1, some f) := by
    refine Prod.ext (prepare_fst ..) ?_
    rw [prepare_snd, h]
    rfl
  simp only [Progress.turn, Progress.step]
  rw [hm]

theorem progress_play_of_failed {f : Fault} (h : pool.progress t = .failed f)
    (turns : List Turn) : (pool.play jobs turns).progress t = .failed f := by
  induction turns generalizing pool with
  | nil => exact h
  | cons tn turns ih =>
    refine ih (?_ : (pool.turn jobs tn).progress t = _)
    unfold Pool.turn
    cases jobs.find? (·.target = tn.target) with
    | none => exact h
    | some j =>
      dsimp only
      split
      · next he => rw [← he, h]; rfl
      · exact h

/-- turns that bring every write to its end are the whole run -/
theorem run_of_ended (turns : List Turn) (fs : FileSystem)
    (h : ∀ j ∈ jobs, turnsLeft
      ((Pool.play jobs turns ⟨fs, fun _ => .begun⟩).progress j.target) = 0) :
    Pool.run jobs turns fs = Pool.play jobs turns ⟨fs, fun _ => .begun⟩ := by
  unfold Pool.run
  rw [Pool.play, List.foldl_append]
  exact play_of_ended h (Pool.rest jobs)

end ZodSchema.Export
