import ZodSchema.Proofs.Export.Isolated

/-!
# Concurrent and sequential exports

* `run_alike`           exports in two manners come to the same
* `run_inTurns_alike`   an export in turns comes to the same as one file after another
* `turns_matter`        where a target can be met by a temporary file, it does not
* `batch_spoils`        nor does every file fare there as it would fare alone
-/

namespace ZodSchema.Export

open Files FileSystem Text

variable {s : Settings} {root : Parts} {path : String} {files : List GeneratedFile}
  {f : GeneratedFile} {e e' e'' : Failure} {why why' why'' : Refusal} {w w' : Manner}

/-! ## alike failures -/

theorem Refusal.Alike.symm (h : Refusal.Alike root path why why') :
    Refusal.Alike root path why' why := by
  cases h with
  | refl => exact .refl _
  | fault ht h => exact .fault ht h.symm

theorem Refusal.Alike.trans (h₁ : Refusal.Alike root path why why')
    (h₂ : Refusal.Alike root path why' why'') : Refusal.Alike root path why why'' := by
  cases h₁ with
  | refl => exact h₂
  | fault ht h =>
    cases h₂ with
    | refl => exact .fault ht h
    | fault ht' h' =>
      obtain rfl := Except.ok.inj (ht.symm.trans ht')
      exact .fault ht (h.trans h')

theorem Failure.Alike.symm (h : Failure.Alike root e e') : Failure.Alike root e' e := by
  cases h with
  | refl => exact .refl _
  | notWritten path h => exact .notWritten path h.symm

theorem Failure.Alike.trans (h₁ : Failure.Alike root e e') (h₂ : Failure.Alike root e' e'') :
    Failure.Alike root e e'' := by
  cases h₁ with
  | refl => exact h₂
  | notWritten path h =>
    cases h₂ with
    | refl => exact .notWritten path h
    | notWritten _ h' => exact .notWritten path (h.trans h')

theorem forall₂_alike_of_common {es es' es'' : List Failure}
    (h : List.Forall₂ (Failure.Alike root) es es'')
    (h' : List.Forall₂ (Failure.Alike root) es' es'') :
    List.Forall₂ (Failure.Alike root) es es' := by
  induction h generalizing es' with
  | nil =>
    cases h'
    exact .nil
  | cons he _ ih =>
    cases h' with
    | cons he' h' => exact .cons (he.trans he'.symm) (ih h')

/-! ## exports -/

/-- exports of separate files in two manners, in neither of which a temporary file gets in the way,
leave the same files, with the same records and failures that are alike -/
theorem run_alike (hsep : Separate s.root files) (hcl : w.Clear s files) (hcl' : w'.Clear s files)
    (st : Log × FileSystem) :
    (∀ p, (run w' s files st).2.get? p = (run w s files st).2.get? p) ∧
      (run w' s files st).1.records = (run w s files st).1.records ∧
      List.Forall₂ (Failure.Alike s.root) (run w' s files st).1.failures
        (run w s files st).1.failures := by
  cases hroot : (st.2.makeDirs s.root).2 with
  | some e =>
    rw [run_of_fault w hroot, run_of_fault w' hroot]
    exact ⟨fun _ => rfl, rfl, forall₂_alike_refl ..⟩
  | none =>
    rw [run_of_root w st hroot, run_of_root w' st hroot]
    obtain ⟨failed, mid⟩ := swept s st
    dsimp only
    have hsub := without_sublist failed files
    obtain ⟨hset, hnoted⟩ := w.write_noted (hsep.sublist hsub) (hcl.sublist hsub) mid
    obtain ⟨hset', hnoted'⟩ := w'.write_noted (hsep.sublist hsub) (hcl'.sublist hsub) mid
    generalize w.write s (without failed files) mid = a at hset hnoted
    generalize w'.write s (without failed files) mid = b at hset' hnoted'
    have hrec : b.1.records = a.1.records := hnoted'.records.trans hnoted.records.symm
    have hget : ∀ p, b.2.get? p = a.2.get? p := hset'.get?_eq hset
    refine ⟨fun p => get?_writeManifest_congr hrec hget p, ?_, ?_⟩
    · rw [(writeManifest_log s a).1, (writeManifest_log s b).1, hrec]
    · rw [(writeManifest_log s a).2, (writeManifest_log s b).2]
      exact forall₂_alike_of_common hnoted'.failures hnoted.failures

/-- **Concurrent exports.**  When files have separate places and none of them can be met by the
temporary file of another one, an export that writes the files in turns, whatever the turns and the
words in temporary names, leaves the same files as an export that writes them one after another,
with the same records and failures that are alike. -/
theorem run_inTurns_alike (s : Settings) (files : List GeneratedFile)
    (hsep : Separate s.root files) (htemps : s.atomic = true → TempsApart (jobsOf s.root files))
    (turns : List Turn) (st : Log × FileSystem) :
    (∀ p, (run (.inTurns turns) s files st).2.get? p = (run .oneByOne s files st).2.get? p) ∧
      (run (.inTurns turns) s files st).1.records = (run .oneByOne s files st).1.records ∧
      List.Forall₂ (Failure.Alike s.root) (run (.inTurns turns) s files st).1.failures
        (run .oneByOne s files st).1.failures := by
  have hone : Manner.Clear .oneByOne s files := trivial
  have hcl : Manner.Clear (.inTurns turns) s files := htemps
  exact run_alike hsep hone hcl st

/-- two files of one directory and one outside, written in alternation -/
def pair : List GeneratedFile :=
  [⟨"schemas", "a/x.ts", "x"⟩, ⟨"schemas", "../z.ts", "z"⟩, ⟨"schemas", "a/y.ts", "y"⟩]

theorem run_inTurns_pair :
    Separate (toOut true).root pair ∧
      ((toOut true).atomic = true → TempsApart (jobsOf (toOut true).root pair)) ∧
      let turns : List Turn := [⟨["out", "a", "y.ts"], "k3u_x07q"⟩, ⟨["out", "a", "x.ts"], ""⟩,
        ⟨["out", "a", "y.ts"], "k3u_x07q"⟩]
      (∀ p, (run (.inTurns turns) (toOut true) pair ({}, {})).2.get? p =
          (run .oneByOne (toOut true) pair ({}, {})).2.get? p) ∧
        (run (.inTurns turns) (toOut true) pair ({}, {})).1.records =
          (run .oneByOne (toOut true) pair ({}, {})).1.records ∧
        List.Forall₂ (Failure.Alike (toOut true).root)
          (run (.inTurns turns) (toOut true) pair ({}, {})).1.failures
          (run .oneByOne (toOut true) pair ({}, {})).1.failures := by
  have hsep : Separate (toOut true).root pair := by decide +kernel
  have htemps : TempsApart (jobsOf (toOut true).root pair) :=
    tempsApart_of_names (by decide +kernel)
  exact ⟨hsep, fun _ => htemps, run_inTurns_alike (toOut true) pair hsep (fun _ => htemps) _ ({}, {})⟩

/-! ## where turns matter -/

/-- an export in turns of two files with places, into nothing -/
theorem run_two {g : GeneratedFile} {j k : Job} (hroot : s.root = ["out"])
    (hm : s.config.writeManifest = false) (ha : s.atomic = true)
    (hswept : swept s ({}, {}) = ([], {}, onlyOut))
    (hf : targetOf? ["out"] f.path = .ok j.target) (hfc : f.content = j.text)
    (hg : targetOf? ["out"] g.path = .ok k.target) (hgc : g.content = k.text)
    (turns : List Turn) : run (.inTurns turns) s [f, g] ({}, {}) =
      let pool := Pool.run [j, k] turns onlyOut
      (note g ((pool.progress k.target).fault?.map .fault)
        (note f ((pool.progress j.target).fault?.map .fault) {}), pool.files) := by
  have hjobs : jobsOf s.root [f, g] = [j, k] := by
    rw [hroot]
    unfold jobsOf
    rw [List.filterMap_cons_some (jobOf?_of_target hf),
      List.filterMap_cons_some (jobOf?_of_target hg), hfc, hgc]
    rfl
  have hout : (({} : FileSystem).makeDirs s.root).2 = none := by
    rw [hroot]
    rfl
  have hpool : poolOf s turns [f, g] onlyOut = Pool.run [j, k] turns onlyOut := by
    unfold poolOf
    rw [if_pos ha, hjobs]
  have hno : ∀ st, writeManifest s st = st := fun st => if_neg (by rw [hm]; decide)
  rw [run_of_root _ ({}, {}) hout, hswept, without_nil, hno]
  show ([f, g].foldl (noteOutcome s (poolOf s turns [f, g] onlyOut)) {},
    (poolOf s turns [f, g] onlyOut).files) = _
  rw [hpool, noteOutcome_eq, List.foldl_cons, List.foldl_cons, List.foldl_nil,
    fateIn_of_target (f := f) (hroot ▸ hf), fateIn_of_target (f := g) (hroot ▸ hg)]

theorem swept_toOut (manifest : Bool) : swept (toOut manifest) ({}, {}) = ([], {}, onlyOut) := rfl

def userFile : GeneratedFile := ⟨"schemas", "schemas/User.ts", "a"⟩

/-- a file with the name of a temporary file for `User.ts` -/
def hiddenFile : GeneratedFile := ⟨"schemas", "schemas/.User.ts.00000000.tmp", "b"⟩

def userJob : Job := ⟨["out", "schemas", "User.ts"], "a"⟩

def hiddenJob : Job := ⟨["out", "schemas", ".User.ts.00000000.tmp"], "b"⟩

/-- all steps of the other file come before the move of `User.ts` -/
def overtaking : List Turn :=
  List.replicate 3 ⟨userJob.target, ""⟩ ++ List.replicate 4 ⟨hiddenJob.target, ""⟩ ++
    [⟨userJob.target, ""⟩]

/-- the pool of the two writes -/
structure Both (pool : Pool) (fs : FileSystem) (a b : Progress) : Prop where
  files : pool.files = fs
  user : pool.progress userJob.target = a
  hidden : pool.progress hiddenJob.target = b

section
variable {pool : Pool} {fs : FileSystem} {a b : Progress}

theorem user_ne_hidden : userJob.target ≠ hiddenJob.target := by decide

theorem Both.turnUser (h : Both pool fs a b) (fs' : FileSystem) (a' : Progress)
    (hs : a.turn "" userJob fs = (fs', a')) :
    Both (pool.turn [userJob, hiddenJob] ⟨userJob.target, ""⟩) fs' a' b := by
  have hfind : [userJob, hiddenJob].find? (·.target = userJob.target) = some userJob :=
    List.find?_cons_of_pos (decide_eq_true rfl)
  have hturn : Progress.turn "" userJob pool.files (pool.progress userJob.target) = (fs', a') := by
    rw [h.files, h.user, hs]
  unfold Pool.turn
  simp only [hfind, hturn]
  refine ⟨rfl, ?_, ?_⟩ <;> dsimp only
  · rw [if_pos rfl]
  · rw [if_neg user_ne_hidden.symm, h.hidden]

theorem Both.turnHidden (h : Both pool fs a b) (fs' : FileSystem) (b' : Progress)
    (hs : b.turn "" hiddenJob fs = (fs', b')) :
    Both (pool.turn [userJob, hiddenJob] ⟨hiddenJob.target, ""⟩) fs' a b' := by
  have hfind : [userJob, hiddenJob].find? (·.target = hiddenJob.target) = some hiddenJob := by
    rw [List.find?_cons_of_neg (by rw [decide_eq_true_eq]; exact user_ne_hidden)]
    exact List.find?_cons_of_pos (decide_eq_true rfl)
  have hturn : Progress.turn "" hiddenJob pool.files (pool.progress hiddenJob.target) =
      (fs', b') := by
    rw [h.files, h.hidden, hs]
  unfold Pool.turn
  simp only [hfind, hturn]
  refine ⟨rfl, ?_, ?_⟩ <;> dsimp only
  · rw [if_neg user_ne_hidden, h.user]
  · rw [if_pos rfl]

end

/-- `/out/schemas` with some more files -/
def schemasWith (files : List (Parts × Entry)) : FileSystem :=
  ⟨files ++ [(["out", "schemas"], .dir), (["out"], .dir)]⟩

/-- the temporary file of the other file -/
def hiddenTemp : Parts := ["out", "schemas", "..User.ts.00000000.tmp.00000000.tmp"]

/-- `User.ts` gets what the other write has put over its temporary file -/
theorem both_overtaking :
    Both (Pool.play [userJob, hiddenJob] overtaking ⟨onlyOut, fun _ => .begun⟩)
      (schemasWith [(userJob.target, .file (Str.bytes "b"))]) .finished .finished := by
  have h0 : Both ⟨onlyOut, fun _ => .begun⟩ onlyOut .begun .begun := ⟨rfl, rfl, rfl⟩
  have h1 := h0.turnUser (schemasWith []) .parents rfl
  have h2 := h1.turnUser (schemasWith [(hiddenJob.target, .file ByteArray.empty)])
    (.temp hiddenJob.target) rfl
  have h3 := h2.turnUser (schemasWith [(hiddenJob.target, .file (Str.bytes "a"))])
    (.filled hiddenJob.target) rfl
  have h4 := h3.turnHidden (schemasWith [(hiddenJob.target, .file (Str.bytes "a"))]) .parents rfl
  have h5 := h4.turnHidden (schemasWith [(hiddenTemp, .file ByteArray.empty),
    (hiddenJob.target, .file (Str.bytes "a"))]) (.temp hiddenTemp) rfl
  have h6 := h5.turnHidden (schemasWith [(hiddenTemp, .file (Str.bytes "b")),
    (hiddenJob.target, .file (Str.bytes "a"))]) (.filled hiddenTemp) rfl
  have h7 := h6.turnHidden (schemasWith [(hiddenJob.target, .file (Str.bytes "b"))]) .finished rfl
  exact h7.turnUser (schemasWith [(userJob.target, .file (Str.bytes "b"))]) .finished rfl

/-- both writes come to a good end, and one file is not there -/
theorem run_overtaking : let pool := Pool.run [userJob, hiddenJob] overtaking onlyOut
    pool.progress userJob.target = .finished ∧ pool.progress hiddenJob.target = .finished ∧
      (pool.files.get? hiddenJob.target).isSome = false := by
  have hplay := both_overtaking
  have hrun : Pool.run [userJob, hiddenJob] overtaking onlyOut =
      Pool.play [userJob, hiddenJob] overtaking ⟨onlyOut, fun _ => .begun⟩ := by
    refine run_of_ended overtaking onlyOut ?_
    rw [List.forall_mem_cons, List.forall_mem_singleton, hplay.user, hplay.hidden]
    exact ⟨rfl, rfl⟩
  dsimp only
  rw [hrun, hplay.files]
  exact ⟨hplay.user, hplay.hidden, rfl⟩

theorem targetOf?_user : targetOf? ["out"] userFile.path = .ok userJob.target := rfl

theorem targetOf?_hidden : targetOf? ["out"] hiddenFile.path = .ok hiddenJob.target := rfl

theorem separate_hidden : Separate ["out"] [userFile, hiddenFile] := by
  unfold Separate
  rw [targets_cons targetOf?_user, targets_cons targetOf?_hidden]
  exact List.pairwise_pair.2 (by decide)

/-- no failure is noted, and one file is not there -/
theorem run_inTurns_overtaking (hroot : s.root = ["out"]) (hm : s.config.writeManifest = false)
    (ha : s.atomic = true) (hswept : swept s ({}, {}) = ([], {}, onlyOut)) :
    (run (.inTurns overtaking) s [userFile, hiddenFile] ({}, {})).1.failures = [] ∧
      ((run (.inTurns overtaking) s [userFile, hiddenFile] ({}, {})).2.get?
        hiddenJob.target).isSome = false := by
  obtain ⟨hu, hh, hgone⟩ := run_overtaking
  rw [run_two hroot hm ha hswept targetOf?_user rfl targetOf?_hidden rfl]
  dsimp only
  rw [hu, hh]
  exact ⟨rfl, hgone⟩

def besideJob : Job := ⟨["out", "a", "y.ts"], "y"⟩

def deepJob : Job := ⟨["out", "a", longName, "b", "x.ts"], "x"⟩

/-- the file that is too deep comes first -/
def deepFirst : List Turn := [⟨deepJob.target, ""⟩]

theorem tempsApart_beside : TempsApart [besideJob, deepJob] := by
  refine tempsApart_of_names ?_
  simp only [besideJob, deepJob, isTempName, List.forall_mem_cons, toList_longName]
  decide

/-- the first turn fails at the long name, for the directory it is in is made on the way -/
theorem progress_deepFirst : (Pool.run [besideJob, deepJob] deepFirst onlyOut).progress
    deepJob.target = .failed (.nameTooLong ["out", "a", longName]) := by
  have hne : besideJob.target ≠ deepJob.target := apart_beside.ne
  have hfind : [besideJob, deepJob].find? (·.target = deepJob.target) = some deepJob := by
    rw [List.find?_cons_of_neg (by rw [decide_eq_true_eq]; exact hne)]
    exact List.find?_cons_of_pos (decide_eq_true rfl)
  have hfault : (onlyOut.makeDirs deepJob.target.dropLast).2 =
      some (.nameTooLong ["out", "a", longName]) := (makeDirs_tooDeep rfl).1 rfl
  unfold deepFirst
  rw [run_cons]
  refine progress_play_of_failed ?_ _
  rw [progress_turn hfind]
  exact turn_begun_of_fault hfault

/-- the long name is told, for its directory has been made on the way -/
theorem failures_deepFirst :
    (run (.inTurns deepFirst) (toOut false) [beside, tooDeep] ({}, {})).1.failures =
      [.notWritten tooDeep.path (.fault (.nameTooLong ["out", "a", longName]))] := by
  have hbatch : Batch [besideJob, deepJob] :=
    ⟨List.pairwise_pair.2 apart_beside, by
      rw [List.forall_mem_cons, List.forall_mem_singleton]
      exact ⟨List.cons_ne_nil _ _, List.cons_ne_nil _ _⟩⟩
  have hwritten : (writeJob true besideJob onlyOut).2 = none := by
    have hn : besideJob.target ≠ [] := List.cons_ne_nil _ _
    unfold writeJob
    rw [fault_write true hn]
    rfl
  have halike := (settled_run hbatch tempsApart_beside deepFirst onlyOut).2 besideJob
    List.mem_cons_self
  rw [run_two (j := besideJob) (k := deepJob) rfl rfl rfl (swept_toOut false) targetOf?_beside rfl
    targetOf?_tooDeep rfl]
  dsimp only
  rw [halike.eq_none_iff.2 hwritten, progress_deepFirst]
  rfl

/-- A file that the move of another one takes away is recorded all the same, though one file after
another it stays; and how much of a path that is too long a failure tells depends on the turns. -/
theorem turns_matter :
    (Separate ["out"] [userFile, hiddenFile] ∧
      (run (.inTurns overtaking) (toOut false) [userFile, hiddenFile] ({}, {})).1.failures = [] ∧
      ((run (.inTurns overtaking) (toOut false) [userFile, hiddenFile] ({}, {})).2.get?
        ["out", "schemas", ".User.ts.00000000.tmp"]).isSome = false ∧
      ((run .oneByOne (toOut false) [userFile, hiddenFile] ({}, {})).2.get?
        ["out", "schemas", ".User.ts.00000000.tmp"]).isSome = true) ∧
    (Separate ["out"] [beside, tooDeep] ∧
      (run (.inTurns deepFirst) (toOut false) [beside, tooDeep] ({}, {})).1.failures =
        [.notWritten tooDeep.path (.fault (.nameTooLong ["out", "a", longName]))] ∧
      (run .oneByOne (toOut false) [beside, tooDeep] ({}, {})).1.failures =
        [.notWritten tooDeep.path (.fault (.nameTooLong ["out", "a", longName, "b"]))]) := by
  obtain ⟨hnone, hgone⟩ := run_inTurns_overtaking (s := toOut false) rfl rfl rfl (swept_toOut false)
  refine ⟨⟨separate_hidden, hnone, hgone, ?_⟩, separate_beside, failures_deepFirst,
    failures_beside⟩
  have hset := (writeFiles_noted (s := toOut false) separate_hidden ({}, onlyOut)).1
  have hplace := get?_of_written hset (List.mem_cons_of_mem _ (List.mem_singleton_self hiddenFile))
    targetOf?_hidden rfl
  rw [run_toOut]
  show ((writeFiles (toOut false) [userFile, hiddenFile] ({}, onlyOut)).2.get?
    hiddenJob.target).isSome = true
  rw [hplace]
  rfl

/-- Of the files of a batch one in the place of the manifest is recorded and then lost; how much of a
path that is too long a failure tells depends on the files before; and one that the move of another
one takes away costs no failure and is not there. -/
theorem batch_spoils :
    ((run .oneByOne (toOut true) [decoy] ({}, {})).1.records = [Record.of decoy] ∧
      (run .oneByOne (toOut true) [decoy] ({}, {})).2.get? ["out", manifestName] ≠
        some (.file (Str.bytes decoy.content))) ∧
    (Separate ["out"] [beside, tooDeep] ∧
      (run .oneByOne (toOut false) [tooDeep] ({}, {})).1.failures =
        [.notWritten tooDeep.path (.fault (.nameTooLong ["out", "a", longName]))] ∧
      (run .oneByOne (toOut false) [beside, tooDeep] ({}, {})).1.failures =
        [.notWritten tooDeep.path (.fault (.nameTooLong ["out", "a", longName, "b"]))]) ∧
    (Separate ["out"] [userFile, hiddenFile] ∧
      (run (.inTurns overtaking) (toOut false) [userFile, hiddenFile] ({}, {})).1.failures = [] ∧
      ((run (.inTurns overtaking) (toOut false) [userFile, hiddenFile] ({}, {})).2.get?
        ["out", "schemas", ".User.ts.00000000.tmp"]).isSome = false) := by
  refine ⟨run_decoy, ⟨separate_beside, ?_, failures_beside⟩, separate_hidden,
    run_inTurns_overtaking rfl rfl rfl (swept_toOut false)⟩
  have hd := failures_tooDeep ({}, onlyOut) ((makeDirs_tooDeep rfl).1 rfl)
  rw [run_toOut, (writeManifest_log _ _).2]
  show (writeFiles _ _ _).1.failures = _
  unfold writeFiles
  rw [List.foldl_cons, List.foldl_nil, hd]
  rfl

end ZodSchema.Export
