import Mathlib.Data.List.Forall2
import ZodSchema.Proofs.Export.Pool

/-!
# The writing pass

* `Separate`           places of which none is another or lies below another
* `fate`               why a file is not written, were it alone
* `Noted`              what is noted of files, by what would be noted of each alone
* `writeFiles_noted`   one file after another: each fares as it would fare alone
* `fateIn`             why a file is not written in turns
* `Manner.Clear`       no temporary file of writes in turns gets in the way
* `Manner.write_noted` in every manner: each file fares as it would fare alone
-/

namespace ZodSchema.Export

open Files FileSystem Text

variable {s : Settings} {root p q t u : Parts} {f g : GeneratedFile}
  {files done : List GeneratedFile} {fs fs' fs₀ : FileSystem} {l l' : Log} {st : Log × FileSystem}
  {why why' : Option Refusal}

/-! ## places -/

instance (p q : Parts) : Decidable (Apart p q) := inferInstanceAs (Decidable (_ ∧ _))

/-- the places of the files that have one -/
def targets (root : Parts) (files : List GeneratedFile) : List Parts :=
  files.filterMap fun f => (targetOf? root f.path).toOption

/-- no place of a file is that of another one or lies below it -/
def Separate (root : Parts) (files : List GeneratedFile) : Prop :=
  (targets root files).Pairwise Apart

instance (root : Parts) (files : List GeneratedFile) : Decidable (Separate root files) :=
  inferInstanceAs (Decidable (List.Pairwise _ _))

theorem Separate.sublist (h : Separate root files) (hs : done.Sublist files) :
    Separate root done :=
  List.Pairwise.sublist (hs.filterMap _) h

theorem toOption_eq_some : (targetOf? root f.path).toOption = some t ↔
    targetOf? root f.path = .ok t := by
  cases targetOf? root f.path with
  | error why => exact iff_of_false (fun h => nomatch h) (fun h => nomatch h)
  | ok u => exact ⟨fun h => by rw [Option.some.inj h], fun h => by rw [Except.ok.inj h]; rfl⟩

theorem targets_cons (ht : targetOf? root f.path = .ok t) :
    targets root (f :: files) = t :: targets root files :=
  List.filterMap_cons_some (toOption_eq_some.2 ht)

theorem mem_targets (hf : f ∈ files) (ht : targetOf? root f.path = .ok t) :
    t ∈ targets root files :=
  List.mem_filterMap.2 ⟨f, hf, toOption_eq_some.2 ht⟩

theorem Separate.apart (h : Separate root files) (hf : f ∈ files) (hg : g ∈ files) (hne : f ≠ g)
    (ht : targetOf? root f.path = .ok t) (hu : targetOf? root g.path = .ok u) : Apart t u := by
  have hp := List.pairwise_filterMap.1 h
  have : Std.Symm fun f g : GeneratedFile => ∀ t, (targetOf? root f.path).toOption = some t →
      ∀ u, (targetOf? root g.path).toOption = some u → Apart t u :=
    ⟨fun _ _ h u hu t ht => (h t ht u hu).symm⟩
  exact hp.forall hf hg hne t (toOption_eq_some.2 ht) u (toOption_eq_some.2 hu)

theorem jobOf?_of_target (ht : targetOf? root f.path = .ok t) :
    jobOf? root f = some ⟨t, f.content⟩ := by
  unfold jobOf?
  rw [toOption_eq_some.2 ht]
  rfl

theorem jobOf?_of_refused {why : Refusal} (ht : targetOf? root f.path = .error why) :
    jobOf? root f = none := by
  unfold jobOf?
  rw [ht]
  rfl

theorem mem_jobsOf {j : Job} (h : j ∈ jobsOf root files) :
    ∃ f ∈ files, targetOf? root f.path = .ok j.target ∧ j.text = f.content := by
  obtain ⟨f, hf, hj⟩ := List.mem_filterMap.1 h
  obtain ⟨t, ht, rfl⟩ := Option.map_eq_some_iff.1 hj
  exact ⟨f, hf, toOption_eq_some.1 ht, rfl⟩

theorem mem_jobsOf_of_target (hf : f ∈ files) (ht : targetOf? root f.path = .ok t) :
    ⟨t, f.content⟩ ∈ jobsOf root files :=
  List.mem_filterMap.2 ⟨f, hf, jobOf?_of_target ht⟩

theorem batch_jobsOf (h : Separate root files) : Batch (jobsOf root files) := by
  have hmap : (jobsOf root files).map Job.target = targets root files := by
    unfold jobsOf targets
    rw [List.map_filterMap]
    refine List.filterMap_congr fun f _ => ?_
    unfold jobOf?
    rw [Option.map_map]
    exact Option.map_id'
  refine ⟨List.pairwise_map.1 (hmap ▸ h), fun j hj => ?_⟩
  obtain ⟨f, _, ht, _⟩ := mem_jobsOf hj
  exact ne_nil_of_isBelow (isBelow_targetOf ht)

/-! ## what is noted of a file -/

/-- notes that a file was written, or why not -/
def note (f : GeneratedFile) (why : Option Refusal) (l : Log) : Log :=
  match why with
  | none => { l with records := l.records ++ [Record.of f] }
  | some why => l.fail (.notWritten f.path why)

/-- why a file is not written to `fs` -/
def fate (s : Settings) (fs : FileSystem) (f : GeneratedFile) : Option Refusal :=
  match targetOf? s.root f.path with
  | .error why => some why
  | .ok t => (writeJob s.atomic ⟨t, f.content⟩ fs).2.map .fault

/-- a file that is written has an encoding -/
theorem lone?_of_fate (h : fate s fs f = none) : Str.lone? f.content = none := by
  unfold fate at h
  split at h
  · cases h
  · next t ht =>
    have hn : t ≠ [] := ne_nil_of_isBelow (isBelow_targetOf ht)
    rw [Option.map_eq_none_iff] at h
    unfold writeJob at h
    rw [fault_write s.atomic hn, Option.or_eq_none_iff, Option.or_eq_none_iff,
      Option.or_eq_none_iff] at h
    exact Option.map_eq_none_iff.1 h.1.1.2

theorem fate_of_target (ht : targetOf? s.root f.path = .ok t) :
    fate s fs f = (writeJob s.atomic ⟨t, f.content⟩ fs).2.map .fault := by
  unfold fate
  rw [ht]

theorem writeFile_of_target (ht : targetOf? s.root f.path = .ok t) (st : Log × FileSystem) :
    writeFile s st f = (note f (fate s st.2 f) st.1,
      (writeJob s.atomic ⟨t, f.content⟩ st.2).1) := by
  rw [fate_of_target ht]
  unfold writeFile writeJob
  rw [ht]
  dsimp only
  cases Files.write s.atomic t f.content st.2 with
  | mk fs' e => cases e <;> rfl

theorem writeFile_of_refused {why : Refusal} (ht : targetOf? s.root f.path = .error why)
    (st : Log × FileSystem) : writeFile s st f = (note f (fate s st.2 f) st.1, st.2) := by
  unfold writeFile fate
  rw [ht]
  rfl

/-- what is noted of a file that is written alone -/
def alone (s : Settings) (fs : FileSystem) (f : GeneratedFile) : Log := (writeFile s ({}, fs) f).1

theorem alone_eq (s : Settings) (fs : FileSystem) (f : GeneratedFile) :
    alone s fs f = note f (fate s fs f) {} := by
  unfold alone
  cases ht : targetOf? s.root f.path with
  | error why => rw [writeFile_of_refused ht]
  | ok t => rw [writeFile_of_target ht]

/-- the same refusal of a file, as far as faults on the way to its place are alike -/
inductive Refusal.Alike (root : Parts) (path : String) : Refusal → Refusal → Prop where
  | refl (why : Refusal) : Alike root path why why
  | fault {t : Parts} {e e' : Fault} (ht : targetOf? root path = .ok t)
      (h : Fault.Alike t e e') : Alike root path (.fault e) (.fault e')

abbrev AlikeRefusals (root : Parts) (path : String) : Option Refusal → Option Refusal → Prop :=
  Option.Rel (Refusal.Alike root path)

theorem AlikeRefusals.of_faults {path : String} {e e' : Option Fault}
    (ht : targetOf? root path = .ok t) (h : AlikeFaults t e e') :
    AlikeRefusals root path (e.map .fault) (e'.map .fault) := by
  cases h with
  | some h => exact .some (.fault ht h)
  | none => exact .none

/-- the same failure, as far as the refusals of a file are alike -/
inductive Failure.Alike (root : Parts) : Failure → Failure → Prop where
  | refl (e : Failure) : Alike root e e
  | notWritten (path : String) {why why' : Refusal} (h : Refusal.Alike root path why why') :
      Alike root (.notWritten path why) (.notWritten path why')

/-- `l'` adds to `l` what would be noted of each file alone -/
structure Noted (s : Settings) (fs : FileSystem) (l : Log) (files : List GeneratedFile)
    (l' : Log) : Prop where
  records : l'.records = l.records ++ files.flatMap fun f => (alone s fs f).records
  failures : List.Forall₂ (Failure.Alike s.root) l'.failures
    (l.failures ++ files.flatMap fun f => (alone s fs f).failures)

theorem forall₂_alike_refl (root : Parts) (es : List Failure) :
    List.Forall₂ (Failure.Alike root) es es :=
  List.forall₂_same.2 fun e _ => .refl e

namespace Noted

theorem refl (s : Settings) (fs : FileSystem) (l : Log) : Noted s fs l [] l := by
  refine ⟨by simp, ?_⟩
  rw [List.flatMap_nil, List.append_nil]
  exact forall₂_alike_refl ..

theorem note (h : Noted s fs l done l') (hw : AlikeRefusals s.root f.path why (fate s fs f)) :
    Noted s fs l (done ++ [f]) (note f why l') := by
  have hone : alone s fs f = Export.note f (fate s fs f) {} := alone_eq s fs f
  generalize fate s fs f = why' at hw hone
  refine ⟨?_, ?_⟩
  · rw [List.flatMap_append, List.flatMap_singleton, hone, ← List.append_assoc, ← h.records]
    cases hw with
    | none => rfl
    | some _ => exact (List.append_nil _).symm
  · rw [List.flatMap_append, List.flatMap_singleton, hone, ← List.append_assoc]
    cases hw with
    | none =>
      have hnil : (Export.note f none {}).failures = [] := rfl
      rw [hnil, List.append_nil]
      exact h.failures
    | some hw => exact List.rel_append h.failures (.cons (.notWritten f.path hw) .nil)

/-- many files more, each as it fares alone -/
theorem notes (h : Noted s fs l done l') {g : GeneratedFile → Option Refusal}
    (hg : ∀ f ∈ files, AlikeRefusals s.root f.path (g f) (fate s fs f)) :
    Noted s fs l (done ++ files) (files.foldl (fun l f => Export.note f (g f) l) l') := by
  induction files generalizing done l' with
  | nil =>
    rw [List.append_nil]
    exact h
  | cons f files ih =>
    rw [List.append_cons]
    exact ih (h.note (hg f List.mem_cons_self)) fun x hx => hg x (List.mem_cons_of_mem _ hx)

end Noted

/-! ## the writing pass -/

/-- a file fares as it would have fared before the files that are apart from it -/
theorem alikeRefusals_fate (hset : Settled s.atomic (jobsOf s.root done) fs fs')
    (ha : ∀ t, targetOf? s.root f.path = .ok t → ∀ j ∈ jobsOf s.root done, Apart t j.target) :
    AlikeRefusals s.root f.path (fate s fs' f) (fate s fs f) := by
  cases ht : targetOf? s.root f.path with
  | error why =>
    unfold fate
    rw [ht]
    exact .some (.refl why)
  | ok t =>
    have hn : t ≠ [] := ne_nil_of_isBelow (isBelow_targetOf ht)
    have hsame : SameFor t fs fs' :=
      Settled.sameFor (k := ⟨t, f.content⟩) hset (ha t ht)
    have hsame' : SameFor t fs' fs := ⟨fun q hq => (hsame.isFile q hq).symm, hsame.isDir.symm⟩
    rw [fate_of_target ht, fate_of_target ht]
    exact AlikeRefusals.of_faults ht (hsame'.alike_write s.atomic hn _)

theorem apart_of_separate_cons {rest : List GeneratedFile}
    (hsep : Separate root (done ++ f :: rest)) (ht : targetOf? root f.path = .ok t) :
    ∀ j ∈ jobsOf root done, Apart t j.target := by
  intro j hj
  obtain ⟨g, hg, hu, _⟩ := mem_jobsOf hj
  have happ : targets root (done ++ f :: rest) = targets root done ++ targets root (f :: rest) :=
    List.filterMap_append
  unfold Separate at hsep
  rw [happ] at hsep
  have hcross := (List.pairwise_append.1 hsep).2.2
  exact (hcross _ (mem_targets hg hu) _ (mem_targets List.mem_cons_self ht)).symm

theorem writeFile_noted (hset : Settled s.atomic (jobsOf s.root done) fs st.2)
    (hl : Noted s fs l done st.1)
    (ha : ∀ t, targetOf? s.root f.path = .ok t → ∀ j ∈ jobsOf s.root done, Apart t j.target) :
    Settled s.atomic (jobsOf s.root (done ++ [f])) fs (writeFile s st f).2 ∧
      Noted s fs l (done ++ [f]) (writeFile s st f).1 := by
  have hnote := hl.note (alikeRefusals_fate hset ha)
  have hjobs : jobsOf s.root (done ++ [f]) = jobsOf s.root done ++ jobsOf s.root [f] :=
    List.filterMap_append
  rw [hjobs]
  cases ht : targetOf? s.root f.path with
  | error why =>
    have hf : jobsOf s.root [f] = [] := List.filterMap_cons_none (jobOf?_of_refused ht)
    rw [writeFile_of_refused ht, hf, List.append_nil]
    exact ⟨hset, hnote⟩
  | ok t =>
    have hf : jobsOf s.root [f] = [⟨t, f.content⟩] :=
      List.filterMap_cons_some (jobOf?_of_target ht)
    rw [writeFile_of_target ht, hf]
    exact ⟨hset.write (ne_nil_of_isBelow (isBelow_targetOf ht)) (ha t ht), hnote⟩

/-- the writing pass, from a batch that is done on -/
theorem writeFiles_noted_append (hsep : Separate s.root (done ++ files))
    (hset : Settled s.atomic (jobsOf s.root done) fs st.2) (hl : Noted s fs l done st.1) :
    Settled s.atomic (jobsOf s.root (done ++ files)) fs (writeFiles s files st).2 ∧
      Noted s fs l (done ++ files) (writeFiles s files st).1 := by
  induction files generalizing done st with
  | nil =>
    rw [List.append_nil]
    exact ⟨hset, hl⟩
  | cons f files ih =>
    obtain ⟨hset', hl'⟩ := writeFile_noted hset hl fun t ht => apart_of_separate_cons hsep ht
    rw [List.append_cons] at hsep ⊢
    exact ih hsep hset' hl'

/-- the writing pass: each file fares as it would fare alone -/
theorem writeFiles_noted (hsep : Separate s.root files) (st : Log × FileSystem) :
    Settled s.atomic (jobsOf s.root files) st.2 (writeFiles s files st).2 ∧
      Noted s st.2 st.1 files (writeFiles s files st).1 := by
  have hsep' : Separate s.root ([] ++ files) := hsep
  exact writeFiles_noted_append hsep' (Settled.refl s.atomic st.2) (Noted.refl s st.2 st.1)

/-- the place of a file that is written holds its bytes -/
theorem get?_of_written (hset : Settled s.atomic (jobsOf s.root done) fs fs') (hf : f ∈ done)
    (ht : targetOf? s.root f.path = .ok t) (hn : fate s fs f = none) :
    fs'.get? t = some (.file (Str.bytes f.content)) := by
  rw [fate_of_target ht, Option.map_eq_none_iff] at hn
  exact hset.written _ (mem_jobsOf_of_target hf ht) hn

/-- a place of a file that is not written is as before -/
theorem get?_of_not_written (hsep : Separate s.root files) (hsub : done.Sublist files)
    (hset : Settled s.atomic (jobsOf s.root done) fs fs') (hf : f ∈ files)
    (ht : targetOf? s.root f.path = .ok t) (hw : f ∈ done → fate s fs f ≠ none) :
    fs'.get? t = fs.get? t := by
  have hother : ∀ j ∈ jobsOf s.root done, j.target ≠ t → Apart t j.target := by
    intro j hj hne
    obtain ⟨g, hg, hu, _⟩ := mem_jobsOf hj
    have hfg : f ≠ g := by
      rintro rfl
      exact hne (Except.ok.inj (hu.symm.trans ht))
    exact hsep.apart hf (hsub.subset hg) hfg ht hu
  -- a batch changes a path as the target of a write or as a directory on the way to one
  refine hset.kept t (fun j hj hn he => ?_) fun j hj hm => ?_
  · obtain ⟨g, hg, hu, hc⟩ := mem_jobsOf hj
    by_cases hfg : f = g
    · subst hfg
      refine hw hg ?_
      have hj' : (⟨t, f.content⟩ : Job) = j := by
        rw [he, ← hc]
      rw [fate_of_target ht, hj', hn]
      rfl
    · exact (hsep.apart hf (hsub.subset hg) hfg ht hu).ne he
  · by_cases hjt : j.target = t
    · rw [hjt] at hm
      exact not_mem_opened_self (ne_nil_of_isBelow (isBelow_targetOf ht)) hm
    · exact (hother j hj hjt).not_mem_opened hm

/-! ## in turns -/

/-- why a file was not written, once all writes have ended -/
def fateIn (s : Settings) (pool : Pool) (f : GeneratedFile) : Option Refusal :=
  match targetOf? s.root f.path with
  | .error why => some why
  | .ok t => (pool.progress t).fault?.map .fault

theorem fateIn_of_target (ht : targetOf? s.root f.path = .ok t) (pool : Pool) :
    fateIn s pool f = (pool.progress t).fault?.map .fault := by
  unfold fateIn
  rw [ht]

theorem noteOutcome_eq (s : Settings) (pool : Pool) :
    noteOutcome s pool = fun l f => note f (fateIn s pool f) l := by
  funext l f
  unfold noteOutcome fateIn
  cases targetOf? s.root f.path with
  | error why => rfl
  | ok t =>
    dsimp only
    cases (pool.progress t).fault? <;> rfl

theorem writeConcurrently_noted (hsep : Separate s.root files)
    (htemps : s.atomic = true → TempsApart (jobsOf s.root files)) (turns : List Turn)
    (st : Log × FileSystem) :
    Settled s.atomic (jobsOf s.root files) st.2 (writeConcurrently s turns files st).2 ∧
      Noted s st.2 st.1 files (writeConcurrently s turns files st).1 := by
  obtain ⟨hset, hfault⟩ := settled_poolOf s files (batch_jobsOf hsep) htemps turns st.2
  refine ⟨hset, ?_⟩
  show Noted s st.2 st.1 files (files.foldl (noteOutcome s _) st.1)
  rw [noteOutcome_eq]
  refine Noted.notes (Noted.refl s st.2 st.1) fun f hf => ?_
  cases ht : targetOf? s.root f.path with
  | error why =>
    unfold fateIn fate
    rw [ht]
    exact .some (.refl why)
  | ok t =>
    rw [fateIn_of_target ht, fate_of_target ht]
    exact AlikeRefusals.of_faults ht (hfault _ (mem_jobsOf_of_target hf ht))

namespace Manner

variable {w : Manner}

/-- no temporary file of writes in turns gets in the way -/
def Clear (w : Manner) (s : Settings) (files : List GeneratedFile) : Prop :=
  match w with
  | .oneByOne => True
  | .inTurns _ => s.atomic = true → TempsApart (jobsOf s.root files)

theorem Clear.sublist (h : w.Clear s files) (hs : done.Sublist files) : w.Clear s done := by
  cases w with
  | oneByOne => trivial
  | inTurns turns =>
    have hsub := (hs.filterMap (jobOf? s.root)).subset
    exact fun ha j hj k hk => h ha j (hsub hj) k (hsub hk)

theorem Clear.tempsApart {turns : List Turn} (h : w.Clear s files) (ht : w.turns? files = some turns)
    (ha : s.atomic = true) : TempsApart (jobsOf s.root files) := by
  cases w with
  | oneByOne => cases ht
  | inTurns _ => exact h ha

/-- **The writing pass.**  In every manner of writing, each of separate files fares as it would fare
alone. -/
theorem write_noted (w : Manner) (hsep : Separate s.root files) (hc : w.Clear s files)
    (st : Log × FileSystem) :
    Settled s.atomic (jobsOf s.root files) st.2 (w.write s files st).2 ∧
      Noted s st.2 st.1 files (w.write s files st).1 := by
  unfold write
  split
  · exact writeFiles_noted hsep st
  · next turns ht => exact writeConcurrently_noted hsep (hc.tempsApart ht) turns st

end Manner

end ZodSchema.Export
