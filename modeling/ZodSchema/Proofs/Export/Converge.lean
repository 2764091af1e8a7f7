import ZodSchema.Proofs.Export.Concurrent
import ZodSchema.Proofs.Files.Tree
import ZodSchema.Proofs.Text.Path

/-!
# Exporting again

After an export that clears and succeeds, the directory of a family holds what was generated; of
what was there before, at most what is kept directly in the directory of a family.

* `Inner`            a relative directory without double dots
* `cleared_below`    what a clearing pass that succeeds leaves in the directory of a family
* `Exported`         what an export that succeeds leaves
* `run_converges`    two exports of the same files leave the same
* `exports_diverge`  in turns, a file can get lost; and an export of nothing makes its directory
-/

namespace ZodSchema.Export

open Files FileSystem Text

variable {s : Settings} {root p q t : Parts} {dir : String} {f : GeneratedFile}
  {files : List GeneratedFile} {dirs : List (Family × String)} {fs fs' : FileSystem} {l : Log}
  {st : Log × FileSystem} {c : ByteArray} {w : Manner}

/-! ## directories of families -/

/-- a relative directory without double dots -/
def Inner (dir : String) : Prop := Str.startsWith dir "/" = false ∧ ".." ∉ Path.parts dir

instance (dir : String) : Decidable (Inner dir) := inferInstanceAs (Decidable (_ ∧ _))

theorem absolute_of_inner (h : Inner dir) :
    Path.absolute root dir = root ++ (Path.parts dir).filter (· ≠ ".") := by
  unfold Path.absolute
  rw [h.1]
  rfl

theorem prefix_absolute (h : Inner dir) : root <+: Path.absolute root dir := by
  rw [absolute_of_inner h]
  exact List.prefix_append ..

theorem resolved_absolute (hr : Path.Resolved root) (h : Inner dir) :
    Path.Resolved (Path.absolute root dir) := by
  intro x hx
  obtain ⟨h1, h2⟩ := absolute_names hr dir x hx
  refine ⟨h1, h2, ?_⟩
  rintro rfl
  rw [absolute_of_inner h, List.mem_append] at hx
  rcases hx with hx | hx
  · exact (hr ".." hx).2.2 rfl
  · exact h.2 (List.mem_filter.1 hx).1

theorem normalize_of_resolved (h : Path.Resolved p) : Path.normalize p = p :=
  Path.resolve_of_resolved [] h

/-! ## the clearing pass -/

/-- the name of what stands directly in `dir`, on the way to `p`, is one that is kept -/
def isKeptIn (dir p : Parts) : Bool := keptNames.contains (p.getD dir.length "")

/-- clearing one directory leaves below it what is kept -/
theorem cleared_below_one (ht : Tree fs) (hres : Path.Resolved q)
    (hc : fs.clear keptNames q = .ok fs') (hp : isBelow q p = true)
    (hs : (fs'.get? p).isSome = true) : isKeptIn q p = true := by
  have hway := isBelow_iff.1 hp
  unfold FileSystem.clear at hc
  cases hl : fs.locate q with
  | error e =>
    rw [hl] at hc
    cases hc
  | ok place =>
    rw [hl] at hc
    cases place with
    | none =>
      obtain rfl := Except.ok.inj hc
      rw [nothing_of_locate ht (fun x hx => (hres x hx).2.2) hl hway.1] at hs
      cases hs
    | some q' =>
      have hq : q' = q :=
        (locate_eq_normalize (fun x hx => ⟨(hres x hx).1, (hres x hx).2.1⟩) hl).trans
          (normalize_of_resolved hres)
      subst hq
      dsimp only at hc
      split at hc
      · obtain rfl := Except.ok.inj hc
        rw [get?_eraseAll] at hs
        split at hs
        · cases hs
        · next hno =>
          have hne := ne_nil_of_isBelow hp
          unfold isKeptIn
          by_contra hk
          refine hno ⟨hne, ?_⟩
          unfold isCleared
          rw [hp, Bool.true_and, Bool.not_eq_true']
          exact Bool.eq_false_iff.2 hk
      · cases hc

theorem tree_of_clear (ht : Tree fs) (hc : fs.clear keptNames q = .ok fs') : Tree fs' := by
  unfold FileSystem.clear at hc
  split at hc
  · cases hc
  · obtain rfl := Except.ok.inj hc
    exact ht
  · split at hc
    · obtain rfl := Except.ok.inj hc
      exact tree_clear _ _ ht
    · cases hc

/-- the clearing pass only removes -/
theorem get?_of_clearFamilies (hs : ((clearFamilies s dirs (l, fs)).2.2.get? p).isSome = true) :
    (clearFamilies s dirs (l, fs)).2.2.get? p = fs.get? p := by
  rw [get?_clearFamilies] at hs ⊢
  split at hs
  · cases hs
  · next hno => rw [if_neg hno]

/-- after a clearing pass that succeeds, what is below the directory of a family is kept -/
theorem cleared_below (hr : Path.Resolved s.root) (hd : ∀ d ∈ dirs, Inner d.2) (ht : Tree fs)
    (hok : (clearFamilies s dirs (l, fs)).1 = []) {d : Family × String} (hmem : d ∈ dirs)
    (hp : isBelow (Path.absolute s.root d.2) p = true)
    (hs : ((clearFamilies s dirs (l, fs)).2.2.get? p).isSome = true) :
    isKeptIn (Path.absolute s.root d.2) p = true := by
  -- what the first directory is cleared of stays away, for the later clearings only remove
  induction dirs generalizing l fs with
  | nil => cases hmem
  | cons d' rest ih =>
    obtain ⟨family, dir⟩ := d'
    have hres : Path.Resolved (Path.absolute s.root dir) :=
      resolved_absolute hr (hd _ List.mem_cons_self)
    cases hc : fs.clear keptNames (Path.absolute s.root dir) with
    | error e =>
      simp only [clearFamilies, hc] at hok
      cases hok
    | ok fs' =>
      simp only [clearFamilies, hc] at hok hs
      rcases List.mem_cons.1 hmem with rfl | hmem
      · rw [get?_of_clearFamilies hs] at hs
        exact cleared_below_one ht hres hc hp hs
      · exact ih (fun x hx => hd x (List.mem_cons_of_mem _ hx)) (tree_of_clear ht hc) hok hmem hs

/-! ## exports that succeed -/

/-- an export that succeeds has cleared all families and written all files -/
theorem of_success (hok : (run w s files ({}, fs)).1.success = true) (hsep : Separate s.root files)
    (hcl : w.Clear s files) :
    (fs.makeDirs s.root).2 = none ∧ (swept s ({}, fs)).1 = [] ∧
      (run w s files ({}, fs) = writeManifest s (w.write s files (swept s ({}, fs)).2)) ∧
      ∀ f ∈ files, fate s (swept s ({}, fs)).2.2 f = none := by
  have hnone : (run w s files ({}, fs)).1.failures = [] := List.isEmpty_iff.1 hok
  have hroot : (fs.makeDirs s.root).2 = none := by
    cases hm : (fs.makeDirs s.root).2 with
    | none => rfl
    | some e =>
      rw [run_of_fault w hm] at hnone
      cases hnone
  have hrun := run_of_root w ({}, fs) hroot files
  rw [hrun, (writeManifest_log _ _).2] at hnone
  obtain ⟨_, _, hfam⟩ := swept_log s fs
  have hsub := without_sublist (swept s ({}, fs)).1 files
  have hnoted := (w.write_noted (hsep.sublist hsub) (hcl.sublist hsub)
    (swept s ({}, fs)).2).2.failures
  rw [hnone, List.forall₂_nil_left_iff, List.append_eq_nil_iff] at hnoted
  rw [hnoted.1, List.forall₂_nil_right_iff] at hfam
  rw [hfam, without_nil] at hrun hnoted
  refine ⟨hroot, hfam, hrun, fun f hf => ?_⟩
  have hf := List.flatMap_eq_nil_iff.1 hnoted.2 f hf
  rw [alone_eq] at hf
  cases hn : fate s (swept s ({}, fs)).2.2 f with
  | none => rfl
  | some why =>
    rw [hn] at hf
    cases hf

/-- `p` is as it was, or it is a new directory and on the way that `P` tells -/
def Grown (P : Prop) (fs fs' : FileSystem) (p : Parts) : Prop :=
  fs'.get? p = fs.get? p ∨ (fs.get? p = none ∧ fs'.get? p = some .dir ∧ P)

theorem Grown.trans {P : Prop} {fs'' : FileSystem} (h₁ : Grown P fs fs' p)
    (h₂ : Grown P fs' fs'' p) : Grown P fs fs'' p := by
  rcases h₁ with h₁ | ⟨h0, h1, hP⟩
  · unfold Grown
    rw [← h₁]
    exact h₂
  · rcases h₂ with h₂ | ⟨h2, _, _⟩
    · exact Or.inr ⟨h0, h₂.trans h1, hP⟩
    · rw [h1] at h2
      cases h2

theorem Grown.of_kept {P : Prop} (h : Kept root fs fs' p) (hP : p <+: root → P) :
    Grown P fs fs' p := by
  rcases h with h | ⟨hp, h0, h1⟩
  · exact Or.inl h
  · exact Or.inr ⟨h0, h1, hP hp⟩

/-- on the way to the output directory or to the directory of a family -/
def OnWay (s : Settings) (p : Parts) : Prop :=
  p <+: s.root ∨ ∃ d ∈ s.config.familyDirs, p <+: Path.absolute s.root d.2

/-- what an export that succeeds leaves, from `before` on; the manifest aside -/
structure Exported (s : Settings) (files : List GeneratedFile) (before after : FileSystem) :
    Prop where
  generated : ∀ f ∈ files, ∀ t, targetOf? s.root f.path = .ok t →
    (s.config.writeManifest = true → t ≠ s.root ++ [manifestName]) →
    after.get? t = some (.file (Str.bytes f.content))
  /-- below the directory of a family there are generated files and those that were kept -/
  below : ∀ d ∈ s.config.familyDirs, ∀ p, isBelow (Path.absolute s.root d.2) p = true →
    (s.config.writeManifest = true → p ≠ s.root ++ [manifestName]) →
    ∀ c, after.get? p = some (.file c) →
      (∃ f ∈ files, targetOf? s.root f.path = .ok p ∧ c = Str.bytes f.content) ∨
        (isKeptIn (Path.absolute s.root d.2) p = true ∧ before.get? p = some (.file c))
  /-- elsewhere there are at most new directories on the way -/
  outside : ∀ p, (∀ d ∈ s.config.familyDirs, ¬ isBelow (Path.absolute s.root d.2) p = true) →
    (s.config.writeManifest = true → p ≠ s.root ++ [manifestName]) →
    Grown (OnWay s p) before after p

/-- a file that is there after the writing pass was generated or was there before -/
theorem file_of_settled (hset : Settled s.atomic (jobsOf s.root files) fs fs')
    (hg : fs'.get? p = some (.file c)) :
    (∃ f ∈ files, targetOf? s.root f.path = .ok p ∧ c = Str.bytes f.content) ∨
      fs.get? p = some (.file c) := by
  rcases hset.cases_get? p with ⟨j, hj, hw, rfl⟩ | ⟨j, hj, ho⟩ | he
  · obtain ⟨f, hf, htf, htext⟩ := mem_jobsOf hj
    rw [hset.written j hj hw, htext] at hg
    exact Or.inl ⟨f, hf, htf, (Entry.file.inj (Option.some.inj hg)).symm⟩
  · rw [hset.opened j hj p ho] at hg
    cases hg
  · exact Or.inr (he ▸ hg)

section
variable (hin : ∀ f ∈ files, ∀ t, targetOf? s.root f.path = .ok t →
  ∃ d ∈ s.config.familyDirs, isBelow (Path.absolute s.root d.2) t = true)
include hin

/-- outside the directories of the families the writing pass makes directories on the way -/
theorem grown_of_settled (hset : Settled s.atomic (jobsOf s.root files) fs fs')
    (hp : ∀ d ∈ s.config.familyDirs, ¬ isBelow (Path.absolute s.root d.2) p = true) :
    Grown (OnWay s p) fs fs' p := by
  rcases hset.cases_get? p with ⟨j, hj, _, rfl⟩ | ⟨j, hj, ho⟩ | he
  · obtain ⟨f, hf, htf, _⟩ := mem_jobsOf hj
    obtain ⟨d, hmem, hb⟩ := hin f hf _ htf
    exact absurd hb (hp d hmem)
  · obtain ⟨f, hf, htf, _⟩ := mem_jobsOf hj
    obtain ⟨d, hmem, hb⟩ := hin f hf _ htf
    obtain ⟨hpre, _, hno⟩ := of_mem_opened ho
    have hway : OnWay s p := Or.inr ⟨d, hmem, prefix_of_not_isBelow (isBelow_iff.1 hb).1
      (hpre.trans (List.dropLast_prefix _)) (hp d hmem)⟩
    have hdir := hset.opened j hj p ho
    rcases get?_of_isFile_eq_false hno with h0 | h0
    · exact Or.inr ⟨h0, hdir, hway⟩
    · exact Or.inl (hdir.trans h0.symm)
  · exact Or.inl he

end

section
variable (hr : Path.Resolved s.root) (hd : ∀ d ∈ s.config.familyDirs, Inner d.2)

include hd in
/-- what is below the directory of a family is not on the way to the output directory -/
theorem not_prefix_root {d : Family × String} (hmem : d ∈ s.config.familyDirs)
    (hp : isBelow (Path.absolute s.root d.2) p = true) : ¬ p <+: s.root := by
  intro hpre
  have h1 := (isBelow_iff.1 hp).2
  have h2 : s.root.length ≤ (Path.absolute s.root d.2).length :=
    (prefix_absolute (hd d hmem)).length_le
  have h3 := hpre.length_le
  omega

include hr hd

theorem get?_sweep_outside (hp : ∀ d ∈ s.config.familyDirs,
    ¬ isBelow (Path.absolute s.root d.2) p = true) :
    (clearFamilies s (sortedDirs s.config) (l, fs)).2.2.get? p = fs.get? p := by
  rw [get?_clearFamilies, if_neg]
  intro ha
  obtain ⟨q, hq, hc⟩ := List.any_eq_true.1 ha
  obtain ⟨d, hmem, rfl⟩ := mem_found hr hq
  have hmem' := List.mem_mergeSort.1 hmem
  rw [normalize_of_resolved (resolved_absolute hr (hd d hmem'))] at hc
  exact hp d hmem' (isBelow_of_isCleared hc)

/-- what an export that succeeds leaves -/
theorem exported_of_success (hc : s.clean = true) (hsep : Separate s.root files)
    (hcl : w.Clear s files)
    (hin : ∀ f ∈ files, ∀ t, targetOf? s.root f.path = .ok t →
      ∃ d ∈ s.config.familyDirs, isBelow (Path.absolute s.root d.2) t = true)
    (ht : Tree fs) (hok : (run w s files ({}, fs)).1.success = true) :
    Exported s files fs (run w s files ({}, fs)).2 := by
  obtain ⟨hroot, hfam, hrun, hfate⟩ := of_success hok hsep hcl
  have hswept : swept s ({}, fs) =
      clearFamilies s (sortedDirs s.config) ({}, (fs.makeDirs s.root).1) := if_pos hc
  obtain ⟨hset, _⟩ := w.write_noted hsep hcl (swept s ({}, fs)).2
  have hkept := fun p => kept_writeManifest_of_ne (p := p) s
    (w.write s files (swept s ({}, fs)).2)
  rw [hrun]
  generalize w.write s files (swept s ({}, fs)).2 = mid at hset hkept
  generalize writeManifest s mid = out at hkept
  have hmade := kept_makeDirs s.root fs
  have hsorted : ∀ d ∈ sortedDirs s.config, Inner d.2 :=
    fun d hm => hd d (List.mem_mergeSort.1 hm)
  rw [hswept] at hset hfate hfam
  refine ⟨fun f hf t htf hm => ?_, fun d hmem p hp hm c hg => ?_, fun p hp hm => ?_⟩
  · obtain ⟨d, hmem, hb⟩ := hin f hf t htf
    rw [(hkept t hm).get?_eq (not_prefix_root hd hmem hb)]
    exact get?_of_written hset hf htf (hfate f hf)
  · have hway := not_prefix_root hd hmem hp
    rw [(hkept p hm).get?_eq hway] at hg
    rcases file_of_settled hset hg with hgen | hg
    · exact Or.inl hgen
    · have hs : ((clearFamilies s (sortedDirs s.config)
          ({}, (fs.makeDirs s.root).1)).2.2.get? p).isSome = true := by
        rw [hg]
        rfl
      have hk := cleared_below hr hsorted (tree_makeDirs s.root ht) hfam
        (List.mem_mergeSort.2 hmem) hp hs
      rw [get?_of_clearFamilies hs, (hmade p).get?_eq hway] at hg
      exact Or.inr ⟨hk, hg⟩
  · -- the passes one after another
    have h1 : Grown (OnWay s p) fs (fs.makeDirs s.root).1 p := .of_kept (hmade p) Or.inl
    have h2 : Grown (OnWay s p) (fs.makeDirs s.root).1
        (clearFamilies s (sortedDirs s.config) ({}, (fs.makeDirs s.root).1)).2.2 p :=
      Or.inl (get?_sweep_outside hr hd hp)
    have h3 : Grown (OnWay s p)
        (clearFamilies s (sortedDirs s.config) ({}, (fs.makeDirs s.root).1)).2.2 mid.2 p :=
      grown_of_settled hin hset hp
    exact ((h1.trans h2).trans h3).trans (.of_kept (hkept p hm) Or.inl)

end

/-- **Exporting again.**  Two exports of the same files that clear the directories of the families,
from whatever was there, and that both succeed, leave the same files in these directories, the
generated ones, but for what is kept directly in the directory of a family; elsewhere each leaves
what was there and new directories on the way.  Each may write one file after another or, where no
temporary file gets in the way, in turns. -/
theorem run_converges (w w' : Manner) (s : Settings) (files : List GeneratedFile)
    (fs fs' : FileSystem) (hc : s.clean = true) (hr : Path.Resolved s.root)
    (hd : ∀ d ∈ s.config.familyDirs, Inner d.2) (hsep : Separate s.root files)
    (hcl : w.Clear s files) (hcl' : w'.Clear s files)
    (hin : ∀ f ∈ files, ∀ t, targetOf? s.root f.path = .ok t →
      ∃ d ∈ s.config.familyDirs, isBelow (Path.absolute s.root d.2) t = true)
    (ht : Tree fs) (ht' : Tree fs')
    (hok : (run w s files ({}, fs)).1.success = true)
    (hok' : (run w' s files ({}, fs')).1.success = true) :
    Exported s files fs (run w s files ({}, fs)).2 ∧
      Exported s files fs' (run w' s files ({}, fs')).2 ∧
      ∀ d ∈ s.config.familyDirs, ∀ p, isBelow (Path.absolute s.root d.2) p = true →
        (s.config.writeManifest = true → p ≠ s.root ++ [manifestName]) →
        isKeptIn (Path.absolute s.root d.2) p = false → ∀ c,
          ((run w s files ({}, fs)).2.get? p = some (.file c) ↔
            (run w' s files ({}, fs')).2.get? p = some (.file c)) := by
  have h := exported_of_success hr hd hc hsep hcl hin ht hok
  have h' := exported_of_success hr hd hc hsep hcl' hin ht' hok'
  -- what is not kept was generated, and it is generated by both
  have hsame : ∀ {before after before' after'}, Exported s files before after →
      Exported s files before' after' → ∀ d ∈ s.config.familyDirs, ∀ p,
      isBelow (Path.absolute s.root d.2) p = true →
      (s.config.writeManifest = true → p ≠ s.root ++ [manifestName]) →
      isKeptIn (Path.absolute s.root d.2) p = false → ∀ c,
        after.get? p = some (.file c) → after'.get? p = some (.file c) := by
    intro before after before' after' h h' d hmem p hp hm hk c hg
    rcases h.below d hmem p hp hm c hg with ⟨f, hf, htf, rfl⟩ | ⟨hkept, _⟩
    · exact h'.generated f hf p htf hm
    · rw [hk] at hkept
      cases hkept
  exact ⟨h, h', fun d hmem p hp hm hk c =>
    ⟨hsame h h' d hmem p hp hm hk c, hsame h' h d hmem p hp hm hk c⟩⟩

/-- an export of two files, with a manifest -/
def again : Settings := { config := { writeManifest := true }, root := ["out"] }

def twoFiles : List GeneratedFile :=
  [⟨"schemas", "schemas/User.ts", "a"⟩, ⟨"schemas", "schemas/enums.ts", "b"⟩]

/-- a directory in the place of a file, an old file in it, and one that is kept -/
def staleFiles : FileSystem :=
  ⟨[(["out"], .dir), (["out", "schemas"], .dir), (["out", "schemas", "User.ts"], .dir),
    (["out", "schemas", "User.ts", "old.ts"], .file ⟨#[120]⟩),
    (["out", "schemas", ".gitkeep"], .file ⟨#[]⟩)]⟩

/-- the steps of two writes in alternation -/
def alternating : Manner :=
  .inTurns [⟨["out", "schemas", "enums.ts"], "k3u_x07q"⟩, ⟨["out", "schemas", "User.ts"], ""⟩,
    ⟨["out", "schemas", "enums.ts"], ""⟩]

theorem run_converges_twoFiles :
    again.clean = true ∧ Path.Resolved again.root ∧
      (∀ d ∈ again.config.familyDirs, Inner d.2) ∧ Separate again.root twoFiles ∧
      Manner.Clear .oneByOne again twoFiles ∧ alternating.Clear again twoFiles ∧
      (∀ f ∈ twoFiles, ∀ t, targetOf? again.root f.path = .ok t →
        ∃ d ∈ again.config.familyDirs, isBelow (Path.absolute again.root d.2) t = true) ∧
      Tree {} ∧ Tree staleFiles ∧ (run .oneByOne again twoFiles ({}, {})).1.success = true ∧
      (run alternating again twoFiles ({}, staleFiles)).1.success = true ∧
      Exported again twoFiles {} (run .oneByOne again twoFiles ({}, {})).2 ∧
      Exported again twoFiles staleFiles (run alternating again twoFiles ({}, staleFiles)).2 := by
  have hroot : Path.Resolved again.root := by
    unfold Path.Resolved
    decide +kernel
  have hdirs : ∀ d ∈ again.config.familyDirs, Inner d.2 := by decide +kernel
  have hsep : Separate again.root twoFiles := by decide +kernel
  have htemps : TempsApart (jobsOf again.root twoFiles) :=
    tempsApart_of_names (by decide +kernel)
  have hin : ∀ f ∈ twoFiles, ∀ t, targetOf? again.root f.path = .ok t →
      ∃ d ∈ again.config.familyDirs, isBelow (Path.absolute again.root d.2) t = true := by
    have hall : ∀ f ∈ twoFiles, ∃ t, targetOf? again.root f.path = .ok t ∧
        ∃ d ∈ again.config.familyDirs, isBelow (Path.absolute again.root d.2) t = true := by
      intro f hf
      rcases List.mem_cons.1 hf with rfl | hf
      · exact ⟨["out", "schemas", "User.ts"], by decide +kernel⟩
      · obtain rfl := List.mem_singleton.1 hf
        exact ⟨["out", "schemas", "enums.ts"], by decide +kernel⟩
    intro f hf t ht
    obtain ⟨t', ht', h⟩ := hall f hf
    obtain rfl := Except.ok.inj (ht.symm.trans ht')
    exact h
  have htree : Tree {} := tree_of_entries (by decide +kernel)
  have hstale : Tree staleFiles := tree_of_entries (by decide +kernel)
  have hok : (run .oneByOne again twoFiles ({}, {})).1.success = true := by
    unfold Log.success
    rw [failures_run _ (by decide +kernel)]
    decide +kernel
  have hok' : (run alternating again twoFiles ({}, staleFiles)).1.success = true := by
    unfold Log.success
    rw [failures_run _ (by decide +kernel)]
    decide +kernel
  obtain ⟨h, h', _⟩ := run_converges .oneByOne alternating again twoFiles {} staleFiles rfl hroot
    hdirs hsep trivial (fun _ => htemps) hin htree hstale hok hok'
  exact ⟨rfl, hroot, hdirs, hsep, trivial, fun _ => htemps, hin, htree, hstale, hok, hok', h, h'⟩

/-! ## what exports do besides -/

/-- an export of schemas to `/out` -/
def toSchemas : Settings := { config := {}, root := ["out"] }

theorem swept_toSchemas : swept toSchemas ({}, {}) = ([], {}, onlyOut) := by
  have hsort : sortedDirs toSchemas.config = [(.schemas, "schemas")] := List.mergeSort_singleton _
  unfold swept
  rw [hsort]
  rfl

theorem run_toSchemas (w : Manner) (files : List GeneratedFile) :
    run w toSchemas files ({}, {}) = w.write toSchemas files ({}, onlyOut) := by
  have hroot : (({} : FileSystem).makeDirs toSchemas.root).2 = none := makeDirs_toOut false
  have hrun := run_of_root w ({}, {}) hroot files
  rw [swept_toSchemas, without_nil] at hrun
  exact hrun

/-- Two files in the directory of the schemas, of which one has the name of a temporary file for the
other: both exports succeed, and the one that writes in turns leaves one file only.  An export of
no files makes the output directory all the same. -/
theorem exports_diverge :
    (toSchemas.clean = true ∧ Path.Resolved toSchemas.root ∧
      (∀ d ∈ toSchemas.config.familyDirs, Inner d.2) ∧
      Separate toSchemas.root [userFile, hiddenFile] ∧
      (∀ f ∈ [userFile, hiddenFile], ∃ t, targetOf? toSchemas.root f.path = .ok t ∧
        ∃ d ∈ toSchemas.config.familyDirs,
          isBelow (Path.absolute toSchemas.root d.2) t = true) ∧
      Tree {} ∧
      (run (.inTurns overtaking) toSchemas [userFile, hiddenFile] ({}, {})).1.success = true ∧
      (run .oneByOne toSchemas [userFile, hiddenFile] ({}, {})).1.success = true ∧
      ((run (.inTurns overtaking) toSchemas [userFile, hiddenFile] ({}, {})).2.get?
        ["out", "schemas", ".User.ts.00000000.tmp"]).isSome = false ∧
      ((run .oneByOne toSchemas [userFile, hiddenFile] ({}, {})).2.get?
        ["out", "schemas", ".User.ts.00000000.tmp"]).isSome = true) ∧
    ((run (.of toSchemas.config []) toSchemas [] ({}, {})).1.success = true ∧
      ({} : FileSystem).get? ["out"] = none ∧
      (run (.of toSchemas.config []) toSchemas [] ({}, {})).2.get? ["out"] = some .dir) := by
  have hroot : Path.Resolved toSchemas.root := by
    unfold Path.Resolved
    decide
  obtain ⟨hnone, hgone⟩ := run_inTurns_overtaking (s := toSchemas) rfl rfl rfl swept_toSchemas
  obtain ⟨hset, hnoted⟩ := writeFiles_noted (s := toSchemas) separate_hidden ({}, onlyOut)
  have hfates : ∀ f ∈ [userFile, hiddenFile], fate toSchemas onlyOut f = none := by
    rw [List.forall_mem_cons, List.forall_mem_singleton]
    exact ⟨rfl, rfl⟩
  have hfailures : (writeFiles toSchemas [userFile, hiddenFile] ({}, onlyOut)).1.failures = [] := by
    have h := hnoted.failures
    have halone : ∀ f ∈ [userFile, hiddenFile], (alone toSchemas onlyOut f).failures = [] := by
      intro f hf
      rw [alone_eq, hfates f hf]
      rfl
    rw [List.flatMap_eq_nil_iff.2 halone, List.append_nil] at h
    exact List.forall₂_nil_right_iff.1 h
  have hplace := get?_of_written hset (List.mem_cons_of_mem _ (List.mem_singleton_self hiddenFile))
    targetOf?_hidden (hfates _ (List.mem_cons_of_mem _ (List.mem_singleton_self hiddenFile)))
  refine ⟨⟨rfl, hroot, by decide, separate_hidden, ?_, tree_of_entries (by decide), ?_, ?_, hgone,
    ?_⟩, ?_, rfl, ?_⟩
  · rw [List.forall_mem_cons, List.forall_mem_singleton]
    exact ⟨⟨_, targetOf?_user, by decide⟩, ⟨_, targetOf?_hidden, by decide⟩⟩
  · exact List.isEmpty_iff.2 hnone
  · rw [run_toSchemas]
    exact List.isEmpty_iff.2 hfailures
  · rw [run_toSchemas]
    show ((writeFiles toSchemas [userFile, hiddenFile] ({}, onlyOut)).2.get?
      hiddenJob.target).isSome = true
    rw [hplace]
    rfl
  · rw [run_toSchemas]
    rfl
  · rw [run_toSchemas]
    rfl

end ZodSchema.Export
