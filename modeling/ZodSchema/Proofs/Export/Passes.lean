import ZodSchema.Proofs.Export.Batch
import ZodSchema.Proofs.Json.Encoding
import ZodSchema.Proofs.Text.Chars

/-!
# The passes of an export

* `swept`              an export up to the end of its clearing pass
* `run_of_root`        an export whose output directory can be made, pass by pass
* `kept_writeManifest_of_ne`   the manifest keeps what is elsewhere
* `Manifest.lone?_json`        its encoding
* `clearFamilies_log`  one failure for each family that is not cleared
-/

namespace ZodSchema.Export

open Files FileSystem Text

variable {s : Settings} {w : Manner} {p : Parts} {files : List GeneratedFile} {fs : FileSystem}
  {l : Log} {st : Log × FileSystem}

/-- an export up to the end of its clearing pass: the families that are not cleared, and what is
noted and left -/
def swept (s : Settings) (st : Log × FileSystem) : List Family × Log × FileSystem :=
  let fs := (st.2.makeDirs s.root).1
  if s.clean then clearFamilies s (sortedDirs s.config) (st.1, fs) else ([], st.1, fs)

/-- an export whose output directory can be made, pass by pass -/
theorem run_of_root (w : Manner) (st : Log × FileSystem) (h : (st.2.makeDirs s.root).2 = none)
    (files : List GeneratedFile) : run w s files st =
      writeManifest s (w.write s (without (swept s st).1 files) (swept s st).2) := by
  have he : st.2.makeDirs s.root = ((st.2.makeDirs s.root).1, none) := by rw [← h]
  unfold run
  rw [he]
  rfl

theorem run_of_fault (w : Manner) {e : Fault} (h : (st.2.makeDirs s.root).2 = some e)
    (files : List GeneratedFile) :
    run w s files st = (st.1.fail (.noOutput e), (st.2.makeDirs s.root).1) := by
  have he : st.2.makeDirs s.root = ((st.2.makeDirs s.root).1, some e) := by rw [← h]
  unfold run
  rw [he]

theorem without_sublist (failed : List Family) (files : List GeneratedFile) :
    (without failed files).Sublist files :=
  List.filter_sublist

theorem without_nil (files : List GeneratedFile) : without [] files = files :=
  List.filter_eq_self.2 fun _ _ => rfl

theorem Log.noManifest_records (f : Fault) (l : Log) : (l.noManifest f).records = l.records := by
  cases f <;> rfl

theorem Log.noManifest_failures (f : Fault) (l : Log) :
    (l.noManifest f).failures = l.failures := by
  cases f <;> rfl

/-- the manifest is noted neither as a file nor as a failure -/
theorem writeManifest_log (s : Settings) (st : Log × FileSystem) :
    (writeManifest s st).1.records = st.1.records ∧
      (writeManifest s st).1.failures = st.1.failures := by
  unfold writeManifest
  split
  · split
    · exact ⟨rfl, rfl⟩
    · exact ⟨st.1.noManifest_records _, st.1.noManifest_failures _⟩
  · exact ⟨rfl, rfl⟩

/-- the manifest aside, an export whose output directory can be made notes what its passes note -/
theorem failures_run (w : Manner) (h : (st.2.makeDirs s.root).2 = none)
    (files : List GeneratedFile) : (run w s files st).1.failures =
      (w.write s (without (swept s st).1 files) (swept s st).2).1.failures := by
  rw [run_of_root w st h, (writeManifest_log s _).2]

theorem writeManifest_files (hm : s.config.writeManifest = true) (st : Log × FileSystem) :
    (writeManifest s st).2 = (write s.atomic (s.root ++ [manifestName])
      (st.1.manifest s.config).json st.2).1 := by
  unfold writeManifest
  rw [if_pos hm]
  split <;> next h => exact congrArg Prod.fst h.symm

/-- the manifest keeps what is elsewhere -/
theorem kept_writeManifest_of_ne (s : Settings) (st : Log × FileSystem)
    (hp : s.config.writeManifest = true → p ≠ s.root ++ [manifestName]) :
    Kept s.root st.2 (writeManifest s st).2 p := by
  by_cases hm : s.config.writeManifest = true
  · have hn : s.root ++ [manifestName] ≠ [] :=
      List.append_ne_nil_of_right_ne_nil _ (List.cons_ne_nil _ _)
    have hg := get?_write s.atomic hn (st.1.manifest s.config).json st.2 p
    rw [if_neg fun he => hp hm he.2, List.dropLast_concat] at hg
    rw [writeManifest_files hm]
    unfold Kept
    rw [hg]
    by_cases ho : p ∈ FileSystem.opened s.root st.2
    · obtain ⟨hway, _, hno⟩ := of_mem_opened ho
      rw [if_pos ho]
      rcases get?_of_isFile_eq_false hno with hb | hb
      · exact Or.inr ⟨hway, hb, rfl⟩
      · exact Or.inl hb.symm
    · rw [if_neg ho]
      exact Or.inl rfl
  · unfold writeManifest
    rw [if_neg hm]
    exact Kept.refl ..

/-- the manifest depends on the records, and what is left on what is there -/
theorem get?_writeManifest_congr {st st' : Log × FileSystem} (hr : st'.1.records = st.1.records)
    (hg : ∀ p, st'.2.get? p = st.2.get? p) (p : Parts) :
    (writeManifest s st').2.get? p = (writeManifest s st).2.get? p := by
  by_cases hm : s.config.writeManifest = true
  · have hn : s.root ++ [manifestName] ≠ [] :=
      List.append_ne_nil_of_right_ne_nil _ (List.cons_ne_nil _ _)
    have hsame : SameFor (s.root ++ [manifestName]) st'.2 st.2 := by
      refine ⟨fun q _ => isFile_congr (hg q), ?_⟩
      unfold FileSystem.isDir
      rw [hg]
    have hcontent : st'.1.manifest s.config = st.1.manifest s.config := by
      unfold Log.manifest
      rw [hr]
    have hfault := (hsame.alike_write s.atomic hn
      (st.1.manifest s.config).json).eq_none_iff
    rw [writeManifest_files hm, writeManifest_files hm, hcontent, get?_write s.atomic hn,
      get?_write s.atomic hn, hsame.opened_eq, hg]
    simp only [hfault]
  · have hno : ∀ st, writeManifest s st = st := fun st => if_neg hm
    rw [hno, hno, hg]

/-- a digest is made of hexadecimal digits -/
theorem lone?_sha256Hex (text : String) : Str.lone? (Digest.sha256Hex text) = none := by
  refine Json.lone?_ascii fun c hc => ?_
  unfold Digest.sha256Hex Digest.sha256Bytes Digest.Hash.hex at hc
  rw [String.toList_ofList, List.mem_flatMap] at hc
  obtain ⟨word, -, hc⟩ := hc
  obtain ⟨i, -, rfl⟩ := List.mem_map.1 hc
  have hall : ∀ d < 16, (Digest.hexDigit d).toNat < 128 := by decide
  exact hall _ (Nat.mod_lt _ (by decide))

theorem Manifest.lone?_value (c : Config) (files : List GeneratedFile)
    (h : ∀ f ∈ files, Str.lone? f.path = none ∧ Str.lone? f.family = none) :
    Str.lone? (Json.writeIndent (Manifest.of c (files.map Record.of)).value) = none := by
  have htext : ∀ {n t}, Str.lone? t = none → Str.lone? (Json.writeAt n (.text t)) = none :=
    fun ht => Json.lone?_quote ht
  have hint : ∀ {n} {i : Int}, Str.lone? (Json.writeAt n (.int i)) = none :=
    Json.lone?_intText _
  have hversion : Str.lone? generatorVersion = none := by decide
  have hfamily : ∀ family ∈ (Manifest.of c (files.map Record.of)).families,
      Str.lone? family = none := by
    intro family hf
    obtain ⟨d, -, rfl⟩ := List.mem_map.1 (Str.mem_sortDedup.1 hf)
    cases d.1 <;> decide
  have hrecord : ∀ n, ∀ r ∈ (Manifest.of c (files.map Record.of)).files,
      Str.lone? (Json.writeAt n (Manifest.recordValue r)) = none := by
    intro n r hr
    obtain ⟨f, hf, rfl⟩ := List.mem_map.1 (List.mem_mergeSort.1 hr)
    refine Json.lone?_writeAt_map ?_
    simp only [List.forall_mem_cons, List.not_mem_nil, false_implies, implies_true, and_true]
    exact ⟨⟨by decide, htext (h f hf).1⟩, ⟨by decide, htext (h f hf).2⟩, ⟨by decide, hint⟩,
      ⟨by decide, hint⟩, by decide, htext (lone?_sha256Hex f.content)⟩
  refine Json.lone?_writeAt_map ?_
  simp only [List.forall_mem_cons, List.not_mem_nil, false_implies, implies_true, and_true]
  refine ⟨⟨by decide, htext hversion⟩, ⟨by decide, Json.lone?_writeAt_list ?_⟩,
    ⟨by decide, hint⟩, ⟨by decide, hint⟩, ⟨by decide, hint⟩, by decide,
    Json.lone?_writeAt_list ?_⟩
  · exact List.forall_mem_map.2 fun family hf => htext (hfamily family hf)
  · exact List.forall_mem_map.2 fun r hr => hrecord _ r hr

/-- the manifest of files whose paths and families have an encoding has one -/
theorem Manifest.lone?_json (c : Config) (files : List GeneratedFile)
    (h : ∀ f ∈ files, Str.lone? f.path = none ∧ Str.lone? f.family = none) :
    Str.lone? (Manifest.of c (files.map Record.of)).json = none :=
  Str.lone?_append (Manifest.lone?_value c files h) (by decide)

/-- the failure of a family whose directory is not cleared -/
def NotCleared (dirs : List (Family × String)) (root : Parts) (family : Family)
    (e : Failure) : Prop :=
  ∃ dir fault, (family, dir) ∈ dirs ∧ e = .notCleared (Path.absolute root dir) fault family

/-- the clearing pass notes one failure for each family that is not cleared -/
theorem clearFamilies_log (s : Settings) (dirs : List (Family × String)) (l : Log)
    (fs : FileSystem) : ∃ es, (clearFamilies s dirs (l, fs)).2.1 =
        { l with failures := l.failures ++ es } ∧
      List.Forall₂ (NotCleared dirs s.root) (clearFamilies s dirs (l, fs)).1 es ∧
      (clearFamilies s dirs (l, fs)).1.Sublist (dirs.map (·.1)) := by
  induction dirs generalizing l fs with
  | nil => exact ⟨[], by simp [clearFamilies], .nil, List.Sublist.slnil⟩
  | cons d rest ih =>
    obtain ⟨family, dir⟩ := d
    have hweak : ∀ {families es}, List.Forall₂ (NotCleared rest s.root) families es →
        List.Forall₂ (NotCleared ((family, dir) :: rest) s.root) families es := by
      intro families es h
      refine h.imp fun a e => ?_
      rintro ⟨dir', fault, hm, he⟩
      exact ⟨dir', fault, List.mem_cons_of_mem _ hm, he⟩
    unfold clearFamilies
    dsimp only
    cases hc : fs.clear keptNames (Path.absolute s.root dir) with
    | ok fs' =>
      obtain ⟨es, hl, hes, hsub⟩ := ih l fs'
      exact ⟨es, hl, hweak hes, hsub.cons _⟩
    | error e =>
      obtain ⟨es, hl, hes, hsub⟩ := ih (l.fail (.notCleared (Path.absolute s.root dir) e family)) fs
      refine ⟨.notCleared (Path.absolute s.root dir) e family :: es, ?_,
        .cons ⟨dir, e, List.mem_cons_self, rfl⟩ (hweak hes), hsub.cons_cons _⟩
      rw [hl]
      simp [Log.fail]

theorem nodup_sortedDirs (c : Config) : ((sortedDirs c).map (·.1)).Nodup := by
  have hp : ((sortedDirs c).map (·.1)).Perm (c.familyDirs.map (·.1)) :=
    (List.mergeSort_perm _ _).map _
  rw [hp.nodup_iff]
  unfold Config.familyDirs
  cases c.zodSchemas <;> cases c.brandRegistry <;> cases c.threeLayers <;> cases c.crudSchemas <;>
    simp

/-- what the clearing pass notes in an empty log -/
theorem swept_log (s : Settings) (fs : FileSystem) :
    (swept s ({}, fs)).2.1.records = [] ∧ (swept s ({}, fs)).1.Nodup ∧
      List.Forall₂ (NotCleared s.config.familyDirs s.root) (swept s ({}, fs)).1
        (swept s ({}, fs)).2.1.failures := by
  unfold swept
  dsimp only
  split
  · obtain ⟨es, hl, hes, hsub⟩ :=
      clearFamilies_log s (sortedDirs s.config) {} (fs.makeDirs s.root).1
    rw [hl]
    refine ⟨rfl, hsub.nodup (nodup_sortedDirs s.config), hes.imp fun family e => ?_⟩
    rintro ⟨dir, fault, hm, he⟩
    exact ⟨dir, fault, List.mem_mergeSort.1 hm, he⟩
  · exact ⟨rfl, List.nodup_nil, .nil⟩

end ZodSchema.Export
