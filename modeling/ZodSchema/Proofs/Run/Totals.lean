import ZodSchema.Run.Basic
import ZodSchema.Proofs.Export.Manifest
import ZodSchema.Proofs.Generation.Load
import ZodSchema.Proofs.Run.Gates

/-!
# Totals of runs

The totals of a report are counted twice: in the files that are generated, and in the records of
what was written.

* `Options.dry`, `Report.dry`   the same without writing
* `totals_generateStage`, `totals_writeStage`   what is counted
* `Rehearsed`         a run without writing tells the totals of the run itself
* `rehearsed_run`, `rehearsed_runFile`   so it is with every run
* `manifests_tell`    manifests are faithful and runs are rehearsed
* `exists_written_run`, `exists_written_runFile`   runs without export errors
-/

namespace ZodSchema.Run

open Text Files Generation Export

variable {d : Datamodel} {c : Config} {o : Options} {s : Setting} {r r' : Report} {w : Manner}
  {fs : FileSystem} {workDir : Parts}

/-! ## without writing -/

/-- the same options without writing -/
def Options.dry (o : Options) : Options := { o with dryRun := true }

/-- the same report of a run without writing -/
def Report.dry (r : Report) : Report := { r with dryRun := true }

theorem opened_dry (o : Options) (s : Setting) (source : String) :
    opened o.dry s source = (opened o s source).map Report.dry := by
  unfold opened
  split <;> rfl

theorem validateStage_dry (o : Options) (d : Datamodel) (c : Config) (r : Report) :
    validateStage o.dry d c r.dry =
      ((validateStage o d c r).1.dry, (validateStage o d c r).2) := rfl

theorem generateStage_dry (workDir : Parts) (d : Datamodel) (c : Config) (r : Report) :
    generateStage workDir d c r.dry = (generateStage workDir d c r).map Report.dry := by
  unfold generateStage
  cases generated workDir d c with
  | error e => rfl
  | ok g =>
    simp only [bind, Except.bind]
    cases byteTotal g.1.files <;> rfl

/-- how files would be written makes no difference -/
theorem runStages_of_dryRun (h : o.dryRun = true) (w w' : Manner) :
    runStages w o = runStages w' o := by
  funext s d c r fs
  unfold runStages
  simp only [h, Bool.or_true, if_true]

theorem runFile_of_dryRun (h : o.dryRun = true) (w w' : Config → Manner) (s : Setting)
    (path : Parts) (overrides : Value.Entries) (provider : Option Value) (fs : FileSystem) :
    runFile w o s path overrides provider fs = runFile w' o s path overrides provider fs := by
  have hw : ∀ c, runStages (w c) o = runStages (w' c) o := fun c => runStages_of_dryRun h _ _
  unfold runFile
  simp only [hw]

/-! ## what is counted -/

/-- the report tells the totals of these files -/
structure Totals (files : List GeneratedFile) (r : Report) : Prop where
  fileCount : r.totalFiles = files.length
  byteCount : r.totalBytes = totalOf (fun f => (Str.bytes f.content).size) files
  lineCount : r.totalLines = lineTotal files

/-- the reports tell the same totals -/
structure SameTotals (r r' : Report) : Prop where
  fileCount : r'.totalFiles = r.totalFiles
  byteCount : r'.totalBytes = r.totalBytes
  lineCount : r'.totalLines = r.totalLines

theorem Totals.same {files : List GeneratedFile} (h : Totals files r) (h' : Totals files r') :
    SameTotals r r' :=
  ⟨h'.fileCount.trans h.fileCount.symm, h'.byteCount.trans h.byteCount.symm,
    h'.lineCount.trans h.lineCount.symm⟩

theorem totalOf_of_byteTotal {files : List GeneratedFile} {n : Nat} (h : byteTotal files = .ok n) :
    n = totalOf (fun f => (Str.bytes f.content).size) files := by
  induction files generalizing n with
  | nil => exact (Except.ok.inj h).symm
  | cons f files ih =>
    unfold byteTotal at h
    split at h
    · cases h
    · cases hb : byteTotal files with
      | error e =>
        rw [hb] at h
        cases h
      | ok k =>
        rw [hb] at h
        rw [totalOf, ← ih hb]
        exact (Except.ok.inj h).symm

/-- after generation the files themselves are counted -/
theorem totals_generateStage (h : generateStage workDir d c r = .ok r') : Totals r'.files r' := by
  unfold generateStage at h
  cases hg : generated workDir d c with
  | error e =>
    rw [hg] at h
    cases h
  | ok g =>
    rw [hg] at h
    simp only [bind, Except.bind] at h
    cases hb : byteTotal g.1.files with
    | error e =>
      rw [hb] at h
      cases h
    | ok n =>
      rw [hb] at h
      obtain rfl := Except.ok.inj h
      exact ⟨rfl, totalOf_of_byteTotal hb, rfl⟩

/-- after writing without errors the records are counted, and come to the same -/
theorem totals_writeStage {output : Parts} {fs' : FileSystem}
    (h : writeStage w o output c r fs = .ok (r', fs')) (he : r'.exportErrors = []) :
    Totals r.files r' := by
  unfold writeStage at h
  dsimp only at h
  split at h
  · cases h
  · obtain ⟨rfl, -⟩ := Prod.mk.inj (Except.ok.inj h)
    have hlog : (Export.run w ⟨c, output, o.clean, true⟩ r.files ({}, fs)).1.failures = [] :=
      List.map_eq_nil_iff.1 (List.append_eq_nil_iff.1 he).2
    obtain ⟨hfiles, hbytes, hlines⟩ := manifest_totals rfl hlog c
    exact ⟨hfiles, hbytes, hlines⟩

/-! ## rehearsals -/

/-- where a run ends without export errors, the one without writing ends with the same totals and
leaves everything as it is -/
def Rehearsed (fs : FileSystem) (run dry : Except Abort (Report × FileSystem)) : Prop :=
  ∀ r fs', run = .ok (r, fs') → r.exportErrors = [] → ∃ r', dry = .ok (r', fs) ∧ SameTotals r r'

theorem rehearsed_ok (fs : FileSystem) (r : Report) :
    Rehearsed fs (.ok (r, fs)) (.ok (r.dry, fs)) := by
  intro r₁ fs₁ h _
  obtain ⟨rfl, rfl⟩ := Prod.mk.inj (Except.ok.inj h)
  exact ⟨_, rfl, rfl, rfl, rfl⟩

theorem rehearsed_error (fs : FileSystem) (e : Abort) (dry : Except Abort (Report × FileSystem)) :
    Rehearsed fs (.error e) dry := fun _ _ h => nomatch h

theorem rehearsed_runStages (w : Manner) (o : Options) (s : Setting) (d : Datamodel) (c : Config)
    (r : Report) (fs : FileSystem) :
    Rehearsed fs (runStages w o s d c r fs) (runStages w o.dry s d c r.dry fs) := by
  let r₀ : Report := { r with provider := d.providerText, totalModels := d.models.length }
  have hvalid : validateStage o.dry d c { r.dry with
      provider := d.providerText, totalModels := d.models.length } = _ :=
    validateStage_dry o d c r₀
  unfold runStages
  dsimp only
  rw [hvalid]
  split
  · exact rehearsed_ok fs _
  · rw [generateStage_dry]
    cases hg : generateStage s.workDir d c (validateStage o d c r₀).1 with
    | error e => exact rehearsed_error fs e _
    | ok g =>
      -- the files are generated in both, and the dry run is over
      have hdry : (!g.dry.generationErrors.isEmpty || o.dry.dryRun) = true := Bool.or_true _
      dsimp only [Except.map]
      rw [if_pos hdry]
      split
      · exact rehearsed_ok fs g
      · intro r₁ fs₁ h he
        have hg' : Totals g.files g.dry :=
          let ht := totals_generateStage hg
          ⟨ht.fileCount, ht.byteCount, ht.lineCount⟩
        exact ⟨g.dry, rfl, (totals_writeStage h he).same hg'⟩

/-- what follows the opening of a report -/
theorem rehearsed_opened {source : String}
    {next dryNext : Report → Except Abort (Report × FileSystem)}
    (h : ∀ r, Rehearsed fs (next r) (dryNext r.dry)) :
    Rehearsed fs (opened o s source >>= next) (opened o.dry s source >>= dryNext) := by
  rw [opened_dry]
  cases opened o s source with
  | error e => exact rehearsed_error fs e _
  | ok r => exact h r

theorem rehearsed_run (w : Manner) (o : Options) (s : Setting) (d : Datamodel) (c : Config)
    (fs : FileSystem) : Rehearsed fs (run w o s d c fs) (run w o.dry s d c fs) :=
  rehearsed_opened fun r => rehearsed_runStages w o s d c r fs

theorem rehearsed_runFile (w : Config → Manner) (o : Options) (s : Setting) (path : Parts)
    (overrides : Value.Entries) (provider : Option Value) (fs : FileSystem) :
    Rehearsed fs (runFile w o s path overrides provider fs)
      (runFile w o.dry s path overrides provider fs) := by
  refine rehearsed_opened fun r => ?_
  cases load fs path with
  | error e =>
    cases e with
    | unreachable f => exact rehearsed_error fs _ _
    | uncaught e => exact rehearsed_error fs _ _
    | _ => exact rehearsed_ok fs _
  | ok raw =>
    dsimp only
    cases readInput (withSource path (applyOverrides raw overrides provider).entries) with
    | error e => exact rehearsed_ok fs _
    | ok i => exact rehearsed_runStages (w i.2) o s i.1 i.2 _ fs

/-! ## manifests and reports -/

/-- **What manifests tell.**  The manifest of an export of separate files, none of them in the way
of the manifest or of a temporary file, lists exactly the files that were written, as they are on
the disk, after those of earlier exports.  Without export errors the report of a run has the totals
that the same run reports without writing. -/
theorem manifests_tell :
    (∀ (w : Manner) (s : Settings) (files : List GeneratedFile) (st : Log × FileSystem),
      Separate s.root files → w.Clear s files →
      (s.config.writeManifest = true →
        ∀ f ∈ files, targetOf? s.root f.path ≠ .ok (s.root ++ [manifestName])) →
      Faithful w s files st (Export.run w s files st)
        ((Export.run w s files st).1.manifest s.config)) ∧
    (∀ (w : Manner) (o : Options) (s : Setting) (d : Datamodel) (c : Config) (fs : FileSystem),
      Rehearsed fs (run w o s d c fs) (run w o.dry s d c fs)) ∧
    (∀ (w : Config → Manner) (o : Options) (s : Setting) (path : Parts)
        (overrides : Value.Entries) (provider : Option Value) (fs : FileSystem),
      Rehearsed fs (runFile w o s path overrides provider fs)
        (runFile w o.dry s path overrides provider fs)) :=
  ⟨fun _ _ _ _ => run_faithful, rehearsed_run, rehearsed_runFile⟩

/-- a run that no stage fails has a report without export errors -/
theorem Ends.exists_written {p : Prop} {x : Except Abort (Report × FileSystem)}
    (h : Ends p o none fs x) (hp : ¬ p) : ∃ r fs', x = .ok (r, fs') ∧ r.exportErrors = [] := by
  obtain ⟨r, fs', hx⟩ := h.ok_iff.2 hp
  have hgated := h.gated r fs' hx
  exact ⟨r, fs', hx, (hgated.errorFree.1 hgated.exitCode).writing⟩

theorem exists_written_run (hn : ¬ hasBadName s.output = true) (hb : ¬ BreaksOff w o s d c fs)
    (hf : failing? w o s d c fs = none) :
    ∃ r fs', run w o s d c fs = .ok (r, fs') ∧ r.exportErrors = [] := by
  have hends : Ends (hasBadName s.output = true ∨ BreaksOff w o s d c fs) o
      (failing? w o s d c fs) fs (run w o s d c fs) := ends_opened fun r hr => ends_runStages hr
  rw [hf] at hends
  exact hends.exists_written (not_or.2 ⟨hn, hb⟩)

theorem not_breaksOffInFile {w : Config → Manner} {path : Parts} {overrides : Value.Entries}
    {provider : Option Value} {raw : Loaded} (hl : load fs path = .ok raw)
    (hi : readInput (withSource path (applyOverrides raw overrides provider).entries) = .ok (d, c))
    (hb : ¬ BreaksOff (w c) o s d c fs) : ¬ BreaksOffInFile w o s path overrides provider fs := by
  unfold BreaksOffInFile inputOf?
  rw [hl]
  dsimp only
  rw [hi]
  rintro (⟨f, hf⟩ | ⟨e, he⟩ | ⟨d', c', he, hd⟩)
  · cases hf
  · cases he
  · obtain ⟨rfl, rfl⟩ := Prod.mk.inj (Option.some.inj he)
    exact hb hd

theorem exists_written_runFile {w : Config → Manner} {path : Parts} {overrides : Value.Entries}
    {provider : Option Value} {raw : Loaded} (hl : load fs path = .ok raw)
    (hi : readInput (withSource path (applyOverrides raw overrides provider).entries) = .ok (d, c))
    (hn : ¬ hasBadName s.output = true) (hb : ¬ BreaksOff (w c) o s d c fs)
    (hf : failing? (w c) o s d c fs = none) :
    ∃ r fs', runFile w o s path overrides provider fs = .ok (r, fs') ∧ r.exportErrors = [] := by
  have hends : Ends (hasBadName s.output = true ∨ BreaksOffInFile w o s path overrides provider fs)
      o (failingInFile? w o s path overrides provider fs) fs
      (runFile w o s path overrides provider fs) := ends_runFile w path overrides provider
  have hfailing : failingInFile? w o s path overrides provider fs = none := by
    unfold failingInFile?
    rw [hl]
    dsimp only
    rw [hi]
    exact hf
  rw [hfailing] at hends
  exact hends.exists_written (not_or.2 ⟨hn, not_breaksOffInFile hl hi hb⟩)

/-- a schema file with the model `Item`, and a run on it from the root directory -/
def itemTree : FileSystem := ⟨[(["m.json"], .file (asciiBytes (Json.itemText "A thing.")))]⟩

def atRoot : Setting := ⟨[], ["out"]⟩

/-- the data model of the file -/
def itemModel : Datamodel :=
  { models := [
      { name := "Item"
        documentation := some "A thing."
        fields := [{ name := "id", type := "Int", isId := true }] }]
    sourceFile := some "/m.json" }

theorem load_itemTree : load itemTree ["m.json"] = .ok ⟨Json.itemDocument "A thing.", []⟩ :=
  load_json (p := ["m.json"]) rfl rfl rfl (fun _ => Json.mem_itemText (by decide))
    (Json.read_itemText (by decide))

theorem readInput_itemTree : readInput (withSource ["m.json"]
    (applyOverrides ⟨Json.itemDocument "A thing.", []⟩ [] none).entries) =
      .ok (itemModel, {}) := rfl

theorem validate_itemModel : Validation.validate itemModel {} = [] :=
  List.isEmpty_iff.1 (by decide +kernel)

theorem passes_itemModel : passes {} itemModel {} = true := by
  unfold passes
  rw [validate_itemModel]
  rfl

/-- what is generated from the file -/
def itemFiles : List GeneratedFile :=
  (familyFiles [] itemModel {} (Brand.declared (Brand.declarations itemModel))).map
    TypeScript.SourceFile.file

theorem generate_itemModel : generate atRoot.workDir itemModel {} = .ok ⟨itemFiles,
    familyWarnings itemModel {} (Brand.declared (Brand.declarations itemModel))⟩ := by
  rw [generate_of_valid (isValid_of_passes passes_itemModel)]
  rfl

theorem lone?_itemFiles : ∀ f ∈ itemFiles, Str.lone? f.content = none := by decide +kernel

theorem not_breaksOff_itemModel (w : Manner) (o : Options) :
    ¬ BreaksOff w o atRoot itemModel {} itemTree := by
  intro h
  have hno : ¬ OverlongRule itemModel {} := by
    intro ho
    have hs : (longInteger? itemModel {}).isSome = true := longInteger?_isSome.2 ho
    cases hs
  have hp : passes o itemModel {} = true := h.1
  obtain ⟨-, hb⟩ := (breaksOff_iff hp hno generate_itemModel lone?_itemFiles).1 h
  unfold exported at hb
  rw [broken_run rfl] at hb
  cases hb

theorem failing?_itemModel : failing? .oneByOne {} atRoot itemModel {} itemTree = none := by
  have hgenerated : generated atRoot.workDir itemModel {} = .ok (⟨itemFiles,
      familyWarnings itemModel {} (Brand.declared (Brand.declarations itemModel))⟩, []) := by
    unfold generated
    rw [generate_itemModel]
  have hsort : sortedDirs {} = [(.schemas, "schemas")] := List.mergeSort_singleton _
  unfold failing?
  rw [if_pos passes_itemModel, hgenerated]
  refine if_pos ?_
  unfold exported Export.run
  dsimp only
  rw [hsort]
  decide +kernel

/-- three files in turns, and runs on the file of one model -/
theorem manifests_tell_item :
    (Separate (toOut true).root pair ∧
      let w : Manner := .inTurns [⟨["out", "a", "y.ts"], "k3u_x07q"⟩, ⟨["out", "a", "x.ts"], ""⟩]
      w.Clear (toOut true) pair ∧
      (∀ f ∈ pair, targetOf? (toOut true).root f.path ≠
        .ok ((toOut true).root ++ [manifestName])) ∧
      Faithful w (toOut true) pair ({}, {}) (Export.run w (toOut true) pair ({}, {}))
        ((Export.run w (toOut true) pair ({}, {})).1.manifest (toOut true).config)) ∧
    (∃ r fs', run .oneByOne {} atRoot itemModel {} itemTree = .ok (r, fs') ∧
      r.exportErrors = [] ∧
      ∃ r', run .oneByOne (Options.dry {}) atRoot itemModel {} itemTree =
        .ok (r', itemTree) ∧ SameTotals r r') ∧
    (∃ r fs', runFile (fun _ => .oneByOne) {} atRoot ["m.json"] [] none itemTree = .ok (r, fs') ∧
      r.exportErrors = [] ∧
      ∃ r', runFile (fun _ => .oneByOne) (Options.dry {}) atRoot ["m.json"] [] none itemTree =
        .ok (r', itemTree) ∧ SameTotals r r') := by
  have hsep : Separate (toOut true).root pair := by decide
  have hclear : TempsApart (jobsOf (toOut true).root pair) :=
    tempsApart_of_names (by decide)
  have hman : ∀ f ∈ pair, targetOf? (toOut true).root f.path ≠
      .ok ((toOut true).root ++ [manifestName]) := by decide
  have hname : ¬ hasBadName atRoot.output = true := by decide
  refine ⟨⟨hsep, fun _ => hclear, hman, ?_⟩, ?_, ?_⟩
  · exact manifests_tell.1 _ _ pair ({}, {}) hsep (fun _ => hclear) fun _ => hman
  · obtain ⟨r, fs', hrun, he⟩ :=
      exists_written_run hname (not_breaksOff_itemModel _ _) failing?_itemModel
    exact ⟨r, fs', hrun, he, manifests_tell.2.1 _ _ _ _ _ _ r fs' hrun he⟩
  · obtain ⟨r, fs', hrun, he⟩ := exists_written_runFile (w := fun _ => .oneByOne) load_itemTree
      readInput_itemTree hname (not_breaksOff_itemModel _ _) failing?_itemModel
    exact ⟨r, fs', hrun, he, manifests_tell.2.2 _ _ _ _ _ _ _ r fs' hrun he⟩

end ZodSchema.Run
