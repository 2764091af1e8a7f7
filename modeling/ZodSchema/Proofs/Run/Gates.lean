import ZodSchema.Proofs.Run.Generation

/-!
# The stages of a run

A run ends with the stage that fails first.  Which one it is can be told from its inputs; the report
has its exit code, and nothing is written before the last stage.

* `failing?`, `failingInFile?`   the stage that fails first
* `Gated`         a report and what is left, by that stage
* `BreaksOff`     a rule or a text without an encoding breaks the run off, and there is no report
* `Ends`, `ends_writeStage`, `ends_afterGeneration`, `ends_runStages`   stage by stage
* `runFile_of_input`   a run on a schema file that can be read
* `run_gated`     runs on a data model and on a schema file
-/

namespace ZodSchema.Run

open Generation Files
open Export (Manner)

variable {w : Manner} {d : Datamodel} {c : Config} {o : Options} {s : Setting} {r r' : Report}
  {fs fs' : FileSystem} {fault : Option Stage} {workDir : Text.Parts}

/-! ## exit codes -/

/-- the exit code of a stage that fails -/
def Stage.code : Stage → Nat
  | load => 4
  | parse => 4
  | validate => 1
  | generate => 2
  | write => 3

/-- a report without any error -/
structure ErrorFree (r : Report) : Prop where
  input : r.inputErrors = []
  validation : r.validationErrors = []
  generation : r.generationErrors = []
  writing : r.exportErrors = []

theorem exitCode_of_input (h : r.inputErrors ≠ []) : r.exitCode = 4 := by
  unfold Report.exitCode
  rw [if_pos (by simpa using h)]

theorem exitCode_of_validation (h : r.inputErrors = []) (hv : r.validationErrors ≠ []) :
    r.exitCode = 1 := by
  unfold Report.exitCode
  rw [if_neg (by simp [h]), if_pos (by simpa using hv)]

theorem exitCode_of_generation (h : r.inputErrors = []) (hv : r.validationErrors = [])
    (hg : r.generationErrors ≠ []) : r.exitCode = 2 := by
  unfold Report.exitCode
  rw [if_neg (by simp [h]), if_neg (by simp [hv]), if_pos (by simpa using hg)]

theorem exitCode_of_export (h : r.inputErrors = []) (hv : r.validationErrors = [])
    (hg : r.generationErrors = []) (he : r.exportErrors ≠ []) : r.exitCode = 3 := by
  unfold Report.exitCode
  rw [if_neg (by simp [h]), if_neg (by simp [hv]), if_neg (by simp [hg]),
    if_pos (by simpa using he)]

theorem ErrorFree.exitCode (h : ErrorFree r) : r.exitCode = 0 := by
  unfold Report.exitCode
  rw [if_neg (by simp [h.input]), if_neg (by simp [h.validation]), if_neg (by simp [h.generation]),
    if_neg (by simp [h.writing])]

theorem exitCode_eq_zero_iff : r.exitCode = 0 ↔ ErrorFree r := by
  refine ⟨fun h => ?_, ErrorFree.exitCode⟩
  have hi : r.inputErrors = [] := by
    by_contra hne
    rw [exitCode_of_input hne] at h
    cases h
  have hv : r.validationErrors = [] := by
    by_contra hne
    rw [exitCode_of_validation hi hne] at h
    cases h
  have hg : r.generationErrors = [] := by
    by_contra hne
    rw [exitCode_of_generation hi hv hne] at h
    cases h
  have he : r.exportErrors = [] := by
    by_contra hne
    rw [exitCode_of_export hi hv hg hne] at h
    cases h
  exact ⟨hi, hv, hg, he⟩

theorem success_iff_exitCode : r.success = true ↔ r.exitCode = 0 := beq_iff_eq

/-- a report and what is left of `fs`, where `fault` is the stage that fails first -/
structure Gated (o : Options) (fault : Option Stage) (fs : FileSystem) (r : Report)
    (fs' : FileSystem) : Prop where
  exitCode : r.exitCode = (fault.map Stage.code).getD 0
  /-- nothing is written on a dry run or when a stage before the last one fails -/
  untouched : (o.dryRun = true ∨ ∃ stage, fault = some stage ∧ stage ≠ .write) → fs' = fs
  success : r.success = true ↔ r.exitCode = 0
  errorFree : r.exitCode = 0 ↔ ErrorFree r

theorem Gated.of_exitCode (h : r.exitCode = (fault.map Stage.code).getD 0)
    (hu : (o.dryRun = true ∨ ∃ stage, fault = some stage ∧ stage ≠ .write) → fs' = fs) :
    Gated o fault fs r fs' :=
  ⟨h, hu, success_iff_exitCode, exitCode_eq_zero_iff⟩

/-! ## the stage that fails first -/

/-- validation finds no error, and no warning that counts as one -/
def passes (o : Options) (d : Datamodel) (c : Config) : Bool :=
  (Validation.validate d c).isValid &&
    !(o.failOnWarnings && !(Validation.validate d c).warnings.isEmpty)

/-- the export of what is generated -/
def exported (w : Manner) (o : Options) (s : Setting) (c : Config) (files : List GeneratedFile)
    (fs : FileSystem) : Export.Log × FileSystem :=
  Export.run w ⟨c, s.output, o.clean, true⟩ files ({}, fs)

/-- the stage that fails first in a run on a data model -/
def failing? (w : Manner) (o : Options) (s : Setting) (d : Datamodel) (c : Config)
    (fs : FileSystem) : Option Stage :=
  if passes o d c then
    match generated s.workDir d c with
    | .ok (g, []) =>
      if o.dryRun || (exported w o s c g.files fs).1.success then none else some .write
    | _ => some .generate
  else some .validate

/-- the stage that fails first in a run on a schema file -/
def failingInFile? (w : Config → Manner) (o : Options) (s : Setting) (path : Text.Parts)
    (overrides : Value.Entries) (provider : Option Value) (fs : FileSystem) : Option Stage :=
  match load fs path with
  | .error _ => some .load
  | .ok raw =>
    match readInput (withSource path (applyOverrides raw overrides provider).entries) with
    | .error _ => some .parse
    | .ok (d, c) => failing? (w c) o s d c fs

/-- the run comes to generation, and there a rule breaks it off, or what is generated has no
encoding, or at the end the manifest has none -/
def BreaksOff (w : Manner) (o : Options) (s : Setting) (d : Datamodel) (c : Config)
    (fs : FileSystem) : Prop :=
  passes o d c = true ∧ (OverlongRule d c ∨ ∃ g, generate s.workDir d c = .ok g ∧
    ((∃ f ∈ g.files, (Text.Str.lone? f.content).isSome = true) ∨
      o.dryRun = false ∧ (exported w o s c g.files fs).1.broken.isSome = true))

/-! ## stages -/

theorem isValid_of_passes (h : passes o d c = true) : (Validation.validate d c).isValid = true :=
  (Bool.and_eq_true_iff.1 h).1

theorem validateStage_proceeds (o : Options) (d : Datamodel) (c : Config) (r : Report) :
    (validateStage o d c r).2 = passes o d c := by
  unfold validateStage passes Validation.Findings.isValid
  dsimp only
  rw [List.isEmpty_map, List.isEmpty_map]

/-- validation adds an error exactly when the run does not go on -/
theorem validationErrors_validateStage (h : r.validationErrors = []) :
    (validateStage o d c r).1.validationErrors = [] ↔ passes o d c = true := by
  rw [← validateStage_proceeds o d c r]
  unfold validateStage Report.addStep
  dsimp only
  rw [h]
  cases ((Validation.validate d c).errors.map (·.text)) with
  | cons e es => simp
  | nil =>
    cases o.failOnWarnings && !((Validation.validate d c).warnings.map (·.text)).isEmpty <;> simp

/-- how a run ends: with a report that `fault` tells, or, where `p` holds, without one -/
def Ends (p : Prop) (o : Options) (fault : Option Stage) (fs : FileSystem) :
    Except Abort (Report × FileSystem) → Prop
  | .ok (r, fs') => ¬ p ∧ Gated o fault fs r fs'
  | .error _ => p

namespace Ends

variable {p q : Prop} {x : Except Abort (Report × FileSystem)}

theorem ok_iff (h : Ends p o fault fs x) : (∃ r fs', x = .ok (r, fs')) ↔ ¬ p := by
  cases x with
  | error e => exact iff_of_false (fun ⟨_, _, he⟩ => nomatch he) fun hn => hn h
  | ok y => exact iff_of_true ⟨y.1, y.2, rfl⟩ h.1

theorem gated (h : Ends p o fault fs x) (r : Report) (fs' : FileSystem) (hx : x = .ok (r, fs')) :
    Gated o fault fs r fs' := by
  subst hx
  exact h.2

theorem congr (h : Ends p o fault fs x) (hpq : p ↔ q) : Ends q o fault fs x := by
  cases x with
  | error e => exact hpq.1 h
  | ok y => exact ⟨fun hq => h.1 (hpq.2 hq), h.2⟩

end Ends

/-- the last stage, from a report without errors on -/
theorem ends_writeStage (hr : ErrorFree r) (hf : o.dryRun = false) :
    Ends ((exported w o s c r.files fs).1.broken.isSome = true) o
      (if (exported w o s c r.files fs).1.success then none else some .write) fs
      (writeStage w o s.output c r fs) := by
  unfold writeStage
  rw [show Export.run w ⟨c, s.output, o.clean, true⟩ r.files ({}, fs) =
    exported w o s c r.files fs from rfl]
  generalize exported w o s c r.files fs = x
  obtain ⟨log, left⟩ := x
  dsimp only
  cases hb : log.broken with
  | some l => rfl
  | none =>
    refine ⟨Bool.false_ne_true, .of_exitCode ?_ ?_⟩
    · have hsuccess : log.success = true ↔ log.errors = [] := by
        unfold Export.Log.success Export.Log.errors
        rw [List.isEmpty_iff, List.map_eq_nil_iff]
      have hexport : r.exportErrors ++ log.errors = log.errors := by
        rw [hr.writing, List.nil_append]
      by_cases hs : log.success = true
      · rw [if_pos hs]
        exact ErrorFree.exitCode ⟨hr.input, hr.validation, hr.generation,
          hexport.trans (hsuccess.1 hs)⟩
      · rw [if_neg hs]
        refine exitCode_of_export hr.input hr.validation hr.generation ?_
        exact fun he => hs (hsuccess.2 (hexport.symm.trans he))
    · rintro (h | ⟨stage, h, hne⟩)
      · rw [hf] at h
        cases h
      · split at h
        · cases h
        · exact absurd (Option.some.inj h).symm hne

theorem generateStage_error {e : Abort} (h : generated workDir d c = .error e) :
    generateStage workDir d c r = .error e := by
  unfold generateStage
  rw [h]
  rfl

/-- the bytes of files can be counted when all of them have an encoding -/
theorem byteTotal_cases (files : List GeneratedFile) :
    (∃ n, byteTotal files = .ok n ∧ ∀ f ∈ files, Text.Str.lone? f.content = none) ∨
      ∃ e, byteTotal files = .error e ∧ ∃ f ∈ files, (Text.Str.lone? f.content).isSome = true := by
  induction files with
  | nil => exact Or.inl ⟨0, rfl, List.forall_mem_nil _⟩
  | cons f files ih =>
    unfold byteTotal
    cases hf : Text.Str.lone? f.content with
    | some l => exact Or.inr ⟨_, rfl, f, List.mem_cons_self, by rw [hf]; rfl⟩
    | none =>
      rcases ih with ⟨n, hn, hall⟩ | ⟨e, he, g, hg, hl⟩
      · exact Or.inl ⟨_, by rw [hn]; rfl, List.forall_mem_cons.2 ⟨hf, hall⟩⟩
      · exact Or.inr ⟨e, by rw [he]; rfl, g, List.mem_cons_of_mem _ hg, hl⟩

/-- generation without errors keeps a report without errors, unless a file has no encoding -/
theorem generateStage_cases {g : Generated GeneratedFile}
    (h : generated workDir d c = .ok (g, [])) (hr : ErrorFree r) :
    (∃ r', generateStage workDir d c r = .ok r' ∧ r'.files = g.files ∧ ErrorFree r' ∧
        ∀ f ∈ g.files, Text.Str.lone? f.content = none) ∨
      ∃ e, generateStage workDir d c r = .error e ∧
        ∃ f ∈ g.files, (Text.Str.lone? f.content).isSome = true := by
  have hnone : r.generationErrors ++ [] = [] := by rw [hr.generation, List.append_nil]
  unfold generateStage
  rw [h]
  rcases byteTotal_cases g.files with ⟨n, hn, hall⟩ | ⟨e, he, hf⟩
  · simp only [bind, Except.bind, hn]
    exact Or.inl ⟨_, rfl, rfl, ⟨hr.input, hr.validation, hnone, hr.writing⟩, hall⟩
  · simp only [bind, Except.bind, he]
    exact Or.inr ⟨e, rfl, hf⟩

theorem generate_of_generated {g : Generated GeneratedFile}
    (h : generated workDir d c = .ok (g, [])) : generate workDir d c = .ok g := by
  unfold generated at h
  split at h
  · next hg =>
    cases h
    exact hg
  · cases h
  · cases h

/-- where everything that is generated has an encoding, only the manifest can break a run off -/
theorem breaksOff_iff {g : Generated GeneratedFile} (hp : passes o d c = true)
    (hno : ¬ OverlongRule d c) (hok : generate s.workDir d c = .ok g)
    (hall : ∀ f ∈ g.files, Text.Str.lone? f.content = none) :
    BreaksOff w o s d c fs ↔
      o.dryRun = false ∧ (exported w o s c g.files fs).1.broken.isSome = true := by
  constructor
  · rintro ⟨-, ho | ⟨g', hg', hbreak⟩⟩
    · exact absurd ho hno
    · obtain rfl := Except.ok.inj (hok.symm.trans hg')
      rcases hbreak with ⟨f, hf, hl⟩ | hbroken
      · rw [hall f hf] at hl
        cases hl
      · exact hbroken
  · exact fun h => ⟨hp, Or.inr ⟨g, hok, Or.inr h⟩⟩

/-- what follows generation: a dry run ends there, another one goes on to the last stage -/
theorem ends_afterGeneration (w : Manner) (o : Options) (s : Setting) (c : Config)
    (fs : FileSystem) (hr : ErrorFree r) :
    Ends (o.dryRun = false ∧ (exported w o s c r.files fs).1.broken.isSome = true) o
      (if o.dryRun || (exported w o s c r.files fs).1.success then none else some .write) fs
      (if !r.generationErrors.isEmpty || o.dryRun then .ok (r, fs)
        else writeStage w o s.output c r fs) := by
  rw [hr.generation]
  cases hdry : o.dryRun with
  | true => exact ⟨(fun h => nomatch h.1), .of_exitCode hr.exitCode fun _ => rfl⟩
  | false => exact (ends_writeStage hr hdry).congr (and_iff_right rfl).symm

theorem ends_runStages (hr : ErrorFree r) :
    Ends (BreaksOff w o s d c fs) o (failing? w o s d c fs) fs (runStages w o s d c r fs) := by
  have hr₀ : ErrorFree { r with provider := d.providerText, totalModels := d.models.length } :=
    ⟨hr.input, hr.validation, hr.generation, hr.writing⟩
  unfold runStages failing?
  dsimp only
  generalize { r with provider := d.providerText, totalModels := d.models.length } = r₀ at hr₀
  -- stage by stage: the next one starts from a report without errors
  have herrors := validationErrors_validateStage (o := o) (d := d) (c := c) hr₀.validation
  rw [validateStage_proceeds]
  cases hp : passes o d c with
  | false =>
    rw [hp] at herrors
    have hcode : (validateStage o d c r₀).1.exitCode = 1 :=
      exitCode_of_validation hr₀.input fun he => nomatch herrors.1 he
    exact ⟨fun h => Bool.false_ne_true (hp.symm.trans h.1), .of_exitCode hcode fun _ => rfl⟩
  | true =>
    have hr₁ : ErrorFree (validateStage o d c r₀).1 :=
      ⟨hr₀.input, herrors.2 hp, hr₀.generation, hr₀.writing⟩
    have hg := generated_of_valid s.workDir (isValid_of_passes hp)
    generalize (validateStage o d c r₀).1 = r₁ at hr₁
    cases hgen : generated s.workDir d c with
    | error e =>
      rw [hgen] at hg
      rw [generateStage_error hgen]
      exact ⟨hp, Or.inl hg⟩
    | ok x =>
      obtain ⟨g, errors⟩ := x
      rw [hgen] at hg
      obtain ⟨rfl, hno⟩ : errors = [] ∧ ¬ OverlongRule d c := hg
      have hok := generate_of_generated hgen
      rcases generateStage_cases hgen hr₁ with ⟨r', hgs, hfiles, hr', hall⟩ | ⟨e, hgs, hf⟩
      · have hends := ends_afterGeneration w o s c fs hr'
        rw [hfiles] at hends
        rw [hgs]
        exact hends.congr (breaksOff_iff hp hno hok hall).symm
      · rw [hgs]
        exact ⟨hp, Or.inr ⟨g, hok, Or.inl hf⟩⟩

/-! ## runs -/

/-- a run whose output can have a path goes on with a report without errors -/
theorem ends_opened {p : Prop} {source : String}
    {next : Report → Except Abort (Report × FileSystem)}
    (h : ∀ r, ErrorFree r → Ends p o fault fs (next r)) :
    Ends (hasBadName s.output = true ∨ p) o fault fs (opened o s source >>= next) := by
  unfold opened
  by_cases hn : hasBadName s.output = true
  · rw [if_pos hn]
    exact Or.inl hn
  · rw [if_neg hn]
    have hp : p ↔ hasBadName s.output = true ∨ p := by
      rw [or_iff_right hn]
    exact (h _ ⟨rfl, rfl, rfl, rfl⟩).congr hp

/-- a run on a schema file breaks off -/
def BreaksOffInFile (w : Config → Manner) (o : Options) (s : Setting) (path : Text.Parts)
    (overrides : Value.Entries) (provider : Option Value) (fs : FileSystem) : Prop :=
  (∃ f, load fs path = .error (.unreachable f)) ∨ (∃ e, load fs path = .error (.uncaught e)) ∨
    ∃ d c, inputOf? path overrides provider fs = some (d, c) ∧ BreaksOff (w c) o s d c fs

theorem gated_inputFailure (stage : Stage) (message : String)
    (hf : fault = some .load ∨ fault = some .parse) :
    Gated o fault fs (inputFailure stage message r) fs := by
  have hcode : (inputFailure stage message r).exitCode = 4 := by
    refine exitCode_of_input ?_
    show r.inputErrors ++ [message] ≠ []
    exact List.append_ne_nil_of_right_ne_nil _ (List.cons_ne_nil _ _)
  refine .of_exitCode ?_ fun _ => rfl
  rw [hcode]
  rcases hf with rfl | rfl <;> rfl

theorem ends_runFile (w : Config → Manner) (path : Text.Parts) (overrides : Value.Entries)
    (provider : Option Value) :
    Ends (hasBadName s.output = true ∨ BreaksOffInFile w o s path overrides provider fs) o
      (failingInFile? w o s path overrides provider fs) fs
      (runFile w o s path overrides provider fs) := by
  unfold runFile failingInFile? BreaksOffInFile inputOf?
  refine ends_opened fun r hr => ?_
  cases hl : load fs path with
  | error e =>
    cases e with
    | unreachable f => exact Or.inl ⟨f, rfl⟩
    | uncaught e => exact Or.inr (Or.inl ⟨e, rfl⟩)
    | _ =>
      refine ⟨?_, gated_inputFailure .load _ (Or.inl rfl)⟩
      rintro (⟨f, hf⟩ | ⟨e, he⟩ | ⟨d, c, hi, _⟩)
      · cases hf
      · cases he
      · cases hi
  | ok raw =>
    dsimp only
    cases hi : readInput (withSource path (applyOverrides raw overrides provider).entries) with
    | error e =>
      refine ⟨?_, gated_inputFailure .parse _ (Or.inr rfl)⟩
      rintro (⟨f, hf⟩ | ⟨e, he⟩ | ⟨d, c, hi, _⟩)
      · cases hf
      · cases he
      · cases hi
    | ok i =>
      obtain ⟨d, c⟩ := i
      have hbreak : BreaksOff (w c) o s d c fs ↔
          (∃ f, (.ok raw : Except LoadError Loaded) = .error (.unreachable f)) ∨
          (∃ e, (.ok raw : Except LoadError Loaded) = .error (.uncaught e)) ∨
          ∃ d' c', some (d, c) = some (d', c') ∧ BreaksOff (w c') o s d' c' fs := by
        refine ⟨fun h => Or.inr (Or.inr ⟨d, c, rfl, h⟩), ?_⟩
        rintro (⟨f, hf⟩ | ⟨e, he⟩ | ⟨d', c', hi, h⟩)
        · cases hf
        · cases he
        · obtain ⟨rfl, rfl⟩ := Prod.mk.inj (Option.some.inj hi)
          exact h
      exact Ends.congr (ends_runStages ⟨hr.input, hr.validation, hr.generation, hr.writing⟩) hbreak

/-- **Nothing is written before every stage has passed.**  However the files are written, a run on a
data model or on a schema file gives a report unless its output or its schema file can have no path,
the schema file holds a scalar that is not what its tag says, or a rule or a text without an encoding
breaks the run off; the report has the exit code of the stage that fails first, the files are as
before when that is not the last one or on a dry run, and the report tells success exactly when it
has no error. -/
theorem run_gated (w : Config → Manner) (o : Options) (s : Setting) (d : Datamodel) (c : Config)
    (path : Text.Parts) (overrides : Value.Entries) (provider : Option Value) (fs : FileSystem) :
    ((∃ r fs', run (w c) o s d c fs = .ok (r, fs')) ↔
        ¬ (hasBadName s.output = true ∨ BreaksOff (w c) o s d c fs)) ∧
      (∀ r fs', run (w c) o s d c fs = .ok (r, fs') →
        Gated o (failing? (w c) o s d c fs) fs r fs') ∧
      ((∃ r fs', runFile w o s path overrides provider fs = .ok (r, fs')) ↔
        ¬ (hasBadName s.output = true ∨ BreaksOffInFile w o s path overrides provider fs)) ∧
      (∀ r fs', runFile w o s path overrides provider fs = .ok (r, fs') →
        Gated o (failingInFile? w o s path overrides provider fs) fs r fs') := by
  have hrun : Ends (hasBadName s.output = true ∨ BreaksOff (w c) o s d c fs) o
      (failing? (w c) o s d c fs) fs (run (w c) o s d c fs) := by
    unfold run
    exact ends_opened fun _ hr => ends_runStages hr
  have hfile : Ends (hasBadName s.output = true ∨ BreaksOffInFile w o s path overrides provider fs)
      o (failingInFile? w o s path overrides provider fs) fs
      (runFile w o s path overrides provider fs) := ends_runFile w path overrides provider
  exact ⟨hrun.ok_iff, hrun.gated, hfile.ok_iff, hfile.gated⟩

theorem generated_of_longInteger {n : Nat} (hv : (Validation.validate d c).isValid = true)
    (hl : longInteger? d c = some n) : generated workDir d c = .error (.longInteger n) := by
  have hg := (generate_of_valid hv : generate workDir d c = _)
  rw [hl] at hg
  unfold generated
  rw [hg]

theorem runStages_of_generated_error {e : Abort} (hp : passes o d c = true)
    (hgen : generated s.workDir d c = .error e) (r : Report) :
    runStages w o s d c r fs = .error e := by
  unfold runStages
  dsimp only
  rw [validateStage_proceeds, hp, generateStage_error hgen]
  rfl

theorem opened_of_output (o : Options) (hn : hasBadName s.output = false) (source : String) :
    opened o s source =
      .ok { dryRun := o.dryRun, sourceFile := source, output := s.output } := by
  unfold opened
  rw [hn]
  rfl

theorem run_of_generated_error {e : Abort} (hn : hasBadName s.output = false)
    (hp : passes o d c = true) (hgen : generated s.workDir d c = .error e) :
    run w o s d c fs = .error e := by
  unfold run
  rw [opened_of_output o hn]
  exact runStages_of_generated_error hp hgen _

section
variable {w : Config → Manner} {path : Text.Parts} {overrides : Value.Entries}
  {provider : Option Value} {raw : Loaded} (hn : hasBadName s.output = false)
  (hl : load fs path = .ok raw)
  (hi : readInput (withSource path (applyOverrides raw overrides provider).entries) = .ok (d, c))
include hn hl hi

/-- a run on a schema file that can be read goes on as one on its data model -/
theorem runFile_of_input : runFile w o s path overrides provider fs =
    let r : Report := { dryRun := o.dryRun, sourceFile := Text.Path.text path, output := s.output }
    runStages (w c) o s d c ((r.addStep .load true ("from " ++ Text.Path.fileName path)).addStep
      .parse true (Text.natText d.models.length ++ " models parsed")) fs := by
  unfold runFile
  rw [opened_of_output o hn, hl]
  dsimp only [bind, Except.bind]
  rw [hi]

theorem runFile_of_generated_error {e : Abort} (hp : passes o d c = true)
    (hgen : generated s.workDir d c = .error e) :
    runFile w o s path overrides provider fs = .error e := by
  rw [runFile_of_input hn hl hi]
  exact runStages_of_generated_error hp hgen _

end

theorem passes_overlong : passes {} overlong withCrud = true :=
  Bool.and_eq_true_iff.2 ⟨isValid_overlong, rfl⟩

/-- Under accepted settings a run on a data model that passes has no report: the generation stage
fails without one. -/
theorem overlong_without_report :
    withCrud.objection? = none ∧ passes {} overlong withCrud = true ∧
      run (.of withCrud []) {} ⟨[], ["out"]⟩ overlong withCrud {} = .error (.longInteger 4301) :=
  ⟨by decide +kernel, passes_overlong, run_of_generated_error (by decide +kernel) passes_overlong
    (generated_of_longInteger isValid_overlong longInteger?_overlong)⟩

end ZodSchema.Run
