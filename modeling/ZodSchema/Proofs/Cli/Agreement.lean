import ZodSchema.Cli.Basic
import ZodSchema.Proofs.Cli.Args
import ZodSchema.Proofs.Generation.Load
import ZodSchema.Proofs.Generation.Overrides
import ZodSchema.Proofs.Run.Summary
import ZodSchema.Proofs.Run.Totals
import ZodSchema.Proofs.Text.Path

/-!
# Checking a schema file and running on it without writing

A command that only checks its schema file and one that runs on it without writing end with the same
exit code, unless one of them breaks off and the other does not.

* `ends?`, `Coded`       the exit code of a command, unless it breaks off
* `checkedCode`          the exit code of a check
* `CheckBreaksOff`, `DryRunBreaksOff`   what breaks the two commands off
* `coded_check`, `coded_generate`   they have the same code otherwise
* `validateOnly_agrees_iff`   the two commands
* `itemFile`, `codes_itemFile`   a file with a long rule, or another one
-/

namespace ZodSchema.Cli

open Text Files Generation
open Run (Times Printable inputOf? failingInFile? BreaksOffInFile withSource)
open Export (Manner)

variable {a : Args} {path workDir : Parts} {fs : FileSystem} {d : Datamodel} {c : Config}
  {dir : String} {t : Times} {turns : List Turn}

/-! ## ends -/

/-- the exit code of a command, unless it breaks off -/
def ends? (t : Times) : Except Abort (Result × FileSystem) → Option Nat
  | .error _ => none
  | .ok (r, _) => (r.ending t).toOption

/-- ends with the code `n`, or, where `p` holds, breaks off -/
inductive Coded (p : Prop) (n : Nat) : Option Nat → Prop where
  | broken (h : p) : Coded p n none
  | code (h : ¬ p) : Coded p n (some n)

namespace Coded

variable {p q : Prop} {n : Nat} {x y : Option Nat}

theorem congr (h : Coded p n x) (hpq : p ↔ q) : Coded q n x := by
  cases h with
  | broken h => exact .broken (hpq.1 h)
  | code h => exact .code fun hq => h (hpq.2 hq)

/-- two commands with one code end alike if both break off or none does -/
theorem eq_iff (hx : Coded p n x) (hy : Coded q n y) : x = y ↔ (p ↔ q) := by
  cases hx with
  | broken hp =>
    cases hy with
    | broken hq => exact iff_of_true rfl (iff_of_true hp hq)
    | code hq => exact iff_of_false (fun h => nomatch h) fun h => hq (h.1 hp)
  | code hp =>
    cases hy with
    | broken hq => exact iff_of_false (fun h => nomatch h) fun h => hp (h.2 hq)
    | code hq => exact iff_of_true rfl (iff_of_false hp hq)

theorem eq_some (h : Coded p n x) (hp : ¬ p) : x = some n := by
  cases h with
  | broken h => exact absurd h hp
  | code _ => rfl

end Coded

/-- a result has its exit code unless a line of it cannot be printed -/
theorem coded_result (t : Times) (r : Result) (fs : FileSystem) :
    Coded (¬ Printable (r.stdout t)) r.exitCode (ends? t (.ok (r, fs))) := by
  unfold ends? Result.ending
  dsimp only
  cases h : (r.stdout t).findSome? Str.lone? with
  | none =>
    exact .code (not_not_intro (List.findSome?_eq_none_iff.1 h))
  | some l =>
    obtain ⟨line, hm, hl⟩ := List.exists_of_findSome?_eq_some h
    refine .broken fun hp => ?_
    rw [hp line hm] at hl
    cases hl

theorem ends?_of_stdout_nil {r : Result} (h : ∀ t, r.stdout t = []) (t : Times)
    (fs : FileSystem) : ends? t (.ok (r, fs)) = some r.exitCode := by
  unfold ends? Result.ending
  dsimp only
  rw [h]
  rfl

/-- what a run on a command line is to do, when it writes nothing -/
def dryOptions (a : Args) : Run.Options := { failOnWarnings := a.failOnWarnings, dryRun := true }

/-- the data model and the settings of a command line -/
def inputOn (a : Args) (path : Parts) (fs : FileSystem) : Option (Datamodel × Config) :=
  inputOf? path a.overrides a.providerValue fs

/-! ## the check -/

/-- the exit code of a check -/
def checkedCode (o : Run.Options) : Option (Datamodel × Config) → Nat
  | none => exitInput
  | some (d, c) => if Run.passes o d c then 0 else exitValidation

/-- a check breaks off: the file holds a scalar that is not what its tag says, or what the check
finds cannot be printed -/
def CheckBreaksOff (a : Args) (path : Parts) (t : Times) (fs : FileSystem) : Prop :=
  (∃ f, load fs path = .error (.unreachable f)) ∨ (∃ e, load fs path = .error (.uncaught e)) ∨
    ∃ d c, inputOn a path fs = some (d, c) ∧
      ¬ Printable (validationLines path d (Validation.validate d c) (a.verbose ≥ 1) t)

theorem exitCode_found (a : Args) (d : Datamodel) (c : Config) :
    (if !(Validation.validate d c).isValid ||
        (a.failOnWarnings && !(Validation.validate d c).warnings.isEmpty) then exitValidation
      else 0) = checkedCode (dryOptions a) (some (d, c)) := by
  have hp : (!(Validation.validate d c).isValid ||
      (a.failOnWarnings && !(Validation.validate d c).warnings.isEmpty)) =
        !Run.passes (dryOptions a) d c := by
    unfold Run.passes dryOptions
    rw [Bool.not_and, Bool.not_not]
  unfold checkedCode
  dsimp only
  rw [hp]
  cases Run.passes (dryOptions a) d c <;> rfl

theorem coded_validateOnly (a : Args) (path : Parts) (t : Times) (fs : FileSystem) :
    Coded (CheckBreaksOff a path t fs) (checkedCode (dryOptions a) (inputOn a path fs))
      (ends? t ((validateOnly a path fs).map (·, fs))) := by
  unfold validateOnly CheckBreaksOff inputOn inputOf?
  cases h : load fs path with
  | error e =>
    cases e with
    | unreachable f => exact .broken (Or.inl ⟨f, rfl⟩)
    | uncaught e => exact .broken (Or.inr (Or.inl ⟨e, rfl⟩))
    | _ => exact .code (by simp)
  | ok raw =>
    have hsame := readInput_withSource path
      (applyOverrides raw a.overrides a.providerValue).entries
    dsimp only
    generalize readInput (withSource path (applyOverrides raw a.overrides a.providerValue).entries) =
      y at hsame
    cases hx : readInput (applyOverrides raw a.overrides a.providerValue).entries with
    | error e =>
      rw [hx] at hsame
      cases y with
      | error e' => exact .code (by simp [Except.toOption])
      | ok y => exact hsame.elim
    | ok x =>
      obtain ⟨d, c⟩ := x
      rw [hx] at hsame
      cases y with
      | error e' => exact hsame.elim
      | ok y =>
        -- a check does not tell where the data model comes from
        obtain ⟨d', c'⟩ := y
        obtain ⟨⟨source, rfl⟩, rfl⟩ := hsame
        dsimp only
        rw [exitCode_found]
        have hresult := coded_result t
          ⟨checkedCode (dryOptions a) (some (d, c')),
            validationLines path d (Validation.validate d c') (a.verbose ≥ 1), []⟩ fs
        refine Coded.congr hresult ⟨fun hu => Or.inr (Or.inr ⟨_, _, rfl, hu⟩), ?_⟩
        rintro (⟨f, hf⟩ | ⟨e, he⟩ | ⟨d', c', hi, hu⟩)
        · cases hf
        · cases he
        · obtain ⟨rfl, rfl⟩ := Prod.mk.inj (Option.some.inj hi)
          exact hu

/-! ## the run -/

/-- a run that writes nothing breaks off: a scalar, a rule or a text does so, or what it reports
cannot be printed -/
def DryRunBreaksOff (a : Args) (s : Run.Setting) (path : Parts) (t : Times) (fs : FileSystem) :
    Prop :=
  let w : Config → Manner := fun _ => .oneByOne
  BreaksOffInFile w (dryOptions a) s path a.overrides a.providerValue fs ∨
    ∃ r, Run.runFile w (dryOptions a) s path a.overrides a.providerValue fs = .ok (r, fs) ∧
      ¬ Printable (r.summary t :: fileLines a r)

theorem code_failingInFile? {w : Config → Manner} {s : Run.Setting}
    (h : ¬ BreaksOffInFile w (dryOptions a) s path a.overrides a.providerValue fs) :
    ((failingInFile? w (dryOptions a) s path a.overrides a.providerValue fs).map
        Run.Stage.code).getD 0 = checkedCode (dryOptions a) (inputOn a path fs) := by
  unfold BreaksOffInFile at h
  unfold failingInFile?
  unfold inputOn
  unfold inputOf? at h ⊢
  cases hl : load fs path with
  | error e => rfl
  | ok raw =>
    simp only [hl] at h
    dsimp only
    cases hi : readInput (withSource path
      (applyOverrides raw a.overrides a.providerValue).entries) with
    | error e => rfl
    | ok x =>
      obtain ⟨d, c⟩ := x
      rw [hi] at h
      have hb : ¬ Run.BreaksOff (w c) (dryOptions a) s d c fs :=
        fun hb => h (Or.inr (Or.inr ⟨d, c, rfl, hb⟩))
      show ((Run.failing? (w c) (dryOptions a) s d c fs).map Run.Stage.code).getD 0 =
        if Run.passes (dryOptions a) d c then 0 else exitValidation
      unfold Run.failing?
      by_cases hp : Run.passes (dryOptions a) d c = true
      · have hg := Run.generated_of_valid s.workDir (Run.isValid_of_passes hp)
        rw [if_pos hp, if_pos hp]
        cases hgen : Run.generated s.workDir d c with
        | error e =>
          rw [hgen] at hg
          exact absurd ⟨hp, Or.inl hg⟩ hb
        | ok g =>
          obtain ⟨g, errors⟩ := g
          rw [hgen] at hg
          obtain ⟨rfl, -⟩ := hg
          rfl
      · rw [if_neg hp, if_neg hp]
        rfl

/-- a run that writes nothing ends with the exit code of a check, or breaks off -/
theorem coded_generate (hdry : a.dryRun = true) {s : Run.Setting} (hn : hasBadName s.output = false)
    (turns : List Turn) (t : Times) : Coded (DryRunBreaksOff a s path t fs)
      (checkedCode (dryOptions a) (inputOn a path fs))
      (ends? t (generate turns a s path fs)) := by
  let w : Config → Manner := fun _ => .oneByOne
  have hend : Run.Ends _ _ _ fs
      (Run.runFile w (dryOptions a) s path a.overrides a.providerValue fs) :=
    Run.ends_runFile w path a.overrides a.providerValue
  have hp : (hasBadName s.output = true ∨
      BreaksOffInFile w (dryOptions a) s path a.overrides a.providerValue fs) ↔
        BreaksOffInFile w (dryOptions a) s path a.overrides a.providerValue fs := by
    rw [hn, or_iff_right Bool.false_ne_true]
  have ho : ({ failOnWarnings := a.failOnWarnings, dryRun := a.dryRun } : Run.Options) =
      dryOptions a := by
    rw [hdry]
    rfl
  unfold generate DryRunBreaksOff
  dsimp only
  rw [ho, Run.runFile_of_dryRun rfl (Manner.of · turns) w]
  cases hr : Run.runFile w (dryOptions a) s path a.overrides a.providerValue fs with
  | error e =>
    rw [hr] at hend
    exact .broken (Or.inl (hp.1 hend))
  | ok x =>
    obtain ⟨r, fs'⟩ := x
    rw [hr] at hend
    obtain ⟨hnot, hgated⟩ := hend
    have hb := fun h => hnot (hp.2 h)
    obtain rfl : fs' = fs := hgated.untouched (Or.inl rfl)
    have hcode : r.exitCode = checkedCode (dryOptions a) (inputOn a path fs') :=
      hgated.exitCode.trans (code_failingInFile? hb)
    have hresult := coded_result t
      ⟨r.exitCode, fun t => r.summary t :: fileLines a r, []⟩ fs'
    rw [← hcode]
    refine hresult.congr ⟨fun hu => Or.inr ⟨r, rfl, hu⟩, ?_⟩
    rintro (h | ⟨r', hr', hu⟩)
    · exact absurd h hb
    · obtain ⟨rfl, -⟩ := Prod.mk.inj (Except.ok.inj hr')
      exact hu

/-! ## commands -/

theorem operandPath_of_name {arg : String} (h : hasBadName (Path.absolute workDir arg) = false) :
    operandPath workDir (.one arg) = .ok (pathOf workDir arg) := by
  simp only [operandPath, h]
  rfl

theorem hasBadName_pathOf (h : hasBadName (Path.absolute workDir dir) = false) :
    hasBadName (pathOf workDir dir) = false := by
  unfold hasBadName at h ⊢
  rw [List.any_eq_false] at h ⊢
  intro x hx
  rcases Path.mem_of_mem_resolve hx with hx | hx
  · cases hx
  · exact h x hx

theorem runArgs_of_file (hpath : operandPath workDir (a.schema.getD .empty) = .ok path)
    (hfile : isFile fs path = .ok true) :
    runArgs turns a workDir fs =
      if a.validateOnly then (validateOnly a path fs).map (·, fs)
      else
        match a.output with
        | none => .ok ({ exitCode := exitInput, stderr := [usageLine] }, fs)
        | some out =>
          operandPath workDir out >>= fun out => generate turns a ⟨workDir, out⟩ path fs := by
  unfold runArgs
  rw [hpath]
  show (isFile fs path >>= fun b => _) = _
  rw [hfile]
  show (if a.validateOnly then _ else _) = _
  rfl

theorem runArgs_of_output {o : Operand String} {out : Parts}
    (hpath : operandPath workDir (a.schema.getD .empty) = .ok path)
    (hfile : isFile fs path = .ok true) (hv : a.validateOnly = false) (ho : a.output = some o)
    (hout : operandPath workDir o = .ok out) :
    runArgs turns a workDir fs = generate turns a ⟨workDir, out⟩ path fs := by
  rw [runArgs_of_file hpath hfile, hv, ho]
  show (operandPath workDir o >>= fun out => generate turns a ⟨workDir, out⟩ path fs) = _
  rw [hout]
  rfl

theorem generate_of_error {s : Run.Setting} {e : Run.Abort}
    (h : Run.runFile (Manner.of · turns) { failOnWarnings := a.failOnWarnings, dryRun := a.dryRun } s
      path a.overrides a.providerValue fs = .error e) :
    generate turns a s path fs = .error (.run e) := by
  unfold generate
  dsimp only
  rw [h]

/-- without a schema file, nothing else in the arguments counts -/
theorem ends?_runArgs_congr {a a' : Args} (hs : a'.schema = a.schema)
    (h : ∀ path, operandPath workDir (a.schema.getD .empty) = .ok path →
      isFile fs path ≠ .ok true) (turns turns' : List Turn) (t t' : Times) :
    ends? t' (runArgs turns' a' workDir fs) = ends? t (runArgs turns a workDir fs) := by
  unfold runArgs
  rw [hs]
  cases hpath : operandPath workDir (a.schema.getD .empty) with
  | error e => rfl
  | ok path =>
    show ends? t' (isFile fs path >>= fun b => _) = ends? t (isFile fs path >>= fun b => _)
    cases hfile : isFile fs path with
    | error e => rfl
    | ok b =>
      cases b with
      | true => exact absurd hfile (h path hpath)
      | false =>
        have hmissing := ends?_of_stdout_nil
          (r := inputFailure (LoadError.message (.missing path))) fun _ => rfl
        exact (hmissing t' fs).trans (hmissing t fs).symm

theorem coded_check (hv : a.validateOnly = true)
    (hpath : operandPath workDir (a.schema.getD .empty) = .ok path)
    (hfile : isFile fs path = .ok true) (turns : List Turn) (t : Times) :
    Coded (CheckBreaksOff a path t fs) (checkedCode (dryOptions a) (inputOn a path fs))
      (ends? t (runArgs turns a workDir fs)) := by
  rw [runArgs_of_file hpath hfile, if_pos hv]
  exact coded_validateOnly a path t fs

/-- how long it took makes no difference -/
theorem printable_validationLines_congr (path : Parts) (d : Datamodel)
    (found : Validation.Findings) (withInfo : Bool) (t t' : Times) :
    Printable (validationLines path d found withInfo t) ↔
      Printable (validationLines path d found withInfo t') := by
  have htime : ∀ t : Times, Str.lone? ("  Time:     " ++ Run.secondsText t.total) = none :=
    fun t => Str.lone?_append (by decide) (Run.lone?_secondsText _)
  simp only [Printable, validationLines, List.cons_append, List.forall_mem_cons, htime]

/-- what a check prints has an encoding when the name of the file, the provider and the report on
what is found have one -/
theorem printable_validationLines {found : Validation.Findings} {withInfo : Bool}
    (hf : Str.lone? (Path.fileName path) = none) (hp : Str.lone? d.providerText = none)
    (hr : found ≠ [] → Str.lone? (found.report withInfo) = none) (t : Times) :
    Printable (validationLines path d found withInfo t) := by
  have hrule : Str.lone? (Run.rule '=' 50) = none := Run.lone?_replicate (by decide) 50
  have hcount : ∀ {label : String} n, Str.lone? label = none →
      Str.lone? (label ++ natText n) = none := fun n h => Str.lone?_append h (Json.lone?_natText n)
  have hvalid : Str.lone? (if found.isValid then "Yes" else "No") = none := by
    split <;> decide
  have hhead : Printable ["", Run.rule '=' 50, "  Datamodel Validation Report", Run.rule '=' 50,
      "  File:     " ++ Path.fileName path, "  Provider: " ++ d.providerText,
      "  Models:   " ++ natText d.models.length, "  Enums:    " ++ natText d.enums.length,
      "  Time:     " ++ Run.secondsText t.total,
      "  Valid:    " ++ (if found.isValid then "Yes" else "No")] := by
    unfold Printable
    simp only [List.forall_mem_cons]
    exact ⟨by decide, hrule, by decide, hrule, Str.lone?_append (by decide) hf,
      Str.lone?_append (by decide) hp, hcount _ (by decide), hcount _ (by decide),
      Str.lone?_append (by decide) (Run.lone?_secondsText _), Str.lone?_append (by decide) hvalid,
      List.forall_mem_nil _⟩
  have hreport : Printable (if found.isEmpty then [] else ["", found.report withInfo]) := by
    split
    · exact List.forall_mem_nil _
    · next hne =>
      have hl := hr fun he => hne (List.isEmpty_iff.2 he)
      exact List.forall_mem_cons.2 ⟨by decide, List.forall_mem_singleton.2 hl⟩
  have hpassed : Printable (if found.isValid && found.warnings.isEmpty then
      ["", "  ✅ All validations passed!"] else []) := by
    split <;> decide
  have hlast : Printable [Run.rule '=' 50, ""] :=
    List.forall_mem_cons.2 ⟨hrule, List.forall_mem_singleton.2 (by decide)⟩
  unfold validationLines
  simp only [Printable, List.forall_mem_append]
  exact ⟨⟨⟨hhead, hreport⟩, hpassed⟩, hlast⟩

theorem checkBreaksOff_congr (t t' : Times) :
    CheckBreaksOff a path t fs ↔ CheckBreaksOff a path t' fs := by
  unfold CheckBreaksOff
  simp only [printable_validationLines_congr _ _ _ _ t t']

theorem runArgs_agree_iff (a : Args) (fs : FileSystem) (turns turns' : List Turn) (t t' : Times)
    (hn : hasBadName (Path.absolute workDir dir) = false) :
    ends? t (runArgs turns { a with validateOnly := true } workDir fs) =
        ends? t' (runArgs turns' { a with dryRun := true, output := some (.one dir) } workDir fs) ↔
      (a.validateOnly = false → ∀ path, operandPath workDir (a.schema.getD .empty) = .ok path →
        isFile fs path = .ok true → (CheckBreaksOff a path t fs ↔
          DryRunBreaksOff { a with dryRun := true, output := some (.one dir) }
            ⟨workDir, pathOf workDir dir⟩ path t' fs)) := by
  set dry : Args := { a with dryRun := true, output := some (.one dir) } with hdry
  by_cases h : ∃ path, operandPath workDir (a.schema.getD .empty) = .ok path ∧
      isFile fs path = .ok true
  · obtain ⟨path, hpath, hfile⟩ := h
    have hchecked : Coded (CheckBreaksOff a path t fs)
        (checkedCode (dryOptions dry) (inputOn dry path fs))
        (ends? t (runArgs turns { a with validateOnly := true } workDir fs)) :=
      coded_check (a := { a with validateOnly := true }) rfl hpath hfile turns t
    have hone : ∀ {p : Parts → Prop}, (∀ path, operandPath workDir (a.schema.getD .empty) = .ok path →
        isFile fs path = .ok true → p path) ↔ p path := by
      intro p
      refine ⟨fun h => h path hpath hfile, fun h path' hpath' _ => ?_⟩
      obtain rfl : path' = path := Except.ok.inj (hpath'.symm.trans hpath)
      exact h
    rw [hone]
    cases hv : a.validateOnly with
    | true =>
      have hdryCheck : Coded (CheckBreaksOff a path t' fs)
          (checkedCode (dryOptions dry) (inputOn dry path fs))
          (ends? t' (runArgs turns' dry workDir fs)) :=
        coded_check (a := dry) hv hpath hfile turns' t'
      exact iff_of_true ((hchecked.eq_iff hdryCheck).2 (checkBreaksOff_congr t t'))
        fun h => nomatch h
    | false =>
      have hout : operandPath workDir (.one dir) = .ok (pathOf workDir dir) :=
        operandPath_of_name hn
      rw [runArgs_of_output (a := dry) hpath hfile hv rfl hout]
      refine (hchecked.eq_iff (coded_generate rfl (hasBadName_pathOf hn) turns' t')).trans ?_
      exact ⟨fun h _ => h, fun h => h rfl⟩
  · have hnone : ∀ path, operandPath workDir (a.schema.getD .empty) = .ok path →
        isFile fs path ≠ .ok true := fun path hpath hfile => h ⟨path, hpath, hfile⟩
    refine iff_of_true (ends?_runArgs_congr ?_ ?_ turns' turns t' t) ?_
    · rfl
    · exact hnone
    · exact fun _ path hpath hfile => absurd hfile (hnone path hpath)

/-! ## command lines -/

/-- what is printed when reading the arguments ends early depends on nothing else -/
theorem ends?_run_of_stop {argv argv' : List String} {s s' : Stop} (h : Args.parse argv = .error s)
    (h' : Args.parse argv' = .error s') (hs : s.Alike s') (turns turns' : List Turn) (t t' : Times)
    (workDir : Parts) (fs : FileSystem) :
    ends? t (run turns argv workDir fs) = ends? t' (run turns' argv' workDir fs) := by
  have hlines : ∀ n lines, ends? t (.ok (⟨n, fun _ => lines, []⟩, fs)) =
      ends? t' (.ok (⟨n, fun _ => lines, []⟩, fs)) := by
    intro n lines
    simp only [ends?, Result.ending]
  unfold run
  rw [h, h']
  cases hs with
  | same s =>
    cases s with
    | help => exact hlines 0 helpLines
    | version => exact hlines 0 [versionLine]
    | error e => rfl
  | refused e e' => rfl

/-- **Two ways to check.**  A command line that only checks and one that runs without writing end
with the same exit code exactly when both of them break off or none does, however long they take.
They break off where the schema file holds a scalar that is not what its tag says, or what is told
of it cannot be printed; the run does so as well where a rule or a text in what it generates breaks
it off. -/
theorem validateOnly_agrees_iff (argv : List String) (fs : FileSystem) (turns turns' : List Turn)
    (t t' : Times) (hd : Str.startsWith dir "-" = false)
    (hn : hasBadName (Path.absolute workDir dir) = false) :
    ends? t (run turns (argv ++ ["--validate-only"]) workDir fs) =
        ends? t' (run turns' (argv ++ ["--dry-run", "--output", dir]) workDir fs) ↔
      ∀ a path, Args.parse (argv ++ ["--dry-run", "--output", dir]) = .ok a →
        a.validateOnly = false → operandPath workDir (a.schema.getD .empty) = .ok path →
        isFile fs path = .ok true →
        (CheckBreaksOff a path t fs ↔
          DryRunBreaksOff a ⟨workDir, pathOf workDir dir⟩ path t' fs) := by
  have hrun : ∀ {turns argv a}, Args.parse argv = .ok a →
      run turns argv workDir fs = runArgs turns a workDir fs := by
    intro turns argv a h
    unfold run
    rw [h]
  rcases Args.parse_append_two Args.sets_validateOnly (Args.sets_dryRun hd) argv with
    ⟨s₁, s₂, h₁, h₂, hs⟩ | ⟨a, h₁, h₂⟩
  · rw [h₂]
    exact iff_of_true (ends?_run_of_stop h₁ h₂ hs turns turns' t t' workDir fs)
      fun _ _ h => nomatch h
  · rw [hrun h₁, hrun h₂, runArgs_agree_iff a fs turns turns' t t' hn, h₂]
    constructor
    · intro h a' path ha hv
      obtain rfl := Except.ok.inj ha
      exact h hv path
    · intro h hv path
      exact h _ path rfl hv

/-! ## a file with a long rule -/

/-- a schema file with the model `Item` and a documentation -/
def itemFile (doc : String) : FileSystem := ⟨[(["m.json"], .file (asciiBytes (Json.itemText doc)))]⟩

def itemModels (doc : String) : Datamodel :=
  { models := [
      { name := "Item"
        documentation := some doc
        fields := [{ name := "id", type := "Int", isId := true }] }] }

/-- the arguments that name it, with CRUD schemas or without -/
def itemArgs (crud : Bool) : Args := { schema := some (.one "m.json"), crud := crud }

/-- the same, to check it -/
def checkArgs (crud : Bool) : Args := { itemArgs crud with validateOnly := true }

/-- the same, to run on it without writing -/
def dryArgs (crud : Bool) : Args :=
  { itemArgs crud with dryRun := true, output := some (.one "out") }

def itemLine (crud : Bool) : List String :=
  ["--schema", "m.json"] ++ if crud then ["--crud"] else []

theorem words_itemLine (crud : Bool) :
    words (itemLine crud) = .ok (.switch .schema .word none :: .value "m.json" ::
      if crud then [.switch .crud .word none] else []) := by
  have hw : word "m.json" = .ok (.value "m.json") := rfl
  have hv (args : List String) : words ("m.json" :: args) =
      (words args).map (.value "m.json" :: ·) := by
    rw [words, if_neg (by decide), hw]
    cases words args <;> rfl
  have hc : words ["--crud"] = .ok [.switch .crud .word none] := by
    show words [Switch.crud.long] = _
    rw [Args.words_long]
    rfl
  cases crud with
  | false =>
    show words [Switch.schema.long, "m.json"] = _
    rw [Args.words_long, hv]
    rfl
  | true =>
    show words [Switch.schema.long, "m.json", "--crud"] = _
    rw [Args.words_long, hv, hc]
    rfl

theorem parse_itemLine {more : List String} {f : Args → Args} (h : Args.Sets more f)
    (crud : Bool) : Args.parse (itemLine crud ++ more) = .ok (f (itemArgs crud)) := by
  have hnot : "--" ∉ itemLine crud := by cases crud <;> decide
  have hread : Args.readWords {} [] (.switch .schema .word none :: .value "m.json" ::
      if crud then [.switch .crud .word none] else []) = .ok (itemArgs crud, []) := by
    rw [Args.readWords_given rfl]
    cases crud with
    | false => rfl
    | true =>
      show Args.readWords (itemArgs false) [] [.switch .crud .word none] = _
      rw [Args.readWords_flag rfl]
      rfl
  rw [h.parse_of_ok (words_itemLine crud), hread]
  show (if "--" ∈ itemLine crud then _ else Args.accept (f (itemArgs crud), [])) = _
  rw [if_neg hnot]
  unfold Args.accept
  rw [h.schema]
  rfl

theorem run_checkLine (turns : List Turn) (crud : Bool) (fs : FileSystem) :
    run turns (itemLine crud ++ ["--validate-only"]) [] fs =
      runArgs turns (checkArgs crud) [] fs := by
  unfold run
  rw [parse_itemLine Args.sets_validateOnly crud]
  rfl

theorem run_dryLine (turns : List Turn) (crud : Bool) (fs : FileSystem) :
    run turns (itemLine crud ++ ["--dry-run", "--output", "out"]) [] fs =
      runArgs turns (dryArgs crud) [] fs := by
  unfold run
  rw [parse_itemLine (Args.sets_dryRun (by decide)) crud]
  rfl

theorem operandPath_item : operandPath [] (.one "m.json") = .ok ["m.json"] :=
  operandPath_of_name (by decide)

theorem isFile_itemFile (doc : String) : isFile (itemFile doc) ["m.json"] = .ok true := rfl

theorem load_itemFile {doc : String} (h : Json.Plain doc) :
    load (itemFile doc) ["m.json"] = .ok ⟨Json.itemDocument doc, []⟩ :=
  load_json (p := ["m.json"]) rfl rfl rfl (fun _ => Json.mem_itemText h) (Json.read_itemText h)

/-- the data model of the file, with its path -/
def itemRead (doc : String) : Datamodel := { itemModels doc with sourceFile := some "/m.json" }

theorem readInput_itemFile (doc : String) (crud : Bool) :
    readInput (withSource ["m.json"]
        (applyOverrides ⟨Json.itemDocument doc, []⟩ (itemArgs crud).overrides none).entries) =
      .ok (itemRead doc, { crudSchemas := crud }) := by
  cases crud with
  | false => rfl
  | true =>
    let raw : Loaded := ⟨Json.itemDocument doc, []⟩
    have halone : raw.unshared (itemArgs true).overrides none = true :=
      List.all_eq_true.2 fun _ _ => rfl
    have hset : (applyOverrides raw (itemArgs true).overrides none).entries =
        withProvider none (withSettings (itemArgs true).overrides raw.entries) :=
      (rewritten_applyOverrides (List.cons_ne_nil _ _) halone).entries
    rw [hset]
    rfl

theorem inputOn_itemFile (crud : Bool) {doc : String} (h : Json.Plain doc)
    (ho : a.overrides = (itemArgs crud).overrides) (hp : a.providerValue = none) :
    inputOn a ["m.json"] (itemFile doc) = some (itemRead doc, { crudSchemas := crud }) := by
  unfold inputOn inputOf?
  rw [load_itemFile h, ho, hp]
  dsimp only
  rw [readInput_itemFile]
  rfl

/-- a check of a file of one model breaks off only where what it finds cannot be printed -/
theorem not_checkBreaksOff {raw : Loaded} {t : Times} (hl : load fs path = .ok raw)
    (hi : inputOn a path fs = some (d, c))
    (hp : Printable (validationLines path d (Validation.validate d c) (a.verbose ≥ 1) t)) :
    ¬ CheckBreaksOff a path t fs := by
  unfold CheckBreaksOff
  rw [hl, hi]
  rintro (⟨f, hf⟩ | ⟨e, he⟩ | ⟨d, c, hi, hu⟩)
  · cases hf
  · cases he
  · obtain ⟨rfl, rfl⟩ := Prod.mk.inj (Option.some.inj hi)
    exact hu hp

/-- A check finds nothing wrong with such a file, and the run breaks off. -/
theorem codes_itemFile {doc : String} {n : Nat} (h : Json.Plain doc)
    (hp : Run.passes { dryRun := true } (itemRead doc) Run.withCrud = true)
    (hlines : Printable (validationLines ["m.json"] (itemRead doc)
      (Validation.validate (itemRead doc) Run.withCrud) false {}))
    (hl : longInteger? (itemRead doc) Run.withCrud = some n) :
    ends? {} (run [] (itemLine true ++ ["--validate-only"]) [] (itemFile doc)) = some 0 ∧
      run [] (itemLine true ++ ["--dry-run", "--output", "out"]) [] (itemFile doc) =
        .error (.run (.longInteger n)) := by
  constructor
  · have hinput : inputOn (checkArgs true) ["m.json"] (itemFile doc) =
        some (itemRead doc, Run.withCrud) := inputOn_itemFile true h rfl rfl
    have hcode : checkedCode (dryOptions (checkArgs true)) (some (itemRead doc, Run.withCrud)) = 0 :=
      if_pos hp
    have hcoded := coded_check (a := checkArgs true) rfl operandPath_item (isFile_itemFile doc)
      [] {}
    rw [hinput, hcode] at hcoded
    rw [run_checkLine]
    exact hcoded.eq_some (not_checkBreaksOff (load_itemFile h) hinput hlines)
  · have hrun : Run.runFile (Manner.of · []) (dryOptions (dryArgs true)) ⟨[], ["out"]⟩ ["m.json"]
        (dryArgs true).overrides none (itemFile doc) = .error (.longInteger n) :=
      Run.runFile_of_generated_error rfl (load_itemFile h) (readInput_itemFile doc true) hp
        (Run.generated_of_longInteger (Run.isValid_of_passes hp) hl)
    have hout : operandPath [] (.one "out") = .ok ["out"] := operandPath_of_name (by decide)
    rw [run_dryLine, runArgs_of_output operandPath_item (isFile_itemFile doc) rfl rfl hout]
    exact generate_of_error hrun

/-- the documentation of the model of `Run.overlong` -/
def overlongRule : String :=
  "@crud.list.jsonFilter(" ++ String.ofList (List.replicate 4301 '1') ++ ")"

theorem plain_overlongRule : Json.Plain overlongRule := by
  have hones : Json.Plain (String.ofList (List.replicate 4301 '1')) := by
    intro c hc
    rw [String.toList_ofList] at hc
    rw [List.eq_of_mem_replicate hc]
    rfl
  exact .append (.append (by decide) hones) (by decide)

/-- A check finds nothing wrong with the file of `Run.overlong`, and no run on it has an exit
code. -/
theorem overlong_passes_check :
    ends? {} (run [] (itemLine true ++ ["--validate-only"]) [] (itemFile overlongRule)) = some 0 ∧
      run [] (itemLine true ++ ["--dry-run", "--output", "out"]) [] (itemFile overlongRule) =
        .error (.run (.longInteger 4301)) :=
  codes_itemFile plain_overlongRule (Bool.and_eq_true_iff.2 ⟨Run.isValid_overlong, rfl⟩)
    (by decide +kernel) Run.longInteger?_overlong

/-! ## a file that both commands accept -/

/-- what a run without writing reports on the file of one model can be printed -/
theorem encoded_itemReport {r : Run.Report} {left : FileSystem}
    (h : Run.runFile (fun _ => .oneByOne) (dryOptions (dryArgs false)) Run.atRoot ["m.json"] [] none
      Run.itemTree = .ok (r, left)) : r.Encoded := by
  have hwarnings : Printable (familyWarnings Run.itemModel {}
      (Brand.declared (Brand.declarations Run.itemModel))) := by decide +kernel
  have hg : ∀ g errors, Run.generated Run.atRoot.workDir Run.itemModel {} = .ok (g, errors) →
      Printable errors ∧ Printable g.warnings := by
    intro g errors hg
    unfold Run.generated at hg
    rw [Run.generate_itemModel] at hg
    obtain ⟨rfl, rfl⟩ := Prod.mk.inj (Except.ok.inj hg)
    exact ⟨List.forall_mem_nil _, hwarnings⟩
  rw [Run.runFile_of_input (by decide) Run.load_itemTree Run.readInput_itemTree] at h
  refine Run.encoded_runStages (.addStep (.addStep ?_ (by decide) _ _) (by decide) _ _) rfl
    (by decide) ?_ hg h
  · exact ⟨by decide, by decide, rfl, List.forall_mem_nil _, List.forall_mem_nil _,
      List.forall_mem_nil _, List.forall_mem_nil _, List.forall_mem_nil _, List.forall_mem_nil _,
      List.forall_mem_nil _⟩
  · rw [Run.validate_itemModel]
    exact List.forall_mem_nil _

/-- The two commands agree on the file of one model. -/
theorem agree_itemTree :
    Str.startsWith "out" "-" = false ∧ hasBadName (Path.absolute [] "out") = false ∧
      ends? {} (run [] (itemLine false ++ ["--validate-only"]) [] Run.itemTree) =
        ends? {} (run [] (itemLine false ++ ["--dry-run", "--output", "out"]) [] Run.itemTree) := by
  have hd : Str.startsWith "out" "-" = false := by decide
  have hn : hasBadName (Path.absolute [] "out") = false := by decide
  refine ⟨hd, hn, (validateOnly_agrees_iff (itemLine false) Run.itemTree [] [] {} {} hd hn).2 ?_⟩
  intro a path ha _ hpath _
  obtain rfl : dryArgs false = a :=
    Except.ok.inj ((parse_itemLine (Args.sets_dryRun hd) false).symm.trans ha)
  obtain rfl : ["m.json"] = path := Except.ok.inj (operandPath_item.symm.trans hpath)
  have hinput : inputOn (dryArgs false) ["m.json"] Run.itemTree = some (Run.itemModel, {}) := by
    unfold inputOn inputOf?
    rw [Run.load_itemTree]
    exact congrArg Except.toOption Run.readInput_itemTree
  have hlines : Printable (validationLines ["m.json"] Run.itemModel
      (Validation.validate Run.itemModel {}) ((dryArgs false).verbose ≥ 1) {}) :=
    printable_validationLines (by decide) (by decide) (fun h => absurd Run.validate_itemModel h) {}
  refine iff_of_false (not_checkBreaksOff Run.load_itemTree hinput hlines) ?_
  rintro (hb | ⟨r, hr, hu⟩)
  · exact Run.not_breaksOffInFile Run.load_itemTree Run.readInput_itemTree
      (Run.not_breaksOff_itemModel _ _) hb
  · exact hu (List.forall_mem_singleton.2 (Run.lone?_summary (encoded_itemReport hr) {}))

end ZodSchema.Cli
