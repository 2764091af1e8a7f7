import ZodSchema.Run.Basic
import ZodSchema.Proofs.Generation.Passed

/-!
# Runs without generation errors

What passes validation is generated, so that no run reports a generation error.  A rule with an
integer of too many digits, which validation does not look at, breaks a run off.

* `Covered`             how a run ends that has no generation error
* `covered_runStages`   the stages end so
* `generate_total`      generation, and runs on a data model and on a schema file
* `overlong`            a data model that passes and from which nothing is generated
-/

namespace ZodSchema.Run

open Generation Files
open Export (Manner)

variable {w : Manner} {d : Datamodel} {c : Config} {o : Options} {s : Setting} {r : Report}
  {fs : FileSystem}

theorem exitCode_ne_two (h : r.generationErrors = []) : r.exitCode ≠ 2 := by
  unfold Report.exitCode
  rw [h]
  split
  · decide
  · split
    · decide
    · rw [if_neg (by decide)]
      split <;> decide

/-! ## stages -/

theorem valid_of_proceed (h : (validateStage o d c r).2 = true) :
    (Validation.validate d c).isValid = true := by
  have he : ((Validation.validate d c).errors.map (·.text)).isEmpty = true :=
    (Bool.and_eq_true_iff.1 h).1
  rwa [List.isEmpty_map] at he

/-- what comes of generation after validation -/
theorem generated_of_valid (workDir : Text.Parts)
    (h : (Validation.validate d c).isValid = true) :
    match generated workDir d c with
    | .ok (_, errors) => errors = [] ∧ ¬ OverlongRule d c
    | .error _ => OverlongRule d c := by
  have hl := longInteger?_isSome (d := d) (c := c)
  unfold generated
  rw [generate_of_valid h]
  cases hn : longInteger? d c with
  | none => exact ⟨rfl, fun ho => by simpa [hn] using hl.2 ho⟩
  | some n => exact hl.1 (by rw [hn]; rfl)

/-- a file without an encoding is the only thing that keeps bytes from being counted -/
theorem byteTotal_error {files : List GeneratedFile} {e : Abort} (h : byteTotal files = .error e) :
    ∃ l, e = .unencodable l := by
  induction files with
  | nil => cases h
  | cons f files ih =>
    unfold byteTotal at h
    split at h
    · next l _ => exact ⟨l, (Except.error.inj h).symm⟩
    · cases hb : byteTotal files with
      | error e' =>
        rw [hb] at h
        exact ih (hb.trans h)
      | ok n =>
        rw [hb] at h
        cases h

theorem generateStage_of_valid (workDir : Text.Parts)
    (h : (Validation.validate d c).isValid = true) :
    match generateStage workDir d c r with
    | .ok r' => r'.generationErrors = r.generationErrors
    | .error (.longInteger _) => OverlongRule d c
    | .error _ => True := by
  have hg := generated_of_valid workDir h
  unfold generateStage
  cases hs : generated workDir d c with
  | error e =>
    rw [hs] at hg
    cases e with
    | longInteger n => exact hg
    | _ => trivial
  | ok g =>
    obtain ⟨g, errors⟩ := g
    rw [hs] at hg
    obtain ⟨rfl, -⟩ : errors = [] ∧ ¬ OverlongRule d c := hg
    cases hb : byteTotal g.files with
    | error e =>
      obtain ⟨l, rfl⟩ := byteTotal_error hb
      simp only [bind, Except.bind, hb]
    | ok n =>
      simp only [bind, Except.bind, hb]
      exact List.append_nil _

/-- the outcome reports no generation error; where a rule has broken the run off, `p` holds -/
def Covered (p : Prop) : Except Abort (Report × FileSystem) → Prop
  | .ok (r, _) => r.generationErrors = []
  | .error (.longInteger _) => p
  | .error _ => True

namespace Covered

variable {p q : Prop} {x : Except Abort (Report × FileSystem)}

theorem imp (h : Covered p x) (hpq : p → q) : Covered q x := by
  match x with
  | .ok _ => exact h
  | .error (.longInteger _) => exact hpq h
  | .error (.path _) => trivial
  | .error (.uncaught _) => trivial
  | .error (.unencodable _) => trivial

theorem exitCode_ne_two (h : Covered p x) (r : Report) (fs : FileSystem) (hx : x = .ok (r, fs)) :
    r.exitCode ≠ 2 := by
  subst hx
  exact Run.exitCode_ne_two h

theorem of_longInteger (h : Covered p x) (n : Nat) (hx : x = .error (.longInteger n)) : p := by
  subst hx
  exact h

end Covered

/-- a data model that passes, with a rule that breaks the run off -/
def PassesOverlong (d : Datamodel) (c : Config) : Prop :=
  (Validation.validate d c).isValid = true ∧ OverlongRule d c

theorem covered_writeStage {p : Prop} (output : Text.Parts) (hr : r.generationErrors = []) :
    Covered p (writeStage w o output c r fs) := by
  unfold writeStage
  dsimp only
  split
  · trivial
  · exact hr

theorem covered_runStages (hr : r.generationErrors = []) :
    Covered (PassesOverlong d c) (runStages w o s d c r fs) := by
  let r₀ : Report := { r with provider := d.providerText, totalModels := d.models.length }
  unfold runStages
  dsimp only
  split
  · exact hr
  · next hp =>
    -- the run goes on only with a data model that passes
    have hv := valid_of_proceed (o := o) (r := r₀) (by simpa using hp)
    have hg := generateStage_of_valid (r := (validateStage o d c r₀).1) s.workDir hv
    split
    · next e he =>
      rw [he] at hg
      cases e with
      | longInteger n => exact ⟨hv, hg⟩
      | _ => trivial
    · next r' he =>
      rw [he] at hg
      have hn : r'.generationErrors = [] := hg.trans hr
      split
      · exact hn
      · exact covered_writeStage s.output hn

/-! ## runs -/

theorem covered_opened {p : Prop} {source : String}
    {next : Report → Except Abort (Report × FileSystem)}
    (h : ∀ r, r.generationErrors = [] → Covered p (next r)) :
    Covered p (opened o s source >>= next) := by
  unfold opened
  split
  · trivial
  · exact h _ rfl

theorem covered_run : Covered (PassesOverlong d c) (run w o s d c fs) :=
  covered_opened fun _ hr => covered_runStages hr

/-- the data model and the settings of a run on a schema file -/
def inputOf? (path : Text.Parts) (overrides : Value.Entries) (provider : Option Value)
    (fs : FileSystem) : Option (Datamodel × Config) :=
  match load fs path with
  | .error _ => none
  | .ok raw =>
    (readInput (withSource path (applyOverrides raw overrides provider).entries)).toOption

theorem covered_runFile {w : Config → Manner} {path : Text.Parts} {overrides : Value.Entries}
    {provider : Option Value} :
    Covered (∃ d c, inputOf? path overrides provider fs = some (d, c) ∧ PassesOverlong d c)
      (runFile w o s path overrides provider fs) := by
  refine covered_opened fun r hr => ?_
  cases hl : load fs path with
  | error e =>
    cases e with
    | unreachable f => trivial
    | uncaught e => trivial
    | _ => exact hr
  | ok raw =>
    dsimp only
    cases hi : readInput (withSource path (applyOverrides raw overrides provider).entries) with
    | error e => exact hr
    | ok i =>
      obtain ⟨d, c⟩ := i
      have hin : inputOf? path overrides provider fs = some (d, c) := by
        unfold inputOf?
        rw [hl]
        show (readInput _).toOption = _
        rw [hi]
        rfl
      refine Covered.imp (p := PassesOverlong d c) ?_ fun hp => ⟨d, c, hin, hp⟩
      apply covered_runStages
      exact hr

/-- **Generation after validation.**  A data model that passes is generated exactly when no rule of
a model that gets CRUD schemas holds an integer of too many digits.  No run, on a data model or on a
schema file, ends with the exit code of generation errors; a run that such an integer breaks off
had passed validation. -/
theorem generate_total (workDir : Text.Parts) (d : Datamodel) (c : Config)
    (w : Config → Manner) (o : Options) (s : Setting) (path : Text.Parts)
    (overrides : Value.Entries) (provider : Option Value) (fs : FileSystem) :
    ((Validation.validate d c).isValid = true →
        ((∃ g, generate workDir d c = .ok g) ↔ ¬OverlongRule d c)) ∧
      (∀ r fs', run (w c) o s d c fs = .ok (r, fs') → r.exitCode ≠ 2) ∧
      (∀ n, run (w c) o s d c fs = .error (.longInteger n) → PassesOverlong d c) ∧
      (∀ r fs', runFile w o s path overrides provider fs = .ok (r, fs') → r.exitCode ≠ 2) ∧
      (∀ n, runFile w o s path overrides provider fs = .error (.longInteger n) →
        ∃ d c, inputOf? path overrides provider fs = some (d, c) ∧ PassesOverlong d c) :=
  ⟨generate_ok_iff, covered_run.exitCode_ne_two, covered_run.of_longInteger,
    covered_runFile.exitCode_ne_two, covered_runFile.of_longInteger⟩

/-- a filter on the number that is written with 4301 ones -/
def overlong : Datamodel :=
  { models := [
      { name := "Item"
        documentation :=
          some ("@crud.list.jsonFilter(" ++ String.ofList (List.replicate 4301 '1') ++ ")")
        fields := [{ name := "id", type := "Int", isId := true }] }] }

/-- settings with CRUD schemas -/
def withCrud : Config := { crudSchemas := true }

theorem isValid_overlong : (Validation.validate overlong withCrud).isValid = true := by
  decide +kernel

theorem longInteger?_overlong : longInteger? overlong withCrud = some 4301 := by
  have hn : Crud.longIntegerIn? (String.ofList (List.replicate 4301 '1')) = some 4301 :=
    Crud.longIntegerIn?_eq_some.2 (Json.read_ones (by decide))
  have hm : ∀ m ∈ overlong.models, Crud.longInteger? m = some 4301 := by
    intro m hm
    rw [List.mem_singleton.1 hm]
    refine Crud.longInteger?_filter (fun x hx => ?_) hn rfl
    rw [List.eq_of_mem_replicate hx]
    decide +kernel
  have he : Crud.eligible withCrud overlong = overlong.models := List.mergeSort_singleton _
  show (Crud.eligible withCrud overlong).findSome? Crud.longInteger? = _
  rw [he]
  show [_].findSome? _ = _
  rw [List.findSome?_singleton, hm _ (List.mem_singleton_self _)]

/-- a data model that passes, under accepted settings, and from which nothing is generated -/
theorem overlong_breaks_off :
    withCrud.objection? = none ∧ (Validation.validate overlong withCrud).isValid = true ∧
      generate [] overlong withCrud = .error (.longInteger 4301) := by
  refine ⟨by decide +kernel, isValid_overlong, ?_⟩
  rw [generate_of_valid isValid_overlong, longInteger?_overlong]

end ZodSchema.Run
