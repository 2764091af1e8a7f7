import ZodSchema.Proofs.Crud.Overlong
import ZodSchema.Proofs.Generation.Closure
import ZodSchema.Proofs.Validation.Passed

/-!
# Generation of what passes validation

A strict registry of brands meets no conflict that validation has not reported.  One thing is not
looked at by validation, an integer of too many digits in a rule.

* `OverlongRule`        there is such a rule, and CRUD schemas are wanted of its model
* `generate_of_registry`   the outcome, once there is a registry
* `generate_of_valid`   the outcome for a data model that passes
* `generate_ok_iff`     files come of it unless there is such a rule
-/

namespace ZodSchema.Generation

variable {workDir : Text.Parts} {d : Datamodel} {c : Config}

/-- CRUD schemas are wanted of a model with a rule that is too long to be read -/
def OverlongRule (d : Datamodel) (c : Config) : Prop :=
  c.crudSchemas = true ∧ c.zodSchemas = true ∧
    ∃ m ∈ d.models, c.crud.includes m.name = true ∧ Crud.Overlong m

theorem longInteger?_isSome : (longInteger? d c).isSome = true ↔ OverlongRule d c := by
  unfold longInteger? OverlongRule
  cases hc : c.crudSchemas <;> cases hz : c.zodSchemas <;>
    simp [Crud.longInteger?_isSome, mem_eligible, and_assoc, List.isSome_findSome?]

/-- the outcome, once there is a registry -/
theorem generate_of_registry {r : Brand.Registry}
    (h : Brand.Registry.ofDatamodel d c.strictBrands = .ok r) :
    generate workDir d c =
      match longInteger? d c with
      | some n => .error (.longInteger n)
      | none =>
        .ok ⟨(familyFiles workDir d c r).map TypeScript.SourceFile.file, familyWarnings d c r⟩ := by
  unfold generate sourceFiles
  rw [h]
  cases longInteger? d c <;> rfl

theorem generate_of_valid (h : (Validation.validate d c).isValid = true) :
    generate workDir d c =
      match longInteger? d c with
      | some n => .error (.longInteger n)
      | none =>
        let r := Brand.declared (Brand.declarations d)
        .ok ⟨(familyFiles workDir d c r).map TypeScript.SourceFile.file, familyWarnings d c r⟩ :=
  generate_of_registry (Validation.ofDatamodel_of_valid h)

theorem generate_ok_iff (h : (Validation.validate d c).isValid = true) :
    (∃ g, generate workDir d c = .ok g) ↔ ¬OverlongRule d c := by
  rw [generate_of_valid h, ← longInteger?_isSome]
  cases longInteger? d c <;> simp

end ZodSchema.Generation
