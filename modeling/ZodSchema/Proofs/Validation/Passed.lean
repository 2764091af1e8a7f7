import Mathlib.Data.List.Nodup
import ZodSchema.Validation.Rules
import ZodSchema.Proofs.Brand.Declared

/-!
# What passes validation

A data model passes under its settings when no finding is an error.

* `isValid_iff`          the same in terms of concerns
* `partsPass_of_valid`   what passes raises no error, part by part
* `ofDatamodel_of_valid` the registry of a data model that passes is built without a conflict
* `ChecksNames`          what checks of names have in common
* `names_of_valid`       no two models share a name, and every name is an identifier
-/

namespace ZodSchema.Validation

variable {d : Datamodel} {c : Config} {seen : List String} {m : String}

theorem isValid_iff : (validate d c).isValid = true ↔ ∀ x ∈ concerns d c, x.level ≠ .error := by
  unfold validate Findings.isValid Findings.errors
  rw [List.isEmpty_iff, List.filter_eq_nil_iff, List.forall_mem_map]
  refine forall₂_congr fun x _ => ?_
  show ¬(x.level == Level.error) = true ↔ _
  cases x.level <;> decide

/-! ## brands -/

/-- no error from the names, the fields and the brands -/
structure PartsPass (d : Datamodel) (c : Config) : Prop where
  names : ∀ x ∈ nameConcerns d, x.level ≠ .error
  fields : ∀ x ∈ fieldConcerns d c, x.level ≠ .error
  brands : ∀ x ∈ brandConcerns d c, x.level ≠ .error

theorem partsPass_of_valid (h : (validate d c).isValid = true) : PartsPass d c := by
  have hall := isValid_iff.1 h
  unfold concerns at hall
  simp only [List.forall_mem_append] at hall
  obtain ⟨⟨⟨⟨⟨⟨hn, hf⟩, -⟩, -⟩, -⟩, hb⟩, -⟩ := hall
  exact ⟨hn, hf, hb⟩

theorem lenientRegistry_eq (d : Datamodel) :
    lenientRegistry d = Brand.declared (Brand.declarations d) := by
  unfold lenientRegistry
  rw [Brand.ofDatamodel_eq_verdict, Brand.verdict_false]

theorem conflicts_of_valid (hs : c.strictBrands = true) (h : (validate d c).isValid = true) :
    (Brand.declared (Brand.declarations d)).conflicts = [] := by
  rw [List.eq_nil_iff_forall_not_mem]
  intro x hx
  have hm : Concern.brandConflict true x ∈ brandConcerns d c := by
    unfold brandConcerns
    rw [lenientRegistry_eq, hs]
    exact List.mem_append_right _ (List.mem_map_of_mem hx)
  exact (partsPass_of_valid h).brands _ hm rfl

/-- a strict registry meets no conflict that validation has not reported -/
theorem ofDatamodel_of_valid (h : (validate d c).isValid = true) :
    Brand.Registry.ofDatamodel d c.strictBrands = .ok (Brand.declared (Brand.declarations d)) := by
  rw [Brand.ofDatamodel_eq_verdict]
  cases hs : c.strictBrands with
  | false => rw [Brand.verdict_false]
  | true => rw [Brand.verdict, conflicts_of_valid hs h]

/-! ## names of models -/

theorem level_nameConcern? {what : Named} {x : Concern} (h : nameConcern? what m = some x) :
    x.level = .error := by
  unfold nameConcern? at h
  split at h
  · rw [← Option.some.inj h]
    rfl
  · split at h
    · rw [← Option.some.inj h]
      rfl
    · cases h

/-- a check of names one after another: it is an error that a name was seen before or is not allowed -/
structure ChecksNames (what : Named) (check : List String → List String → List Concern) : Prop where
  seen : ∀ {seen n ns}, n ∈ seen → ∃ x ∈ check seen (n :: ns), x.level = .error
  name : ∀ {seen n ns x}, nameConcern? what n = some x → x ∈ check seen (n :: ns)
  next : ∀ {seen n ns x}, x ∈ check (n :: seen) ns → x ∈ check seen (n :: ns)

/-- names that raise no error are new, each of them, and allowed -/
theorem ChecksNames.names {what : Named} {check : List String → List String → List Concern}
    (hc : ChecksNames what check) {ns : List String} (h : ∀ x ∈ check seen ns, x.level ≠ .error) :
    ns.Nodup ∧ ∀ n ∈ ns, n ∉ seen ∧ nameConcern? what n = none := by
  induction ns generalizing seen with
  | nil => exact ⟨List.nodup_nil, fun n hn => by cases hn⟩
  | cons n ns ih =>
    obtain ⟨hnd, hrest⟩ := ih fun x hx => h x (hc.next hx)
    have hnew : n ∉ seen := by
      intro hs
      obtain ⟨x, hx, he⟩ : ∃ x ∈ check seen (n :: ns), x.level = .error := hc.seen hs
      exact h x hx he
    have hname : nameConcern? what n = none := by
      cases hn : nameConcern? what n with
      | none => rfl
      | some x => exact absurd (level_nameConcern? hn) (h x (hc.name hn))
    refine ⟨List.nodup_cons.2 ⟨fun hm => (hrest n hm).1 List.mem_cons_self, hnd⟩, ?_⟩
    intro k hk
    rcases List.mem_cons.1 hk with rfl | hk
    · exact ⟨hnew, hname⟩
    · exact ⟨fun hs => (hrest k hk).1 (List.mem_cons_of_mem _ hs), (hrest k hk).2⟩

theorem checksNames_models : ChecksNames .model modelNameConcerns where
  seen {_ n _} hs := ⟨.duplicateModel n, by simp [modelNameConcerns, hs], rfl⟩
  name hn := by simp [modelNameConcerns, hn]
  next hx := by simp [modelNameConcerns, hx]

theorem checksNames_enums : ChecksNames .enumeration enumNameConcerns where
  seen {_ n _} hs := ⟨.duplicateEnum n, by simp [enumNameConcerns, hs], rfl⟩
  name hn := by simp [enumNameConcerns, hn]
  next hx := by simp [enumNameConcerns, hx]

theorem isIdentifier_of_nameConcern? {what : Named} (h : nameConcern? what m = none) :
    Text.isIdentifier m = true := by
  unfold nameConcern? at h
  split at h
  · cases h
  · next hi => simpa using hi

theorem names_of_valid (h : (validate d c).isValid = true) :
    (d.models.map (·.name)).Nodup ∧ ∀ m ∈ d.models, Text.isIdentifier m.name = true := by
  have hm : ∀ x ∈ modelNameConcerns [] (d.models.map (·.name)), x.level ≠ .error := fun x hx =>
    (partsPass_of_valid h).names x (List.mem_append_left _ hx)
  obtain ⟨hnd, hall⟩ := checksNames_models.names hm
  exact ⟨hnd, fun m hm => isIdentifier_of_nameConcern? (hall _ (List.mem_map_of_mem hm)).2⟩

end ZodSchema.Validation
