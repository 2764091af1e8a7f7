import ZodSchema.Proofs.Brand.Registry
import ZodSchema.Proofs.Validation.Passed

/-!
# Names of enumerations and brands

No two enumerations of a data model that passes share a name; they and its brands have names that the
test of identifiers passes, and none of them is called like the schema library.
-/

namespace ZodSchema.Validation

variable {d : Datamodel} {c : Config}

theorem not_reserved_of_nameConcern? {what : Named} {n : String} (h : nameConcern? what n = none) :
    n ∉ reservedWords := by
  unfold nameConcern? at h
  split at h
  · cases h
  · split at h
    · cases h
    · next hr => simpa using hr

theorem enums_of_valid (h : (validate d c).isValid = true) :
    (d.enums.map (·.name)).Nodup ∧
      ∀ e ∈ d.enums, Text.isIdentifier e.name = true ∧ e.name ∉ reservedWords := by
  have hm : ∀ x ∈ enumNameConcerns [] (d.enums.map (·.name)), x.level ≠ .error := fun x hx =>
    (partsPass_of_valid h).names x (List.mem_append_right _ hx)
  obtain ⟨hnd, hall⟩ := checksNames_enums.names hm
  refine ⟨hnd, fun e he => ?_⟩
  have hn := (hall _ (List.mem_map_of_mem he)).2
  exact ⟨isIdentifier_of_nameConcern? hn, not_reserved_of_nameConcern? hn⟩

theorem brands_of_valid (h : (validate d c).isValid = true) :
    ∀ n ∈ (Brand.declared (Brand.declarations d)).names,
      Text.isIdentifier n = true ∧ n ∉ reservedWords := by
  intro n hn
  obtain ⟨b, hb, rfl⟩ : ∃ b ∈ (Brand.declared (Brand.declarations d)).sorted, b.name = n := by
    rw [← Brand.Registry.sorted_names] at hn
    exact List.mem_map.1 hn
  by_contra hbad
  have hm : Concern.invalidBrand b ∈ brandConcerns d c := by
    unfold brandConcerns
    rw [lenientRegistry_eq]
    refine List.mem_append_left _ (List.mem_map_of_mem (List.mem_filter.2 ⟨hb, ?_⟩))
    rw [Decidable.not_and_iff_not_or_not, not_not] at hbad
    simpa using hbad
  exact (partsPass_of_valid h).brands _ hm rfl

end ZodSchema.Validation
