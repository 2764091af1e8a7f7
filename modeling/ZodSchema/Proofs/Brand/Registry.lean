import Mathlib.Data.List.Nodup
import ZodSchema.Brand.Registry
import ZodSchema.Proofs.TypeScript.Module

/-!
# What a registry holds and what its file declares

* `sorted_names`           the brands in order are those of the names in order
* `fieldBrand?_contains`   a brand that stands for a field is in the registry
* `constants_brandedFile`  the brand file declares the names of the registry
-/

namespace ZodSchema.Brand

open TypeScript

variable {r : Registry} {m : Model} {f : Field} {b name : String}

namespace Registry

theorem exists_of_contains (h : r.contains name = true) :
    ∃ x ∈ r.brands, r.get? name = some x ∧ x.name = name := by
  obtain ⟨x, hx⟩ := Option.isSome_iff_exists.1 h
  exact ⟨x, List.mem_of_find?_eq_some hx, hx, by simpa using List.find?_some hx⟩

theorem contains_iff_mem_names : r.contains name = true ↔ name ∈ r.names := by
  unfold names
  rw [Text.Str.mem_sortDedup, List.mem_map]
  constructor
  · intro h
    obtain ⟨x, hx, _, hn⟩ := exists_of_contains h
    exact ⟨x, hx, hn⟩
  · rintro ⟨x, hx, rfl⟩
    exact List.find?_isSome.2 ⟨x, hx, by simp⟩

/-- every name has its brand -/
theorem sorted_names (r : Registry) : r.sorted.map (·.name) = r.names := by
  have hall : ∀ n ∈ r.names, (r.get? n).map (·.name) = some n := fun n hn => by
    obtain ⟨x, _, hx, hxn⟩ := exists_of_contains (contains_iff_mem_names.2 hn)
    rw [hx, Option.map_some, hxn]
  unfold sorted
  rw [List.map_filterMap, List.filterMap_congr hall, List.filterMap_some]

/-- a brand that stands for a field is in the registry and has a name -/
theorem fieldBrand?_contains (h : r.fieldBrand? m f = some b) : r.contains b = true ∧ b ≠ "" := by
  have himp : ∀ {x}, (implicit? m f).filter r.contains = some x →
      r.contains x = true ∧ x ≠ "" := by
    intro x hx
    obtain ⟨hi, hc⟩ := Option.filter_eq_some_iff.1 hx
    refine ⟨hc, ?_⟩
    unfold implicit? at hi
    split at hi
    · rw [← Option.some.inj hi]
      simp
    · obtain ⟨t, _, rfl⟩ := Option.map_eq_some_iff.1 hi
      simp
  unfold fieldBrand? at h
  split at h
  · split at h
    · exact himp h
    · next hne =>
      split at h
      · next hc =>
        obtain rfl := Option.some.inj h
        exact ⟨hc, hne⟩
      · cases h
  · exact himp h

end Registry

/-- the brand file declares the names of the registry, in order -/
theorem constants_brandedFile (c : Config) (r : Registry) :
    (brandedFile c r).constants = r.names := by
  have hs : (r.sorted.flatMap brandStmts).filterMap Stmt.constant? = r.sorted.map (·.name) := by
    induction r.sorted with
    | nil => rfl
    | cons x xs ih =>
      rw [List.flatMap_cons, List.filterMap_append, ih]
      rfl
  unfold SourceFile.constants brandedFile
  simp only [List.filterMap_append, hs, Registry.sorted_names]
  show [] ++ ([] ++ (r.names ++ [])) = r.names
  rw [List.nil_append, List.nil_append, List.append_nil]

/-- a brand that stands for a field is declared once -/
theorem count_constants_brandedFile (c : Config) (h : r.fieldBrand? m f = some b) :
    (brandedFile c r).constants.count b = 1 := by
  rw [constants_brandedFile]
  exact List.count_eq_one_of_mem (Text.Str.nodup_sortDedup _)
    (Registry.contains_iff_mem_names.1 (Registry.fieldBrand?_contains h).1)

end ZodSchema.Brand
