import ZodSchema.Proofs.Zod.Validators
import ZodSchema.Proofs.TypeScript.Module

/-!
# Entries that check enumerations

* `take_scalarExpr_ne`  how no scalar begins
* `enum_of_opening`     such an entry belongs to an enumeration of the data model and imports it
-/

namespace ZodSchema.Schema

open Zod TypeScript

variable {c : Config} {d : Datamodel} {f : Field} {s type : String}

theorem take_nativeEnum (h : s = "z.nativeEnum(" ++ type ++ ")") :
    s.toList.take 4 = ['z', '.', 'n', 'a'] := by
  rw [h]
  simp

/-- the openings of the declared types -/
def bases : List String :=
  ["z.string()", "z.number()", "z.boolean()", "z.bigint()", "z.date()", "z.unknown()",
    "z.coerce.date()", "z.instanceof(Buffer)"]

theorem baseExpression_mem (p : Provider) (type : String) : baseExpression p type ∈ bases := by
  unfold baseExpression
  split
  · split <;> decide
  · decide
  · decide
  · decide
  · split
    · next h =>
      have hd : ∀ k ∈ direct, "z." ++ k ++ "()" ∈ bases := by decide
      exact hd _ (by simpa using h)
    · decide

theorem take_of_topLevelBase? {a : Annotations} {base : String} (h : topLevelBase? a = some base) :
    ∃ n ∈ Annotations.topLevelNames, base.toList.take 4 = 'z' :: '.' :: n.toList.take 2 := by
  obtain ⟨_, _, _, _, n, hn, args, rfl⟩ := exists_of_topLevelBase? h
  have hl : ∀ n ∈ Annotations.topLevelNames, 2 ≤ n.toList.length := by decide
  exact ⟨n, hn, by simp [List.take_append_of_le_length (hl n hn)]⟩

/-- a scalar begins as one of the first validators or as one of the declared types -/
theorem take_scalarExpr_ne {p : List Char}
    (hn : ∀ n ∈ Annotations.topLevelNames, 'z' :: '.' :: n.toList.take 2 ≠ p)
    (hb : ∀ b ∈ bases, b.toList.take 4 ≠ p) (c : Config) (d : Datamodel) (f : Field)
    (a : Option Annotations) : (scalarExpr c d f a).opening.toList.take 4 ≠ p := by
  unfold scalarExpr
  split
  · next base h =>
    obtain ⟨a, _, h⟩ := Option.bind_eq_some_iff.1 h
    obtain ⟨n, hm, ht⟩ := take_of_topLevelBase? h
    rw [ht]
    exact hn n hm
  · exact hb _ (baseExpression_mem ..)

/-- no scalar opens with the check of an enumeration -/
theorem opening_scalarExpr_ne (c : Config) (d : Datamodel) (f : Field) (a : Option Annotations) :
    (scalarExpr c d f a).opening ≠ "z.nativeEnum(" ++ type ++ ")" := fun h =>
  -- of the names only `number` begins with an `n`, and no `a` follows it
  take_scalarExpr_ne (by decide) (by decide) c d f a (take_nativeEnum h)

theorem opening_unknownExpr_ne : unknownExpr.opening ≠ "z.nativeEnum(" ++ type ++ ")" := by
  intro h
  have ht := take_nativeEnum h
  revert ht
  decide

theorem opening_overrideExpr (schemas : List String) :
    ∃ rest, (overrideExpr schemas).opening = "z.preprocess(" ++ rest := by
  unfold overrideExpr
  dsimp only
  rw [String.append_assoc, String.append_assoc, String.append_assoc]
  exact ⟨_, rfl⟩

theorem opening_overrideDraft_ne (o : String) :
    (overrideDraft o).expr.opening ≠ "z.nativeEnum(" ++ type ++ ")" := by
  intro h
  unfold overrideDraft at h
  split at h
  · exact opening_unknownExpr_ne h
  · obtain ⟨rest, hr⟩ := opening_overrideExpr ((overrideRefs o).map (·.2)).eraseDups
    have ht := take_nativeEnum (hr.symm.trans h)
    simp at ht

theorem draft_of_opening {a : Option Annotations}
    (h : (draft c d f a).1.expr.opening = "z.nativeEnum(" ++ type ++ ")") :
    (d.enum? type).isSome = true ∧ (draft c d f a).1.imports = [(enumModule c, [type])] := by
  unfold draft at h ⊢
  split at h
  · exact (opening_overrideDraft_ne _ h).elim
  · split at h
    · unfold enumDraft at h ⊢
      split at h
      · next he =>
        have ht : f.type = type :=
          String.toList_injective (by simpa using congrArg String.toList h)
        rw [if_pos he, ← ht]
        exact ⟨he, rfl⟩
      · exact (opening_unknownExpr_ne h).elim
    · exact (opening_scalarExpr_ne c d f a h).elim
    · exact (opening_unknownExpr_ne h).elim

/-- **Entries that check an enumeration.**  The enumeration is in the data model, and the entry
imports it. -/
theorem enum_of_opening (h : (emit c d f).expr.opening = "z.nativeEnum(" ++ type ++ ")") :
    (∃ e ∈ d.enums, e.name = type) ∧ (emit c d f).imports.Has (enumModule c) type := by
  obtain ⟨he, hi⟩ := draft_of_opening h
  constructor
  · obtain ⟨e, he⟩ := Option.isSome_iff_exists.1 he
    exact ⟨e, List.mem_reverse.1 (List.mem_of_find?_eq_some he), by simpa using List.find?_some he⟩
  · show Imports.Has (draft c d f (Annotations.of? f.documentation)).1.imports (enumModule c) type
    rw [hi]
    exact ⟨[type], List.mem_singleton_self _, List.mem_singleton_self _⟩

end ZodSchema.Schema
