import ZodSchema.Proofs.Assoc
import ZodSchema.Proofs.Crud.Directives

/-!
# Enumerations and filter types

Both are kept by name: a later one takes the place of an earlier one of its name.

* `enumDecl?`, `typeDecls`   what a directive declares
* `enumerated`, `typed`   what the directives of a model declare, in order
* `enums_rulesOf`, `customTypes_rulesOf`   what the rules of the model make of it
-/

namespace ZodSchema

namespace Crud

open Annotations (Rule)

/-! ## what a directive declares -/

/-- the enumeration that a directive declares, with its values -/
def enumDecl? (d : Rule) : Option (String × List String) :=
  (Text.dropStart? "enum.".toList d.key.toList).map fun name =>
    (String.ofList name, enumValues d.args)

/-- the filters that a directive gives types to -/
def typeDecls (d : Rule) : List (String × String) :=
  if d.key = "list.customFilterTypes" then ((jsonObject? d.args).getD []).map entryText else []

theorem enums_apply (r : ModelRules) (d : Rule) :
    (r.apply d).enums =
      Assoc.putAll (enumDecl? d).toList r.enums := by
  unfold ModelRules.apply enumDecl?
  dsimp only
  split
  case h_16 =>
    cases Text.dropStart? "enum.".toList d.key.toList <;> rfl
  all_goals
    -- a directive of another key declares nothing
    next hk =>
    rw [hk]
    first
    | rfl
    | split <;> rfl

theorem customTypes_apply (r : ModelRules) (d : Rule) :
    (r.apply d).list.customTypes =
      Assoc.putAll (typeDecls d) r.list.customTypes := by
  unfold ModelRules.apply typeDecls
  dsimp only
  split
  case h_9 hk =>
    rw [if_pos hk]
    cases jsonObject? d.args <;> rfl
  case h_16 =>
    rw [if_neg (by assumption)]
    split <;> rfl
  all_goals
    next hk =>
    rw [hk, if_neg (by decide)]
    first
    | rfl
    | split <;> rfl

/-! ## what the directives of a model declare -/

/-- the enumerations of a model as they are declared -/
def enumerated (m : Model) : List (String × List String) :=
  (docRules m.documentation).filterMap enumDecl?

/-- the filters of a model as they are given types -/
def typed (m : Model) : List (String × String) := (docRules m.documentation).flatMap typeDecls

theorem enums_foldl_apply (ds : List Rule) (r : ModelRules) :
    (ds.foldl ModelRules.apply r).enums =
      Assoc.putAll (ds.filterMap enumDecl?) r.enums := by
  induction ds generalizing r with
  | nil => rfl
  | cons d ds ih =>
    rw [List.foldl_cons, ih, enums_apply]
    cases h : enumDecl? d with
    | none => rw [List.filterMap_cons_none h]; rfl
    | some e => rw [List.filterMap_cons_some h]; rfl

theorem customTypes_foldl_apply (ds : List Rule) (r : ModelRules) :
    (ds.foldl ModelRules.apply r).list.customTypes =
      Assoc.putAll (ds.flatMap typeDecls) r.list.customTypes := by
  induction ds generalizing r with
  | nil => rfl
  | cons d ds ih => 
    rw [List.foldl_cons, ih, customTypes_apply, List.flatMap_cons]
    exact List.foldl_append.symm

theorem enums_rulesOf (m : Model) : (rulesOf m).enums = Assoc.settled (enumerated m) := by
  obtain ⟨fields, hr⟩ := exists_rulesOf m
  rw [hr]
  exact enums_foldl_apply _ _

theorem customTypes_rulesOf (m : Model) :
    (rulesOf m).list.customTypes = Assoc.settled (typed m) := by
  obtain ⟨fields, hr⟩ := exists_rulesOf m
  rw [hr]
  exact customTypes_foldl_apply _ _

theorem space_not_mem_docRules {doc : Option String} {d : Rule} (hd : d ∈ docRules doc) :
    ' ' ∉ d.key.toList := by
  cases doc with
  | none => cases hd
  | some doc =>
    obtain ⟨r, hb, -, rfl⟩ := Annotations.mem_scanRules_iff.1 hd
    exact hb.key.space_not_mem

end Crud

end ZodSchema
