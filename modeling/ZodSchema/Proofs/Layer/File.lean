import ZodSchema.Layer.File
import ZodSchema.Proofs.Brand.Registry

/-!
# What a layer file takes and declares

* `layersOf_model`      the layers of a model bear its name
* `change?`, `overrides_eq`   what a layer makes of an entry
* `exists_of_brand`     how a brand stands in a layer
* `usesBrands_iff`      the test for brands finds every brand
* `imports_layerFile`   what a layer file takes from others
* `schemaName_mem_constants`   every layer is a constant of the file
-/

namespace ZodSchema

theorem Datamodel.name_firstOfName (d : Datamodel) (m : Model) : (d.firstOfName m).name = m.name := by
  unfold firstOfName
  cases h : d.models.find? (·.name == m.name) with
  | none => rfl
  | some m' => simpa using List.find?_some h

theorem Datamodel.firstOfName_firstOfName (d : Datamodel) (m : Model) :
    d.firstOfName (d.firstOfName m) = d.firstOfName m := by
  have hn := d.name_firstOfName m
  unfold firstOfName at hn ⊢
  rw [hn]
  cases h : d.models.find? (·.name == m.name) with
  | none => rfl
  | some m' => rfl

namespace Layer

open TypeScript Schema

variable {workDir : Text.Parts} {c : Config} {d : Datamodel} {r : Option Brand.Registry} {m : Model}
  {l : LayerSchema} {k : Kind} {p : Field × Entry} {o : Override} {b : String}

theorem layersOf_model (h : l ∈ layersOf c d r m) : l.model = m.name := by
  simp only [layersOf, List.mem_cons, List.not_mem_nil, or_false] at h
  rcases h with rfl | rfl | rfl <;> exact d.name_firstOfName m

/-! ## changed entries -/

/-- what a layer makes of an entry, when it changes it -/
def change? (k : Kind) (m : Model) (r : Option Brand.Registry) (p : Field × Entry) :
    Option Override :=
  match k with
  | .database => none
  | .runtime => runtimeOverride? m p.1 p.2 r
  | .external => externalOverride? p.1 p.2

theorem overrides_eq (hl : l ∈ layersOf c d r m) :
    l.overrides = (entries c d m).filterMap (change? l.kind (d.firstOfName m) r) := by
  have he : entries c d (d.firstOfName m) = entries c d m := by
    unfold entries
    rw [d.firstOfName_firstOfName]
  rw [← he]
  simp only [layersOf, List.mem_cons, List.not_mem_nil, or_false] at hl
  rcases hl with rfl | rfl | rfl
  · exact (List.filterMap_eq_nil_iff.2 fun _ _ => rfl).symm
  · rfl
  · rfl

theorem exists_of_mem_overrides (hl : l ∈ layersOf c d r m) (ho : o ∈ l.overrides) :
    ∃ p ∈ entries c d m, change? l.kind (d.firstOfName m) r p = some o :=
  List.mem_filterMap.1 (overrides_eq hl ▸ ho)

/-! ## brands -/

/-- a brand in a layer is the one of its field, and the entry is the brand's constant -/
theorem exists_of_brand (hl : l ∈ layersOf c d r m) (ho : o ∈ l.overrides) (hb : o.brand = some b) :
    ∃ f e, r.bind (·.fieldBrand? (d.firstOfName m) f) = some b ∧
      o.expr = rewrap (listWrap f ("brands." ++ b)) f e := by
  obtain ⟨p, _, hp⟩ := exists_of_mem_overrides hl ho
  cases hk : l.kind with
  | database =>
    rw [hk] at hp
    cases hp
  | runtime =>
    rw [hk] at hp
    unfold change? runtimeOverride? at hp
    dsimp only at hp
    split at hp
    · next b' hb' =>
      obtain rfl := Option.some.inj hp
      obtain rfl := Option.some.inj hb
      exact ⟨p.1, p.2, hb', rfl⟩
    · obtain ⟨_, _, rfl⟩ := Option.map_eq_some_iff.1 hp
      cases hb
  | external =>
    rw [hk] at hp
    obtain ⟨_, _, rfl⟩ := Option.map_eq_some_iff.1 hp
    cases hb

theorem usesBrands_iff : usesBrands (layersOf c d r m) = true ↔
    ∃ l ∈ layersOf c d r m, ∃ o ∈ l.overrides, ∃ b, o.brand = some b := by
  constructor
  · intro h
    obtain ⟨l, hl, h⟩ := List.any_eq_true.1 h
    obtain ⟨o, ho, h⟩ := List.any_eq_true.1 h
    obtain ⟨b, hb, _⟩ := (Option.any_eq_true ..).1 h
    exact ⟨l, hl, o, ho, b, hb⟩
  · rintro ⟨l, hl, o, ho, b, hb⟩
    obtain ⟨f, _, hf, _⟩ := exists_of_brand hl ho hb
    obtain ⟨reg, _, hf⟩ := Option.bind_eq_some_iff.1 hf
    refine List.any_eq_true.2 ⟨l, hl, List.any_eq_true.2 ⟨o, ho, ?_⟩⟩
    rw [hb]
    exact decide_eq_true (Brand.Registry.fieldBrand?_contains hf).2

/-! ## the file -/

theorem isImport_layerStmts (l : LayerSchema) : ∀ st ∈ layerStmts l, st.isImport = false := by
  intro st hst
  simp only [layerStmts, List.mem_cons, List.not_mem_nil, or_false] at hst
  rcases hst with rfl | rfl | rfl
  · rfl
  · split <;> rfl
  · rfl

theorem isImport_conversions (model : String) : ∀ st ∈ conversions model, st.isImport = false := by
  intro st hst
  simp only [conversions, List.mem_cons, List.not_mem_nil, or_false] at hst
  rcases hst with rfl | rfl | rfl | rfl | rfl | rfl | rfl | rfl | rfl <;> rfl

/-- a layer file takes the base schema of its model, and brands when some stand in it -/
theorem imports_layerFile (workDir : Text.Parts) (c : Config) (d : Datamodel)
    (r : Option Brand.Registry) (m : Model) :
    (layerFile workDir c d r m).takes =
        [zodTaken, (Schema.schemaName m.name,
          "\"" ++ Text.relativeModule workDir c.layersDir c.schemasDir ++ "\"")] ∧
      (layerFile workDir c d r m).spaces =
        if usesBrands (layersOf c d r m) then
          [("brands", "\"" ++ Text.relativeModule workDir c.layersDir c.brandsDir ++ "\"")]
        else [] := by
  have hr : ∀ st ∈ (layersOf c d r m).flatMap (fun l => layerStmts l ++ [.blank]) ++
      conversions m.name, st.isImport = false := by
    intro st hst
    rcases List.mem_append.1 hst with hst | hst
    · obtain ⟨l, _, hst⟩ := List.mem_flatMap.1 hst
      rcases List.mem_append.1 hst with hst | hst
      · exact isImport_layerStmts l st hst
      · rw [List.mem_singleton.1 hst]
        rfl
    · exact isImport_conversions m.name st hst
  obtain ⟨ht, hs⟩ := SourceFile.takes_of_imports (s := layerFile workDir c d r m)
    (by unfold layerFile; dsimp only; rw [List.append_assoc]) hr
  rw [ht, hs]
  split <;> exact ⟨rfl, rfl⟩

theorem schemaName_mem_constants (hl : l ∈ layersOf c d r m) :
    l.schemaName ∈ (layerFile workDir c d r m).constants := by
  have hc : ∃ first rest, Stmt.const l.schemaName first rest ∈ layerStmts l := by
    unfold layerStmts
    split
    · exact ⟨_, _, List.mem_cons_of_mem _ List.mem_cons_self⟩
    · exact ⟨_, _, List.mem_cons_of_mem _ List.mem_cons_self⟩
  obtain ⟨first, rest, hc⟩ := hc
  refine SourceFile.mem_constants.2 ⟨first, rest, ?_⟩
  unfold layerFile
  exact List.mem_append_left _ (List.mem_append_right _
    (List.mem_flatMap.2 ⟨l, hl, List.mem_append_left _ hc⟩))

/-- the file declares the runtime schema of its model -/
theorem runtime_mem_constants (workDir : Text.Parts) (c : Config) (d : Datamodel)
    (r : Option Brand.Registry) (m : Model) :
    m.name ++ "RuntimeSchema" ∈ (layerFile workDir c d r m).constants := by
  have hl : ∃ l ∈ layersOf c d r m, l.kind = .runtime := by simp [layersOf]
  obtain ⟨l, hl, hk⟩ := hl
  have hn : l.schemaName = m.name ++ "RuntimeSchema" := by
    rw [LayerSchema.schemaName, LayerSchema.typeName, layersOf_model hl, hk, String.append_assoc]
    rfl
  exact hn ▸ schemaName_mem_constants hl

end Layer

end ZodSchema
