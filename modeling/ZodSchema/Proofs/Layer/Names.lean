import ZodSchema.Proofs.Layer.File
import ZodSchema.Proofs.TypeScript.Names

/-!
# Names in layer files

* `binds_layerFile`         the names of a layer file
* `nodup_layerFile`         none of them is bound twice
* `common_export`           when two layer files export one name
* `disjoint_transformFile`  the shared transforms have names of their own
-/

namespace ZodSchema.Layer

open TypeScript Schema Text

variable {workDir : Parts} {c : Config} {d : Datamodel} {r : Option Brand.Registry} {m m' : Model}
  {n : String}

/-! ## what a layer file binds -/

theorem binds_layerStmts (l : LayerSchema) : Binds (layerStmts l) [] [l.schemaName] [l.typeName] := by
  unfold layerStmts
  split <;> exact ⟨rfl, rfl, rfl⟩

theorem binds_layers (ls : List LayerSchema) :
    Binds (ls.flatMap fun l => layerStmts l ++ [.blank]) [] (ls.map (·.schemaName))
      (ls.map (·.typeName)) := by
  have hb : Binds [.blank] [] [] [] := ⟨rfl, rfl, rfl⟩
  rw [List.map_eq_flatMap, List.map_eq_flatMap]
  exact .flatMap ls fun l _ => (binds_layerStmts l).append hb

/-- the endings of the names of a model's layers, behind the name of the model -/
def typeEndings : List String := ["DB", "Runtime", "API"]

def schemaEndings : List String := ["DBSchema", "RuntimeSchema", "APISchema"]

/-- the endings of the names of its conversions -/
def conversionEndings : List String := ["DBToRuntime", "RuntimeToAPI", "DBToAPI"]

theorem typeNames_layersOf (c : Config) (d : Datamodel) (r : Option Brand.Registry) (m : Model) :
    (layersOf c d r m).map (·.typeName) = typeEndings.map (m.name ++ ·) := by
  show typeEndings.map ((d.firstOfName m).name ++ ·) = _
  rw [d.name_firstOfName]

theorem schemaNames_layersOf (c : Config) (d : Datamodel) (r : Option Brand.Registry) (m : Model) :
    (layersOf c d r m).map (·.schemaName) = schemaEndings.map (m.name ++ ·) := by
  show ((layersOf c d r m).map fun l => l.typeName ++ "Schema") = _
  have h := congrArg (List.map (· ++ "Schema")) (typeNames_layersOf c d r m)
  rw [List.map_map, List.map_map] at h
  simpa [Function.comp_def, typeEndings, schemaEndings, String.append_assoc] using h

theorem binds_layerFile (workDir : Parts) (c : Config) (d : Datamodel) (r : Option Brand.Registry)
    (m : Model) :
    Binds (layerFile workDir c d r m).stmts
      (["z", Schema.schemaName m.name] ++
        if usesBrands (layersOf c d r m) then ["brands"] else [])
      (schemaEndings.map (m.name ++ ·) ++ conversionEndings.map (Str.lowerFirst m.name ++ ·))
      (typeEndings.map (m.name ++ ·)) := by
  have hl := binds_layers (layersOf c d r m)
  rw [typeNames_layersOf, schemaNames_layersOf] at hl
  have hc : Binds (conversions m.name) [] (conversionEndings.map (Str.lowerFirst m.name ++ ·)) [] :=
    ⟨rfl, rfl, rfl⟩
  have hi : Binds (header ++ [zodImport, .importNames [Schema.schemaName m.name]
      ("\"" ++ relativeModule workDir c.layersDir c.schemasDir ++ "\"")])
      ["z", Schema.schemaName m.name] [] [] := ⟨rfl, rfl, rfl⟩
  have hb : Binds ((if usesBrands (layersOf c d r m) then
        [.importAll "brands" ("\"" ++ relativeModule workDir c.layersDir c.brandsDir ++ "\"")]
      else []) ++ [.blank]) (if usesBrands (layersOf c d r m) then ["brands"] else []) [] [] := by
    split <;> exact ⟨rfl, rfl, rfl⟩
  have h := hi.append (hb.append (hl.append hc))
  simpa [layerFile, List.append_assoc] using h

/-! ## one file -/

theorem schemaName_not_mem_values (model : String) :
    Schema.schemaName model ∉ ["z", "brands"] ++ (schemaEndings.map (model ++ ·) ++
      conversionEndings.map (Str.lowerFirst model ++ ·)) := by
  -- the ending of the base schema is one of the schemas of the layers too
  have hown : Schema.schemaName model ∉ schemaEndings.map (model ++ ·) := by
    simp [Schema.schemaName, schemaEndings]
  have hbase : (Schema.schemaName model :: ["z", "brands"] ++
      conversionEndings.map (Str.lowerFirst model ++ ·)).Nodup :=
    nodup_append ("Schema" :: ["z", "brands"] ++ conversionEndings)
      [(model, "Schema"), ("", "z"), ("", "brands"), (Str.lowerFirst model, "DBToRuntime"),
        (Str.lowerFirst model, "RuntimeToAPI"), (Str.lowerFirst model, "DBToAPI")] rfl
      (by decide) (by decide)
  have hrest : Schema.schemaName model ∉ ["z", "brands"] ++
      conversionEndings.map (Str.lowerFirst model ++ ·) := (List.nodup_cons.1 hbase).1
  rw [List.mem_append, List.mem_append]
  rintro (h | h | h)
  · exact hrest (List.mem_append_left _ h)
  · exact hown h
  · exact hrest (List.mem_append_right _ h)

/-- a layer file binds no name twice, whatever its model is called -/
theorem nodup_layerFile (workDir : Parts) (c : Config) (d : Datamodel)
    (r : Option Brand.Registry) (m : Model) :
    (layerFile workDir c d r m).values.Nodup ∧ (layerFile workDir c d r m).types.Nodup := by
  have hb := binds_layerFile workDir c d r m
  have ht : (["z", Schema.schemaName m.name] ++
      if usesBrands (layersOf c d r m) then ["brands"] else []).Sublist
        ["z", Schema.schemaName m.name, "brands"] := (ite_sublist ..).append_left _
  rw [SourceFile.nodup_values_iff hb, SourceFile.nodup_types_iff hb]
  constructor
  · refine List.Nodup.sublist (ht.append_right _) ?_
    have hfile : (["z", "brands"] ++ (schemaEndings.map (m.name ++ ·) ++
        conversionEndings.map (Str.lowerFirst m.name ++ ·))).Nodup :=
      nodup_append (["z", "brands"] ++ (schemaEndings ++ conversionEndings))
        [("", "z"), ("", "brands"), (m.name, "DBSchema"), (m.name, "RuntimeSchema"),
          (m.name, "APISchema"), (Str.lowerFirst m.name, "DBToRuntime"),
          (Str.lowerFirst m.name, "RuntimeToAPI"), (Str.lowerFirst m.name, "DBToAPI")] rfl
        (by decide) (by decide)
    exact (List.Perm.swap _ _ _).nodup_iff.2
      (List.nodup_cons.2 ⟨schemaName_not_mem_values m.name, hfile⟩)
  · refine List.Nodup.sublist (ht.append_right _) ?_
    exact nodup_append (["z", "Schema", "brands"] ++ typeEndings)
      [("", "z"), (m.name, "Schema"), ("", "brands"), (m.name, "DB"), (m.name, "Runtime"),
        (m.name, "API")] rfl (by decide) (by decide)

/-! ## two files -/

theorem export_cases (h : n ∈ (layerFile workDir c d r m).exports) :
    (∃ e ∈ schemaEndings ++ typeEndings, n = m.name ++ e) ∨
      ∃ e ∈ conversionEndings, n = Str.lowerFirst m.name ++ e := by
  rw [SourceFile.exports_eq (binds_layerFile workDir c d r m)] at h
  simp only [List.mem_append, List.mem_map] at h ⊢
  rcases h with (⟨e, he, rfl⟩ | ⟨e, he, rfl⟩) | ⟨e, he, rfl⟩
  · exact Or.inl ⟨e, Or.inl he, rfl⟩
  · exact Or.inr ⟨e, he, rfl⟩
  · exact Or.inl ⟨e, Or.inr he, rfl⟩

/-- a model is called like the beginning of a conversion of another model -/
def NamedAsConversion (m m' : String) : Prop :=
  m = Str.lowerFirst m' ++ "DBTo" ∨ m = Str.lowerFirst m' ++ "RuntimeTo"

theorem namedAsConversion_of_eq {x y e e' : String} (he : e ∈ schemaEndings ++ typeEndings)
    (he' : e' ∈ conversionEndings) (h : x ++ e = Str.lowerFirst y ++ e') :
    NamedAsConversion x y := by
  have hno : ∀ e ∈ schemaEndings ++ typeEndings, ∀ e' ∈ conversionEndings,
      e'.toList.isSuffixOf e.toList = false := by decide
  have hyes : ∀ e ∈ schemaEndings ++ typeEndings, ∀ e' ∈ conversionEndings,
      e.toList.isSuffixOf e'.toList = true → e' = "DBTo" ++ e ∨ e' = "RuntimeTo" ++ e := by decide
  -- the ending of the conversion is the longer one, so the name takes in its beginning
  rcases append_eq_append_cases h with ⟨t, -, rfl⟩ | ⟨t, rfl, rfl⟩
  · have hs := isSuffixOf_append t e'
    rw [hno _ he _ he'] at hs
    cases hs
  · rcases hyes e he _ he' (isSuffixOf_append t e) with ht | ht
    · rw [(String.append_left_inj e).1 ht]
      exact Or.inl rfl
    · rw [(String.append_left_inj e).1 ht]
      exact Or.inr rfl

/-- what two layer files may both export: names of one model, of two models whose files have one
name, or a type that is called like a conversion -/
theorem common_export (h : n ∈ (layerFile workDir c d r m).exports)
    (h' : n ∈ (layerFile workDir c d r m').exports) :
    Str.lowerFirst m.name = Str.lowerFirst m'.name ∨
      NamedAsConversion m.name m'.name ∨ NamedAsConversion m'.name m.name := by
  have hnamed : SuffixFree (schemaEndings ++ typeEndings) := by decide
  have hconv : SuffixFree conversionEndings := by decide
  rcases export_cases h with ⟨e, he, rfl⟩ | ⟨e, he, rfl⟩
  · rcases export_cases h' with ⟨e', he', heq⟩ | ⟨e', he', heq⟩
    · exact Or.inl (congrArg Str.lowerFirst (hnamed.eq_of_append he he' heq).2)
    · exact Or.inr (Or.inl (namedAsConversion_of_eq he he' heq))
  · rcases export_cases h' with ⟨e', he', heq⟩ | ⟨e', he', heq⟩
    · exact Or.inr (Or.inr (namedAsConversion_of_eq he' he heq.symm))
    · exact Or.inl (hconv.eq_of_append he he' heq).2

theorem exists_common_export (workDir : Parts) (c : Config) (d : Datamodel)
    (r : Option Brand.Registry) (h : NamedAsConversion m.name m'.name) :
    ∃ n, n ∈ (layerFile workDir c d r m).exports ∧ n ∈ (layerFile workDir c d r m').exports := by
  rw [SourceFile.exports_eq (binds_layerFile workDir c d r m),
    SourceFile.exports_eq (binds_layerFile workDir c d r m')]
  rcases h with h | h
  · refine ⟨Str.lowerFirst m'.name ++ "DBToRuntime", List.mem_append_right _ ?_, ?_⟩
    · rw [h]
      simp [typeEndings, String.append_assoc]
    · simp [conversionEndings]
  · refine ⟨Str.lowerFirst m'.name ++ "RuntimeToAPI", List.mem_append_right _ ?_, ?_⟩
    · rw [h]
      simp [typeEndings, String.append_assoc]
    · simp [conversionEndings]

theorem binds_transformFile (c : Config) : Binds (transformFile c).stmts ["z"]
    ["sqliteBoolean", "sqliteDateTime", "apiDateTime"] [] := ⟨rfl, rfl, rfl⟩

theorem disjoint_transformFile :
    (layerFile workDir c d r m).exports.Disjoint (transformFile c).exports := by
  intro n h h'
  have hno : ∀ n ∈ ["sqliteBoolean", "sqliteDateTime", "apiDateTime"],
      ∀ e ∈ schemaEndings ++ typeEndings ++ conversionEndings,
        e.toList.isSuffixOf n.toList = false := by decide
  have hends : ∃ x, ∃ e ∈ schemaEndings ++ typeEndings ++ conversionEndings, n = x ++ e := by
    rcases export_cases h with ⟨e, he, hn⟩ | ⟨e, he, hn⟩
    · exact ⟨_, e, List.mem_append_left _ he, hn⟩
    · exact ⟨_, e, List.mem_append_right _ he, hn⟩
  rw [SourceFile.exports_eq (binds_transformFile c), List.append_nil] at h'
  obtain ⟨x, e, he, rfl⟩ := hends
  have hs := isSuffixOf_append x e
  rw [hno _ h' e he] at hs
  cases hs

end ZodSchema.Layer
