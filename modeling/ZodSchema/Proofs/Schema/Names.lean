import ZodSchema.Proofs.Brand.Registry
import ZodSchema.Proofs.TypeScript.Names

/-!
# Names in base and brand files

* `Needs`             an entry of a model takes a name from a module
* `nodup_modelFile_iff`   when the file of a model binds no name twice
* `nodup_enumFile`    the file of the enumerations binds none twice
* `nodup_brandedFile_iff`   when the brand file binds none twice
-/

namespace ZodSchema

namespace Schema

open TypeScript Text

variable {c : Config} {d : Datamodel} {m : Model} {f : Field} {module n : String}

/-! ## what entries take -/

/-- an entry of the model takes the name from the module -/
def Needs (c : Config) (d : Datamodel) (m : Model) (module n : String) : Prop :=
  ∃ p ∈ entries c d m, p.2.imports.Has module n

theorem has_overrideDraft {o : String} (h : (overrideDraft o).imports.Has module n) :
    ∃ x, n = x ++ "Schema" := by
  unfold overrideDraft at h
  split at h
  · obtain ⟨_, he, _⟩ := h
    cases he
  · obtain ⟨t, ht, ns, he, hn⟩ := Imports.has_merge_iff.1 h
    obtain ⟨⟨p, s⟩, hr, rfl⟩ := List.mem_map.1 ht
    obtain ⟨-, rfl⟩ := Prod.mk.inj (List.mem_singleton.1 he)
    obtain rfl := List.mem_singleton.1 hn
    obtain ⟨member, -, hm⟩ := List.mem_filterMap.1 hr
    obtain ⟨q, -, hq⟩ := Option.map_eq_some_iff.1 hm
    exact ⟨q.2, (Prod.mk.inj hq).2.symm⟩

theorem has_enumDraft (h : (enumDraft c d f).imports.Has module n) : ∃ e ∈ d.enums, e.name = n := by
  unfold enumDraft at h
  split at h
  · next he =>
    obtain ⟨ns, hm, hn⟩ := h
    obtain ⟨-, rfl⟩ := Prod.mk.inj (List.mem_singleton.1 hm)
    obtain rfl := List.mem_singleton.1 hn
    obtain ⟨e, he⟩ := Option.isSome_iff_exists.1 he
    refine ⟨e, List.mem_reverse.1 (List.mem_of_find?_eq_some he), ?_⟩
    simpa using List.find?_some he
  · obtain ⟨_, hm, _⟩ := h
    cases hm

/-- entries take enumerations and schemas -/
theorem Needs.cases (h : Needs c d m module n) :
    (∃ e ∈ d.enums, e.name = n) ∨ ∃ x, n = x ++ "Schema" := by
  obtain ⟨p, hp, h⟩ := h
  obtain ⟨f, -, rfl⟩ := List.mem_map.1 hp
  replace h : (draft c d f (Annotations.of? f.documentation)).1.imports.Has module n := h
  unfold draft at h
  split at h
  · exact Or.inr (has_overrideDraft h)
  · split at h
    · exact Or.inl (has_enumDraft h)
    · obtain ⟨_, he, _⟩ := h
      cases he
    · obtain ⟨_, he, _⟩ := h
      cases he

/-! ## the file of a model -/

/-- the imports of a model's file -/
def importTable (c : Config) (d : Datamodel) (m : Model) : Imports :=
  Imports.merge (((entries c d m).map (·.2)).map (·.imports))

theorem has_importTable : (importTable c d m).Has module n ↔ Needs c d m module n := by
  unfold importTable Needs
  rw [Imports.has_merge_iff]
  simp

theorem binds_modelFile (c : Config) (d : Datamodel) (m : Model) :
    Binds (modelFile c d m).stmts ("z" :: (importTable c d m).flatMap (·.2)) [schemaName m.name]
      [] := ⟨by simp [modelFile, header, Stmt.taken, zodImport, importTable], rfl, rfl⟩

theorem schemaName_ne {s : String} (hs : s.toList.length < 6) : schemaName n ≠ s := by
  rintro rfl
  rw [schemaName, String.toList_append, List.length_append] at hs
  exact absurd hs (by simp)

/-- a model's file binds no name twice when its entries take no name from two modules and not that
of its own schema -/
theorem nodup_modelFile_iff (hz : ∀ e ∈ d.enums, e.name ≠ "z") :
    (modelFile c d m).values.Nodup ∧ (modelFile c d m).types.Nodup ↔
      (∀ module module' n, Needs c d m module n → Needs c d m module' n → module = module') ∧
        ∀ module, ¬ Needs c d m module (schemaName m.name) := by
  have hb := binds_modelFile c d m
  have hne : "z" ∉ (importTable c d m).flatMap (·.2) := by
    intro h
    obtain ⟨module, h⟩ := Imports.mem_names.1 h
    rcases (has_importTable.1 h).cases with ⟨e, he, hn⟩ | ⟨x, hx⟩
    · exact hz e he hn
    · exact schemaName_ne (by decide) hx.symm
  have hself : schemaName m.name ≠ "z" := schemaName_ne (by decide)
  have hall : ("z" :: (importTable c d m).flatMap (·.2)).Nodup ↔
      ((importTable c d m).flatMap (·.2)).Nodup := by rw [List.nodup_cons, and_iff_right hne]
  have hown : ("z" :: (importTable c d m).flatMap (·.2) ++ [schemaName m.name]).Nodup ↔
      schemaName m.name ∉ (importTable c d m).flatMap (·.2) ∧
        ((importTable c d m).flatMap (·.2)).Nodup := by
    rw [← List.concat_eq_append, List.nodup_concat, hall, List.mem_cons, or_iff_right hself]
  have hu : ((importTable c d m).flatMap (·.2)).Nodup ↔
      ∀ module module' n, Needs c d m module n → Needs c d m module' n → module = module' := by
    rw [importTable, (Imports.tidy_merge _).nodup_iff]
    exact forall₃_congr fun _ _ _ => by rw [← importTable, has_importTable, has_importTable]
  rw [SourceFile.nodup_values_iff hb, SourceFile.nodup_types_iff hb, List.append_nil, hown, hall, hu,
    Imports.mem_names]
  simp only [has_importTable, not_exists]
  exact ⟨fun h => ⟨h.2, h.1.1⟩, fun h => ⟨⟨h.2, h.1⟩, h.1⟩⟩

theorem exports_modelFile (c : Config) (d : Datamodel) (m : Model) :
    (modelFile c d m).exports = [schemaName m.name] := SourceFile.exports_eq (binds_modelFile c d m)

/-! ## the file of the enumerations -/

variable {s : SourceFile}

theorem binds_enumFile (hs : enumFile? c d = some s) :
    Binds s.stmts [] (d.enums.map (·.name)) (d.enums.map (·.name)) := by
  unfold enumFile? at hs
  split at hs
  · cases hs
  · obtain rfl := Option.some.inj hs
    have hh : Binds (header ++ [.blank]) [] [] [] := ⟨rfl, rfl, rfl⟩
    have he : Binds (d.enums.flatMap enumStmts) [] (d.enums.flatMap fun e => [e.name])
        (d.enums.flatMap fun e => [e.name]) := .flatMap d.enums fun e _ => ⟨rfl, rfl, rfl⟩
    rw [← List.map_eq_flatMap] at he
    have h := hh.append he
    rwa [List.append_assoc] at h

theorem nodup_enumFile (hs : enumFile? c d = some s) (hn : (d.enums.map (·.name)).Nodup) :
    s.values.Nodup ∧ s.types.Nodup := by
  rw [SourceFile.nodup_values_iff (binds_enumFile hs), SourceFile.nodup_types_iff (binds_enumFile hs)]
  exact ⟨hn, hn⟩

theorem mem_exports_enumFile (hs : enumFile? c d = some s) :
    n ∈ s.exports ↔ ∃ e ∈ d.enums, e.name = n := by
  rw [SourceFile.exports_eq (binds_enumFile hs), List.mem_append, or_self, List.mem_map]

end Schema

namespace Brand

open TypeScript

variable {c : Config} {r : Registry}

theorem binds_brandedFile (c : Config) (r : Registry) :
    Binds (brandedFile c r).stmts ["z"] r.names (r.names ++ ["BrandName"]) := by
  have hh : Binds (header ++ [zodImport, .blank]) ["z"] [] [] := ⟨rfl, rfl, rfl⟩
  have hs : Binds (r.sorted.flatMap brandStmts) [] (r.sorted.flatMap fun b => [b.name])
      (r.sorted.flatMap fun b => [b.name]) := .flatMap r.sorted fun b _ => ⟨rfl, rfl, rfl⟩
  rw [← List.map_eq_flatMap, Registry.sorted_names] at hs
  have hu : Binds [.doc ["Union of all brand names"], .typeDef "BrandName" (nameUnion r), .blank]
      [] [] ["BrandName"] := ⟨rfl, rfl, rfl⟩
  have h := (hh.append hs).append hu
  have hn : [] ++ r.names ++ [] = r.names := List.append_nil _
  rw [hn] at h
  exact h

/-- the brand file binds no name twice when no brand is called like the union of the brands -/
theorem nodup_brandedFile_iff (hz : "z" ∉ r.names) :
    (brandedFile c r).values.Nodup ∧ (brandedFile c r).types.Nodup ↔ "BrandName" ∉ r.names := by
  have hb := binds_brandedFile c r
  have hn : r.names.Nodup := Text.Str.nodup_sortDedup _
  have hall : ("z" :: r.names).Nodup := List.nodup_cons.2 ⟨hz, hn⟩
  have ht : ("z" :: r.names ++ ["BrandName"]).Nodup ↔ "BrandName" ∉ r.names := by
    rw [← List.concat_eq_append, List.nodup_concat, List.mem_cons, or_iff_right (by decide),
      and_iff_left hall]
  rw [SourceFile.nodup_values_iff hb, SourceFile.nodup_types_iff hb]
  exact (and_iff_right hall).trans ht

end Brand

end ZodSchema
