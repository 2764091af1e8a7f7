import ZodSchema.Contract.Config
import ZodSchema.Generation.Files
import ZodSchema.Proofs.Crud.File
import ZodSchema.Proofs.Schema.Entry

/-!
# References between generated files

Files of four families take names from each other.  `Closed` says that what a file takes is
declared by a file of the same run, and that the index of a family lists the file that declares it.

* `Origin`, `mem_familyFiles`   the kinds of files
* `Provides`         a family declares a name in a file that its index lists
* `Closed`           the references that hold in a list of files
* `generate_eq_ok`   when there is an output, and which
* `generate_closed`  they hold in every output
-/

namespace ZodSchema

/-! ## accepted settings -/

namespace Config

variable {c : Config}

/-- the enum file is named after its module -/
theorem enumStem_append (hc : c.objection? = none) : c.enumStem ++ ".ts" = c.enumFileName := by
  unfold objection? at hc
  split at hc
  · cases hc
  · split at hc
    · cases hc
    · split at hc
      · next h => exact Text.Str.dropLast_append_of_endsWith (n := 3) rfl h
      · cases hc

end Config

namespace Generation

open TypeScript

/-! ## kinds of files -/

/-- the files of the enabled families, by family and kind -/
inductive Origin (workDir : Text.Parts) (d : Datamodel) (c : Config) (r : Brand.Registry) :
    Family → SourceFile → Prop where
  | model (hz : c.zodSchemas = true) {m : Model} (hm : m ∈ d.models) :
      Origin workDir d c r .schemas (Schema.modelFile c d m)
  | enums (hz : c.zodSchemas = true) {s : SourceFile} (hs : Schema.enumFile? c d = some s) :
      Origin workDir d c r .schemas s
  | baseIndex (hz : c.zodSchemas = true) : Origin workDir d c r .schemas (Schema.baseIndex c d)
  | branded (hb : c.brandRegistry = true) : Origin workDir d c r .brands (Brand.brandedFile c r)
  | brandIndex (hb : c.brandRegistry = true) :
      Origin workDir d c r .brands (indexFile Family.brands.name c.brandsDir ["branded"])
  | layer (hl : c.threeLayers = true) (hz : c.zodSchemas = true) {m : Model}
      (hm : m ∈ d.models) :
      Origin workDir d c r .layers (Layer.layerFile workDir c d (activeRegistry c r) m)
  | transforms (hl : c.threeLayers = true) (hz : c.zodSchemas = true) :
      Origin workDir d c r .layers (Layer.transformFile c)
  | layerIndex (hl : c.threeLayers = true) (hz : c.zodSchemas = true) :
      Origin workDir d c r .layers (Layer.layerIndex c d)
  | crud (hc : c.crudSchemas = true) (hz : c.zodSchemas = true) {m : Model}
      (hm : m ∈ Crud.eligible c d) :
      Origin workDir d c r .crud (Crud.crudFile workDir (crudBase c d (activeRegistry c r)) m)
  | crudIndex (hc : c.crudSchemas = true) (hz : c.zodSchemas = true)
      (hi : c.crud.generateIndex = true) :
      Origin workDir d c r .crud
        (Crud.crudIndex (crudBase c d (activeRegistry c r)) (Crud.eligible c d))

variable {workDir : Text.Parts} {d : Datamodel} {c : Config} {r : Brand.Registry} {s : SourceFile}
  {m : Model} {fam : Family}

theorem perm_sortedModels (d : Datamodel) : d.sortedModels.Perm d.models := List.mergeSort_perm ..

theorem mem_sortedModels : m ∈ d.sortedModels ↔ m ∈ d.models := List.mem_mergeSort

theorem origin_schemas :
    Origin workDir d c r .schemas s ↔ c.zodSchemas = true ∧ s ∈ Schema.baseFiles c d := by
  simp only [Schema.baseFiles, List.mem_append, List.mem_singleton, List.mem_map, Option.mem_toList,
    mem_sortedModels]
  constructor
  · intro h
    cases h with
    | model hz hm => exact ⟨hz, Or.inl (Or.inl ⟨_, hm, rfl⟩)⟩
    | enums hz hs => exact ⟨hz, Or.inl (Or.inr hs)⟩
    | baseIndex hz => exact ⟨hz, Or.inr rfl⟩
  · rintro ⟨hz, (⟨m, hm, rfl⟩ | hs) | rfl⟩
    · exact .model hz hm
    · exact .enums hz hs
    · exact .baseIndex hz

theorem origin_brands :
    Origin workDir d c r .brands s ↔ c.brandRegistry = true ∧ s ∈ Brand.brandFiles c r := by
  simp only [Brand.brandFiles, List.mem_cons, List.not_mem_nil, or_false]
  constructor
  · intro h
    cases h with
    | branded hb => exact ⟨hb, Or.inl rfl⟩
    | brandIndex hb => exact ⟨hb, Or.inr rfl⟩
  · rintro ⟨hb, rfl | rfl⟩
    · exact .branded hb
    · exact .brandIndex hb

theorem origin_layers :
    Origin workDir d c r .layers s ↔ (c.threeLayers && c.zodSchemas) = true ∧
      s ∈ Layer.layerFiles workDir c d (activeRegistry c r) := by
  simp only [Layer.layerFiles, List.mem_append, List.mem_cons, List.not_mem_nil, or_false,
    List.mem_map, mem_sortedModels, Bool.and_eq_true]
  constructor
  · intro h
    cases h with
    | layer hl hz hm => exact ⟨⟨hl, hz⟩, Or.inl ⟨_, hm, rfl⟩⟩
    | transforms hl hz => exact ⟨⟨hl, hz⟩, Or.inr (Or.inl rfl)⟩
    | layerIndex hl hz => exact ⟨⟨hl, hz⟩, Or.inr (Or.inr rfl)⟩
  · rintro ⟨⟨hl, hz⟩, ⟨m, hm, rfl⟩ | rfl | rfl⟩
    · exact .layer hl hz hm
    · exact .transforms hl hz
    · exact .layerIndex hl hz

theorem origin_crud :
    Origin workDir d c r .crud s ↔ (c.crudSchemas && c.zodSchemas) = true ∧
      s ∈ Crud.crudFiles workDir (crudBase c d (activeRegistry c r)) := by
  simp only [Crud.crudFiles, List.mem_append, List.mem_map, List.mem_ite_nil_right,
    List.mem_singleton, Bool.and_eq_true]
  constructor
  · intro h
    cases h with
    | crud hc hz hm => exact ⟨⟨hc, hz⟩, Or.inl ⟨_, hm, rfl⟩⟩
    | crudIndex hc hz hi => exact ⟨⟨hc, hz⟩, Or.inr ⟨hi, rfl⟩⟩
  · rintro ⟨⟨hc, hz⟩, ⟨m, hm, rfl⟩ | ⟨hi, rfl⟩⟩
    · exact .crud hc hz hm
    · exact .crudIndex hc hz hi

/-- every file of a run is of one of the kinds -/
theorem mem_familyFiles :
    s ∈ familyFiles workDir d c r ↔ ∃ fam, Origin workDir d c r fam s := by
  simp only [familyFiles, List.mem_append, List.mem_ite_nil_right]
  constructor
  · rintro (((h | h) | h) | h)
    · exact ⟨_, origin_schemas.2 h⟩
    · exact ⟨_, origin_brands.2 h⟩
    · exact ⟨_, origin_layers.2 h⟩
    · exact ⟨_, origin_crud.2 h⟩
  · rintro ⟨fam, h⟩
    cases fam with
    | schemas => exact Or.inl (Or.inl (Or.inl (origin_schemas.1 h)))
    | brands => exact Or.inl (Or.inl (Or.inr (origin_brands.1 h)))
    | layers => exact Or.inl (Or.inr (origin_layers.1 h))
    | crud => exact Or.inr (origin_crud.1 h)

theorem Origin.family (h : Origin workDir d c r fam s) : s.family = fam.name := by
  cases h with
  | enums hz hs =>
    unfold Schema.enumFile? at hs
    split at hs
    · cases hs
    · rw [← Option.some.inj hs]
  | _ => rfl

theorem Origin.zodSchemas (h : Origin workDir d c r fam s) (hf : fam ≠ .brands) :
    c.zodSchemas = true := by
  cases h with
  | branded | brandIndex => exact absurd rfl hf
  | _ => assumption

/-- files that bear the name of a family come from it -/
theorem origin_of_family (fam : Family) (h : s ∈ familyFiles workDir d c r) (hs : s.family = fam.name) :
    Origin workDir d c r fam s := by
  obtain ⟨fam', h⟩ := mem_familyFiles.1 h
  have hn : fam'.name = fam.name := h.family.symm.trans hs
  have he : fam' = fam := by
    revert hn
    cases fam' <;> cases fam <;> decide
  exact he ▸ h

/-! ## listed files -/

section
variable (hz : c.zodSchemas = true)
include hz

theorem listed_model (hm : m ∈ d.models) :
    Listed (familyFiles workDir d c r) c.schemasDir (Schema.modelFile c d m) :=
  listed_of_mem _ (mem_familyFiles.2 ⟨_, .baseIndex hz⟩) rfl
    (List.mem_append_left _ (List.mem_map_of_mem hm))

theorem listed_enums (hc : c.objection? = none) (hs : Schema.enumFile? c d = some s) :
    s.path = c.schemasDir ++ "/" ++ c.enumFileName ∧
      Listed (familyFiles workDir d c r) c.schemasDir s := by
  unfold Schema.enumFile? at hs
  split at hs
  · cases hs
  · next hne =>
    obtain rfl := Option.some.inj hs
    refine ⟨rfl, listed_of_mem c.enumStem (mem_familyFiles.2 ⟨_, .baseIndex hz⟩) ?_ ?_⟩
    · simp only [Schema.tsPath, ← Config.enumStem_append hc, String.append_assoc]
    · unfold Schema.modules
      rw [if_neg hne]
      exact List.mem_append_right _ (List.mem_singleton_self _)

theorem listed_layer (hl : c.threeLayers = true) (hm : m ∈ d.models) :
    Listed (familyFiles workDir d c r) c.layersDir
      (Layer.layerFile workDir c d (activeRegistry c r) m) :=
  listed_of_mem _ (mem_familyFiles.2 ⟨_, .layerIndex hl hz⟩) rfl
    (List.mem_append_left _ (List.mem_map.2 ⟨m, hm, rfl⟩))

theorem listed_transforms (hl : c.threeLayers = true) :
    Listed (familyFiles workDir d c r) c.layersDir (Layer.transformFile c) :=
  listed_of_mem _ (mem_familyFiles.2 ⟨_, .layerIndex hl hz⟩) rfl
    (List.mem_append_right _ (List.mem_singleton_self _))

theorem listed_crud (hcr : c.crudSchemas = true) (hi : c.crud.generateIndex = true)
    (hm : m ∈ Crud.eligible c d) :
    Listed (familyFiles workDir d c r) c.crud.outputDir
      (Crud.crudFile workDir (crudBase c d (activeRegistry c r)) m) := by
  refine listed_of_mem (m.name ++ ".schema") (mem_familyFiles.2 ⟨_, .crudIndex hcr hz hi⟩) ?_
    (List.mem_map.2 ⟨m, hm, rfl⟩)
  show c.crud.outputDir ++ "/" ++ m.name ++ ".schema.ts" = _
  simp only [Schema.tsPath, String.append_assoc]
  rfl

end

theorem listed_branded (hb : c.brandRegistry = true) :
    Listed (familyFiles workDir d c r) c.brandsDir (Brand.brandedFile c r) := by
  refine listed_of_mem "branded" (mem_familyFiles.2 ⟨_, .brandIndex hb⟩) ?_
    (List.mem_singleton_self _)
  show c.brandsDir ++ "/branded.ts" = _
  simp only [Schema.tsPath, String.append_assoc]
  rfl

/-- a file with constants is listed; CRUD files are when an index is wanted -/
theorem exists_listed (hc : c.objection? = none) (h : Origin workDir d c r fam s)
    (hs : s.constants ≠ []) (hi : fam = .crud → c.crud.generateIndex = true) :
    ∃ dir, (fam, dir) ∈ c.familyDirs ∧ Listed (familyFiles workDir d c r) dir s := by
  have index : ∀ {family dir modules}, (indexFile family dir modules).constants ≠ [] → False :=
    fun h => h (constants_indexFile ..)
  cases h with
  | model hz hm => exact ⟨_, by simp [Config.familyDirs, hz], listed_model hz hm⟩
  | enums hz hs => exact ⟨_, by simp [Config.familyDirs, hz], (listed_enums hz hc hs).2⟩
  | baseIndex => exact (index hs).elim
  | branded hb => exact ⟨_, by simp [Config.familyDirs, hb], listed_branded hb⟩
  | brandIndex => exact (index hs).elim
  | layer hl hz hm => exact ⟨_, by simp [Config.familyDirs, hl], listed_layer hz hl hm⟩
  | transforms hl hz => exact ⟨_, by simp [Config.familyDirs, hl], listed_transforms hz hl⟩
  | layerIndex => exact (index hs).elim
  | crud hcr hz hm => exact ⟨_, by simp [Config.familyDirs, hcr], listed_crud hz hcr (hi rfl) hm⟩
  | crudIndex => exact (index hs).elim

/-! ## references -/

/-- a file of the family declares the name, and the index of the family lists the file -/
def Provides (files : List SourceFile) (family : Family) (dir name : String) : Prop :=
  ∃ s ∈ files, s.family = family.name ∧ name ∈ s.constants ∧ Listed files dir s

/-- the brand file declares the brand, once, and is listed -/
def ProvidesBrand (files : List SourceFile) (c : Config) (brand : String) : Prop :=
  ∃ s ∈ files, s.family = Family.brands.name ∧ s.path = c.brandsDir ++ "/branded.ts" ∧
    s.constants.count brand = 1 ∧ Listed files c.brandsDir s

/-- the references between the files of a run with registry `r` -/
structure Closed (workDir : Text.Parts) (d : Datamodel) (c : Config) (r : Option Brand.Registry)
    (files : List SourceFile) : Prop where
  /-- an enumeration that an entry checks is imported from the enum file, which declares it -/
  enums : ∀ m ∈ d.models, Schema.modelFile c d m ∈ files → ∀ p ∈ Schema.entries c d m, ∀ type,
    p.2.expr.opening = "z.nativeEnum(" ++ type ++ ")" →
      (type, Text.quote ("./" ++ c.enumStem)) ∈ (Schema.modelFile c d m).takes ∧
        ∃ s ∈ files, s.path = c.schemasDir ++ "/" ++ c.enumFileName ∧
          (∃ value, "export const " ++ type ++ " = " ++ value ∈ s.stmts.flatMap Stmt.lines) ∧
          Listed files c.schemasDir s
  /-- layer files take from the base files what these declare -/
  layerTakes : ∀ s ∈ files, s.family = Family.layers.name → ∀ t ∈ s.takes,
    t = zodTaken ∨
      t.2 = "\"" ++ Text.relativeModule workDir c.layersDir c.schemasDir ++ "\"" ∧
        Provides files .schemas c.schemasDir t.1
  /-- CRUD files take from the base files, and from layer files when there are any -/
  crudTakes : ∀ s ∈ files, s.family = Family.crud.name → ∀ t ∈ s.takes,
    t = zodTaken ∨
      t.2 = Text.quote (Text.relativeModule workDir c.crud.outputDir c.schemasDir) ∧
        Provides files .schemas c.schemasDir t.1 ∨
      c.threeLayers = true ∧
        t.2 = Text.quote (Text.relativeModule workDir c.crud.outputDir c.layersDir) ∧
        Provides files .layers c.layersDir t.1
  /-- a layer derives from the base schema of its model -/
  layerSources : ∀ m ∈ d.models, Layer.layerFile workDir c d r m ∈ files →
    ∀ l ∈ Layer.layersOf c d r m, l.model = m.name ∧
      Provides files .schemas c.schemasDir (Schema.schemaName l.model)
  /-- CRUD blocks derive from the base schema or, with layers, from the runtime schema -/
  crudSources : ∀ m ∈ d.models, Crud.crudFile workDir (crudBase c d r) m ∈ files →
    ∀ n ∈ (Crud.setOf (crudBase c d r) m).value.sources,
      n = Schema.schemaName m.name ∧ Provides files .schemas c.schemasDir n ∨
      c.threeLayers = true ∧ n = m.name ++ "RuntimeSchema" ∧ Provides files .layers c.layersDir n
  /-- a layer file takes the brands exactly when one stands in a layer, and no other module -/
  layerSpaces : ∀ m ∈ d.models, Layer.layerFile workDir c d r m ∈ files →
    ((Layer.layerFile workDir c d r m).spaces ≠ [] ↔
      ∃ l ∈ Layer.layersOf c d r m, ∃ o ∈ l.overrides, ∃ b, o.brand = some b) ∧
    ∀ e ∈ (Layer.layerFile workDir c d r m).spaces,
      e = ("brands", "\"" ++ Text.relativeModule workDir c.layersDir c.brandsDir ++ "\"")
  /-- a brand in a layer stands for its field and is declared -/
  layerBrands : ∀ m ∈ d.models, Layer.layerFile workDir c d r m ∈ files →
    ∀ l ∈ Layer.layersOf c d r m, ∀ o ∈ l.overrides, ∀ b, o.brand = some b →
      (∃ f e, o.expr = Layer.rewrap (Layer.listWrap f ("brands." ++ b)) f e) ∧
        ProvidesBrand files c b
  /-- a CRUD file takes the brands exactly when one stands for an identifier, and no other
  module -/
  crudSpaces : ∀ m ∈ d.models, Crud.crudFile workDir (crudBase c d r) m ∈ files →
    ((Crud.crudFile workDir (crudBase c d r) m).spaces ≠ [] ↔
      ∃ p ∈ (Crud.contextOf (crudBase c d r) m).ids, ∃ b, r.bind (·.fieldBrand? m p.1) = some b) ∧
    ∀ e ∈ (Crud.crudFile workDir (crudBase c d r) m).spaces,
      e = ("brands", Text.quote (Text.relativeModule workDir c.crud.outputDir c.brandsDir))
  /-- a brand of an identifier stands for it in the update block and is declared -/
  crudBrands : ∀ m ∈ d.models, Crud.crudFile workDir (crudBase c d r) m ∈ files →
    ∀ p ∈ (Crud.contextOf (crudBase c d r) m).ids, ∀ b, r.bind (·.fieldBrand? m p.1) = some b →
      (p.2.key, "brands." ++ b) ∈ (Crud.setOf (crudBase c d r) m).value.update.ids ∧
        ProvidesBrand files c b
  /-- files that declare something are listed; CRUD files, from which nothing is taken, when an
  index is wanted -/
  listed : ∀ s ∈ files, s.constants ≠ [] →
    (s.family = Family.crud.name → c.crud.generateIndex = true) →
      ∃ fam dir, (fam, dir) ∈ c.familyDirs ∧ s.family = fam.name ∧ Listed files dir s

theorem provides_base (hz : c.zodSchemas = true) (hm : m ∈ d.models) :
    Provides (familyFiles workDir d c r) .schemas c.schemasDir (Schema.schemaName m.name) := by
  have hc : (Schema.modelFile c d m).constants = [Schema.schemaName m.name] := rfl
  exact ⟨_, mem_familyFiles.2 ⟨_, .model hz hm⟩, rfl, by simp [hc], listed_model hz hm⟩

theorem provides_runtime (hl : c.threeLayers = true) (hz : c.zodSchemas = true)
    (hm : m ∈ d.models) :
    Provides (familyFiles workDir d c r) .layers c.layersDir (m.name ++ "RuntimeSchema") :=
  ⟨_, mem_familyFiles.2 ⟨_, .layer hl hz hm⟩, rfl, Layer.runtime_mem_constants .., listed_layer hz hl hm⟩

/-- an active registry is the one that the brand file is written from -/
theorem providesBrand {f : Field} {b : String}
    (h : (activeRegistry c r).bind (·.fieldBrand? m f) = some b) :
    ProvidesBrand (familyFiles workDir d c r) c b := by
  obtain ⟨reg, hr, hf⟩ := Option.bind_eq_some_iff.1 h
  unfold activeRegistry at hr
  split at hr
  · next hb =>
    obtain rfl := Option.some.inj hr
    exact ⟨_, mem_familyFiles.2 ⟨_, .branded hb⟩, rfl, rfl, Brand.count_constants_brandedFile c hf,
      listed_branded hb⟩
  · cases hr

/-- the enum file declares the enumerations -/
theorem mem_constants_enumFile {e : EnumDef} (he : e ∈ d.enums) :
    ∃ s, Schema.enumFile? c d = some s ∧ e.name ∈ s.constants := by
  have hne : ¬ d.enums.isEmpty = true := by
    rw [List.isEmpty_iff]
    exact List.ne_nil_of_mem he
  have hs : (Stmt.const e.name "\x7b" (e.values.map (fun v =>
      "  " ++ Text.key v ++ ": " ++ Text.quote v ++ ",") ++ ["\x7d as const;"])) ∈
      d.enums.flatMap Schema.enumStmts :=
    List.mem_flatMap.2 ⟨e, he, List.mem_cons_of_mem _ List.mem_cons_self⟩
  unfold Schema.enumFile?
  rw [if_neg hne]
  exact ⟨_, rfl, SourceFile.mem_constants.2
    ⟨_, _, List.mem_append_right _ (List.mem_cons_of_mem _ hs)⟩⟩

/-- what an entry imports is taken by the file of its model -/
theorem takes_modelFile {p : Field × Schema.Entry} (hp : p ∈ Schema.entries c d m)
    {module name : String} (h : p.2.imports.Has module name) :
    (name, Text.quote module) ∈ (Schema.modelFile c d m).takes := by
  have ht : p.2.imports ∈ ((Schema.entries c d m).map (·.2)).map (·.imports) :=
    List.mem_map_of_mem (List.mem_map_of_mem hp)
  exact List.mem_flatMap.2 ⟨_, List.mem_append_right _ (List.mem_cons_of_mem _ List.mem_cons_self),
    (Imports.has_merge ht h).takes⟩

/-! ## closure -/

theorem layer_takes (h : Origin workDir d c r .layers s) {t : String × String} (ht : t ∈ s.takes) :
    t = zodTaken ∨
      t.2 = "\"" ++ Text.relativeModule workDir c.layersDir c.schemasDir ++ "\"" ∧
        Provides (familyFiles workDir d c r) .schemas c.schemasDir t.1 := by
  cases h with
  | layer hl hz hm =>
    rw [(Layer.imports_layerFile ..).1] at ht
    simp only [List.mem_cons, List.not_mem_nil, or_false] at ht
    rcases ht with rfl | rfl
    · exact Or.inl rfl
    · exact Or.inr ⟨rfl, provides_base hz hm⟩
  | transforms => exact Or.inl (List.mem_singleton.1 ht)
  | layerIndex =>
    rw [Layer.layerIndex, takes_indexFile] at ht
    cases ht

theorem mem_eligible :
    m ∈ Crud.eligible c d ↔ m ∈ d.models ∧ c.crud.includes m.name = true := by
  unfold Crud.eligible
  rw [List.mem_mergeSort, List.mem_filter]

theorem mem_models_of_eligible (h : m ∈ Crud.eligible c d) : m ∈ d.models := (mem_eligible.1 h).1

theorem crud_takes (h : Origin workDir d c r .crud s) {t : String × String} (ht : t ∈ s.takes) :
    t = zodTaken ∨
      t.2 = Text.quote (Text.relativeModule workDir c.crud.outputDir c.schemasDir) ∧
        Provides (familyFiles workDir d c r) .schemas c.schemasDir t.1 ∨
      c.threeLayers = true ∧
        t.2 = Text.quote (Text.relativeModule workDir c.crud.outputDir c.layersDir) ∧
        Provides (familyFiles workDir d c r) .layers c.layersDir t.1 := by
  cases h with
  | crud hcr hz hm =>
    have hm := mem_models_of_eligible hm
    rcases Crud.mem_takes_crudFile ht with rfl | rfl | ⟨hl, rfl⟩
    · exact Or.inl rfl
    · exact Or.inr (Or.inl ⟨rfl, provides_base hz hm⟩)
    · exact Or.inr (Or.inr ⟨hl, rfl, provides_runtime hl hz hm⟩)
  | crudIndex =>
    rw [Crud.crudIndex, takes_indexFile] at ht
    cases ht

theorem crud_sources (hz : c.zodSchemas = true) (hm : m ∈ d.models) {n : String}
    (hn : n ∈ (Crud.setOf (crudBase c d (activeRegistry c r)) m).value.sources) :
    n = Schema.schemaName m.name ∧
        Provides (familyFiles workDir d c r) .schemas c.schemasDir n ∨
      c.threeLayers = true ∧ n = m.name ++ "RuntimeSchema" ∧
        Provides (familyFiles workDir d c r) .layers c.layersDir n := by
  have base : n = Schema.schemaName m.name → n = Schema.schemaName m.name ∧
      Provides (familyFiles workDir d c r) .schemas c.schemasDir n := fun h =>
    ⟨h, h ▸ provides_base hz hm⟩
  rcases Crud.Context.mem_sources hn with hn | hn
  · rw [Crud.source_contextOf] at hn
    split at hn
    · next hl => exact Or.inr ⟨hl, hn, hn ▸ provides_runtime hl hz hm⟩
    · exact Or.inl (base hn)
  · exact Or.inl (base hn)

/-- the references hold between the files of the enabled families -/
theorem familyFiles_closed (hc : c.objection? = none) :
    Closed workDir d c (activeRegistry c r) (familyFiles workDir d c r) where
  enums m _ hm p hp type ho := by
    have hz := (origin_of_family .schemas hm rfl).zodSchemas (by decide)
    obtain ⟨f, _, rfl⟩ := List.mem_map.1 hp
    obtain ⟨⟨e, he, rfl⟩, hi⟩ := Schema.enum_of_opening ho
    obtain ⟨s, hs, hn⟩ := mem_constants_enumFile (c := c) he
    obtain ⟨hpath, hl⟩ := listed_enums hz hc hs
    exact ⟨takes_modelFile hp hi, s, mem_familyFiles.2 ⟨_, .enums hz hs⟩, hpath,
      SourceFile.exists_line hn, hl⟩
  layerTakes s hs hf t ht := layer_takes (origin_of_family _ hs hf) ht
  crudTakes s hs hf t ht := crud_takes (origin_of_family _ hs hf) ht
  layerSources m hm hs l hl := by
    have hz := (origin_of_family .layers hs rfl).zodSchemas (by decide)
    rw [Layer.layersOf_model hl]
    exact ⟨rfl, provides_base hz hm⟩
  crudSources m hm hs n hn := by
    have hz := (origin_of_family .crud hs rfl).zodSchemas (by decide)
    exact crud_sources hz hm hn
  layerSpaces m hm hs := by
    rw [(Layer.imports_layerFile ..).2, ← Layer.usesBrands_iff]
    split <;> simp [*]
  layerBrands m hm hs l hl o ho b hb := by
    obtain ⟨f, e, hf, he⟩ := Layer.exists_of_brand hl ho hb
    exact ⟨⟨f, e, he⟩, providesBrand hf⟩
  crudSpaces m hm hs := by
    have hu := Crud.Context.usesBrands_iff
      (x := Crud.contextOf (crudBase c d (activeRegistry c r)) m)
    rw [(Crud.imports_crudFile ..).2]
    refine ⟨Iff.trans ?_ hu, ?_⟩
    · split <;> simp [*]
    · intro e he
      split at he
      · exact List.mem_singleton.1 he
      · cases he
  crudBrands m hm hs p hp b hb := ⟨Crud.Context.mem_ids_of_brand hp hb, providesBrand hb⟩
  listed s hs hn hi := by
    obtain ⟨fam, h⟩ := mem_familyFiles.1 hs
    obtain ⟨dir, hd, hl⟩ := exists_listed hc h hn fun hf => hi (hf ▸ h.family)
    exact ⟨fam, dir, hd, h.family, hl⟩

theorem sourceFiles_eq_ok {g : Generated SourceFile} :
    sourceFiles workDir d c = .ok g ↔
      ∃ r, Brand.Registry.ofDatamodel d c.strictBrands = .ok r ∧ longInteger? d c = none ∧
        g = ⟨familyFiles workDir d c r, familyWarnings d c r⟩ := by
  unfold sourceFiles
  cases Brand.Registry.ofDatamodel d c.strictBrands with
  | error e => simp
  | ok r => cases longInteger? d c <;> simp [eq_comm]

theorem generate_eq_ok {g : Generated GeneratedFile} :
    generate workDir d c = .ok g ↔
      ∃ r, Brand.Registry.ofDatamodel d c.strictBrands = .ok r ∧ longInteger? d c = none ∧
        g = ⟨(familyFiles workDir d c r).map SourceFile.file, familyWarnings d c r⟩ := by
  unfold generate sourceFiles
  cases Brand.Registry.ofDatamodel d c.strictBrands with
  | error e => simp [Except.map]
  | ok r => cases longInteger? d c <;> simp [Except.map, eq_comm]

theorem sourceFiles_closed {g : Generated SourceFile} (hc : c.objection? = none)
    (h : sourceFiles workDir d c = .ok g) :
    ∃ r, Brand.Registry.ofDatamodel d c.strictBrands = .ok r ∧
      Closed workDir d c (activeRegistry c r) g.files := by
  obtain ⟨r, hr, -, rfl⟩ := sourceFiles_eq_ok.1 h
  exact ⟨r, hr, familyFiles_closed hc⟩

theorem generate_eq_map : generate workDir d c =
    (sourceFiles workDir d c).map fun src => ⟨src.files.map SourceFile.file, src.warnings⟩ := rfl

/-- **References between generated files.**  With accepted settings every output consists of the
texts of the files of the enabled families, and between these the references hold: what a file takes
from another is declared there. -/
theorem generate_closed {g : Generated GeneratedFile} (hc : c.objection? = none)
    (h : generate workDir d c = .ok g) :
    ∃ src r, sourceFiles workDir d c = .ok src ∧
      g = ⟨src.files.map SourceFile.file, src.warnings⟩ ∧
      Brand.Registry.ofDatamodel d c.strictBrands = .ok r ∧
      Closed workDir d c (activeRegistry c r) src.files := by
  rw [generate_eq_map] at h
  cases hs : sourceFiles workDir d c with
  | error e =>
    rw [hs] at h
    cases h
  | ok src =>
    rw [hs] at h
    obtain ⟨r, hr, hcl⟩ := sourceFiles_closed hc hs
    exact ⟨src, r, rfl, (Except.ok.inj h).symm, hr, hcl⟩

/-- a model with a brand and an enumeration -/
def account : Datamodel :=
  { models := [
      { name := "User"
        fields := [
          { name := "id", type := "String", isId := true
            documentation := some "@zod.cuid2().brand(\"UserId\")" },
          { name := "role", type := "Role", kind := ⟨.enumeration, true⟩ }] }]
    enums := [{ name := "Role", values := ["ADMIN", "GUEST"] }] }

def allFamilies : Config := { brandRegistry := true, threeLayers := true, crudSchemas := true }

theorem generate_closed_account :
    allFamilies.objection? = none ∧
      ∃ g src r, generate [] account allFamilies = .ok g ∧
        sourceFiles [] account allFamilies = .ok src ∧
        g = ⟨src.files.map SourceFile.file, src.warnings⟩ ∧
        Closed [] account allFamilies (activeRegistry allFamilies r) src.files := by
  have hc : allFamilies.objection? = none := by decide +kernel
  have hok : (generate [] account allFamilies).isOk = true := by decide +kernel
  cases hg : generate [] account allFamilies with
  | error e =>
    rw [hg] at hok
    cases hok
  | ok g =>
    obtain ⟨src, r, hs, hf, -, hcl⟩ := generate_closed hc hg
    exact ⟨hc, g, src, r, rfl, hs, hf, hcl⟩

end Generation

end ZodSchema
