import ZodSchema.Proofs.Generation.Paths

/-!
# Indexes of families

The index of a family re-exports the modules of all other files of the family.

* `filesOf`, `filter_family`   the files of one family
* `Indexed`             files of modules, with an index of these modules after them
* `indexed_baseFiles`, `indexed_brandFiles`, `indexed_layerFiles`, `indexed_crudFiles`
* `generate_barrel`     the index in an output
-/

namespace ZodSchema.TypeScript

open Text

theorem tsPath_injective (dir : String) : Function.Injective (Schema.tsPath dir) := by
  intro a b h
  unfold Schema.tsPath at h
  exact (String.append_right_inj _).1 ((String.append_left_inj _).1 h)

/-- an index is the header and a barrel -/
theorem content_indexFile (family dir : String) (modules : List String) :
    (indexFile family dir modules).file.content = generatedHeader ++ "\n" ++ barrel modules := by
  have hl : ∀ xs : List String, (xs.map Stmt.reexport).flatMap Stmt.lines = xs.map reexportLine := by
    intro xs
    induction xs with
    | nil => rfl
    | cons x xs ih =>
      rw [List.map_cons, List.flatMap_cons, ih]
      rfl
  have hs : (indexFile family dir modules).stmts.flatMap Stmt.lines =
      generatedHeader ::
        ((if modules.isEmpty then [""] else (Str.sortDedup modules).map reexportLine) ++ [""]) := by
    unfold indexFile header
    dsimp only
    rw [List.flatMap_append, List.flatMap_append]
    split
    · rfl
    · rw [hl]
      rfl
  show Str.unlines ((indexFile family dir modules).stmts.flatMap Stmt.lines) = _
  unfold barrel
  rw [hs, Str.unlines_cons (by simp)]
  split
  · next h =>
    rw [List.isEmpty_iff.1 h]
    simp [Str.unlines, Str.join, Str.sortDedup]
  · next h =>
    have hne : (Str.sortDedup modules).map reexportLine ≠ [] := by
      intro he
      refine h (List.isEmpty_iff.2 (List.eq_nil_iff_forall_not_mem.2 fun x hx => ?_))
      rw [← Str.mem_sortDedup, List.map_eq_nil_iff.1 he] at hx
      cases hx
    rw [Str.unlines_concat_empty hne]

end ZodSchema.TypeScript

namespace ZodSchema.Generation

open TypeScript Text

variable {workDir : Parts} {d : Datamodel} {c : Config} {r : Brand.Registry} {s : SourceFile}
  {fam : Family} {dir : String}

/-! ## the files of a family -/

def filesOf (workDir : Parts) (d : Datamodel) (c : Config) (r : Brand.Registry) :
    Family → List SourceFile
  | .schemas => if c.zodSchemas then Schema.baseFiles c d else []
  | .brands => if c.brandRegistry then Brand.brandFiles c r else []
  | .layers =>
    if c.threeLayers && c.zodSchemas then
      Layer.layerFiles workDir c d (activeRegistry c r)
    else []
  | .crud =>
    if c.crudSchemas && c.zodSchemas then
      Crud.crudFiles workDir (crudBase c d (activeRegistry c r))
    else []

theorem familyFiles_eq_flatMap (workDir : Parts) (d : Datamodel) (c : Config)
    (r : Brand.Registry) :
    familyFiles workDir d c r =
      [Family.schemas, .brands, .layers, .crud].flatMap (filesOf workDir d c r) := by
  simp only [List.flatMap_cons, List.flatMap_nil, List.append_nil]
  simp only [familyFiles, filesOf, List.append_assoc]

theorem mem_filesOf : s ∈ filesOf workDir d c r fam ↔ Origin workDir d c r fam s := by
  cases fam with
  | schemas => exact List.mem_ite_nil_right.trans origin_schemas.symm
  | brands => exact List.mem_ite_nil_right.trans origin_brands.symm
  | layers => exact List.mem_ite_nil_right.trans origin_layers.symm
  | crud => exact List.mem_ite_nil_right.trans origin_crud.symm

theorem filter_filesOf (other : Family) :
    (filesOf workDir d c r other).filter (·.family == fam.name) =
      if other = fam then filesOf workDir d c r other else [] := by
  have hf : ∀ s ∈ filesOf workDir d c r other, s.family = other.name := fun s hs =>
    (mem_filesOf.1 hs).family
  split
  · next h =>
    subst h
    exact List.filter_eq_self.2 fun s hs => beq_iff_eq.2 (hf s hs)
  · next h =>
    refine List.filter_eq_nil_iff.2 fun s hs he => h ?_
    have hn : other.name = fam.name := (hf s hs).symm.trans (beq_iff_eq.1 he)
    revert hn
    cases other <;> cases fam <;> decide

theorem filter_family (fam : Family) :
    (familyFiles workDir d c r).filter (·.family == fam.name) = filesOf workDir d c r fam := by
  rw [familyFiles_eq_flatMap]
  simp only [List.flatMap_cons, List.flatMap_nil, List.append_nil, List.filter_append,
    filter_filesOf]
  cases fam <;> simp

/-! ## files with an index -/

/-- files of modules below `dir`, and after them the index of these modules -/
def Indexed (family dir : String) (files : List SourceFile) : Prop :=
  ∃ (others : List SourceFile) (stems modules : List String),
    files = others ++ [indexFile family dir modules] ∧
    others.map (·.path) = stems.map (Schema.tsPath dir) ∧ ∀ x, x ∈ modules ↔ x ∈ stems

theorem indexed_baseFiles (hc : c.objection? = none) (d : Datamodel) :
    Indexed Family.schemas.name c.schemasDir (Schema.baseFiles c d) := by
  refine ⟨d.sortedModels.map (Schema.modelFile c d) ++ (Schema.enumFile? c d).toList,
    d.sortedModels.map (·.name) ++ (if d.enums.isEmpty then [] else [c.enumStem]),
    Schema.modules c d, rfl, ?_, fun x => ?_⟩
  · have he : (Schema.enumFile? c d).toList.map (·.path) =
        (if d.enums.isEmpty then [] else [c.enumStem]).map (Schema.tsPath c.schemasDir) := by
      unfold Schema.enumFile?
      split
      · rfl
      · simp only [Option.toList_some, List.map_singleton, Schema.tsPath, String.append_assoc,
          Config.enumStem_append hc]
    rw [List.map_append, List.map_append, List.map_map, List.map_map, he]
    rfl
  · unfold Schema.modules
    rw [List.mem_append, List.mem_append, ((perm_sortedModels d).map _).mem_iff]

theorem indexed_brandFiles (c : Config) (r : Brand.Registry) :
    Indexed Family.brands.name c.brandsDir (Brand.brandFiles c r) := by
  refine ⟨[Brand.brandedFile c r], ["branded"], ["branded"], rfl, ?_, fun _ => Iff.rfl⟩
  simp only [List.map_singleton, Brand.brandedFile, Schema.tsPath, String.append_assoc]
  rfl

theorem indexed_layerFiles (workDir : Parts) (c : Config) (d : Datamodel)
    (o : Option Brand.Registry) :
    Indexed Family.layers.name c.layersDir (Layer.layerFiles workDir c d o) := by
  refine ⟨d.sortedModels.map (Layer.layerFile workDir c d o) ++ [Layer.transformFile c],
    d.sortedModels.map (fun m => Layer.moduleName m.name) ++ [Layer.transformModule],
    d.models.map (fun m => Layer.moduleName m.name) ++ [Layer.transformModule], ?_, ?_,
    fun x => ?_⟩
  · unfold Layer.layerFiles
    rw [List.append_assoc]
    rfl
  · rw [List.map_append, List.map_append, List.map_map, List.map_map]
    rfl
  · rw [List.mem_append, List.mem_append, ((perm_sortedModels d).map _).mem_iff]

theorem indexed_crudFiles (workDir : Parts) (b : Crud.Base)
    (hi : b.config.crud.generateIndex = true) :
    Indexed Family.crud.name b.config.crud.outputDir (Crud.crudFiles workDir b) := by
  refine ⟨(Crud.eligible b.config b.datamodel).map (Crud.crudFile workDir b),
    (Crud.eligible b.config b.datamodel).map fun m => m.name ++ ".schema", _, ?_, ?_,
    fun _ => Iff.rfl⟩
  · unfold Crud.crudFiles
    dsimp only
    rw [if_pos hi]
    rfl
  · rw [List.map_map, List.map_map]
    refine List.map_congr_left fun m _ => ?_
    show b.config.crud.outputDir ++ "/" ++ m.name ++ ".schema.ts" = _
    simp only [Function.comp_apply, Schema.tsPath, String.append_assoc]
    rfl

/-- no CRUD file of a model is an index -/
theorem generateIndex_of_mem {b : Crud.Base} (hs : s ∈ Crud.crudFiles workDir b)
    (hp : s.path = b.config.crud.outputDir ++ "/index.ts") :
    b.config.crud.generateIndex = true := by
  rcases List.mem_append.1 hs with hs | hs
  · obtain ⟨m, -, rfl⟩ := List.mem_map.1 hs
    have he : b.config.crud.outputDir ++ "/" ++ m.name ++ ".schema.ts" =
        b.config.crud.outputDir ++ "/index.ts" := hp
    have hn : ("/" ++ m.name) ++ ".schema.ts" = "/index.ts" := by
      rw [String.append_assoc, String.append_assoc] at he
      rw [String.append_assoc]
      exact (String.append_right_inj _).1 he
    exact absurd hn (append_ne 4 (by decide) (by decide))
  · exact (List.mem_ite_nil_right.1 hs).1

/-- a family with an index is that index after the files of its modules -/
theorem indexed_filesOf (hc : c.objection? = none) (he : (fam, dir) ∈ c.familyDirs)
    (hs : s ∈ filesOf workDir d c r fam) (hp : s.path = dir ++ "/index.ts") :
    Indexed fam.name dir (filesOf workDir d c r fam) := by
  unfold filesOf at hs ⊢
  cases fam with
  | schemas =>
    obtain ⟨hz, rfl⟩ : c.zodSchemas = true ∧ dir = c.schemasDir := by
      simpa [Config.familyDirs] using he
    rw [if_pos hz]
    exact indexed_baseFiles hc d
  | brands =>
    obtain ⟨hb, rfl⟩ : c.brandRegistry = true ∧ dir = c.brandsDir := by
      simpa [Config.familyDirs] using he
    rw [if_pos hb]
    exact indexed_brandFiles c r
  | layers =>
    obtain ⟨-, rfl⟩ : c.threeLayers = true ∧ dir = c.layersDir := by
      simpa [Config.familyDirs] using he
    obtain ⟨hl, -⟩ := List.mem_ite_nil_right.1 hs
    rw [if_pos hl]
    exact indexed_layerFiles workDir c d _
  | crud =>
    obtain ⟨-, rfl⟩ : c.crudSchemas = true ∧ dir = c.crud.outputDir := by
      simpa [Config.familyDirs] using he
    obtain ⟨hcr, hs⟩ := List.mem_ite_nil_right.1 hs
    rw [if_pos hcr]
    exact indexed_crudFiles workDir _ (generateIndex_of_mem hs hp)

theorem sourceFiles_of_ok {g : Generated SourceFile} (h : sourceFiles workDir d c = .ok g) :
    ∃ r, Brand.Registry.ofDatamodel d c.strictBrands = .ok r ∧
      g.files = familyFiles workDir d c r := by
  obtain ⟨r, hr, -, rfl⟩ := sourceFiles_eq_ok.1 h
  exact ⟨r, hr, rfl⟩

theorem files_of_ok {g : Generated GeneratedFile} (h : generate workDir d c = .ok g) :
    ∃ r, g.files = (familyFiles workDir d c r).map SourceFile.file := by
  obtain ⟨r, -, -, rfl⟩ := generate_eq_ok.1 h
  exact ⟨r, rfl⟩

/-- **Indexes are complete.**  In every output, the index of a family comes after its other files
and re-exports the modules of exactly these, in order and each once. -/
theorem generate_barrel {g : Generated GeneratedFile} (hc : c.objection? = none)
    (hg : generate workDir d c = .ok g) (he : (fam, dir) ∈ c.familyDirs)
    (hi : ∃ f ∈ g.files, f.family = fam.name ∧ f.path = dir ++ "/index.ts") :
    ∃ (others : List GeneratedFile) (index : GeneratedFile) (modules : List String),
      g.files.filter (·.family == fam.name) = others ++ [index] ∧
      index.path = dir ++ "/index.ts" ∧
      (∀ f ∈ others, ∃ stem, f.path = Schema.tsPath dir stem) ∧
      (∀ stem, stem ∈ modules ↔ ∃ f ∈ others, f.path = Schema.tsPath dir stem) ∧
      modules.Pairwise (· < ·) ∧
      index.content =
        generatedHeader ++ "\n" ++ Str.unlines (modules.map reexportLine) ++ "\n" := by
  obtain ⟨r, hf⟩ := files_of_ok hg
  obtain ⟨f, hfm, hfam, hpath⟩ := hi
  rw [hf] at hfm
  obtain ⟨s, hs, rfl⟩ := List.mem_map.1 hfm
  have hs : s ∈ filesOf workDir d c r fam := mem_filesOf.2 (origin_of_family fam hs hfam)
  obtain ⟨others, stems, modules, hfiles, hpaths, hmod⟩ := indexed_filesOf hc he hs hpath
  have hstem : ∀ stem, stem ∈ modules ↔
      ∃ f ∈ others.map SourceFile.file, f.path = Schema.tsPath dir stem := by
    intro stem
    rw [hmod, ← List.mem_map_of_injective (tsPath_injective dir), ← hpaths, List.mem_map]
    constructor
    · rintro ⟨o, ho, he⟩
      exact ⟨o.file, List.mem_map_of_mem ho, he⟩
    · rintro ⟨f, hfo, he⟩
      obtain ⟨o, ho, rfl⟩ := List.mem_map.1 hfo
      exact ⟨o, ho, he⟩
  refine ⟨others.map SourceFile.file, (indexFile fam.name dir modules).file,
    Str.sortDedup modules, ?_, rfl, ?_, fun stem => Str.mem_sortDedup.trans (hstem stem),
    Str.pairwise_sortDedup modules, ?_⟩
  · have hp : (fun f : GeneratedFile => f.family == fam.name) ∘ SourceFile.file =
        fun s : SourceFile => s.family == fam.name := rfl
    rw [hf, List.filter_map, hp, filter_family, hfiles, List.map_append, List.map_singleton]
  · intro f hfo
    obtain ⟨o, ho, rfl⟩ := List.mem_map.1 hfo
    have hop : o.path ∈ stems.map (Schema.tsPath dir) := hpaths ▸ List.mem_map_of_mem ho
    obtain ⟨stem, -, hstem⟩ := List.mem_map.1 hop
    exact ⟨stem, hstem.symm⟩
  · rw [content_indexFile, barrel, String.append_assoc, String.append_assoc, String.append_assoc]

theorem generate_barrel_account :
    allFamilies.objection? = none ∧ (Family.layers, "layers") ∈ allFamilies.familyDirs ∧
      ∃ g, generate [] account allFamilies = .ok g ∧
        (∃ f ∈ g.files, f.family = Family.layers.name ∧ f.path = "layers/index.ts") ∧
        ∃ (others : List GeneratedFile) (index : GeneratedFile) (modules : List String),
          g.files.filter (·.family == Family.layers.name) = others ++ [index] ∧
          (∀ stem, stem ∈ modules ↔ ∃ f ∈ others, f.path = Schema.tsPath "layers" stem) ∧
          index.content =
            generatedHeader ++ "\n" ++ Str.unlines (modules.map reexportLine) ++ "\n" := by
  have hc : allFamilies.objection? = none := by decide +kernel
  have he : (Family.layers, "layers") ∈ allFamilies.familyDirs := by decide
  have hok : (generate [] account allFamilies).isOk = true := by decide +kernel
  cases hg : generate [] account allFamilies with
  | error e =>
    rw [hg] at hok
    cases hok
  | ok g =>
    have hi : ∃ f ∈ g.files, f.family = Family.layers.name ∧ f.path = "layers/index.ts" := by
      obtain ⟨r, hf⟩ := files_of_ok hg
      rw [hf]
      exact ⟨_, List.mem_map_of_mem (mem_familyFiles.2 ⟨_, .layerIndex rfl rfl⟩), rfl, rfl⟩
    obtain ⟨others, index, modules, h1, -, -, h2, -, h3⟩ := generate_barrel hc hg he hi
    exact ⟨hc, he, g, rfl, hi, others, index, modules, h1, h2, h3⟩

end ZodSchema.Generation
