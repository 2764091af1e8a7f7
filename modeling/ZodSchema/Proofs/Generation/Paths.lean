import ZodSchema.Proofs.Generation.Passed
import ZodSchema.Proofs.Text.Path

/-!
# Paths of generated files

A file is named after its model in every family, next to files with names of their own.  No two
families share a path when no directory lies in another one (`Apart`); in a family, only names of
models can clash (`Unclashing`), and validation does not look for these clashes.

* `fileNames`           the names of the files of a family
* `paths_familyFiles`   the paths of a run, family by family
* `unclashing_iff`      the names in every family are different
* `generate_paths_nodup_iff`  the paths, and the places they lead to
-/

namespace ZodSchema.Generation

open TypeScript Text

variable {workDir : Parts} {d : Datamodel} {c : Config} {r : Brand.Registry}

/-- no enabled family has its directory in that of another one -/
def Apart (c : Config) : Prop :=
  c.familyDirs.Pairwise fun a b =>
    ¬ Path.names a.2 <+: Path.names b.2 ∧ ¬ Path.names b.2 <+: Path.names a.2

/-- the names of the files of a family -/
def fileNames (d : Datamodel) (c : Config) : Family → List String
  | .schemas =>
    d.sortedModels.map (fun m => m.name ++ ".ts") ++
      (if d.enums.isEmpty then [] else [c.enumFileName]) ++ ["index.ts"]
  | .brands => ["branded.ts", "index.ts"]
  | .layers =>
    if c.zodSchemas then
      d.sortedModels.map (fun m => Str.lower m.name ++ ".schemas.ts") ++
        ["transform-utils.ts", "index.ts"]
    else []
  | .crud =>
    if c.zodSchemas then
      (Crud.eligible c d).map (fun m => m.name ++ ".schema.ts") ++
        (if c.crud.generateIndex then ["index.ts"] else [])
    else []

theorem paths_baseFiles (d : Datamodel) (c : Config) :
    (Schema.baseFiles c d).map (·.path) =
      (fileNames d c .schemas).map (c.schemasDir ++ "/" ++ ·) := by
  have he : (Schema.enumFile? c d).toList.map (·.path) =
      (if d.enums.isEmpty then [] else [c.enumFileName]).map (c.schemasDir ++ "/" ++ ·) := by
    unfold Schema.enumFile?
    split <;> rfl
  unfold Schema.baseFiles fileNames
  simp only [List.map_append, List.map_map, List.map_singleton, he, Schema.baseIndex, indexFile,
    Function.comp_def, Schema.modelFile, Schema.tsPath, String.append_assoc]
  rfl

theorem paths_brandFiles (d : Datamodel) (c : Config) (r : Brand.Registry) :
    (Brand.brandFiles c r).map (·.path) =
      (fileNames d c .brands).map (c.brandsDir ++ "/" ++ ·) := by
  unfold Brand.brandFiles fileNames
  simp only [List.map_cons, List.map_nil, Brand.brandedFile, indexFile, String.append_assoc]
  rfl

section
variable (hz : c.zodSchemas = true)
include hz

theorem paths_layerFiles (workDir : Parts) (d : Datamodel) (r : Option Brand.Registry) :
    (Layer.layerFiles workDir c d r).map (·.path) =
      (fileNames d c .layers).map (c.layersDir ++ "/" ++ ·) := by
  unfold Layer.layerFiles fileNames
  rw [if_pos hz]
  simp only [List.map_append, List.map_map, List.map_cons, List.map_nil, Layer.layerIndex,
    Layer.transformFile, indexFile, Function.comp_def, Layer.layerFile, Layer.moduleName,
    Schema.tsPath, String.append_assoc]
  rfl

theorem paths_crudFiles (workDir : Parts) (d : Datamodel) (r : Option Brand.Registry) :
    (Crud.crudFiles workDir (crudBase c d r)).map (·.path) =
      (fileNames d c .crud).map (c.crud.outputDir ++ "/" ++ ·) := by
  have hi : (if c.crud.generateIndex then
        [Crud.crudIndex (crudBase c d r) (Crud.eligible c d)] else []).map (·.path) =
      (if c.crud.generateIndex then ["index.ts"] else []).map fun n =>
        c.crud.outputDir ++ ("/" ++ n) := by
    split <;> rfl
  unfold Crud.crudFiles fileNames
  dsimp only [crudBase]
  rw [if_pos hz]
  simp only [List.map_append, List.map_map, Function.comp_def, Crud.crudFile, String.append_assoc]
  exact congrArg _ hi

end

theorem paths_familyFiles (workDir : Parts) (d : Datamodel) (c : Config) (r : Brand.Registry) :
    (familyFiles workDir d c r).map (·.path) =
      c.familyDirs.flatMap fun e => (fileNames d c e.1).map (e.2 ++ "/" ++ ·) := by
  -- two families have files only with base schemas, but their directories are there without
  have hl : ∀ {family : Bool} {files : List SourceFile} {e : Family × String},
      (c.zodSchemas = true → files.map (·.path) = (fileNames d c e.1).map (e.2 ++ "/" ++ ·)) →
      (c.zodSchemas = false → fileNames d c e.1 = []) →
      (if family && c.zodSchemas then files else []).map (·.path) =
        (if family then [e] else []).flatMap fun e =>
          (fileNames d c e.1).map (e.2 ++ "/" ++ ·) := by
    intro family files e h1 h2
    cases hz : c.zodSchemas <;> cases family <;> simp [hz, h1, h2]
  unfold familyFiles Config.familyDirs
  simp only [List.map_append, List.flatMap_append]
  congr 1
  · congr 1
    · congr 1
      · split <;> simp [paths_baseFiles]
      · split <;> simp [paths_brandFiles (d := d)]
    · exact hl (fun hz => paths_layerFiles hz ..) fun hz => by simp [fileNames, hz]
  · exact hl (fun hz => paths_crudFiles hz ..) fun hz => by simp [fileNames, hz]

/-! ## different paths -/

theorem disjoint_of_not_prefix {a b : String} (hab : ¬ Path.names a <+: Path.names b)
    (hba : ¬ Path.names b <+: Path.names a) (xs ys : List String) :
    (xs.map (a ++ "/" ++ ·)).Disjoint (ys.map (b ++ "/" ++ ·)) := by
  intro p hx hy
  obtain ⟨x, _, rfl⟩ := List.mem_map.1 hx
  obtain ⟨y, _, he⟩ := List.mem_map.1 hy
  have hn := congrArg Path.names he
  rw [Path.names_append, Path.names_append] at hn
  have ha : Path.names a <+: Path.names b ++ Path.names y := hn ▸ List.prefix_append ..
  exact (List.prefix_or_prefix_of_prefix ha (List.prefix_append ..)).elim hab hba

/-- families apart from each other share no path -/
theorem nodup_paths_iff (ha : Apart c) :
    ((familyFiles workDir d c r).map (·.path)).Nodup ↔
      ∀ e ∈ c.familyDirs, (fileNames d c e.1).Nodup := by
  have hd : c.familyDirs.Pairwise (Function.onFun List.Disjoint fun e =>
      (fileNames d c e.1).map (e.2 ++ "/" ++ ·)) :=
    ha.imp fun h => disjoint_of_not_prefix h.1 h.2 _ _
  rw [paths_familyFiles, List.nodup_flatMap, and_iff_left hd]
  exact forall₂_congr fun e _ => List.nodup_map_iff fun _ _ => (String.append_right_inj _).1

theorem ending_injective (ending : String) : Function.Injective (· ++ ending) :=
  fun _ _ => (String.append_left_inj ending).1

/-- a name is not the one of another file when their endings differ -/
theorem append_ne {x ending other : String} (n : Nat)
    (h : ending.toList.reverse.take n ≠ other.toList.reverse.take n)
    (hn : n ≤ ending.toList.length) : x ++ ending ≠ other := by
  rintro rfl
  rw [String.toList_append, List.reverse_append, List.take_append_of_le_length (by simpa)] at h
  exact h rfl

theorem nodup_sortedModels (d : Datamodel) (name : Model → String) (ending : String) :
    (d.sortedModels.map fun m => name m ++ ending).Nodup ↔ (d.models.map name).Nodup := by
  have he : (d.models.map fun m => name m ++ ending) = (d.models.map name).map (· ++ ending) := by
    rw [List.map_map, Function.comp_def]
  rw [((perm_sortedModels d).map _).nodup_iff, he, List.nodup_map_iff (ending_injective ending)]

section
variable (hn : (d.models.map (·.name)).Nodup)
include hn

theorem nodup_schemas : (fileNames d c .schemas).Nodup ↔
    "index" ∉ d.models.map (·.name) ∧ (d.enums ≠ [] →
      c.enumFileName ≠ "index.ts" ∧ c.enumFileName ∉ d.models.map (·.name ++ ".ts")) := by
  have hs := (nodup_sortedModels d (·.name) ".ts").2 hn
  have hm : ∀ x, x ∈ d.sortedModels.map (·.name ++ ".ts") ↔ x ∈ d.models.map (·.name ++ ".ts") :=
    fun x => ((perm_sortedModels d).map _).mem_iff
  have hi : "index.ts" ∈ d.models.map (·.name ++ ".ts") ↔ "index" ∈ d.models.map (·.name) := by
    have h := List.mem_map_of_injective (ending_injective ".ts") (a := "index")
      (l := d.models.map (·.name))
    rwa [List.map_map] at h
  unfold fileNames
  dsimp only
  rw [← List.concat_eq_append, List.nodup_concat, List.mem_append, hm, hi, not_or, and_assoc]
  refine and_congr_right fun _ => ?_
  cases he : d.enums with
  | nil => simp [hs]
  | cons e es =>
    rw [if_neg (by simp), ← List.concat_eq_append, List.nodup_concat, hm, and_iff_left hs]
    simp [eq_comm]

theorem nodup_crud : (fileNames d c .crud).Nodup := by
  have hp : ((Crud.eligible c d).map fun m => m.name ++ ".schema.ts").Nodup := by
    have he : ((Crud.eligible c d).map (·.name)).Nodup := by
      unfold Crud.eligible
      rw [((List.mergeSort_perm ..).map _).nodup_iff]
      exact hn.sublist (List.filter_sublist.map _)
    have := he.map (ending_injective ".schema.ts")
    rwa [List.map_map] at this
  have ho : ∀ x : String, x ++ ".schema.ts" ≠ "index.ts" := fun x =>
    append_ne 4 (by decide) (by decide)
  unfold fileNames
  dsimp only
  split
  · rw [List.nodup_append]
    refine ⟨hp, ?_, ?_⟩
    · split <;> simp
    · split <;> simp [ho]
  · exact List.nodup_nil

end

theorem nodup_layers (hz : c.zodSchemas = true) : (fileNames d c .layers).Nodup ↔
    (d.models.map fun m => Str.lower m.name).Nodup := by
  have ho : ∀ x : String, x ++ ".schemas.ts" ≠ "transform-utils.ts" ∧
      x ++ ".schemas.ts" ≠ "index.ts" := fun x =>
    ⟨append_ne 5 (by decide) (by decide), append_ne 4 (by decide) (by decide)⟩
  unfold fileNames
  dsimp only
  rw [if_pos hz, List.nodup_append, nodup_sortedModels]
  simp [ho]

/-- the names of models clash with no other name of a file -/
structure Unclashing (d : Datamodel) (c : Config) : Prop where
  index : c.zodSchemas = true → "index" ∉ d.models.map (·.name)
  enums : c.zodSchemas = true → d.enums ≠ [] →
    c.enumFileName ≠ "index.ts" ∧ c.enumFileName ∉ d.models.map (·.name ++ ".ts")
  layers : c.threeLayers = true → c.zodSchemas = true →
    (d.models.map fun m => Str.lower m.name).Nodup

theorem unclashing_iff (hn : (d.models.map (·.name)).Nodup) :
    (∀ e ∈ c.familyDirs, (fileNames d c e.1).Nodup) ↔ Unclashing d c := by
  constructor
  · intro h
    have hs : c.zodSchemas = true → (fileNames d c .schemas).Nodup := fun hz =>
      h (.schemas, c.schemasDir) (by simp [Config.familyDirs, hz])
    have hl : c.threeLayers = true → (fileNames d c .layers).Nodup := fun hl =>
      h (.layers, c.layersDir) (by simp [Config.familyDirs, hl])
    exact ⟨fun hz => ((nodup_schemas hn).1 (hs hz)).1, fun hz => ((nodup_schemas hn).1 (hs hz)).2,
      fun h3 hz => (nodup_layers hz).1 (hl h3)⟩
  · intro h e he
    have hb : ∀ b : Bool, ∀ x, e ∈ (if b then [x] else []) → b = true ∧ e = x := by
      intro b x hx
      split at hx
      · exact ⟨‹_›, List.mem_singleton.1 hx⟩
      · cases hx
    simp only [Config.familyDirs, List.mem_append] at he
    rcases he with ((he | he) | he) | he
    · obtain ⟨hz, rfl⟩ := hb _ _ he
      exact (nodup_schemas hn).2 ⟨h.index hz, h.enums hz⟩
    · obtain ⟨-, rfl⟩ := hb _ _ he
      show ["branded.ts", "index.ts"].Nodup
      decide
    · obtain ⟨h3, rfl⟩ := hb _ _ he
      cases hz : c.zodSchemas with
      | true => exact (nodup_layers hz).2 (h.layers h3 hz)
      | false => simp [fileNames, hz]
    · obtain ⟨-, rfl⟩ := hb _ _ he
      exact nodup_crud hn

/-! ## places -/

/-- the place below `root` to which a path leads -/
def place (root : Parts) (path : String) : Parts := Path.normalize (Path.absolute root path)

/-- paths in normal form lead to different places -/
theorem nodup_places (root : Parts) {paths : List String} (h : ∀ p ∈ paths, Path.Normal p) :
    (paths.map (place root)).Nodup ↔ paths.Nodup := by
  refine ⟨List.Nodup.of_map _, fun hn => hn.map_on fun p hp q hq he => ?_⟩
  unfold place at he
  rw [Path.normalize_absolute root (h p hp), Path.normalize_absolute root (h q hq)] at he
  exact Path.names_injective (List.append_cancel_left he)

theorem normal_fileNames (hm : ∀ m ∈ d.models, isIdentifier m.name = true)
    (he : Path.Normal c.enumFileName) {fam : Family} {n : String} (h : n ∈ fileNames d c fam) :
    Path.Normal n := by
  have hplain : ∀ m ∈ d.models, '/' ∉ m.name.toList := fun m hd hs =>
    (plain_of_isIdentifier (hm m hd) _ hs).2 rfl
  have hfixed : ∀ n ∈ ["index.ts", "branded.ts", "transform-utils.ts"],
      '/' ∉ n.toList ∧ 2 < n.toList.length := by decide
  have hfix : ∀ n ∈ ["index.ts", "branded.ts", "transform-utils.ts"], Path.Normal n := fun n hn =>
    normal_of_length (hfixed n hn).1 (hfixed n hn).2
  cases fam with
  | schemas =>
    simp only [fileNames, List.mem_append, List.mem_map, List.mem_singleton] at h
    rcases h with (⟨m, hs, rfl⟩ | h) | rfl
    · exact normal_append (hplain m (mem_sortedModels.1 hs)) (by decide) (by decide)
    · split at h
      · cases h
      · rwa [List.mem_singleton.1 h]
    · exact hfix _ (by decide)
  | brands =>
    simp only [fileNames, List.mem_cons, List.not_mem_nil, or_false] at h
    rcases h with rfl | rfl <;> exact hfix _ (by decide)
  | layers =>
    simp only [fileNames, List.mem_ite_nil_right, List.mem_append, List.mem_map, List.mem_cons,
      List.not_mem_nil, or_false] at h
    rcases h.2 with ⟨m, hs, rfl⟩ | rfl | rfl
    · exact normal_append (slash_not_mem_lower (hm m (mem_sortedModels.1 hs))) (by decide)
        (by decide)
    · exact hfix _ (by decide)
    · exact hfix _ (by decide)
  | crud =>
    simp only [fileNames, List.mem_ite_nil_right, List.mem_append, List.mem_map,
      List.mem_singleton] at h
    rcases h.2 with ⟨m, hs, rfl⟩ | ⟨-, rfl⟩
    · exact normal_append (hplain m (mem_models_of_eligible hs)) (by decide) (by decide)
    · exact hfix _ (by decide)

theorem normal_paths (hm : ∀ m ∈ d.models, isIdentifier m.name = true)
    (hd : ∀ e ∈ c.familyDirs, Path.Normal e.2) (he : Path.Normal c.enumFileName) :
    ∀ p ∈ (familyFiles workDir d c r).map (·.path), Path.Normal p := by
  intro p hp
  rw [paths_familyFiles] at hp
  obtain ⟨e, hf, hp⟩ := List.mem_flatMap.1 hp
  obtain ⟨n, hn, rfl⟩ := List.mem_map.1 hp
  unfold Path.Normal
  rw [Path.names_append]
  exact fun x hx => (List.mem_append.1 hx).elim (hd e hf x) (normal_fileNames hm he hn x)

/-! ## runs -/

/-- the files of a data model that passes -/
theorem files_of_valid {g : Generated GeneratedFile}
    (hv : (Validation.validate d c).isValid = true) (h : generate workDir d c = .ok g) :
    ∃ r, g.files.map (·.path) = (familyFiles workDir d c r).map (·.path) := by
  rw [generate_of_valid hv] at h
  split at h
  · cases h
  · rw [← Except.ok.inj h]
    exact ⟨_, List.map_map⟩

theorem paths_of_valid {g : Generated GeneratedFile}
    (hv : (Validation.validate d c).isValid = true) (ha : Apart c)
    (h : generate workDir d c = .ok g) :
    (g.files.map (·.path)).Nodup ↔ Unclashing d c := by
  obtain ⟨r, hp⟩ := files_of_valid hv h
  rw [hp, nodup_paths_iff ha]
  exact unclashing_iff (Validation.names_of_valid hv).1

/-- **Paths of generated files.**  For a data model that passes and families apart from each other,
the paths of the files are different exactly when no name of a model clashes with the name of
another file.  With directories and an enum file in normal form, so are the places that they lead
to, below any root. -/
theorem generate_paths_nodup_iff {g : Generated GeneratedFile}
    (hv : (Validation.validate d c).isValid = true) (ha : Apart c)
    (h : generate workDir d c = .ok g) :
    ((g.files.map (·.path)).Nodup ↔ Unclashing d c) ∧
      ((∀ e ∈ c.familyDirs, Path.Normal e.2) → Path.Normal c.enumFileName → ∀ root,
        ((g.files.map fun f => place root f.path).Nodup ↔ Unclashing d c)) := by
  refine ⟨paths_of_valid hv ha h, fun hd he root => ?_⟩
  obtain ⟨r, hp⟩ := files_of_valid hv h
  have hn : ∀ p ∈ g.files.map (·.path), Path.Normal p := by
    rw [hp]
    exact normal_paths (Validation.names_of_valid hv).2 hd he
  have hc := nodup_places root hn
  rw [List.map_map] at hc
  exact hc.trans (paths_of_valid hv ha h)

theorem apart_allFamilies : Apart allFamilies := by
  unfold Apart
  decide +kernel

/-- the names of `account` clash with nothing -/
theorem paths_nodup_account :
    (Validation.validate account allFamilies).isValid = true ∧ Apart allFamilies ∧
      ∃ g, generate [] account allFamilies = .ok g ∧ (g.files.map (·.path)).Nodup := by
  have hv : (Validation.validate account allFamilies).isValid = true := by decide +kernel
  have hu : Unclashing account allFamilies :=
    ⟨fun _ => by decide, fun _ _ => by decide, fun _ _ => by decide +kernel⟩
  have hok : (generate [] account allFamilies).isOk = true := by decide +kernel
  cases hg : generate [] account allFamilies with
  | error e =>
    rw [hg] at hok
    cases hok
  | ok g => exact ⟨hv, apart_allFamilies, g, rfl,
      (generate_paths_nodup_iff hv apart_allFamilies hg).1.2 hu⟩

/-- two models whose names differ in case only -/
def twins : Datamodel :=
  { models := [
      { name := "UserProfile", fields := [{ name := "id", type := "String", isId := true }] },
      { name := "Userprofile", fields := [{ name := "id", type := "String", isId := true }] }] }

def layered : Config := { brandRegistry := true, threeLayers := true }

/-- The files of two models share a path, and validation has nothing to say about them. -/
theorem twins_share_path :
    layered.objection? = none ∧ (Validation.validate twins layered).isEmpty = true ∧
      Apart layered ∧ (∀ e ∈ layered.familyDirs, Path.Normal e.2) ∧
      ∃ g, generate [] twins layered = .ok g ∧ ¬ (g.files.map (·.path)).Nodup := by
  have he : (Validation.validate twins layered).isEmpty = true := by decide +kernel
  have hv : (Validation.validate twins layered).isValid = true := by decide +kernel
  have ha : Apart layered := by
    unfold Apart
    decide +kernel
  have hd : ∀ e ∈ layered.familyDirs, Path.Normal e.2 := by
    unfold Path.Normal Path.Resolved
    decide +kernel
  have hu : ¬ Unclashing twins layered := fun h => absurd (h.layers rfl rfl) (by decide +kernel)
  obtain ⟨g, hg⟩ : ∃ g, generate [] twins layered = .ok g :=
    (generate_ok_iff hv).2 fun h => by cases h.1
  exact ⟨by decide +kernel, he, ha, hd, g, hg, fun h => hu ((paths_of_valid hv ha hg).1 h)⟩

end ZodSchema.Generation
