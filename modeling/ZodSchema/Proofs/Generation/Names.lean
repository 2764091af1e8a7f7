import ZodSchema.Proofs.Crud.Names
import ZodSchema.Proofs.Generation.Barrels
import ZodSchema.Proofs.Layer.Names
import ZodSchema.Proofs.Schema.Names
import ZodSchema.Proofs.Validation.Names

/-!
# Names in the generated files

Names are put together from those of models, enumerations, brands and option sets.  `NamesApart`
says which of them must be different so that the files are `Clashless`.

* `nodup_of_origin`      no file binds a name twice
* `disjoint_of_origin`   no two files of a family with an index export one name
* `clashless_iff`        both, for the files of the enabled families
* `generate_clashless_iff`   the files of an output
-/

namespace ZodSchema

namespace Text

variable {c : Char} {s : String}

theorem toLower_of_ascii (h : c.toNat < 128) :
    c.toLower.toNat < 128 ∧ c.toLower.toLower = c.toLower := by
  have hall : ∀ n < 128, (Char.ofNat n).toLower.toNat < 128 ∧
      (Char.ofNat n).toLower.toLower = (Char.ofNat n).toLower := by decide
  have hc := hall c.toNat h
  rwa [Char.ofNat_toNat] at hc

section
variable (h : ∀ c ∈ s.toList, c.toNat < 128)
include h

theorem toList_lower : (Str.lower s).toList = s.toList.map Char.toLower := by
  rw [Str.lower, String.toList_ofList, lower_of_ascii h]

theorem toList_lowerFirst : (Str.lowerFirst s).toList = s.toList.modifyHead Char.toLower := by
  rw [Str.lowerFirst, String.toList_ofList]
  cases hs : s.toList with
  | nil => rfl
  | cons c cs =>
    have hc : c.toNat < 128 := h c (hs ▸ List.mem_cons_self)
    show lower [c] ++ cs = c.toLower :: cs
    rw [lower_of_ascii (by simpa using hc)]
    rfl

theorem lower_lowerFirst : Str.lower (Str.lowerFirst s) = Str.lower s := by
  have hl := toList_lowerFirst h
  rw [← String.toList_inj, toList_lower h]
  cases hs : s.toList with
  | nil =>
    rw [hs] at hl
    rw [String.toList_eq_nil_iff.1 hl]
    rfl
  | cons c cs =>
    rw [hs] at h hl
    obtain ⟨hc, hcs⟩ := List.forall_mem_cons.1 h
    obtain ⟨hlt, hidem⟩ := toLower_of_ascii hc
    rw [toList_lower (by rw [hl]; exact List.forall_mem_cons.2 ⟨hlt, hcs⟩), hl]
    show c.toLower.toLower :: cs.map Char.toLower = _
    rw [hidem]
    rfl

end

end Text

namespace Generation

open TypeScript Text

variable {workDir : Parts} {d : Datamodel} {c : Config} {r : Brand.Registry} {s s' : SourceFile}
  {fam : Family} {dir : String} {m m' : Model}

/-- the names of models, enumerations, brands and option sets that have to be different -/
structure NamesApart (workDir : Parts) (d : Datamodel) (c : Config) (r : Brand.Registry) : Prop where
  /-- the entries of a model take no name from two modules -/
  modules : c.zodSchemas = true → ∀ m ∈ d.models, ∀ module module' n,
    Schema.Needs c d m module n → Schema.Needs c d m module' n → module = module'
  /-- they do not take the name of the schema that they are entries of -/
  schemas : c.zodSchemas = true → ∀ m ∈ d.models, ∀ module,
    ¬ Schema.Needs c d m module (Schema.schemaName m.name)
  /-- no enumeration is called like a schema -/
  enums : c.zodSchemas = true → ∀ m ∈ d.models, ∀ e ∈ d.enums, e.name = Schema.schemaName m.name →
    m.name ++ ".ts" = c.enumFileName
  /-- no brand is called like the union of the brands -/
  brands : c.brandRegistry = true → "BrandName" ∉ r.names
  /-- no model is called like the beginning of a conversion -/
  conversions : c.threeLayers = true → c.zodSchemas = true → ∀ m ∈ d.models, ∀ m' ∈ d.models,
    ¬ Layer.NamedAsConversion m.name m'.name
  /-- no option set of a model is called like something else in the same file -/
  options : c.crudSchemas = true → c.zodSchemas = true → ∀ m ∈ Crud.eligible c d,
    ∀ o ∈ Crud.optionsOf (crudBase c d (activeRegistry c r)) m,
      o.name ∉ Crud.takenOf workDir (crudBase c d (activeRegistry c r)) m ∧
        ∀ op : Crud.Operation, o.name ≠ Crud.argsName op.name m.name
  /-- nor, with an index, like something in the file of another model -/
  optionExports : c.crudSchemas = true → c.zodSchemas = true → c.crud.generateIndex = true →
    ∀ m ∈ Crud.eligible c d, ∀ m' ∈ Crud.eligible c d, m.name ≠ m'.name →
      Crud.OptionsApart (crudBase c d (activeRegistry c r)) m m'

/-- what validation makes sure of -/
structure NamesChecked (d : Datamodel) (r : Brand.Registry) : Prop where
  enums : (d.enums.map (·.name)).Nodup
  enum_ne : ∀ e ∈ d.enums, e.name ≠ "z"
  brand_ne : "z" ∉ r.names
  plain : ∀ m ∈ d.models, ∀ x ∈ m.name.toList, x.toNat < 128

theorem namesChecked_of_valid (hv : (Validation.validate d c).isValid = true)
    (hr : Brand.Registry.ofDatamodel d c.strictBrands = .ok r) : NamesChecked d r := by
  obtain ⟨hen, her⟩ := Validation.enums_of_valid hv
  have hreg : Brand.declared (Brand.declarations d) = r :=
    Except.ok.inj ((Validation.ofDatamodel_of_valid hv).symm.trans hr)
  refine ⟨hen, fun e he hn => (her e he).2 (hn ▸ by decide), fun hn => ?_, fun m hm x hx => ?_⟩
  · exact (Validation.brands_of_valid hv "z" (hreg ▸ hn)).2 (by decide)
  · exact (plain_of_isIdentifier ((Validation.names_of_valid hv).2 m hm) x hx).1

/-! ## names of one file -/

theorem nodup_of_binds_nil (h : Binds s.stmts [] [] []) : s.values.Nodup ∧ s.types.Nodup := by
  rw [SourceFile.nodup_values_iff h, SourceFile.nodup_types_iff h]
  exact ⟨List.nodup_nil, List.nodup_nil⟩

theorem nodup_of_origin (hn : NamesChecked d r) (h : NamesApart workDir d c r)
    (ho : Origin workDir d c r fam s) : s.values.Nodup ∧ s.types.Nodup := by
  cases ho with
  | model hz hm =>
    exact (Schema.nodup_modelFile_iff hn.enum_ne).2 ⟨h.modules hz _ hm, h.schemas hz _ hm⟩
  | enums hz hs => exact Schema.nodup_enumFile hs hn.enums
  | baseIndex | brandIndex | layerIndex | crudIndex => exact nodup_of_binds_nil (binds_indexFile ..)
  | branded hb => exact (Brand.nodup_brandedFile_iff hn.brand_ne).2 (h.brands hb)
  | layer hl hz hm => exact Layer.nodup_layerFile ..
  | transforms hl hz =>
    have hb := Layer.binds_transformFile c
    rw [SourceFile.nodup_values_iff hb, SourceFile.nodup_types_iff hb]
    decide
  | crud hc hz hm => exact (Crud.nodup_crudFile_iff workDir _ _).2 (h.options hc hz _ hm)

/-! ## names of two files -/

theorem exports_indexFile (family dir : String) (modules : List String) :
    (indexFile family dir modules).exports = [] := SourceFile.exports_eq (binds_indexFile ..)

theorem path_enumFile (hs : Schema.enumFile? c d = some s) :
    s.path = c.schemasDir ++ "/" ++ c.enumFileName := by
  unfold Schema.enumFile? at hs
  split at hs
  · cases hs
  · rw [← Option.some.inj hs]

theorem path_modelFile_eq_iff (hs : Schema.enumFile? c d = some s) :
    (Schema.modelFile c d m).path = s.path ↔ m.name ++ ".ts" = c.enumFileName := by
  rw [path_enumFile hs]
  show Schema.tsPath c.schemasDir m.name = _ ↔ _
  rw [Schema.tsPath, String.append_assoc]
  exact String.append_right_inj _

theorem path_crudFile_eq_iff {b : Crud.Base} :
    (Crud.crudFile workDir b m).path = (Crud.crudFile workDir b m').path ↔ m.name = m'.name := by
  show _ ++ "/" ++ m.name ++ ".schema.ts" = _ ++ "/" ++ m'.name ++ ".schema.ts" ↔ _
  rw [String.append_left_inj, String.append_right_inj]

theorem path_layerFile_eq (hm : ∀ x ∈ m.name.toList, x.toNat < 128)
    (hm' : ∀ x ∈ m'.name.toList, x.toNat < 128) {o : Option Brand.Registry}
    (h : Str.lowerFirst m.name = Str.lowerFirst m'.name) :
    (Layer.layerFile workDir c d o m).path = (Layer.layerFile workDir c d o m').path := by
  have hl : Str.lower m.name = Str.lower m'.name := by
    rw [← lower_lowerFirst hm, h, lower_lowerFirst hm']
  show Schema.tsPath _ (Layer.moduleName m.name) = Schema.tsPath _ (Layer.moduleName m'.name)
  rw [Layer.moduleName, Layer.moduleName, hl]

theorem path_layerFile_ne (hm : ∀ x ∈ m.name.toList, x.toNat < 128)
    (hm' : ∀ x ∈ m'.name.toList, x.toNat < 128) {o : Option Brand.Registry}
    (h : Layer.NamedAsConversion m.name m'.name) :
    (Layer.layerFile workDir c d o m).path ≠ (Layer.layerFile workDir c d o m').path := by
  intro hp
  -- the name of the one model is longer than that of the other
  have hl : Str.lower m.name = Str.lower m'.name :=
    (String.append_left_inj ".schemas").1 (tsPath_injective c.layersDir hp)
  have hlen := congrArg (·.toList.length) hl
  simp only [toList_lower hm, toList_lower hm', List.length_map] at hlen
  have hfirst : (Str.lowerFirst m'.name).toList.length = m'.name.toList.length := by
    rw [toList_lowerFirst hm', List.length_modifyHead]
  rcases h with h | h
  · rw [h, String.toList_append, List.length_append, hfirst] at hlen
    exact absurd hlen (by simp)
  · rw [h, String.toList_append, List.length_append, hfirst] at hlen
    exact absurd hlen (by simp)

section
variable (h : NamesApart workDir d c r)
include h

theorem disjoint_modelFile_enums (hz : c.zodSchemas = true) (hm : m ∈ d.models)
    (hs : Schema.enumFile? c d = some s) (hp : (Schema.modelFile c d m).path ≠ s.path) :
    (Schema.modelFile c d m).exports.Disjoint s.exports := by
  rw [Schema.exports_modelFile, List.singleton_disjoint, Schema.mem_exports_enumFile hs]
  rintro ⟨e, he, hn⟩
  exact hp ((path_modelFile_eq_iff hs).2 (h.enums hz m hm e he hn))

theorem disjoint_layerFiles (hl : c.threeLayers = true) (hz : c.zodSchemas = true)
    (hn : NamesChecked d r) (hm : m ∈ d.models) (hm' : m' ∈ d.models) {o : Option Brand.Registry}
    (hp : (Layer.layerFile workDir c d o m).path ≠ (Layer.layerFile workDir c d o m').path) :
    (Layer.layerFile workDir c d o m).exports.Disjoint
      (Layer.layerFile workDir c d o m').exports := by
  intro n h1 h2
  rcases Layer.common_export h1 h2 with he | he | he
  · exact hp (path_layerFile_eq (hn.plain m hm) (hn.plain m' hm') he)
  · exact h.conversions hl hz m hm m' hm' he
  · exact h.conversions hl hz m' hm' m hm he

theorem disjoint_of_origin (hn : NamesChecked d r)
    (hi : fam = .crud → c.crud.generateIndex = true) (ho : Origin workDir d c r fam s)
    (ho' : Origin workDir d c r fam s') (hp : s.path ≠ s'.path) :
    s.exports.Disjoint s'.exports := by
  have index : ∀ {family dir modules} {t : SourceFile},
      (indexFile family dir modules).exports.Disjoint t.exports := by
    intro family dir modules t
    rw [exports_indexFile]
    exact List.disjoint_nil_left _
  cases ho with
  | model hz hm =>
    cases ho' with
    | model _ hm' =>
      rw [Schema.exports_modelFile, Schema.exports_modelFile, List.singleton_disjoint,
        List.mem_singleton]
      intro he
      refine hp ?_
      show Schema.tsPath _ _ = Schema.tsPath _ _
      rw [(String.append_left_inj "Schema").1 he]
    | enums _ hs => exact disjoint_modelFile_enums h hz hm hs hp
    | baseIndex => exact List.disjoint_symm index
  | enums hz hs =>
    cases ho' with
    | model _ hm => exact List.disjoint_symm (disjoint_modelFile_enums h hz hm hs hp.symm)
    | enums _ hs' =>
      rw [hs] at hs'
      exact absurd (congrArg SourceFile.path (Option.some.inj hs')) hp
    | baseIndex => exact List.disjoint_symm index
  | baseIndex | brandIndex | layerIndex | crudIndex => exact index
  | branded =>
    cases ho' with
    | branded => exact absurd rfl hp
    | brandIndex => exact List.disjoint_symm index
  | layer hl hz hm =>
    cases ho' with
    | layer _ _ hm' => exact disjoint_layerFiles h hl hz hn hm hm' hp
    | transforms => exact Layer.disjoint_transformFile
    | layerIndex => exact List.disjoint_symm index
  | transforms =>
    cases ho' with
    | layer => exact List.disjoint_symm Layer.disjoint_transformFile
    | transforms => exact absurd rfl hp
    | layerIndex => exact List.disjoint_symm index
  | @crud hc hz m hm =>
    cases ho' with
    | @crud _ _ m' hm' =>
      have hne : m.name ≠ m'.name := fun he => hp (path_crudFile_eq_iff.2 he)
      exact (Crud.disjoint_crudFile_iff hne).2
        ⟨h.optionExports hc hz (hi rfl) m hm m' hm' hne,
          h.optionExports hc hz (hi rfl) m' hm' m hm hne.symm⟩
    | crudIndex => exact List.disjoint_symm index

end

/-! ## the files of a run -/

theorem generateIndex_of_listed (hl : Listed (familyFiles workDir d c r) dir s)
    (hf : s.family = Family.crud.name) : c.crud.generateIndex = true := by
  obtain ⟨_, -, index, hi, hfam, hpath, -⟩ := hl
  cases origin_of_family .crud hi (hfam.trans hf) with
  | crud hc hz hm => exact absurd hpath (append_ne_append (by decide))
  | crudIndex _ _ hindex => exact hindex

theorem clashless_of_namesApart (hn : NamesChecked d r) (h : NamesApart workDir d c r) :
    Clashless (familyFiles workDir d c r) := by
  have hone : ∀ s ∈ familyFiles workDir d c r, s.values.Nodup ∧ s.types.Nodup := by
    intro s hs
    obtain ⟨fam, ho⟩ := mem_familyFiles.1 hs
    exact nodup_of_origin hn h ho
  refine ⟨fun s hs => (hone s hs).1, fun s hs => (hone s hs).2, ?_⟩
  intro dir s hs s' hs' hl _ hf hp
  obtain ⟨fam, ho⟩ := mem_familyFiles.1 hs
  have ho' : Origin workDir d c r fam s' := origin_of_family fam hs' (hf.symm.trans ho.family)
  refine disjoint_of_origin h hn ?_ ho ho' hp
  rintro rfl
  exact generateIndex_of_listed hl ho.family

section
variable (h : Clashless (familyFiles workDir d c r))
include h

theorem clashless_nodup (ho : Origin workDir d c r fam s) : s.values.Nodup ∧ s.types.Nodup := by
  have hs : s ∈ familyFiles workDir d c r := mem_familyFiles.2 ⟨fam, ho⟩
  exact ⟨h.values s hs, h.types s hs⟩

theorem clashless_disjoint (ho : Origin workDir d c r fam s) (ho' : Origin workDir d c r fam s')
    (hl : Listed (familyFiles workDir d c r) dir s) (hl' : Listed (familyFiles workDir d c r) dir s')
    (hp : s.path ≠ s'.path) : s.exports.Disjoint s'.exports :=
  h.exports dir s (mem_familyFiles.2 ⟨fam, ho⟩) s' (mem_familyFiles.2 ⟨fam, ho'⟩) hl hl'
    (ho.family.trans ho'.family.symm) hp

theorem namesApart_of_clashless (hc : c.objection? = none) (hn : NamesChecked d r) :
    NamesApart workDir d c r := by
  constructor
  case modules =>
    intro hz m hm
    exact ((Schema.nodup_modelFile_iff hn.enum_ne).1 (clashless_nodup h (.model hz hm))).1
  case schemas =>
    intro hz m hm
    exact ((Schema.nodup_modelFile_iff hn.enum_ne).1 (clashless_nodup h (.model hz hm))).2
  case enums =>
    intro hz m hm e he heq
    by_contra hne
    obtain ⟨s, hs, -⟩ := mem_constants_enumFile (c := c) he
    have hp : (Schema.modelFile c d m).path ≠ s.path := fun hp =>
      hne ((path_modelFile_eq_iff hs).1 hp)
    have hdis := clashless_disjoint h (.model hz hm) (.enums hz hs) (listed_model hz hm)
      (listed_enums hz hc hs).2 hp
    rw [Schema.exports_modelFile, List.singleton_disjoint, Schema.mem_exports_enumFile hs] at hdis
    exact hdis ⟨e, he, heq⟩
  case brands =>
    intro hb
    exact (Brand.nodup_brandedFile_iff hn.brand_ne).1 (clashless_nodup h (.branded hb))
  case conversions =>
    intro hl hz m hm m' hm' hconv
    have hp : (Layer.layerFile workDir c d (activeRegistry c r) m).path ≠
        (Layer.layerFile workDir c d (activeRegistry c r) m').path :=
      path_layerFile_ne (hn.plain m hm) (hn.plain m' hm') hconv
    obtain ⟨n, h1, h2⟩ := Layer.exists_common_export workDir c d (activeRegistry c r) hconv
    exact clashless_disjoint h (.layer hl hz hm) (.layer hl hz hm') (listed_layer hz hl hm)
      (listed_layer hz hl hm') hp h1 h2
  case options =>
    intro hcr hz m hm
    exact (Crud.nodup_crudFile_iff workDir _ m).1 (clashless_nodup h (.crud hcr hz hm))
  case optionExports =>
    intro hcr hz hi m hm m' hm' hne
    have hp : (Crud.crudFile workDir (crudBase c d (activeRegistry c r)) m).path ≠
        (Crud.crudFile workDir (crudBase c d (activeRegistry c r)) m').path := fun hp =>
      hne (path_crudFile_eq_iff.1 hp)
    have hdis := clashless_disjoint h (.crud hcr hz hm) (.crud hcr hz hm')
      (listed_crud hz hcr hi hm) (listed_crud hz hcr hi hm') hp
    exact ((Crud.disjoint_crudFile_iff hne).1 hdis).1

end

theorem clashless_iff (hv : (Validation.validate d c).isValid = true) (hc : c.objection? = none)
    (hr : Brand.Registry.ofDatamodel d c.strictBrands = .ok r) :
    Clashless (familyFiles workDir d c r) ↔ NamesApart workDir d c r := by
  have hn := namesChecked_of_valid hv hr
  exact ⟨fun h => namesApart_of_clashless h hc hn, clashless_of_namesApart hn⟩

/-- **Names do not clash.**  For a data model that passes, no file of an output binds a name twice
and no two files that an index lists export one name exactly when the names of models,
enumerations, brands and option sets are apart. -/
theorem generate_clashless_iff {g : Generated SourceFile}
    (hv : (Validation.validate d c).isValid = true) (hc : c.objection? = none)
    (h : sourceFiles workDir d c = .ok g) :
    generate workDir d c = .ok ⟨g.files.map SourceFile.file, g.warnings⟩ ∧
      ∃ r, Brand.Registry.ofDatamodel d c.strictBrands = .ok r ∧
        (Clashless g.files ↔ NamesApart workDir d c r) := by
  obtain ⟨r, hr, hf⟩ := sourceFiles_of_ok h
  refine ⟨?_, r, hr, ?_⟩
  · unfold generate
    rw [h]
    rfl
  · rw [hf]
    exact clashless_iff hv hc hr

theorem exists_sourceFiles (workDir : Parts) (hv : (Validation.validate d c).isValid = true)
    (hl : longInteger? d c = none) : ∃ g, sourceFiles workDir d c = .ok g :=
  ⟨_, sourceFiles_eq_ok.2 ⟨_, Validation.ofDatamodel_of_valid hv, hl, rfl⟩⟩

/-- the account with its orders, which have a status -/
def orders : Datamodel :=
  { models := account.models ++ [
      { name := "Order"
        fields := [{ name := "id", type := "Int", isId := true }]
        documentation := some "@crud.enum.OrderStatus([\"OPEN\", \"DONE\"])" }]
    enums := account.enums }

theorem namesApart_orders :
    NamesApart [] orders allFamilies (Brand.declared (Brand.declarations orders)) := by
  let b := crudBase allFamilies orders
    (activeRegistry allFamilies (Brand.declared (Brand.declarations orders)))
  have hbase : ∀ m ∈ orders.models, (Schema.modelFile allFamilies orders m).values.Nodup ∧
      (Schema.modelFile allFamilies orders m).types.Nodup := by decide +kernel
  have hcrud : ∀ m ∈ orders.models, (Crud.crudFile [] b m).values.Nodup ∧
      (Crud.crudFile [] b m).types.Nodup := by decide +kernel
  have hapart : ∀ m ∈ orders.models, ∀ m' ∈ orders.models, m.name ≠ m'.name →
      Crud.OptionsApart b m m' := by
    unfold Crud.OptionsApart
    decide +kernel
  have hneeds : ∀ m ∈ orders.models, _ := fun m hm =>
    (Schema.nodup_modelFile_iff (by decide)).1 (hbase m hm)
  constructor
  case modules => exact fun _ m hm => (hneeds m hm).1
  case schemas => exact fun _ m hm => (hneeds m hm).2
  case enums => exact fun _ => by decide
  case brands => exact fun _ => by decide +kernel
  case conversions =>
    intro _ _
    unfold Layer.NamedAsConversion
    decide +kernel
  case options =>
    exact fun _ _ m hm => (Crud.nodup_crudFile_iff [] b m).1 (hcrud m (mem_models_of_eligible hm))
  case optionExports =>
    exact fun _ _ _ m hm m' hm' =>
      hapart m (mem_models_of_eligible hm) m' (mem_models_of_eligible hm')

theorem generate_clashless_orders :
    (Validation.validate orders allFamilies).isValid = true ∧ allFamilies.objection? = none ∧
      ∃ g, sourceFiles [] orders allFamilies = .ok g ∧ Clashless g.files := by
  have hv : (Validation.validate orders allFamilies).isValid = true := by decide +kernel
  have hc : allFamilies.objection? = none := by decide +kernel
  have hshort : ∀ m ∈ orders.models, Crud.longInteger? m = none := by decide +kernel
  have hlong : longInteger? orders allFamilies = none :=
    List.findSome?_eq_none_iff.2 fun m hm => hshort m (mem_models_of_eligible hm)
  obtain ⟨g, hg⟩ := exists_sourceFiles [] hv hlong
  obtain ⟨-, r, hr, hiff⟩ := generate_clashless_iff hv hc hg
  rw [Validation.ofDatamodel_of_valid hv] at hr
  obtain rfl := Except.ok.inj hr
  exact ⟨hv, hc, g, hg, hiff.2 namesApart_orders⟩

/-- an enumeration that is called like the schema of a model -/
def namesakes : Datamodel :=
  { models := [
      { name := "User"
        fields := [
          { name := "id", type := "Int", isId := true },
          { name := "role", type := "UserSchema", kind := ⟨.enumeration, true⟩ }] }]
    enums := [{ name := "UserSchema", values := ["ADMIN", "GUEST"] }] }

/-- Validation has nothing to say about the two, but the file of the model binds the name twice and
the index exports it from two files. -/
theorem namesakes_clash :
    Config.objection? {} = none ∧ (Validation.validate namesakes {}).isEmpty = true ∧
      ∃ g, sourceFiles [] namesakes {} = .ok g ∧ (∃ s ∈ g.files, ¬ s.values.Nodup) ∧
        ∃ s ∈ g.files, ∃ s' ∈ g.files, Listed g.files "schemas" s ∧ Listed g.files "schemas" s' ∧
          s.family = s'.family ∧ s.path ≠ s'.path ∧ ¬ s.exports.Disjoint s'.exports := by
  have hc : Config.objection? {} = none := by decide +kernel
  have hv : (Validation.validate namesakes {}).isValid = true := by decide +kernel
  obtain ⟨g, hg⟩ := exists_sourceFiles [] hv rfl
  obtain ⟨r, -, hf⟩ := sourceFiles_of_ok hg
  have hm : namesakes.models[0] ∈ namesakes.models := List.getElem_mem _
  obtain ⟨s, hs, -⟩ := mem_constants_enumFile (c := {}) (d := namesakes) List.mem_cons_self
  have ho : Origin [] namesakes {} r .schemas s := .enums rfl hs
  have hl : Listed (familyFiles [] namesakes {} r) "schemas" s := (listed_enums rfl hc hs).2
  refine ⟨hc, by decide +kernel, g, hg, ?_⟩
  rw [hf]
  refine ⟨⟨_, mem_familyFiles.2 ⟨_, .model rfl hm⟩, by decide +kernel⟩,
    _, mem_familyFiles.2 ⟨_, .model rfl hm⟩, s, mem_familyFiles.2 ⟨_, ho⟩, listed_model rfl hm, hl,
    ho.family.symm, ?_, ?_⟩
  · rw [Ne, path_modelFile_eq_iff hs]
    decide
  · rw [Schema.exports_modelFile, List.singleton_disjoint, Schema.mem_exports_enumFile hs]
    decide

end Generation

end ZodSchema
