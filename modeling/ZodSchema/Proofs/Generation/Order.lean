import ZodSchema.Proofs.Brand.Order
import ZodSchema.Proofs.Generation.Passed

/-!
# Models that are declared in another order

When the models have different names and no brand is declared in two ways, the order of the models
changes nothing but the order of the sites of a brand.

* `find?_perm`, `sortedModels_perm`, `eligible_perm`   what is found by name or sorted
* `modelFile_perm`, `layerFile_perm`, `crudFile_perm`  the file of a model
* `SameFile`            a file, up to the order of the sites of a brand
* `familyFiles_perm`    the files of all families
* `generate_perm`       the outcome
-/

namespace ZodSchema.Generation

open TypeScript Brand

variable {workDir : Text.Parts} {d : Datamodel} {c : Config} {models : List Model}
  {r r' : Registry}

/-- an index lists its modules in order, each once -/
theorem indexFile_congr {xs ys : List String} (h : ∀ x, x ∈ xs ↔ x ∈ ys) (family dir : String) :
    indexFile family dir xs = indexFile family dir ys := by
  have he : xs.isEmpty = ys.isEmpty := by
    rw [Bool.eq_iff_iff, List.isEmpty_iff, List.isEmpty_iff, List.eq_nil_iff_forall_not_mem,
      List.eq_nil_iff_forall_not_mem]
    exact forall_congr' fun x => not_congr (h x)
  unfold indexFile
  rw [he, Text.Str.sortDedup_congr h]

/-- a registry counts for CRUD schemas by the brands that stand for fields -/
theorem crudSet_congr {o o' : Option Registry}
    (ho : ∀ m f, o'.bind (·.fieldBrand? m f) = o.bind (·.fieldBrand? m f)) {x : Crud.Context}
    (hx : x.registry = o) : ({ x with registry := o' } : Crud.Context).crudSet = x.crudSet := by
  have hid : Crud.Context.idExpr { x with registry := o' } = x.idExpr := by
    funext p
    unfold Crud.Context.idExpr
    dsimp only
    rw [ho, hx]
    rfl
  have hu : Crud.Context.usesBrands { x with registry := o' } = x.usesBrands := by
    unfold Crud.Context.usesBrands
    simp only [ho, hx]
    rfl
  unfold Crud.Context.crudSet Crud.Context.updateBlock
  rw [hid, hu]
  rfl

/-! ## look-up and order -/

theorem find?_name_iff {ms : List Model} (hn : (ms.map (·.name)).Nodup) {n : String} {m : Model} :
    ms.find? (·.name == n) = some m ↔ m ∈ ms ∧ m.name = n := by
  constructor
  · intro h
    exact ⟨List.mem_of_find?_eq_some h, by simpa using List.find?_some h⟩
  · rintro ⟨hm, rfl⟩
    have hs : (ms.find? (·.name == m.name)).isSome = true :=
      List.find?_isSome.2 ⟨m, hm, beq_self_eq_true _⟩
    obtain ⟨m', hm'⟩ := Option.isSome_iff_exists.1 hs
    have hname : m'.name = m.name := by simpa using List.find?_some hm'
    rw [hm', List.inj_on_of_nodup_map hn (List.mem_of_find?_eq_some hm') hm hname]

/-- with distinct names a model is the first one of its name -/
theorem firstOfName_eq {d : Datamodel} (hn : (d.models.map (·.name)).Nodup) {m : Model}
    (hm : m ∈ d.models) : d.firstOfName m = m := by
  unfold Datamodel.firstOfName
  rw [(find?_name_iff hn).2 ⟨hm, rfl⟩]
  rfl

section
variable (hp : d.models.Perm models) (hn : (d.models.map (·.name)).Nodup)
include hp hn

theorem find?_perm (n : String) :
    models.find? (·.name == n) = d.models.find? (·.name == n) := by
  ext m
  rw [find?_name_iff hn, find?_name_iff ((hp.map _).nodup_iff.1 hn), hp.mem_iff]

theorem sortedModels_perm :
    ({ d with models := models } : Datamodel).sortedModels = d.sortedModels :=
  (Text.mergeSort_eq_of_perm Model.name hp fun _ ha _ hb => List.inj_on_of_nodup_map hn ha hb).symm

theorem eligible_perm : Crud.eligible c { d with models := models } = Crud.eligible c d := by
  refine (Text.mergeSort_eq_of_perm (·.name) (hp.filter _) fun a ha b hb => ?_).symm
  exact List.inj_on_of_nodup_map hn (List.mem_filter.1 ha).1 (List.mem_filter.1 hb).1

theorem firstOfName_perm (m : Model) :
    ({ d with models := models } : Datamodel).firstOfName m = d.firstOfName m := by
  unfold Datamodel.firstOfName
  rw [find?_perm hp hn]

/-! ## base schemas -/

theorem entries_perm (m : Model) :
    Schema.entries c { d with models := models } m = Schema.entries c d m := by
  unfold Schema.entries
  rw [firstOfName_perm hp hn]
  rfl

theorem modelFile_perm (m : Model) :
    Schema.modelFile c { d with models := models } m = Schema.modelFile c d m := by
  unfold Schema.modelFile
  rw [entries_perm hp hn]

theorem baseFiles_perm : Schema.baseFiles c { d with models := models } = Schema.baseFiles c d := by
  have hm : Schema.modelFile c { d with models := models } = Schema.modelFile c d :=
    funext (modelFile_perm hp hn)
  have hi : Schema.baseIndex c { d with models := models } = Schema.baseIndex c d := by
    refine indexFile_congr (fun x => ?_) _ _
    unfold Schema.modules
    rw [List.mem_append, List.mem_append, (hp.map _).mem_iff]
  unfold Schema.baseFiles
  rw [sortedModels_perm hp hn, hm, hi]
  rfl

theorem entryWarnings_perm :
    Schema.entryWarnings c { d with models := models } = Schema.entryWarnings c d := by
  unfold Schema.entryWarnings Schema.warningsOf
  rw [sortedModels_perm hp hn]
  dsimp only
  simp only [find?_perm hp hn, entries_perm hp hn]

/-! ## layers -/

section
variable {o o' : Option Registry}
  (ho : ∀ m f, o'.bind (·.fieldBrand? m f) = o.bind (·.fieldBrand? m f))
include ho

theorem layerFile_perm (m : Model) :
    Layer.layerFile workDir c { d with models := models } o' m =
      Layer.layerFile workDir c d o m := by
  have hl : Layer.layersOf c { d with models := models } o' m = Layer.layersOf c d o m := by
    unfold Layer.layersOf Layer.runtimeOverride?
    simp only [firstOfName_perm hp hn, entries_perm hp hn, ho]
  unfold Layer.layerFile
  rw [hl]

theorem layerFiles_perm :
    Layer.layerFiles workDir c { d with models := models } o' =
      Layer.layerFiles workDir c d o := by
  have hi : Layer.layerIndex c { d with models := models } = Layer.layerIndex c d := by
    refine indexFile_congr (fun x => ?_) _ _
    rw [List.mem_append, List.mem_append, (hp.map _).mem_iff]
  unfold Layer.layerFiles
  rw [sortedModels_perm hp hn, hi, funext (layerFile_perm hp hn ho)]

/-! ## CRUD schemas -/

omit ho in
theorem eligible_crudBase :
    Crud.eligible (crudBase c { d with models := models } o').config
      (crudBase c { d with models := models } o').datamodel = Crud.eligible c d :=
  eligible_perm hp hn

theorem setOf_perm (m : Model) :
    Crud.setOf (crudBase c { d with models := models } o') m = Crud.setOf (crudBase c d o) m := by
  unfold Crud.setOf
  rw [← crudSet_congr ho (rfl : (Crud.contextOf (crudBase c d o) m).registry = o)]
  unfold Crud.contextOf crudBase
  dsimp only
  rw [entries_perm hp hn]

theorem crudFile_perm (m : Model) :
    Crud.crudFile workDir (crudBase c { d with models := models } o') m =
      Crud.crudFile workDir (crudBase c d o) m := by
  unfold Crud.crudFile
  rw [setOf_perm hp hn ho]
  rfl

theorem crudFiles_perm :
    Crud.crudFiles workDir (crudBase c { d with models := models } o') =
      Crud.crudFiles workDir (crudBase c d o) := by
  have hf : Crud.crudFile workDir (crudBase c { d with models := models } o') =
      Crud.crudFile workDir (crudBase c d o) := funext (crudFile_perm hp hn ho)
  unfold Crud.crudFiles
  dsimp only
  rw [hf, eligible_crudBase hp hn]
  rfl

theorem crudWarnings_perm :
    Crud.crudWarnings (crudBase c { d with models := models } o') =
      Crud.crudWarnings (crudBase c d o) := by
  unfold Crud.crudWarnings
  rw [eligible_crudBase hp hn]
  simp only [setOf_perm hp hn ho]
  rfl

end

/-! ## all families -/

theorem longInteger?_perm :
    longInteger? { d with models := models } c = longInteger? d c := by
  unfold longInteger?
  rw [eligible_perm hp hn]

end

theorem declarations_perm (hp : d.models.Perm models) :
    (declarations d).Perm (declarations { d with models := models }) :=
  hp.flatMap_right _

/-- the active registries name the same brands -/
theorem activeRegistry_perm (hp : d.models.Perm models) (m : Model) (f : Field) :
    (activeRegistry c (declared (declarations { d with models := models }))).bind
        (·.fieldBrand? m f) =
      (activeRegistry c (declared (declarations d))).bind (·.fieldBrand? m f) := by
  unfold activeRegistry
  split
  · exact (fieldBrand?_congr (contains_perm (declarations_perm hp)) m f).symm
  · rfl

/-- the same file, but for the order of the sites of a brand in the brand file -/
def SameFile (c : Config) (f f' : GeneratedFile) : Prop :=
  f = f' ∨ f.family = Family.brands.name ∧ f.path = c.brandsDir ++ "/branded.ts" ∧
    f'.family = f.family ∧ f'.path = f.path ∧
    ∃ ls ls', List.Forall₂ SameLine ls ls' ∧ f.content = Text.Str.unlines ls ∧
      f'.content = Text.Str.unlines ls'

theorem sameFile_refl (fs : List GeneratedFile) : List.Forall₂ (SameFile c) fs fs :=
  List.forall₂_same.2 fun _ _ => Or.inl rfl

theorem brandFiles_perm {ds ds' : List Declaration} (h : ds.Perm ds') (hu : Unanimous ds) :
    List.Forall₂ (SameFile c) ((brandFiles c (declared ds)).map SourceFile.file)
      ((brandFiles c (declared ds')).map SourceFile.file) :=
  .cons (Or.inr ⟨rfl, rfl, rfl, rfl, _, _, lines_brandedFile c h hu, rfl, rfl⟩) (sameFile_refl _)

section
variable (hp : d.models.Perm models) (hn : (d.models.map (·.name)).Nodup)
  (hu : Unanimous (declarations d))
include hp hn hu

theorem familyFiles_perm :
    List.Forall₂ (SameFile c)
      ((familyFiles workDir d c (declared (declarations d))).map SourceFile.file)
      ((familyFiles workDir { d with models := models } c
        (declared (declarations { d with models := models }))).map SourceFile.file) := by
  have ho := activeRegistry_perm (c := c) hp
  unfold familyFiles
  dsimp only
  rw [baseFiles_perm hp hn, layerFiles_perm hp hn ho, crudFiles_perm hp hn ho]
  simp only [List.map_append]
  refine List.rel_append (List.rel_append (List.rel_append (sameFile_refl _) ?_) (sameFile_refl _))
    (sameFile_refl _)
  split
  · exact brandFiles_perm (declarations_perm hp) hu
  · exact .nil

theorem familyWarnings_perm :
    familyWarnings { d with models := models } c
        (declared (declarations { d with models := models })) =
      familyWarnings d c (declared (declarations d)) := by
  unfold familyWarnings
  rw [entryWarnings_perm hp hn, crudWarnings_perm hp hn (activeRegistry_perm hp),
    conflicts_eq_nil_iff.2 hu, conflicts_eq_nil_iff.2 (hu.perm (declarations_perm hp))]

end

/-- declarations that agree give a registry whether it is strict or not -/
theorem ofDatamodel_of_unanimous (hu : Unanimous (declarations d)) (strict : Bool) :
    Registry.ofDatamodel d strict = .ok (declared (declarations d)) := by
  rw [ofDatamodel_eq_verdict, verdict, conflicts_eq_nil_iff.2 hu]

/-- **The order of the models.**  With different names and no conflict of brands, models in another
order give the same files in the same order and the same warnings, but for the order of the sites of
a brand; or nothing at all, for the same reason. -/
theorem generate_perm (hp : d.models.Perm models) (hn : (d.models.map (·.name)).Nodup)
    (hr : Registry.ofDatamodel d true = .ok r) :
    (∀ n, longInteger? d c = some n →
      generate workDir d c = .error (.longInteger n) ∧
        generate workDir { d with models := models } c = .error (.longInteger n)) ∧
    (longInteger? d c = none →
      ∃ g g', generate workDir d c = .ok g ∧
        generate workDir { d with models := models } c = .ok g' ∧
        List.Forall₂ (SameFile c) g.files g'.files ∧ g.warnings = g'.warnings) := by
  have hu : Unanimous (declarations d) := by
    rw [ofDatamodel_eq_verdict, verdict] at hr
    split at hr
    · next h => exact conflicts_eq_nil_iff.1 h
    · cases hr
  have hu' := hu.perm (declarations_perm hp)
  have hl := longInteger?_perm (c := c) hp hn
  rw [generate_of_registry (ofDatamodel_of_unanimous hu _),
    generate_of_registry (ofDatamodel_of_unanimous hu' _), hl]
  constructor
  · intro n h
    rw [h]
    exact ⟨rfl, rfl⟩
  · intro h
    rw [h]
    exact ⟨_, _, rfl, rfl, familyFiles_perm hp hn hu, (familyWarnings_perm hp hn hu).symm⟩

/-- two models that declare a brand -/
def shop : Datamodel :=
  { models := [
      { name := "Order"
        fields := [
          { name := "id", type := "String", isId := true
            documentation := some "@zod.uuid().brand(\"Ref\")" }] },
      { name := "Item"
        fields := [
          { name := "order", type := "String"
            documentation := some "@zod.uuid().brand(\"Ref\").nullable()" }] }] }

theorem generate_perm_shop :
    shop.models.Perm shop.models.reverse ∧ (shop.models.map (·.name)).Nodup ∧
      (∃ r, Registry.ofDatamodel shop true = .ok r) ∧ longInteger? shop allFamilies = none ∧
      ∃ g g', generate [] shop allFamilies = .ok g ∧
        generate [] { shop with models := shop.models.reverse } allFamilies = .ok g' ∧
        List.Forall₂ (SameFile allFamilies) g.files g'.files ∧ g.warnings = g'.warnings := by
  have hp : shop.models.Perm shop.models.reverse := (List.reverse_perm _).symm
  have hn : (shop.models.map (·.name)).Nodup := by decide
  have hu : Unanimous (declarations shop) := by
    unfold Unanimous
    decide +kernel
  have hr := ofDatamodel_of_unanimous hu true
  have hl : longInteger? shop allFamilies = none := by
    have hargs : ∀ m ∈ shop.models, Crud.jsonArgs m = [] := by decide +kernel
    rw [← Option.not_isSome_iff_eq_none, longInteger?_isSome]
    rintro ⟨_, _, m, hm, _, raw, hraw, _⟩
    rw [hargs m hm] at hraw
    cases hraw
  exact ⟨hp, hn, ⟨_, hr⟩, hl, (generate_perm hp hn hr).2 hl⟩

end ZodSchema.Generation
