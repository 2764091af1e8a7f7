import ZodSchema.Proofs.Generation.Closure

/-!
# Rewording a data model

A documentation holds directives and prose.  Prose stands in comments and nowhere else: with other
prose the same files come of a data model, apart from their comment blocks.

* `docLines`   the lines of a documentation
* `Rewording`, `Rewording.on`   other documentation with the same directives
* `entries_on`, `layersOf_on`, `crudSet_on`   what comes of a model
* `SameCode`, `Reworded`        the same lines, or files, apart from comment blocks
* `reworded_brandedFile`        other sites of the brands
* `generate_reworded`           what comes of a data model
-/

namespace ZodSchema.Generation

open TypeScript Schema

/-- what is left of a documentation without its directives, as lines -/
def docLines (documentation : Option String) : List String :=
  (documentation.map Annotations.prose).getD []

/-- other documentation, from which the same annotations and rules are read -/
structure Rewording where
  model : Model → Option String
  field : Model → Field → Option String
  enum : EnumDef → Option String
  modelRules : ∀ m, Crud.docRules (model m) = Crud.docRules m.documentation
  annotations : ∀ m f, Annotations.of? (field m f) = Annotations.of? f.documentation
  fieldRules : ∀ m f, Crud.docRules (field m f) = Crud.docRules f.documentation

namespace Rewording

variable (ρ : Rewording) {c : Config} {d : Datamodel} {m : Model} {f : Field}

def onField (m : Model) (f : Field) : Field := { f with documentation := ρ.field m f }

def onModel (m : Model) : Model :=
  { m with documentation := ρ.model m, fields := m.fields.map (ρ.onField m) }

def onEnum (e : EnumDef) : EnumDef := { e with documentation := ρ.enum e }

/-- the data model with the other documentation -/
def on (d : Datamodel) : Datamodel :=
  { d with models := d.models.map ρ.onModel, enums := d.enums.map ρ.onEnum }

/-- an entry of a model with the other documentation of its field -/
def onEntry (m : Model) (p : Field × Entry) : Field × Entry :=
  (ρ.onField m p.1, { p.2 with doc := docLines (ρ.field m p.1) })

/-! ## models and fields -/

/-- models are told by their names -/
theorem mergeSort_on (ms : List Model) :
    (ms.map ρ.onModel).mergeSort (fun a b => decide (a.name ≤ b.name)) =
      (ms.mergeSort fun a b => decide (a.name ≤ b.name)).map ρ.onModel := by
  symm
  apply List.map_mergeSort
  intro a _ b _
  rfl

theorem sortedModels_on (d : Datamodel) :
    (ρ.on d).sortedModels = d.sortedModels.map ρ.onModel := ρ.mergeSort_on d.models

theorem firstOfName_on (d : Datamodel) (m : Model) :
    (ρ.on d).firstOfName (ρ.onModel m) = ρ.onModel (d.firstOfName m) := by
  unfold Datamodel.firstOfName on
  dsimp only
  rw [List.find?_map, show ((·.name == (ρ.onModel m).name) ∘ ρ.onModel) =
    (fun n : Model => n.name == m.name) from rfl]
  cases d.models.find? (·.name == m.name) <;> rfl

theorem enum?_on (d : Datamodel) (type : String) :
    ((ρ.on d).enum? type).isSome = (d.enum? type).isSome := by
  unfold Datamodel.enum? on
  dsimp only
  rw [← List.map_reverse, List.find?_map, Option.isSome_map]
  rfl

theorem emittedFields_on (m : Model) :
    (ρ.onModel m).emittedFields = m.emittedFields.map (ρ.onField m) :=
  List.filter_map

theorem foreignKeyTarget?_on (m : Model) (name : String) :
    (ρ.onModel m).foreignKeyTarget? name = m.foreignKeyTarget? name := by
  unfold Model.foreignKeyTarget? onModel
  dsimp only
  rw [List.find?_map, Option.map_map]
  rfl

/-! ## entries -/

theorem draft_on (c : Config) (d : Datamodel) (m : Model) (f : Field) (a : Option Annotations) :
    draft c (ρ.on d) (ρ.onField m f) a = draft c d f a := by
  have henum : enumDraft c (ρ.on d) (ρ.onField m f) = enumDraft c d f := by
    unfold enumDraft
    rw [enum?_on]
    rfl
  unfold draft
  rw [henum]
  rfl

theorem emit_on (c : Config) (d : Datamodel) (m : Model) (f : Field) :
    emit c (ρ.on d) (ρ.onField m f) = { emit c d f with doc := docLines (ρ.field m f) } := by
  have ha : Annotations.of? (ρ.onField m f).documentation = Annotations.of? f.documentation :=
    ρ.annotations m f
  unfold emit
  rw [ha]
  dsimp only
  rw [draft_on]
  rfl

theorem entries_on (c : Config) (d : Datamodel) (m : Model) :
    entries c (ρ.on d) (ρ.onModel m) = (entries c d m).map (ρ.onEntry (d.firstOfName m)) := by
  unfold entries
  rw [firstOfName_on, emittedFields_on, List.map_map, List.map_map]
  exact List.map_congr_left fun f _ => congrArg (Prod.mk _) (ρ.emit_on c d _ f)

theorem entryWarnings_on (c : Config) (d : Datamodel) :
    entryWarnings c (ρ.on d) = entryWarnings c d := by
  have hnames : (ρ.on d).sortedModels.map (·.name) = d.sortedModels.map (·.name) := by
    rw [sortedModels_on, List.map_map]
    rfl
  have hone : ∀ m, (entries c (ρ.on d) (ρ.onModel m)).flatMap (·.2.warnings) =
      (entries c d m).flatMap (·.2.warnings) := by
    intro m
    rw [entries_on, List.flatMap_map]
    rfl
  unfold entryWarnings warningsOf
  rw [hnames]
  refine List.flatMap_congr fun name _ => ?_
  unfold on
  dsimp only
  rw [List.find?_map, show ((·.name == name) ∘ ρ.onModel) = (fun m : Model => m.name == name) from
    rfl]
  cases d.models.find? (·.name == name) with
  | none => rfl
  | some m => exact hone m

/-! ## brands and layers -/

theorem declarations_on (d : Datamodel) : Brand.declarations (ρ.on d) = Brand.declarations d := by
  have hfield : ∀ m f, Brand.declarationOf? d.provider.value m.name (ρ.onField m f) =
      Brand.declarationOf? d.provider.value m.name f := by
    intro m f
    have ha : Annotations.of? (ρ.onField m f).documentation = Annotations.of? f.documentation :=
      ρ.annotations m f
    unfold Brand.declarationOf?
    rw [ha]
    rfl
  unfold Brand.declarations on
  dsimp only
  rw [List.flatMap_map]
  refine List.flatMap_congr fun m _ => ?_
  unfold onModel
  dsimp only
  rw [List.filterMap_map]
  exact List.filterMap_congr fun f _ => hfield m f

theorem fieldBrand?_on (r : Brand.Registry) (m m' : Model) (f : Field) :
    r.fieldBrand? (ρ.onModel m) (ρ.onField m' f) = r.fieldBrand? m f := by
  have ha : Annotations.of? (ρ.onField m' f).documentation = Annotations.of? f.documentation :=
    ρ.annotations m' f
  have hi : Brand.implicit? (ρ.onModel m) (ρ.onField m' f) = Brand.implicit? m f := by
    unfold Brand.implicit?
    rw [foreignKeyTarget?_on]
    rfl
  unfold Brand.Registry.fieldBrand?
  rw [ha, hi]

theorem layersOf_on (c : Config) (d : Datamodel) (r : Option Brand.Registry) (m : Model) :
    Layer.layersOf c (ρ.on d) r (ρ.onModel m) = Layer.layersOf c d r m := by
  have hruntime : ∀ m n p, Layer.runtimeOverride? (ρ.onModel m) (ρ.onEntry n p).1
      (ρ.onEntry n p).2 r = Layer.runtimeOverride? m p.1 p.2 r := by
    intro m n p
    have hb : r.bind (·.fieldBrand? (ρ.onModel m) (ρ.onField n p.1)) =
        r.bind (·.fieldBrand? m p.1) := by simp only [fieldBrand?_on]
    unfold Layer.runtimeOverride? onEntry
    dsimp only
    rw [hb]
    rfl
  unfold Layer.layersOf
  dsimp only
  rw [firstOfName_on, entries_on, List.filterMap_map, List.filterMap_map]
  simp only [Function.comp_def, hruntime]
  rfl

/-! ## CRUD schemas -/

theorem eligible_on (c : Config) (d : Datamodel) :
    Crud.eligible c (ρ.on d) = (Crud.eligible c d).map ρ.onModel := by
  unfold Crud.eligible on
  dsimp only
  rw [List.filter_map, mergeSort_on]
  rfl

theorem rulesOf_on (m : Model) : Crud.rulesOf (ρ.onModel m) = Crud.rulesOf m := by
  have hm : Crud.docRules (ρ.onModel m).documentation = Crud.docRules m.documentation :=
    ρ.modelRules m
  have hf : ∀ f, Crud.docRules (ρ.onField m f).documentation = Crud.docRules f.documentation :=
    ρ.fieldRules m
  unfold Crud.rulesOf
  rw [hm]
  show (m.fields.map (ρ.onField m)).foldl _ _ = _
  rw [List.foldl_map]
  simp only [hf]
  rfl

theorem longInteger?_on (m : Model) : Crud.longInteger? (ρ.onModel m) = Crud.longInteger? m := by
  have hm : Crud.docRules (ρ.onModel m).documentation = Crud.docRules m.documentation :=
    ρ.modelRules m
  have hf : ∀ f, Crud.docRules (ρ.onField m f).documentation = Crud.docRules f.documentation :=
    ρ.fieldRules m
  unfold Crud.longInteger? Crud.jsonArgs
  rw [hm]
  show ((_ : List String) ++ (m.fields.map (ρ.onField m)).flatMap _).findSome? _ = _
  rw [List.flatMap_map]
  simp only [hf]

/-- what the blocks of a model are built from, with the other documentation -/
def onContext (n : Model) (x : Crud.Context) : Crud.Context :=
  { x with model := ρ.onModel x.model, entries := x.entries.map (ρ.onEntry n) }

section
variable (n : Model) (x : Crud.Context)

theorem find_entry_on (name : String) :
    Crud.Context.entry? (ρ.onContext n x) name = (x.entry? name).map (ρ.onEntry n) :=
  List.find?_map

theorem resolve_on (directive : String) (names : List String) :
    (ρ.onContext n x).resolve directive names = x.resolve directive names := by
  unfold Crud.Context.resolve
  simp only [find_entry_on, Option.map_map, Option.isNone_map]
  rfl

theorem ids_on : (ρ.onContext n x).ids = x.ids.map (ρ.onEntry n) := List.filter_map

theorem idKeys_on : (ρ.onContext n x).idKeys = x.idKeys := by
  unfold Crud.Context.idKeys
  rw [ids_on, List.map_map]
  rfl

theorem filter_on {g : Field × Entry → Bool} (hg : ∀ p, g (ρ.onEntry n p) = g p) :
    (ρ.onContext n x).entries.filter g = (x.entries.filter g).map (ρ.onEntry n) := by
  show (x.entries.map (ρ.onEntry n)).filter g = _
  rw [List.filter_map, show g ∘ ρ.onEntry n = g from funext hg]

theorem createBlock_on : (ρ.onContext n x).createBlock = x.createBlock := by
  have hdefaults : (ρ.onContext n x).createDefaults = x.createDefaults := by
    unfold Crud.Context.createDefaults
    simp only [find_entry_on, Option.map_map, Option.isNone_map]
    rfl
  have homits : ∀ keys p, (ρ.onContext n x).omitsOnCreate keys (ρ.onEntry n p) =
      x.omitsOnCreate keys p := fun _ _ => rfl
  have htarget : ∀ name, (ρ.onContext n x).model.foreignKeyTarget? name =
      x.model.foreignKeyTarget? name := ρ.foreignKeyTarget?_on x.model
  unfold Crud.Context.createBlock
  rw [resolve_on, hdefaults]
  dsimp only
  rw [filter_on ρ n x (homits _), filter_on ρ n x fun p => congrArg (! ·) (homits _ p)]
  simp only [List.map_map, Function.comp_def, htarget]
  rfl

theorem updateBlock_on : (ρ.onContext n x).updateBlock = x.updateBlock := by
  have hid : ∀ p, (ρ.onContext n x).idExpr (ρ.onEntry n p) = x.idExpr p := by
    intro p
    have hb : (ρ.onContext n x).registry.bind
        (·.fieldBrand? (ρ.onContext n x).model (ρ.onEntry n p).1) =
          x.registry.bind (·.fieldBrand? x.model p.1) :=
      congrArg x.registry.bind (funext fun r => ρ.fieldBrand?_on r x.model n p.1)
    unfold Crud.Context.idExpr
    rw [hb]
    rfl
  unfold Crud.Context.updateBlock
  rw [resolve_on, resolve_on, idKeys_on, ids_on]
  dsimp only
  rw [filter_on ρ n x fun _ => rfl, filter_on ρ n x fun _ => rfl]
  simp only [List.map_map, Function.comp_def, hid]
  rfl

theorem listBlock_on : (ρ.onContext n x).listBlock = x.listBlock := by
  have hwhere : (ρ.onContext n x).whereBlock = x.whereBlock := by
    unfold Crud.Context.whereBlock
    rw [resolve_on]
    rfl
  unfold Crud.Context.listBlock
  rw [hwhere, idKeys_on]
  rfl

theorem usesBrands_on : (ρ.onContext n x).usesBrands = x.usesBrands := by
  have hb : ∀ p : Field × Entry, ((ρ.onContext n x).registry.bind
      (·.fieldBrand? (ρ.onContext n x).model (ρ.onEntry n p).1)).isSome =
        (x.registry.bind (·.fieldBrand? x.model p.1)).isSome := by
    intro p
    show (x.registry.bind (·.fieldBrand? (ρ.onModel x.model) (ρ.onField n p.1))).isSome = _
    simp only [fieldBrand?_on]
  unfold Crud.Context.usesBrands
  rw [ids_on, List.any_map]
  simp only [Function.comp_def, hb]

theorem crudSet_on : (ρ.onContext n x).crudSet = x.crudSet := by
  have hid : ∀ op, (ρ.onContext n x).identifierBlock op = x.identifierBlock op := by
    intro op
    unfold Crud.Context.identifierBlock
    rw [idKeys_on]
    rfl
  unfold Crud.Context.crudSet
  rw [createBlock_on, updateBlock_on, listBlock_on, usesBrands_on, hid, hid]
  rfl

end

theorem setOf_on (c : Config) (d : Datamodel) (r : Option Brand.Registry) (m : Model) :
    Crud.setOf (crudBase c (ρ.on d) r) (ρ.onModel m) = Crud.setOf (crudBase c d r) m := by
  have hcontext : Crud.contextOf (crudBase c (ρ.on d) r) (ρ.onModel m) =
      ρ.onContext (d.firstOfName m) (Crud.contextOf (crudBase c d r) m) := by
    unfold Crud.contextOf
    rw [rulesOf_on]
    dsimp only [crudBase]
    rw [entries_on]
    rfl
  unfold Crud.setOf
  rw [hcontext, crudSet_on]

theorem longIntegers_on (d : Datamodel) (c : Config) :
    Generation.longInteger? (ρ.on d) c = Generation.longInteger? d c := by
  unfold Generation.longInteger?
  rw [eligible_on, List.findSome?_map]
  simp only [Function.comp_def, longInteger?_on]

/-! ## files -/

theorem layerFiles_on (workDir : Text.Parts) (c : Config) (d : Datamodel)
    (r : Option Brand.Registry) :
    Layer.layerFiles workDir c (ρ.on d) r = Layer.layerFiles workDir c d r := by
  have hfile : ∀ m, Layer.layerFile workDir c (ρ.on d) r (ρ.onModel m) =
      Layer.layerFile workDir c d r m := by
    intro m
    unfold Layer.layerFile
    rw [layersOf_on]
    rfl
  have hindex : Layer.layerIndex c (ρ.on d) = Layer.layerIndex c d := by
    unfold Layer.layerIndex on
    rw [List.map_map]
    rfl
  unfold Layer.layerFiles
  rw [hindex, sortedModels_on, List.map_map]
  simp only [Function.comp_def, hfile]

theorem crudFiles_on (workDir : Text.Parts) (c : Config) (d : Datamodel)
    (r : Option Brand.Registry) :
    Crud.crudFiles workDir (crudBase c (ρ.on d) r) = Crud.crudFiles workDir (crudBase c d r) := by
  have hfile : ∀ m, Crud.crudFile workDir (crudBase c (ρ.on d) r) (ρ.onModel m) =
      Crud.crudFile workDir (crudBase c d r) m := by
    intro m
    unfold Crud.crudFile
    rw [setOf_on]
    rfl
  have hindex : ∀ ms, Crud.crudIndex (crudBase c (ρ.on d) r) (ms.map ρ.onModel) =
      Crud.crudIndex (crudBase c d r) ms := by
    intro ms
    unfold Crud.crudIndex
    rw [List.map_map]
    rfl
  have heligible : Crud.eligible (crudBase c (ρ.on d) r).config (crudBase c (ρ.on d) r).datamodel =
      (Crud.eligible c d).map ρ.onModel := ρ.eligible_on c d
  unfold Crud.crudFiles
  rw [heligible]
  dsimp only
  rw [hindex, List.map_map]
  simp only [Function.comp_def, hfile]
  rfl

theorem familyWarnings_on (d : Datamodel) (c : Config) (r : Brand.Registry) :
    familyWarnings (ρ.on d) c r = familyWarnings d c r := by
  have hcrud : Crud.crudWarnings (crudBase c (ρ.on d) (activeRegistry c r)) =
      Crud.crudWarnings (crudBase c d (activeRegistry c r)) := by
    unfold Crud.crudWarnings
    rw [show Crud.eligible (crudBase c (ρ.on d) (activeRegistry c r)).config
      (crudBase c (ρ.on d) (activeRegistry c r)).datamodel = (Crud.eligible c d).map ρ.onModel from
        ρ.eligible_on c d, List.flatMap_map]
    simp only [setOf_on]
    rfl
  unfold familyWarnings
  rw [entryWarnings_on, hcrud]

end Rewording

/-! ## comment blocks -/

/-- the same lines apart from comment blocks, which stand behind the same lines -/
inductive SameCode : List String → List String → Prop where
  | nil : SameCode [] []
  | line (l : String) {ls ls' : List String} (h : SameCode ls ls') : SameCode (l :: ls) (l :: ls')
  | block {indent : String} (hi : ∀ x ∈ indent.toList, Text.isBlank x = true)
      (texts texts' : List String) {ls ls' : List String} (h : SameCode ls ls') :
      SameCode (docBlock texts indent ++ ls) (docBlock texts' indent ++ ls')

namespace SameCode

variable {ls ls' ks ks' : List String}

theorem append (h : SameCode ls ls') (hk : SameCode ks ks') : SameCode (ls ++ ks) (ls' ++ ks') := by
  induction h with
  | nil => exact hk
  | line l _ ih => exact .line l ih
  | block hi texts texts' _ ih =>
    rw [List.append_assoc, List.append_assoc]
    exact .block hi texts texts' ih

theorem refl (ls : List String) : SameCode ls ls := by
  induction ls with
  | nil => exact .nil
  | cons l ls ih => exact .line l ih

/-- one block for another -/
theorem ofBlock {indent : String} (hi : ∀ x ∈ indent.toList, Text.isBlank x = true)
    (texts texts' : List String) : SameCode (docBlock texts indent) (docBlock texts' indent) := by
  have h := SameCode.block hi texts texts' .nil
  rwa [List.append_nil, List.append_nil] at h

theorem flatMap {α : Type} {f g : α → List String} {xs : List α}
    (h : ∀ x ∈ xs, SameCode (f x) (g x)) : SameCode (xs.flatMap f) (xs.flatMap g) := by
  induction xs with
  | nil => exact .nil
  | cons x xs ih =>
    obtain ⟨hx, hxs⟩ := List.forall_mem_cons.1 h
    exact hx.append (ih hxs)

end SameCode

/-- the same file apart from comment blocks -/
structure Reworded (f f' : GeneratedFile) : Prop where
  family : f'.family = f.family
  path : f'.path = f.path
  code : ∃ ls ls', f.content = Text.Str.unlines ls ∧ f'.content = Text.Str.unlines ls' ∧
    SameCode ls ls'

theorem reworded_of_stmts {s s' : SourceFile} (hf : s'.family = s.family) (hp : s'.path = s.path)
    (h : SameCode (s.stmts.flatMap Stmt.lines) (s'.stmts.flatMap Stmt.lines)) :
    Reworded s.file s'.file :=
  ⟨hf, hp, _, _, rfl, rfl, h⟩

/-- the sites of a brand stand in its comment and nowhere else -/
theorem reworded_brandedFile (c : Config) {r r' : Brand.Registry} (hn : r'.names = r.names)
    (hs : List.Forall₂ (fun b b' => b'.name = b.name ∧ b'.chain = b.chain) r.sorted r'.sorted) :
    Reworded (Brand.brandedFile c r).file (Brand.brandedFile c r').file := by
  have hnone : ∀ x ∈ "".toList, Text.isBlank x = true := List.all_eq_true.1 (by decide)
  have hbrands : SameCode ((r.sorted.flatMap Brand.brandStmts).flatMap Stmt.lines)
      ((r'.sorted.flatMap Brand.brandStmts).flatMap Stmt.lines) := by
    rw [List.flatMap_assoc, List.flatMap_assoc]
    generalize r.sorted = bs at hs ⊢
    generalize r'.sorted = bs' at hs ⊢
    induction hs with
    | nil => exact .nil
    | @cons b b' _ _ h _ ih =>
      refine SameCode.append ?_ ih
      have hschema : b'.schema = b.schema :=
        congrArg₂ (fun chain name => chain ++ ".brand(" ++ Text.quote name ++ ")") h.2 h.1
      simp only [Brand.brandStmts]
      rw [hschema, h.1]
      exact (SameCode.ofBlock hnone _ _).append (.refl _)
  have hunion : Brand.nameUnion r' = Brand.nameUnion r := by
    unfold Brand.nameUnion
    rw [hn]
  refine reworded_of_stmts rfl rfl ?_
  unfold Brand.brandedFile
  rw [hunion]
  simp only [List.flatMap_append]
  exact ((SameCode.refl _).append hbrands).append (.refl _)

section
variable (ρ : Rewording) (workDir : Text.Parts) (d : Datamodel) (c : Config)

theorem reworded_modelFile (m : Model) :
    Reworded (modelFile c d m).file (modelFile c (ρ.on d) (ρ.onModel m)).file := by
  have hindent : ∀ x ∈ "  ".toList, Text.isBlank x = true := List.all_eq_true.1 (by decide)
  have hnone : ∀ x ∈ "".toList, Text.isBlank x = true := List.all_eq_true.1 (by decide)
  have himports : ((entries c (ρ.on d) (ρ.onModel m)).map (·.2)).map (·.imports) =
      ((entries c d m).map (·.2)).map (·.imports) := by
    rw [Rewording.entries_on, List.map_map, List.map_map, List.map_map]
    rfl
  have hobject : SameCode (((entries c d m).map (·.2)).flatMap (·.render "  "))
      (((entries c (ρ.on d) (ρ.onModel m)).map (·.2)).flatMap (·.render "  ")) := by
    rw [Rewording.entries_on, List.flatMap_map, List.flatMap_map, List.flatMap_map]
    exact SameCode.flatMap fun p _ => (SameCode.ofBlock hindent _ _).append (.refl _)
  refine reworded_of_stmts rfl rfl ?_
  unfold modelFile
  dsimp only
  rw [himports]
  simp only [List.flatMap_append, List.flatMap_cons, List.flatMap_nil, List.append_nil]
  -- the comment of the model and those of its fields, between lines that are the same
  have hdoc : SameCode (Stmt.doc (docLines m.documentation)).lines
      (Stmt.doc (docLines (ρ.onModel m).documentation)).lines := SameCode.ofBlock hnone _ _
  have hconst := SameCode.line
    ("export const " ++ schemaName m.name ++ " = " ++ "z.object(\x7b")
    (hobject.append (.refl ["\x7d);"]))
  refine (SameCode.refl _).append ((SameCode.refl _).append ((SameCode.refl _).append
    ((SameCode.refl _).append (hdoc.append (hconst.append (.refl _))))))

theorem reworded_enumFile : List.Forall₂ Reworded ((enumFile? c d).toList.map SourceFile.file)
    ((enumFile? c (ρ.on d)).toList.map SourceFile.file) := by
  have hnone : ∀ x ∈ "".toList, Text.isBlank x = true := List.all_eq_true.1 (by decide)
  have hempty : (ρ.on d).enums.isEmpty = d.enums.isEmpty := List.isEmpty_map
  have hlines : SameCode ((d.enums.flatMap enumStmts).flatMap Stmt.lines)
      (((ρ.on d).enums.flatMap enumStmts).flatMap Stmt.lines) := by
    show SameCode _ (((d.enums.map ρ.onEnum).flatMap enumStmts).flatMap Stmt.lines)
    rw [List.flatMap_map, List.flatMap_assoc, List.flatMap_assoc]
    exact SameCode.flatMap fun e _ => (SameCode.ofBlock hnone _ _).append (.refl _)
  unfold enumFile?
  rw [hempty]
  split
  · exact .nil
  · refine .cons (reworded_of_stmts rfl rfl ?_) .nil
    dsimp only
    simp only [List.flatMap_append, List.flatMap_cons]
    exact (SameCode.refl _).append ((SameCode.refl _).append hlines)

/-- a file with its text is like itself -/
theorem reworded_self (files : List SourceFile) : List.Forall₂ Reworded
    (files.map SourceFile.file) (files.map SourceFile.file) :=
  List.forall₂_same.2 fun f hf => by
    obtain ⟨s, -, rfl⟩ := List.mem_map.1 hf
    exact reworded_of_stmts rfl rfl (.refl _)

theorem reworded_baseFiles : List.Forall₂ Reworded ((baseFiles c d).map SourceFile.file)
    ((baseFiles c (ρ.on d)).map SourceFile.file) := by
  have hindex : baseIndex c (ρ.on d) = baseIndex c d := by
    have hnames : (ρ.on d).models.map (·.name) = d.models.map (·.name) := by
      show (d.models.map ρ.onModel).map (·.name) = _
      rw [List.map_map]
      rfl
    have hempty : (ρ.on d).enums.isEmpty = d.enums.isEmpty := List.isEmpty_map
    unfold baseIndex modules
    rw [hnames, hempty]
  have hmodels : List.Forall₂ Reworded ((d.sortedModels.map (modelFile c d)).map SourceFile.file)
      (((ρ.on d).sortedModels.map (modelFile c (ρ.on d))).map SourceFile.file) := by
    rw [Rewording.sortedModels_on]
    simp only [List.map_map, List.forall₂_map_left_iff, List.forall₂_map_right_iff]
    exact List.forall₂_same.2 fun m _ => reworded_modelFile ρ d c m
  unfold baseFiles
  rw [hindex, List.map_append, List.map_append, List.map_append, List.map_append]
  exact List.rel_append (List.rel_append hmodels (reworded_enumFile ρ d c))
    (reworded_self [baseIndex c d])

theorem reworded_familyFiles (r : Brand.Registry) : List.Forall₂ Reworded
    ((familyFiles workDir d c r).map SourceFile.file)
    ((familyFiles workDir (ρ.on d) c r).map SourceFile.file) := by
  have hbase : List.Forall₂ Reworded
      ((if c.zodSchemas then baseFiles c d else []).map SourceFile.file)
      ((if c.zodSchemas then baseFiles c (ρ.on d) else []).map SourceFile.file) := by
    split
    · exact reworded_baseFiles ρ d c
    · exact .nil
  unfold familyFiles
  dsimp only
  rw [Rewording.layerFiles_on, Rewording.crudFiles_on]
  simp only [List.map_append]
  refine List.rel_append (List.rel_append (List.rel_append hbase ?_) ?_) ?_
  all_goals exact reworded_self _

/-- **Other prose.**  With other documentation that holds the same directives, generation gives
the same warnings and the same files apart from their comment blocks. -/
theorem generate_reworded {g : Generated GeneratedFile} (h : generate workDir d c = .ok g) :
    ∃ g', generate workDir (ρ.on d) c = .ok g' ∧ g'.warnings = g.warnings ∧
      List.Forall₂ Reworded g.files g'.files := by
  obtain ⟨r, hr, hl, rfl⟩ := generate_eq_ok.1 h
  have hr' : Brand.Registry.ofDatamodel (ρ.on d) c.strictBrands = .ok r := by
    rw [← hr]
    unfold Brand.Registry.ofDatamodel
    rw [Rewording.declarations_on]
  refine ⟨_, generate_eq_ok.2 ⟨r, hr', (ρ.longIntegers_on d c).trans hl, rfl⟩,
    ρ.familyWarnings_on d c r, reworded_familyFiles ρ workDir d c r⟩

end

/-- the same text for everything that it holds the directives of -/
def Rewording.plain (text : String) : Rewording where
  model m := if Crud.docRules (some text) = Crud.docRules m.documentation then some text
    else m.documentation
  field _ f := if Annotations.of? (some text) = Annotations.of? f.documentation ∧
    Crud.docRules (some text) = Crud.docRules f.documentation then some text else f.documentation
  enum _ := some text
  modelRules m := by
    split
    · assumption
    · rfl
  annotations _ f := by
    split
    · next h => exact h.1
    · rfl
  fieldRules _ f := by
    split
    · next h => exact h.2
    · rfl

end ZodSchema.Generation
