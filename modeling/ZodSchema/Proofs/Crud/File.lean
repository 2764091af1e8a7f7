import ZodSchema.Crud.File
import ZodSchema.Proofs.Layer.File

/-!
# What a CRUD file takes

* `CrudSet.sources`     the schemas that the blocks of a model derive from
* `mem_ids_of_brand`    how a brand stands for an identifier
* `imports_crudFile`    what a CRUD file takes from others
-/

namespace ZodSchema.Crud

open TypeScript Schema

variable {workDir : Text.Parts} {b : Base} {m : Model} {x : Context} {n : String}

/-! ## sources -/

/-- the schemas that the blocks derive from -/
def CrudSet.sources (s : CrudSet) : List String :=
  [s.create.source, s.update.source, s.list.source, s.get.base, s.delete.base] ++
    (s.list.filter.map (·.source)).toList

/-- blocks derive from the source of the context or from the base schema -/
theorem Context.mem_sources (h : n ∈ x.crudSet.value.sources) :
    n = x.source ∨ n = Schema.schemaName x.model.name := by
  have hw : ∀ w, x.listBlock.value.filter = some w → w.source = x.source := by
    intro w hw
    simp only [Context.listBlock] at hw
    split at hw
    · rw [← Option.some.inj hw]
      rfl
    · cases hw
  rcases List.mem_append.1 h with h | h
  · simp only [List.mem_cons, List.not_mem_nil, or_false] at h
    rcases h with h | h | h | h | h
    · exact Or.inl h
    · exact Or.inl h
    · exact Or.inl h
    · exact Or.inr h
    · exact Or.inr h
  · obtain ⟨w, hf, rfl⟩ := Option.map_eq_some_iff.1 (Option.mem_toList.1 h)
    exact Or.inl (hw w hf)

theorem source_contextOf (b : Base) (m : Model) :
    (contextOf b m).source =
      if b.layered then m.name ++ "RuntimeSchema" else Schema.schemaName m.name := rfl

theorem model_setOf (b : Base) (m : Model) : (setOf b m).value.model = m.name := rfl

theorem source_setOf (b : Base) (m : Model) :
    (setOf b m).value.source = (contextOf b m).source := rfl

/-! ## brands -/

namespace Context

/-- the brand of an identifier is its expression -/
theorem mem_ids_of_brand {p : Field × Entry} (hp : p ∈ x.ids)
    (h : x.registry.bind (·.fieldBrand? x.model p.1) = some n) :
    (p.2.key, "brands." ++ n) ∈ x.updateBlock.value.ids := by
  have he : x.idExpr p = "brands." ++ n := by
    unfold idExpr
    rw [h]
  exact List.mem_map.2 ⟨p, hp, by rw [he]⟩

theorem usesBrands_iff : x.usesBrands = true ↔
    ∃ p ∈ x.ids, ∃ b, x.registry.bind (·.fieldBrand? x.model p.1) = some b := by
  simp [usesBrands, Option.isSome_iff_exists]

end Context

/-! ## statements without imports -/

theorem isImport_closedConst (name first : String) (rest : List String) :
    (closedConst name first rest).isImport = false := by
  unfold closedConst
  split <;> rfl

theorem isImport_options (o : OptionSet) : ∀ st ∈ o.stmts, st.isImport = false := by
  intro st hst
  simp only [OptionSet.stmts, List.mem_cons, List.not_mem_nil, or_false] at hst
  rcases hst with rfl | rfl <;> rfl

theorem isImport_create (b : CreateBlock) : ∀ st ∈ b.stmts, st.isImport = false := by
  intro st hst
  simp only [CreateBlock.stmts, List.mem_cons, List.not_mem_nil, or_false] at hst
  rcases hst with rfl | rfl | rfl
  · rfl
  · split <;> exact isImport_closedConst ..
  · rfl

theorem isImport_update (b : UpdateBlock) : ∀ st ∈ b.stmts, st.isImport = false := by
  intro st hst
  simp only [UpdateBlock.stmts, List.mem_cons, List.not_mem_nil, or_false] at hst
  rcases hst with rfl | rfl | rfl <;> rfl

theorem isImport_list (b : ListBlock) : ∀ st ∈ b.stmts, st.isImport = false := by
  intro st hst
  unfold ListBlock.stmts at hst
  rcases List.mem_append.1 hst with hst | hst
  · split at hst
    · simp only [WhereBlock.stmts, List.mem_append, List.mem_singleton] at hst
      rcases hst with rfl | rfl <;> rfl
    · cases hst
  · simp only [List.mem_cons, List.not_mem_nil, or_false] at hst
    rcases hst with rfl | rfl | rfl <;> rfl

theorem isImport_identifier (b : IdentifierBlock) : ∀ st ∈ b.stmts, st.isImport = false := by
  intro st hst
  simp only [IdentifierBlock.stmts, List.mem_cons, List.not_mem_nil, or_false] at hst
  rcases hst with rfl | rfl | rfl
  · rfl
  · split <;> rfl
  · rfl

theorem isImport_operation (s : CrudSet) (op : Operation) :
    ∀ st ∈ s.stmts op, st.isImport = false := by
  cases op with
  | create => exact isImport_create s.create
  | update => exact isImport_update s.update
  | list => exact isImport_list s.list
  | get => exact isImport_identifier s.get
  | delete => exact isImport_identifier s.delete

/-! ## the file -/

theorem mem_sourceImports {s : CrudSet} {module : String} {names : List String}
    (h : (module, names) ∈ sourceImports workDir b s) :
    module = Text.relativeModule workDir b.config.crud.outputDir b.config.schemasDir ∧
        names = [Schema.schemaName s.model] ∨
      b.layered = true ∧ names = [s.source] ∧
        module = Text.relativeModule workDir b.config.crud.outputDir b.config.layersDir := by
  unfold sourceImports at h
  dsimp only at h
  split at h
  · next hl =>
    unfold Assoc.put Assoc.put at h
    split at h
    · next he =>
      obtain ⟨hm, hn⟩ := Prod.mk.inj (List.mem_singleton.1 h)
      exact Or.inr ⟨hl, hn, hm.trans he⟩
    · rcases List.mem_cons.1 h with h | h
      · exact Or.inl (Prod.mk.inj h)
      · obtain ⟨hm, hn⟩ := Prod.mk.inj (List.mem_singleton.1 h)
        exact Or.inr ⟨hl, hn, hm⟩
  · exact Or.inl (Prod.mk.inj (List.mem_singleton.1 h))

/-- a CRUD file takes the schemas it derives from, and brands when some stand for identifiers -/
theorem imports_crudFile (workDir : Text.Parts) (b : Base) (m : Model) :
    (crudFile workDir b m).takes =
        zodTaken :: (Stmt.imports (sourceImports workDir b (setOf b m).value)).takes ∧
      (crudFile workDir b m).spaces =
        if (contextOf b m).usesBrands then
          [("brands", Text.quote
            (Text.relativeModule workDir b.config.crud.outputDir b.config.brandsDir))]
        else [] := by
  let s := (setOf b m).value
  have hr : ∀ st ∈ (if s.options.isEmpty then [] else s.options.flatMap OptionSet.stmts ++ [.blank]) ++
      Operation.all.flatMap (fun op => s.stmts op ++ [.blank]), st.isImport = false := by
    intro st hst
    rcases List.mem_append.1 hst with hst | hst
    · split at hst
      · cases hst
      · rcases List.mem_append.1 hst with hst | hst
        · obtain ⟨o, _, hst⟩ := List.mem_flatMap.1 hst
          exact isImport_options o st hst
        · rw [List.mem_singleton.1 hst]
          rfl
    · obtain ⟨op, _, hst⟩ := List.mem_flatMap.1 hst
      rcases List.mem_append.1 hst with hst | hst
      · exact isImport_operation s op st hst
      · rw [List.mem_singleton.1 hst]
        rfl
  obtain ⟨ht, hs⟩ := SourceFile.takes_of_imports (s := crudFile workDir b m)
    (by unfold crudFile; dsimp only; rw [List.append_assoc]) hr
  have hu : (setOf b m).value.usesBrands = (contextOf b m).usesBrands := rfl
  rw [ht, hs, hu]
  split
  · exact ⟨by simp [header, Stmt.takes, zodImport, zodTaken], rfl⟩
  · exact ⟨by simp [header, Stmt.takes, zodImport, zodTaken], rfl⟩

/-- a CRUD file takes the base schema and the runtime schema of its model -/
theorem mem_takes_crudFile {t : String × String} (h : t ∈ (crudFile workDir b m).takes) :
    t = zodTaken ∨
      t = (Schema.schemaName m.name, Text.quote
        (Text.relativeModule workDir b.config.crud.outputDir b.config.schemasDir)) ∨
      b.layered = true ∧ t = (m.name ++ "RuntimeSchema", Text.quote
        (Text.relativeModule workDir b.config.crud.outputDir b.config.layersDir)) := by
  rw [(imports_crudFile workDir b m).1] at h
  rcases List.mem_cons.1 h with h | h
  · exact Or.inl h
  · obtain ⟨⟨module, names⟩, he, h⟩ := List.mem_flatMap.1 h
    obtain ⟨n, hn, ht⟩ := List.mem_map.1 h
    dsimp only at hn ht
    subst ht
    rcases mem_sourceImports he with ⟨hm, hns⟩ | ⟨hl, hns, hm⟩
    · rw [hns, List.mem_singleton, model_setOf] at hn
      exact Or.inr (Or.inl (by rw [hn, hm]))
    · rw [hns, List.mem_singleton, source_setOf, source_contextOf, if_pos hl] at hn
      exact Or.inr (Or.inr ⟨hl, by rw [hn, hm]⟩)

end ZodSchema.Crud
