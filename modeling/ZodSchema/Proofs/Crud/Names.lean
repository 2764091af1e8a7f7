import ZodSchema.Proofs.Assoc
import ZodSchema.Proofs.Crud.File
import ZodSchema.Proofs.TypeScript.Names

/-!
# Names in CRUD files

* `nodup_optionSets`     no two option sets of a model have one name
* `Affix`, `around_injective`   the names of the schemas and types of the operations
* `nodup_crudFile_iff`   when a CRUD file binds no name twice
* `OptionsApart`, `disjoint_crudFile_iff`   when two of them export no common name
-/

namespace ZodSchema

namespace Crud

open TypeScript Text

variable {workDir : Parts} {b : Base} {m m' : Model} {x : Context} {n : String}

/-! ## option sets -/

theorem nodup_addFilterOptions {acc : Reported (List (String × List String))}
    (h : (acc.value.map (·.1)).Nodup) (t : String × String) :
    ((x.addFilterOptions acc t).value.map (·.1)).Nodup := by
  unfold Context.addFilterOptions
  split
  · exact h
  · dsimp only
    split
    · split <;> exact h
    · next hget =>
      rw [List.map_append, List.map_singleton, ← List.concat_eq_append]
      exact h.concat (Assoc.not_mem_keys hget)

theorem nodup_optionSets (x : Context) : (x.optionSets.value.map (·.name)).Nodup := by
  unfold Context.optionSets
  dsimp only
  rw [List.map_map]
  refine List.foldlRecOn
    (motive := fun acc : Reported (List (String × List String)) => (acc.value.map (·.1)).Nodup)
    _ _ ?_ fun _ h t _ => nodup_addFilterOptions h t
  exact Assoc.nodup_foldl_put _ _ x.rules.enums [] List.nodup_nil

/-! ## operations -/

/-- what stands before and behind the name of a model -/
abbrev Affix := String × String

def Affix.around (p : Affix) (model : String) : String := p.1 ++ model ++ p.2

/-- the constants of the operations; the filters of a list come when there are some -/
def schemaAffixes (filtered : Bool) : List Affix :=
  [("Create", "ArgsSchema"), ("Update", "ArgsSchema")] ++
    (if filtered then [("List", "sWhereArgsSchema")] else []) ++
    [("List", "sArgsSchema"), ("Get", "ArgsSchema"), ("Delete", "ArgsSchema")]

def typeAffixes : List Affix :=
  [("Create", "Args"), ("Update", "Args"), ("List", "sArgs"), ("Get", "Args"), ("Delete", "Args")]

def affixes : List Affix := schemaAffixes true ++ typeAffixes

theorem around_injective {p q : Affix} (hp : p ∈ affixes) (hq : q ∈ affixes) {x y : String}
    (h : p.around x = q.around y) : p = q ∧ x = y := by
  have hhead : ∀ p ∈ affixes, ∀ q ∈ affixes, p.1.toList.head? = q.1.toList.head? → p.1 = q.1 := by
    decide
  have hne : ∀ p ∈ affixes, p.1.toList ≠ [] := by decide
  have hfree : ∀ p ∈ affixes, SuffixFree ((affixes.filter (·.1 = p.1)).map (·.2)) := by decide
  have hfirst : ∀ p ∈ affixes, ∀ x, (Affix.around p x).toList.head? = p.1.toList.head? := by
    intro p hp x
    rw [Affix.around, String.append_assoc, String.toList_append,
      List.head?_append_of_ne_nil _ (hne p hp)]
  -- the operations differ in their first letters
  have hpre : p.1 = q.1 := by
    refine hhead p hp q hq ?_
    rw [← hfirst p hp x, ← hfirst q hq y, h]
  unfold Affix.around at h
  rw [String.append_assoc, String.append_assoc, hpre] at h
  have htail := (String.append_right_inj _).1 h
  obtain ⟨he, hxy⟩ := (hfree p hp).eq_of_append
    (List.mem_map_of_mem (List.mem_filter.2 ⟨hp, by simp⟩))
    (List.mem_map_of_mem (List.mem_filter.2 ⟨hq, by simp [hpre]⟩)) htail
  exact ⟨Prod.ext hpre he, hxy⟩

theorem nodup_around {ps : List Affix} (hs : ps.Sublist affixes) (model : String) :
    (ps.map (·.around model)).Nodup := by
  have hn : affixes.Nodup := by decide
  exact (hn.sublist hs).map_on fun p hp q hq h => (around_injective (hs.subset hp) (hs.subset hq) h).1

/-- the affix of the type of an operation -/
def Operation.affix : Operation → Affix
  | create => ("Create", "Args")
  | update => ("Update", "Args")
  | list => ("List", "sArgs")
  | get => ("Get", "Args")
  | delete => ("Delete", "Args")

theorem argsName_eq (op : Operation) (model : String) :
    argsName op.name model = op.affix.around model := by
  cases op <;> simp [argsName, Operation.name, Operation.affix, Affix.around, String.append_assoc]

theorem argsSchemaName_eq (op : Operation) (model : String) :
    argsSchemaName op.name model = Affix.around (op.affix.1, op.affix.2 ++ "Schema") model := by
  rw [argsSchemaName, argsName_eq, Affix.around, Affix.around, String.append_assoc]

theorem map_affix_all : Operation.all.map Operation.affix = typeAffixes := rfl

theorem binds_closedConst (name first : String) (rest : List String) :
    Binds [closedConst name first rest] [] [name] [] := by
  unfold closedConst
  split <;> exact ⟨rfl, rfl, rfl⟩

theorem binds_create (x : CreateBlock) :
    Binds x.stmts [] [x.schema] [argsName "Create" x.model] := by
  have hd : Binds [.doc x.doc] [] [] [] := ⟨rfl, rfl, rfl⟩
  have ha : Binds [inferAlias (argsName "Create" x.model)] [] [] [argsName "Create" x.model] :=
    ⟨rfl, rfl, rfl⟩
  unfold CreateBlock.stmts
  dsimp only
  split
  · exact hd.append ((binds_closedConst ..).append ha)
  · exact hd.append ((binds_closedConst ..).append ha)

theorem binds_list (x : ListBlock) :
    Binds x.stmts [] ((x.filter.map (·.schema)).toList ++ [x.schema]) [argsName "List" x.model] := by
  unfold ListBlock.stmts
  cases x.filter with
  | none => exact ⟨rfl, rfl, rfl⟩
  | some w => exact ⟨rfl, rfl, rfl⟩

theorem binds_identifier (x : IdentifierBlock) :
    Binds x.stmts [] [argsSchemaName x.operation.name x.model]
      [argsName x.operation.name x.model] := by
  unfold IdentifierBlock.stmts
  dsimp only
  split <;> exact ⟨rfl, rfl, rfl⟩

theorem filter_schema (x : Context) :
    (x.listBlock.value.filter.map (·.schema)).toList =
      if x.rules.list.hasWhere then [Affix.around ("List", "sWhereArgsSchema") x.model.name]
      else [] := by
  unfold Context.listBlock
  dsimp only
  split <;> rfl

/-- the constants of an operation -/
def schemasOf (m : Model) (op : Operation) : List Affix :=
  (if op = .list ∧ (rulesOf m).list.hasWhere then [("List", "sWhereArgsSchema")] else []) ++
    [(op.affix.1, op.affix.2 ++ "Schema")]

theorem binds_stmts (b : Base) (m : Model) (op : Operation) :
    Binds ((setOf b m).value.stmts op) [] ((schemasOf m op).map (·.around m.name))
      [op.affix.around m.name] := by
  have hs : (schemasOf m op).map (·.around m.name) =
      (if op = .list ∧ (rulesOf m).list.hasWhere then
          [Affix.around ("List", "sWhereArgsSchema") m.name] else []) ++
        [argsSchemaName op.name m.name] := by
    rw [argsSchemaName_eq]
    unfold schemasOf
    split <;> rfl
  rw [hs, ← argsName_eq]
  cases op with
  | create => exact binds_create (setOf b m).value.create
  | update => exact ⟨rfl, rfl, rfl⟩
  | list =>
    have hl := binds_list (setOf b m).value.list
    have hf : ((setOf b m).value.list.filter.map (·.schema)).toList = _ :=
      filter_schema (contextOf b m)
    rw [hf] at hl
    simp only [true_and]
    exact hl
  | get => exact binds_identifier (setOf b m).value.get
  | delete => exact binds_identifier (setOf b m).value.delete

/-- what the operations of a model declare -/
theorem binds_operations (b : Base) (m : Model) :
    Binds (Operation.all.flatMap fun op => (setOf b m).value.stmts op ++ [.blank]) []
      ((schemaAffixes (rulesOf m).list.hasWhere).map (·.around m.name))
      (typeAffixes.map (·.around m.name)) := by
  have hb : Binds [.blank] [] [] [] := ⟨rfl, rfl, rfl⟩
  have h := Binds.flatMap Operation.all fun op _ => (binds_stmts b m op).append hb
  have hs : schemaAffixes (rulesOf m).list.hasWhere = Operation.all.flatMap (schemasOf m) := by
    unfold schemasOf
    cases (rulesOf m).list.hasWhere <;> decide
  have ht : typeAffixes.map (·.around m.name) =
      Operation.all.flatMap fun op => [op.affix.around m.name] := rfl
  rw [ht, hs, List.map_flatMap]
  simpa using h

/-! ## the file -/

def optionsOf (b : Base) (m : Model) : List OptionSet := (setOf b m).value.options

/-- the names that a CRUD file takes -/
def takenOf (workDir : Parts) (b : Base) (m : Model) : List String :=
  "z" :: (if (contextOf b m).usesBrands then ["brands"] else []) ++
    (sourceImports workDir b (setOf b m).value).flatMap (·.2)

theorem binds_options (os : List OptionSet) :
    Binds (if os.isEmpty then [] else os.flatMap OptionSet.stmts ++ [.blank]) []
      (os.map (·.constant)) (os.map (·.name)) := by
  cases os with
  | nil => exact ⟨rfl, rfl, rfl⟩
  | cons o os =>
    have hb : Binds [.blank] [] [] [] := ⟨rfl, rfl, rfl⟩
    have h := (Binds.flatMap (o :: os) fun o _ =>
      (⟨rfl, rfl, rfl⟩ : Binds o.stmts [] [o.constant] [o.name])).append hb
    simp only [← List.map_eq_flatMap, List.append_nil] at h
    exact h

theorem binds_crudFile (workDir : Parts) (b : Base) (m : Model) :
    Binds (crudFile workDir b m).stmts (takenOf workDir b m)
      ((optionsOf b m).map (·.constant) ++
        (schemaAffixes (rulesOf m).list.hasWhere).map (·.around m.name))
      ((optionsOf b m).map (·.name) ++ typeAffixes.map (·.around m.name)) := by
  let s := (setOf b m).value
  have hi : Binds (header ++ [zodImport] ++
      (if s.usesBrands then [.importAll "brands" (Text.quote
        (Text.relativeModule workDir b.config.crud.outputDir b.config.brandsDir))] else []) ++
      [.imports (sourceImports workDir b s), .blank]) (takenOf workDir b m) [] [] := by
    have hu : s.usesBrands = (contextOf b m).usesBrands := rfl
    unfold takenOf
    rw [hu]
    split
    · refine ⟨?_, rfl, rfl⟩
      simp [header, Stmt.taken, zodImport, s]
    · refine ⟨?_, rfl, rfl⟩
      simp [header, Stmt.taken, zodImport, s]
  have h := (hi.append (binds_options (optionsOf b m))).append (binds_operations b m)
  rw [List.append_nil, List.append_nil] at h
  exact h

/-! ## one file -/

/-- all that a CRUD file of the model may take -/
def mayTake (model : String) : List String :=
  ["z", "brands", Schema.schemaName model, model ++ "RuntimeSchema"]

theorem takenOf_sublist (workDir : Parts) (b : Base) (m : Model) :
    (takenOf workDir b m).Sublist (mayTake m.name) := by
  have hu : (if (contextOf b m).usesBrands then ["brands"] else []).Sublist ["brands"] :=
    ite_sublist ..
  have hi : ((sourceImports workDir b (setOf b m).value).flatMap (·.2)).Sublist
      [Schema.schemaName m.name, m.name ++ "RuntimeSchema"] := by
    unfold sourceImports
    dsimp only
    rw [source_setOf, source_contextOf, model_setOf]
    split
    · unfold Assoc.put Assoc.put
      split
      · exact List.sublist_cons_self _ _
      · exact List.Sublist.refl _
    · exact List.singleton_sublist.2 List.mem_cons_self
  exact (hu.append hi).cons_cons "z"

theorem nodup_mayTake (model : String) : (mayTake model).Nodup := by
  have hs : ("z" :: "brands" :: [Schema.schemaName model]).Nodup :=
    nodup_append ["z", "brands", "Schema"] [("", "z"), ("", "brands"), (model, "Schema")] rfl
      (by decide) (by decide)
  have hr : ("z" :: "brands" :: [model ++ "RuntimeSchema"]).Nodup :=
    nodup_append ["z", "brands", "RuntimeSchema"]
      [("", "z"), ("", "brands"), (model, "RuntimeSchema")] rfl (by decide) (by decide)
  have hne : Schema.schemaName model ≠ model ++ "RuntimeSchema" := by
    simp [Schema.schemaName]
  unfold mayTake
  simp only [List.nodup_cons, List.mem_cons, List.not_mem_nil] at hs hr ⊢
  tauto

/-- what a file takes is called like nothing that an operation declares -/
theorem around_not_mem_mayTake {p : Affix} (hp : p ∈ affixes) (model : String) :
    p.around model ∉ mayTake model := by
  have hz : ∀ p ∈ affixes, ∀ e ∈ ["z", "brands", "RuntimeSchema"],
      (p.2.toList.isSuffixOf e.toList || e.toList.isSuffixOf p.2.toList) = false := by decide
  have hl : ∀ p ∈ affixes, 6 < p.1.toList.length + p.2.toList.length := by decide
  have hne : ∀ e ∈ ["z", "brands", "RuntimeSchema"], ∀ x, p.around model ≠ x ++ e := fun e he x =>
    append_ne_append (hz p hp e he)
  intro h
  simp only [mayTake, List.mem_cons, List.not_mem_nil, or_false] at h
  rcases h with h | h | h | h
  · exact hne "z" (by decide) "" h
  · exact hne "brands" (by decide) "" h
  · -- the base schema is too short
    have := congrArg (·.toList.length) h
    have := hl p hp
    simp [Affix.around, Schema.schemaName] at *
    omega
  · exact hne "RuntimeSchema" (by decide) model h

theorem constant_not_mem_mayTake (o : OptionSet) (model : String) : o.constant ∉ mayTake model := by
  intro h
  simp only [mayTake, List.mem_cons, List.not_mem_nil, or_false] at h
  rcases h with h | h | h | h
  · exact (append_ne_append (by decide) : o.name ++ "Options" ≠ "" ++ "z") h
  · exact (append_ne_append (by decide) : o.name ++ "Options" ≠ "" ++ "brands") h
  · exact append_ne_append (by decide) h
  · exact append_ne_append (by decide) h

theorem constant_ne_around {p : Affix} (hp : p ∈ affixes) (o : OptionSet) (model : String) :
    o.constant ≠ p.around model := by
  have hz : ∀ p ∈ affixes,
      ("Options".toList.isSuffixOf p.2.toList || p.2.toList.isSuffixOf "Options".toList) = false := by
    decide
  exact append_ne_append (hz p hp)

theorem schemaAffixes_sublist (filtered : Bool) : (schemaAffixes filtered).Sublist affixes := by
  refine List.Sublist.trans ?_ (List.sublist_append_left _ _)
  cases filtered <;> decide

theorem typeAffixes_sublist : typeAffixes.Sublist affixes := List.sublist_append_right _ _

theorem nodup_values_crudFile (workDir : Parts) (b : Base) (m : Model) :
    (crudFile workDir b m).values.Nodup := by
  have ht := takenOf_sublist workDir b m
  have hs := schemaAffixes_sublist (rulesOf m).list.hasWhere
  have hc : ((optionsOf b m).map (·.constant)).Nodup := by
    have h := (nodup_optionSets (contextOf b m)).map
      (show Function.Injective (· ++ "Options") from fun _ _ => (String.append_left_inj _).1)
    rwa [List.map_map] at h
  rw [SourceFile.nodup_values_iff (binds_crudFile workDir b m), List.nodup_append',
    List.nodup_append']
  refine ⟨(nodup_mayTake m.name).sublist ht, ⟨hc, nodup_around hs m.name, ?_⟩, ?_⟩
  · intro n hn hn'
    obtain ⟨o, -, rfl⟩ := List.mem_map.1 hn
    obtain ⟨p, hp, he⟩ := List.mem_map.1 hn'
    exact constant_ne_around (hs.subset hp) o m.name he.symm
  · intro n hn hn'
    rcases List.mem_append.1 hn' with hn' | hn'
    · obtain ⟨o, -, rfl⟩ := List.mem_map.1 hn'
      exact constant_not_mem_mayTake o m.name (ht.subset hn)
    · obtain ⟨p, hp, rfl⟩ := List.mem_map.1 hn'
      exact around_not_mem_mayTake (hs.subset hp) m.name (ht.subset hn)

/-- a CRUD file binds no name twice when its option sets are called like nothing that it takes and
like no type of an operation -/
theorem nodup_crudFile_iff (workDir : Parts) (b : Base) (m : Model) :
    (crudFile workDir b m).values.Nodup ∧ (crudFile workDir b m).types.Nodup ↔
      ∀ o ∈ optionsOf b m, o.name ∉ takenOf workDir b m ∧
        ∀ op : Operation, o.name ≠ argsName op.name m.name := by
  have ht := takenOf_sublist workDir b m
  have hops : ∀ n, n ∈ typeAffixes.map (·.around m.name) ↔
      ∃ op : Operation, n = argsName op.name m.name := by
    intro n
    rw [← map_affix_all, List.map_map, List.mem_map]
    constructor
    · rintro ⟨op, -, rfl⟩
      exact ⟨op, (argsName_eq op m.name).symm⟩
    · rintro ⟨op, rfl⟩
      exact ⟨op, by cases op <;> decide, (argsName_eq op m.name).symm⟩
  have hdis : (takenOf workDir b m).Disjoint (typeAffixes.map (·.around m.name)) := by
    intro n hn hn'
    obtain ⟨p, hp, rfl⟩ := List.mem_map.1 hn'
    exact around_not_mem_mayTake (typeAffixes_sublist.subset hp) m.name (ht.subset hn)
  have hnames : ((optionsOf b m).map (·.name)).Nodup := nodup_optionSets (contextOf b m)
  rw [and_iff_right (nodup_values_crudFile workDir b m),
    SourceFile.nodup_types_iff (binds_crudFile workDir b m), List.nodup_append',
    List.nodup_append', and_iff_right ((nodup_mayTake m.name).sublist ht),
    and_iff_right hnames, and_iff_right (nodup_around typeAffixes_sublist m.name),
    List.disjoint_append_right, and_iff_left hdis]
  constructor
  · rintro ⟨hop, hta⟩ o ho
    have hm : o.name ∈ (optionsOf b m).map (·.name) := List.mem_map_of_mem ho
    exact ⟨fun h => hta h hm, fun op he => hop hm ((hops _).2 ⟨op, he⟩)⟩
  · intro h
    constructor
    · intro n hn hn'
      obtain ⟨o, ho, rfl⟩ := List.mem_map.1 hn
      obtain ⟨op, he⟩ := (hops _).1 hn'
      exact (h o ho).2 op he
    · intro n hn hn'
      obtain ⟨o, ho, rfl⟩ := List.mem_map.1 hn'
      exact (h o ho).1 hn

/-! ## two files -/

theorem mem_exports_crudFile : n ∈ (crudFile workDir b m).exports ↔
    (∃ o ∈ optionsOf b m, n = o.name ∨ n = o.constant) ∨
      ∃ p ∈ schemaAffixes (rulesOf m).list.hasWhere ++ typeAffixes, n = p.around m.name := by
  rw [SourceFile.exports_eq (binds_crudFile workDir b m)]
  simp only [List.mem_append, List.mem_map]
  constructor
  · rintro ((⟨o, ho, rfl⟩ | ⟨p, hp, rfl⟩) | ⟨o, ho, rfl⟩ | ⟨p, hp, rfl⟩)
    · exact Or.inl ⟨o, ho, Or.inr rfl⟩
    · exact Or.inr ⟨p, Or.inl hp, rfl⟩
    · exact Or.inl ⟨o, ho, Or.inl rfl⟩
    · exact Or.inr ⟨p, Or.inr hp, rfl⟩
  · rintro (⟨o, ho, rfl | rfl⟩ | ⟨p, hp | hp, rfl⟩)
    · exact Or.inr (Or.inl ⟨o, ho, rfl⟩)
    · exact Or.inl (Or.inl ⟨o, ho, rfl⟩)
    · exact Or.inl (Or.inr ⟨p, hp, rfl⟩)
    · exact Or.inr (Or.inr ⟨p, hp, rfl⟩)

/-- the option sets of the first model are called like nothing that the file of the second one
exports -/
def OptionsApart (b : Base) (m m' : Model) : Prop :=
  ∀ o ∈ optionsOf b m, (∀ o' ∈ optionsOf b m', o.name ≠ o'.name ∧ o.name ≠ o'.constant) ∧
    ∀ p ∈ schemaAffixes (rulesOf m').list.hasWhere ++ typeAffixes, o.name ≠ p.around m'.name

theorem mem_affixes {p : Affix} {filtered : Bool} (hp : p ∈ schemaAffixes filtered ++ typeAffixes) :
    p ∈ affixes := by
  rcases List.mem_append.1 hp with hp | hp
  · exact (schemaAffixes_sublist filtered).subset hp
  · exact typeAffixes_sublist.subset hp

theorem optionsApart_of_disjoint
    (h : (crudFile workDir b m).exports.Disjoint (crudFile workDir b m').exports) :
    OptionsApart b m m' := by
  intro o ho
  have hn : o.name ∉ (crudFile workDir b m').exports :=
    h (mem_exports_crudFile.2 (Or.inl ⟨o, ho, Or.inl rfl⟩))
  rw [mem_exports_crudFile, not_or] at hn
  refine ⟨fun o' ho' => ?_, fun p hp he => hn.2 ⟨p, hp, he⟩⟩
  exact ⟨fun he => hn.1 ⟨o', ho', Or.inl he⟩, fun he => hn.1 ⟨o', ho', Or.inr he⟩⟩

/-- the files of two models export a common name only through an option set -/
theorem disjoint_crudFile_iff (hne : m.name ≠ m'.name) :
    (crudFile workDir b m).exports.Disjoint (crudFile workDir b m').exports ↔
      OptionsApart b m m' ∧ OptionsApart b m' m := by
  constructor
  · intro h
    exact ⟨optionsApart_of_disjoint h, optionsApart_of_disjoint (List.disjoint_symm h)⟩
  · rintro ⟨h, h'⟩ n hn hn'
    rw [mem_exports_crudFile] at hn hn'
    rcases hn with ⟨o, ho, hn⟩ | ⟨p, hp, hn⟩ <;> rcases hn' with ⟨o', ho', hn'⟩ | ⟨q, hq, hn'⟩
    · obtain ⟨h1, h2⟩ := (h o ho).1 o' ho'
      obtain ⟨-, h3⟩ := (h' o' ho').1 o ho
      rcases hn with rfl | rfl <;> rcases hn' with hn' | hn'
      · exact h1 hn'
      · exact h2 hn'
      · exact h3 hn'.symm
      · exact h1 ((String.append_left_inj "Options").1 hn')
    · rcases hn with rfl | rfl
      · exact (h o ho).2 q hq hn'
      · exact constant_ne_around (mem_affixes hq) o m'.name hn'
    · rcases hn' with rfl | rfl
      · exact (h' o' ho').2 p hp hn
      · exact constant_ne_around (mem_affixes hp) o' m.name hn
    · exact hne (around_injective (mem_affixes hp) (mem_affixes hq) (hn.symm.trans hn')).2

end Crud

end ZodSchema
