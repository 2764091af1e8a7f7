import ZodSchema.Proofs.Generation.Rewording
import ZodSchema.Proofs.TypeScript.Comment

/-!
# Texts of a datamodel in comments

Documentation, the sites of a brand and the fields that creation leaves out are written as comments
into the files of three families.

* `Documented`          the comments of the files of a run
* `docBlock_generate`   no comment ends before it is closed, whatever its lines are, and the texts
  stand nowhere else
-/

namespace ZodSchema.Generation

open TypeScript

variable {workDir : Text.Parts} {d : Datamodel} {c : Config} {r : Brand.Registry} {m : Model}

/-- the comments in the files of a run with registry `r` -/
structure Documented (workDir : Text.Parts) (d : Datamodel) (c : Config) (r : Brand.Registry)
    (files : List SourceFile) : Prop where
  /-- between the statements of every file -/
  statements : ∀ s ∈ files, ∀ lines, .doc lines ∈ s.stmts → Commented s.file.content "" lines
  /-- of a model -/
  models : ∀ m, Schema.modelFile c d m ∈ files →
    Commented (Schema.modelFile c d m).file.content "" (docLines m.documentation)
  /-- of the fields of a model, inside its object; models of one name share their fields -/
  fields : ∀ m, Schema.modelFile c d m ∈ files → ∀ f ∈ (d.firstOfName m).emittedFields,
    Commented (Schema.modelFile c d m).file.content "  " (docLines f.documentation)
  /-- of an enumeration -/
  enums : ∀ s ∈ files, Schema.enumFile? c d = some s → ∀ e ∈ d.enums,
    Commented s.file.content "" (docLines e.documentation)
  /-- of a brand, with all its sites -/
  sites : Brand.brandedFile c r ∈ files → ∀ b ∈ r.sorted,
    Commented (Brand.brandedFile c r).file.content ""
      ["Brand: " ++ b.name, "Used in: " ++ Text.Str.join ", " b.sites]
  /-- of a create schema, with all the fields that it leaves out -/
  omissions : ∀ m, Crud.crudFile workDir (crudBase c d (activeRegistry c r)) m ∈ files →
    Commented (Crud.crudFile workDir (crudBase c d (activeRegistry c r)) m).file.content ""
      (Crud.setOf (crudBase c d (activeRegistry c r)) m).value.create.doc

/-! ## where the comments are -/

theorem doc_mem_modelFile (c : Config) (d : Datamodel) (m : Model) :
    .doc (docLines m.documentation) ∈ (Schema.modelFile c d m).stmts :=
  List.mem_append_right _ (by simp [docLines])

theorem doc_mem_enumFile {s : SourceFile} {e : EnumDef} (hs : Schema.enumFile? c d = some s)
    (he : e ∈ d.enums) : .doc (docLines e.documentation) ∈ s.stmts := by
  unfold Schema.enumFile? at hs
  split at hs
  · cases hs
  · obtain rfl := Option.some.inj hs
    refine List.mem_append_right _ (List.mem_cons_of_mem _ ?_)
    exact List.mem_flatMap.2 ⟨e, he, List.mem_cons_self⟩

theorem doc_mem_brandedFile (c : Config) {b : Brand.Branded} (hb : b ∈ r.sorted) :
    .doc ["Brand: " ++ b.name, "Used in: " ++ Text.Str.join ", " b.sites] ∈
      (Brand.brandedFile c r).stmts := by
  have h : .doc ["Brand: " ++ b.name, "Used in: " ++ Text.Str.join ", " b.sites] ∈
      r.sorted.flatMap Brand.brandStmts := List.mem_flatMap.2 ⟨b, hb, List.mem_cons_self⟩
  exact List.mem_append_left _ (List.mem_append_right _ h)

theorem doc_mem_crudFile (workDir : Text.Parts) (b : Crud.Base) (m : Model) :
    .doc (Crud.setOf b m).value.create.doc ∈ (Crud.crudFile workDir b m).stmts := by
  refine List.mem_append_right _ (List.mem_flatMap.2 ⟨.create, by decide, ?_⟩)
  exact List.mem_append_left _ List.mem_cons_self

/-- the comment of a field is part of the object of its model -/
theorem commented_field {f : Field} (hf : f ∈ (d.firstOfName m).emittedFields) :
    Commented (Schema.modelFile c d m).file.content "  " (docLines f.documentation) := by
  let es := (Schema.entries c d m).map (·.2)
  have hobject : .const (Schema.schemaName m.name) "z.object(\x7b"
      (es.flatMap (·.render "  ") ++ ["\x7d);"]) ∈ (Schema.modelFile c d m).stmts :=
    List.mem_append_right _ (by simp [es])
  have he : Schema.emit c d f ∈ es := List.mem_map.2 ⟨_, List.mem_map.2 ⟨f, hf, rfl⟩, rfl⟩
  have hentry : (Schema.emit c d f).render "  " <:+: es.flatMap (·.render "  ") :=
    List.infix_of_mem_flatten (List.mem_map_of_mem he)
  have hblock : docBlock (docLines f.documentation) "  " <:+: (Schema.emit c d f).render "  " :=
    (List.prefix_append _ _).isInfix
  refine commented_of_stmt hobject (List.all_eq_true.1 (by decide)) (hblock.trans (hentry.trans ?_))
  exact List.infix_cons (List.prefix_append _ _).isInfix

/-! ## what every run writes -/

theorem familyFiles_documented (workDir : Text.Parts) (d : Datamodel) (c : Config)
    (r : Brand.Registry) : Documented workDir d c r (familyFiles workDir d c r) where
  statements _ _ _ h := commented_of_doc h
  models m _ := commented_of_doc (doc_mem_modelFile c d m)
  fields _ _ _ hf := commented_field hf
  enums _ _ hs _ he := commented_of_doc (doc_mem_enumFile hs he)
  sites _ _ hb := commented_of_doc (doc_mem_brandedFile c hb)
  omissions m _ := commented_of_doc (doc_mem_crudFile workDir _ m)

theorem generate_documented {g : Generated GeneratedFile} (h : generate workDir d c = .ok g) :
    ∃ src r, sourceFiles workDir d c = .ok src ∧
      g = ⟨src.files.map SourceFile.file, src.warnings⟩ ∧
      Brand.Registry.ofDatamodel d c.strictBrands = .ok r ∧ Documented workDir d c r src.files := by
  obtain ⟨r, hr, hl, rfl⟩ := generate_eq_ok.1 h
  exact ⟨_, r, sourceFiles_eq_ok.2 ⟨r, hr, hl, rfl⟩, rfl, hr, familyFiles_documented workDir d c r⟩

/-- **Texts stay in their comments.**  A block of any lines behind a blank indent ends where it is
closed and nowhere before.  The texts that a run writes as comments stand in such blocks, each in
the file that it belongs to.  They stand nowhere else: with other documentation that holds the same
directives, or with other sites of a brand, the files differ in their comment blocks only. -/
theorem docBlock_generate :
    (∀ lines indent, (∀ x ∈ indent.toList, Text.isBlank x = true) →
      (lines = [] ∧ docBlock lines indent = []) ∨
        EndsOnce (Text.Str.unlines (docBlock lines indent))) ∧
    (∀ workDir d c g, generate workDir d c = .ok g →
      ∃ src r, sourceFiles workDir d c = .ok src ∧
        g = ⟨src.files.map SourceFile.file, src.warnings⟩ ∧
        Brand.Registry.ofDatamodel d c.strictBrands = .ok r ∧
        Documented workDir d c r src.files) ∧
    (∀ (ρ : Rewording) workDir d c g, generate workDir d c = .ok g →
      ∃ g', generate workDir (ρ.on d) c = .ok g' ∧ g'.warnings = g.warnings ∧
        List.Forall₂ Reworded g.files g'.files) ∧
    ∀ (c : Config) (r r' : Brand.Registry), r'.names = r.names →
      List.Forall₂ (fun b b' => b'.name = b.name ∧ b'.chain = b.chain) r.sorted r'.sorted →
      Reworded (Brand.brandedFile c r).file (Brand.brandedFile c r').file := by
  refine ⟨fun lines indent hi => ?_, fun workDir d c g h => generate_documented h,
    fun ρ workDir d c g h => generate_reworded ρ workDir d c h,
    fun c r r' hn hs => reworded_brandedFile c hn hs⟩
  by_cases hl : lines = []
  · rw [hl]
    exact Or.inl ⟨rfl, rfl⟩
  · exact Or.inr (endsOnce_docBlock hi hl)

/-- documentation that holds ends of comments -/
def starred : Datamodel :=
  { models := [
      { name := "Post"
        documentation := some "ends here */ or **//"
        fields := [
          { name := "id", type := "String", isId := true, documentation := some "*/ /**/" },
          { name := "state", type := "State", kind := ⟨.enumeration, true⟩ }] }]
    enums := [{ name := "State", documentation := some "*\r\n/", values := ["OPEN"] }] }

theorem docBlock_generate_starred :
    EndsOnce (Text.Str.unlines (docBlock ["*/", "**//", "*\n/"] "\t")) ∧
      ∃ g src r, generate [] starred allFamilies = .ok g ∧
        sourceFiles [] starred allFamilies = .ok src ∧
        g = ⟨src.files.map SourceFile.file, src.warnings⟩ ∧
        Brand.Registry.ofDatamodel starred allFamilies.strictBrands = .ok r ∧
        Documented [] starred allFamilies r src.files ∧
        ∃ g', generate [] ((Rewording.plain "/* */ export").on starred) allFamilies = .ok g' ∧
          g'.warnings = g.warnings ∧ List.Forall₂ Reworded g.files g'.files := by
  obtain ⟨hblock, hrun, hreworded, -⟩ := docBlock_generate
  refine ⟨(hblock _ "\t" (List.all_eq_true.1 (by decide))).resolve_left (by simp), ?_⟩
  have hok : (generate [] starred allFamilies).isOk = true := by decide +kernel
  cases hg : generate [] starred allFamilies with
  | error e =>
    rw [hg] at hok
    cases hok
  | ok g =>
    obtain ⟨src, r, hs, hf, hr, hd⟩ := hrun _ _ _ _ hg
    exact ⟨g, src, r, rfl, hs, hf, hr, hd, hreworded (.plain _) [] starred allFamilies g hg⟩

end ZodSchema.Generation
