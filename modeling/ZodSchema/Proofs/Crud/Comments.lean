import ZodSchema.Proofs.Crud.Create
import ZodSchema.Proofs.Crud.Options
import ZodSchema.Proofs.Json.Line

/-!
# Comments of CRUD blocks

Three comments hold text of a model: the message of a check that is to be filled in, the model that a
foreign key leads to, and a JSON filter.  The text is written as it is, save that the strings of a
JSON filter are literals.

* `CreateBlock.comments`, `ListBlock.comments`   the comments of a block
* `filter_lines`          they are all the comments among the lines of a set
* `comments_on_one_line_iff`   when each of them ends with its line
* `comment_broken`        a message and a filter that go on in the next line
-/

namespace ZodSchema.Crud

open Text TypeScript

/-- the lines of a set of blocks -/
def CrudSet.lines (s : CrudSet) : List String :=
  (s.options.flatMap OptionSet.stmts ++ Operation.all.flatMap s.stmts).flatMap Stmt.lines

/-! ## what the comments are -/

/-- the comments that a call is written with -/
def Call.comments : Call → List String
  | .without _ => []
  | .extend _ => []
  | .object ms => (ms.filterMap (·.target)).map ("    // Foreign key to " ++ ·)
  | .refine m => ["      // " ++ m]

def CreateBlock.comments (b : CreateBlock) : List String := b.calls.flatMap Call.comments

def WhereBlock.comments (b : WhereBlock) : List String :=
  if b.jsonFilters.isEmpty then []
  else "    // JSON path filters" ::
    b.jsonFilters.map fun v => "    // TODO: JSON filter " ++ Json.write v

namespace ListBlock

/-- comments without text of the model -/
def captions (b : ListBlock) : List String :=
  (if b.pagination = .cursor then [] else ["  // Offset pagination"]) ++
    (if b.pagination = .offset then [] else ["  // Cursor pagination"]) ++
    ["  // Sorting"] ++ ["  // Filtering"] ++
    (if b.orgScoped then
      ["  // Organization scoped: callers filter by the current organization."] else [])

def comments (b : ListBlock) : List String :=
  (b.filter.map WhereBlock.comments).getD [] ++ b.captions

end ListBlock

/-! ## statements -/

section
variable {ls : List String}

/-- a line of a documentation comment begins with its star -/
theorem exists_docLine (l : String) :
    ∃ t, Str.trimRight ("" ++ " * " ++ breakTerminator l) = " *" ++ t := by
  have hstar : ∀ c ∈ (" *".toList).getLast?, isBlank c = false := by
    rintro c ⟨⟩
    decide
  have hl : (("" ++ " * " ++ breakTerminator l).toList) =
      " *".toList ++ ' ' :: (breakTerminator l).toList := by
    simp only [String.toList_append]
    rfl
  refine ⟨String.ofList (Text.trimRight (' ' :: (breakTerminator l).toList)), ?_⟩
  rw [Str.trimRight, hl, trimRight_append _ hstar, String.ofList_append, String.ofList_toList]

theorem isCode_docLine (l : String) : IsCode (Str.trimRight ("" ++ " * " ++ breakTerminator l)) := by
  have hcode : IsCode " *" := by decide
  obtain ⟨t, ht⟩ := exists_docLine l
  rw [ht]
  exact hcode.append t

theorem filter_doc (ls : List String) : (Stmt.doc ls).lines.filter opensComment = [] := by
  have hopen : opensComment ("" ++ "/**") = false := by decide
  have hclose : IsCode ("" ++ " */") := by decide
  show (docBlock ls "").filter opensComment = []
  unfold docBlock
  split
  · rfl
  · rw [List.cons_append, List.filter_cons_of_neg (by rw [hopen]; exact Bool.false_ne_true)]
    refine filter_opensComment_eq_nil (List.forall_mem_append.2 ⟨?_, ?_⟩)
    · exact List.forall_mem_map.2 fun l _ => isCode_docLine l
    · exact List.forall_mem_singleton.2 hclose

theorem filter_const (name first : String) (rest : List String) :
    (Stmt.const name first rest).lines.filter opensComment = rest.filter opensComment := by
  have hcode : IsCode ("export const " ++ name ++ " = " ++ first) :=
    (((show IsCode "export const " by decide).append _).append _).append _
  show (_ :: rest).filter opensComment = _
  rw [List.filter_cons_of_neg (by rw [hcode.opensComment]; exact Bool.false_ne_true)]

theorem isCode_typeDef (name type : String) : ∀ l ∈ (Stmt.typeDef name type).lines, IsCode l := by
  refine List.forall_mem_singleton.2 ?_
  exact ((((show IsCode "export type " by decide).append _).append _).append _).append _

/-- the last line is code -/
def EndsInCode (ls : List String) : Prop := ∀ l ∈ ls.getLast?, IsCode l

theorem EndsInCode.append {xs ys : List String} (hx : EndsInCode xs) (hy : EndsInCode ys) :
    EndsInCode (xs ++ ys) := by
  intro l hl
  rw [List.getLast?_append] at hl
  cases h : ys.getLast? with
  | none =>
    rw [h] at hl
    exact hx l hl
  | some l' =>
    rw [h] at hl
    exact hy l (h ▸ hl)

theorem EndsInCode.flatMap {α : Type} {f : α → List String} (h : ∀ a, EndsInCode (f a))
    (as : List α) : EndsInCode (as.flatMap f) := by
  induction as with
  | nil =>
    intro l hl
    cases hl
  | cons a as ih => exact (h a).append ih

theorem endsInCode_of_forall (h : ∀ l ∈ ls, IsCode l) : EndsInCode ls :=
  fun l hl => h l (List.mem_of_getLast? hl)

/-- the semicolon that closes a constant changes no comment -/
theorem filter_closedConst (name first : String) (h : EndsInCode ls) :
    (closedConst name first ls).lines.filter opensComment = ls.filter opensComment := by
  unfold closedConst
  split
  · next last hl =>
    have hcode := h last hl
    have hlast := filter_opensComment_eq_nil (List.forall_mem_singleton.2 hcode)
    have hclosed := filter_opensComment_eq_nil (List.forall_mem_singleton.2 (hcode.append ";"))
    calc _ = (ls.dropLast ++ [last ++ ";"]).filter opensComment := filter_const _ _ _
      _ = (ls.dropLast ++ [last]).filter opensComment := by
        rw [List.filter_append, List.filter_append, hlast, hclosed]
      _ = ls.filter opensComment := by rw [List.dropLast_append_getLast? last hl]
  · next hl =>
    rw [filter_const, List.getLast?_eq_none_iff.1 hl]

theorem isCode_objectCall (name : String) (h : ∀ l ∈ ls, IsCode l) :
    ∀ l ∈ objectCall name ls, IsCode l := by
  unfold objectCall
  split
  · exact List.forall_mem_nil _
  · rw [List.forall_mem_append, List.forall_mem_cons, List.forall_mem_map]
    refine ⟨⟨?_, fun l hl => (h l hl).indent (by decide)⟩, ?_⟩
    · exact ((show IsCode "  ." by decide).append _).append _
    · exact List.forall_mem_singleton.2 (by decide)

theorem isCode_trueEntry (k : String) : IsCode (trueEntry k) := (isCode_key k).append _

theorem isCode_memberLine (b : CreateBlock) (m : CreateMember) : IsCode (b.memberLine m) :=
  ((((isCode_key m.key).append _).append _).append _).append _

/-- the statement in the middle has the comments -/
theorem filter_three (a b c : Stmt) (ha : a.lines.filter opensComment = [])
    (hc : c.lines.filter opensComment = []) :
    ([a, b, c].flatMap Stmt.lines).filter opensComment = b.lines.filter opensComment := by
  simp only [List.flatMap_cons, List.flatMap_nil, List.append_nil, List.filter_append, ha, hc,
    List.nil_append]

theorem filter_alias (type : String) : (inferAlias type).lines.filter opensComment = [] :=
  filter_opensComment_eq_nil (isCode_typeDef _ _)

end

/-! ## creation -/

section
variable (b : CreateBlock)

theorem filter_refineLines (m : String) :
    (CreateBlock.refineLines m).filter opensComment = ["      // " ++ m] := by
  have hbefore : ∀ l ∈ ["  .refine(", "    (data) => \x7b"], IsCode l := by decide
  have hafter : ∀ l ∈ ["      return true; // TODO: implement this check", "    \x7d,",
      "    \x7b message: " ++ quote m ++ " \x7d,", "  )"], IsCode l := by
    rw [List.forall_mem_cons, List.forall_mem_cons, List.forall_mem_cons, List.forall_mem_singleton]
    exact ⟨by decide, by decide,
      ((show IsCode "    \x7b message: " by decide).append _).append _, by decide⟩
  have hcomment : opensComment ("      // " ++ m) = true :=
    opensComment_append (by decide) m
  show ([_, _] ++ (_ :: [_, _, _, _])).filter opensComment = _
  rw [List.filter_append, filter_opensComment_eq_nil hbefore, List.nil_append,
    List.filter_cons_of_pos hcomment, filter_opensComment_eq_nil hafter]

theorem filter_target (m : CreateMember) :
    ((m.target.map fun t => "    // Foreign key to " ++ t).toList ++
      ["    " ++ b.memberLine m]).filter opensComment =
    (m.target.map fun t => "    // Foreign key to " ++ t).toList := by
  have hmember : IsCode ("    " ++ b.memberLine m) := (isCode_memberLine b m).indent (by decide)
  rw [List.filter_append, filter_opensComment_eq_nil (List.forall_mem_singleton.2 hmember),
    List.append_nil, List.filter_eq_self]
  intro l hl
  obtain ⟨t, -, rfl⟩ := Option.map_eq_some_iff.1 (Option.mem_toList.1 hl)
  exact opensComment_append (by decide) t

theorem filter_call (c : Call) : (c.lines b).filter opensComment = c.comments := by
  cases c with
  | without ks =>
    refine filter_opensComment_eq_nil (isCode_objectCall _ (List.forall_mem_map.2 fun k _ => ?_))
    exact isCode_trueEntry k
  | extend ms =>
    refine filter_opensComment_eq_nil (isCode_objectCall _ (List.forall_mem_map.2 fun m _ => ?_))
    exact isCode_memberLine b m
  | object ms =>
    have hopen : ["  .object(\x7b"].filter opensComment = [] := by decide
    have hclose : ["  \x7d)"].filter opensComment = [] := by decide
    show (["  .object(\x7b"] ++ _ ++ _).filter opensComment = _
    rw [List.filter_append, List.filter_append, hopen, hclose, List.append_nil, List.nil_append,
      List.filter_flatMap]
    simp only [filter_target]
    rw [Call.comments, List.map_filterMap, List.filterMap_eq_flatMap_toList]
  | refine m => exact filter_refineLines m

theorem endsInCode_call (c : Call) : EndsInCode (c.lines b) := by
  cases c with
  | without ks =>
    exact endsInCode_of_forall
      (isCode_objectCall _ (List.forall_mem_map.2 fun k _ => isCode_trueEntry k))
  | extend ms =>
    exact endsInCode_of_forall
      (isCode_objectCall _ (List.forall_mem_map.2 fun m _ => isCode_memberLine b m))
  | object ms =>
    intro l hl
    rw [Call.lines, List.getLast?_concat] at hl
    obtain rfl := Option.some.inj hl
    decide
  | refine m =>
    intro l hl
    have hlast : (CreateBlock.refineLines m).getLast? = some "  )" := rfl
    rw [Call.lines, hlast] at hl
    obtain rfl := Option.some.inj hl
    decide

theorem filter_create : (b.stmts.flatMap Stmt.lines).filter opensComment = b.comments := by
  have hends : EndsInCode (b.calls.flatMap (Call.lines b)) := .flatMap (endsInCode_call b) _
  rw [CreateBlock.stmts_eq, filter_three _ _ _ (filter_doc _) (filter_alias _),
    filter_closedConst _ _ hends, List.filter_flatMap]
  simp only [filter_call]
  rfl

end

/-! ## update, identifiers and option sets -/

theorem isCode_predicate (b : UpdateBlock) : IsCode b.predicate := by
  unfold UpdateBlock.predicate
  split
  · decide
  · exact ((show IsCode "(\x7b " by decide).append _).append _

theorem filter_update (b : UpdateBlock) : (b.stmts.flatMap Stmt.lines).filter opensComment = [] := by
  rw [UpdateBlock.stmts, filter_three _ _ _ (filter_doc _) (filter_alias _), filter_const]
  refine filter_opensComment_eq_nil ?_
  simp only [List.forall_mem_append]
  refine ⟨⟨⟨isCode_objectCall _ (List.forall_mem_map.2 fun k _ => isCode_trueEntry k), ?_⟩, ?_⟩, ?_⟩
  · exact List.forall_mem_singleton.2 (by decide)
  · refine isCode_objectCall _ (List.forall_mem_map.2 fun i _ => ?_)
    exact (((isCode_key i.1).append _).append _).append _
  · rw [List.forall_mem_cons, List.forall_mem_cons, List.forall_mem_cons,
      List.forall_mem_singleton]
    exact ⟨by decide, ((isCode_predicate b).indent (by decide)).append _,
      ((show IsCode "    \x7b message: " by decide).append _).append _, by decide⟩

theorem filter_identifier (b : IdentifierBlock) :
    (b.stmts.flatMap Stmt.lines).filter opensComment = [] := by
  rw [IdentifierBlock.stmts, filter_three _ _ _ (filter_doc _) (filter_alias _)]
  split
  · exact filter_const _ _ _
  · rw [filter_const]
    refine filter_opensComment_eq_nil (List.forall_mem_append.2 ⟨?_, ?_⟩)
    · exact List.forall_mem_map.2 fun k _ => (isCode_trueEntry k).indent (by decide)
    · exact List.forall_mem_singleton.2 (by decide)

theorem filter_option (o : OptionSet) : (o.stmts.flatMap Stmt.lines).filter opensComment = [] := by
  have htype := filter_opensComment_eq_nil
    (isCode_typeDef o.name ("(typeof " ++ o.constant ++ ")[number]"))
  rw [OptionSet.stmts, List.flatMap_cons, List.flatMap_cons, List.filter_append, filter_const,
    List.flatMap_nil, List.append_nil, htype]
  rfl

/-! ## lists -/

theorem filter_jsonFilters (b : WhereBlock) : b.comments.filter opensComment = b.comments := by
  unfold WhereBlock.comments
  split
  · rfl
  · rw [List.filter_eq_self, List.forall_mem_cons, List.forall_mem_map]
    exact ⟨by decide, fun v _ => opensComment_append (by decide) _⟩

theorem filter_where (b : WhereBlock) :
    (b.stmts.flatMap Stmt.lines).filter opensComment = b.comments := by
  have hopen : ["  .object(\x7b"].filter opensComment = [] := by decide
  have hclose : ["  \x7d)", "  .optional();"].filter opensComment = [] := by decide
  have hfilters : (b.filters.map fun k =>
      "    " ++ Text.key k ++ ": " ++ shapeMember b.source k ++ ".optional(),").filter
        opensComment = [] := by
    refine filter_opensComment_eq_nil (List.forall_mem_map.2 fun k _ => ?_)
    exact (((isCode_key k).indent (by decide)).append _).append _ |>.append _
  have hcustom : (b.custom.map fun f => "    " ++ Text.key f.1 ++ ": " ++ f.2 ++ ",").filter
      opensComment = [] := by
    refine filter_opensComment_eq_nil (List.forall_mem_map.2 fun f _ => ?_)
    exact (((isCode_key f.1).indent (by decide)).append _).append _ |>.append _
  have hjson := filter_jsonFilters b
  unfold WhereBlock.comments at hjson ⊢
  rw [WhereBlock.stmts, List.flatMap_cons, List.flatMap_nil, List.append_nil, filter_const]
  simp only [List.filter_append, hopen, hclose, hfilters, hcustom, hjson, List.nil_append,
    List.append_nil]

section
variable (b : ListBlock)

theorem filter_offset : b.offsetLines.filter opensComment =
    if b.pagination = .cursor then [] else ["  // Offset pagination"] := by
  unfold ListBlock.offsetLines
  split
  · rfl
  · rw [List.filter_cons_of_pos (by decide), filter_opensComment_eq_nil]
    rw [List.forall_mem_cons, List.forall_mem_singleton]
    exact ⟨by decide, (show IsCode "  limit: " by decide).append _⟩

theorem filter_cursor : b.cursorLines.filter opensComment =
    if b.pagination = .offset then [] else ["  // Cursor pagination"] := by
  unfold ListBlock.cursorLines
  split
  · rfl
  · rw [List.filter_cons_of_pos (by decide), filter_opensComment_eq_nil]
    rw [List.forall_mem_cons, List.forall_mem_singleton]
    exact ⟨((show IsCode "  cursor: " by decide).append _).append _,
      (show IsCode "  take: " by decide).append _⟩

theorem filter_sort : b.sortLines.filter opensComment = ["  // Sorting"] := by
  unfold ListBlock.sortLines
  rw [List.filter_cons_of_pos (by decide), filter_opensComment_eq_nil]
  split
  · refine List.forall_mem_singleton.2 ?_
    exact (((show IsCode "  orderBy: z.enum(" by decide).append _).append _).append _
  · decide

theorem filter_filter : b.filterLines.filter opensComment = ["  // Filtering"] := by
  unfold ListBlock.filterLines
  rw [List.filter_cons_of_pos (by decide), filter_opensComment_eq_nil]
  split
  · exact List.forall_mem_singleton.2 (((show IsCode "  where: " by decide).append _).append _)
  · exact List.forall_mem_singleton.2 (((show IsCode "  filters: " by decide).append _).append _)

theorem filter_list : (b.stmts.flatMap Stmt.lines).filter opensComment = b.comments := by
  have horg : (if b.orgScoped then
      ["  // Organization scoped: callers filter by the current organization."] else []).filter
        opensComment = if b.orgScoped then
      ["  // Organization scoped: callers filter by the current organization."] else [] := by
    split <;> decide
  have hclose : ["\x7d);"].filter opensComment = [] := by decide
  rw [ListBlock.stmts, List.flatMap_append, List.filter_append,
    filter_three _ _ _ (filter_doc _) (filter_alias _), filter_const]
  simp only [List.filter_append, filter_offset, filter_cursor, filter_sort, filter_filter, horg,
    hclose, List.append_nil]
  refine congrArg (· ++ b.captions) ?_
  cases b.filter with
  | none => rfl
  | some w =>
    rw [List.flatMap_append, List.filter_append, filter_where]
    exact List.append_nil _

end

/-! ## sets -/

/-- the comments among the lines of a set -/
theorem filter_lines (s : CrudSet) :
    s.lines.filter opensComment = s.create.comments ++ s.list.comments := by
  have hoptions :
      ((s.options.flatMap OptionSet.stmts).flatMap Stmt.lines).filter opensComment = [] := by
    rw [List.flatMap_assoc, List.filter_flatMap, List.flatMap_eq_nil_iff]
    exact fun o _ => filter_option o
  unfold CrudSet.lines Operation.all
  simp only [List.flatMap_append, List.flatMap_cons, List.flatMap_nil, List.filter_append,
    List.append_nil, hoptions, CrudSet.stmts, filter_create, filter_update, filter_list,
    filter_identifier, List.nil_append]

/-! ## comments on one line -/

theorem oneLine_targets_iff (ms : List CreateMember) :
    (∀ l ∈ (Call.object ms).comments, OneLine l) ↔
      ∀ a ∈ ms, ∀ t, a.target = some t → OneLine t := by
  have hmark : OneLine "    // Foreign key to " := by decide
  rw [Call.comments, List.forall_mem_map]
  simp only [oneLine_append_iff, and_iff_right hmark, List.mem_filterMap, forall_exists_index,
    and_imp]
  exact ⟨fun h a ha t ht => h t a ha ht, fun h t a ha ht => h a ha t ht⟩

theorem oneLine_checks_iff (b : CreateBlock) :
    (∀ l ∈ (b.checks.map Call.refine).flatMap Call.comments, OneLine l) ↔
      ∀ t, b.refine = some t → OneLine t := by
  have hmark : OneLine "      // " := by decide
  have hempty : OneLine "" := by decide
  rw [List.flatMap_map]
  simp only [Call.comments, List.mem_flatMap, List.mem_singleton, forall_exists_index, and_imp,
    CreateBlock.checks, List.mem_filter, Option.mem_toList, decide_eq_true_eq]
  constructor
  · intro h t ht
    by_cases he : t = ""
    · exact he ▸ hempty
    · exact (oneLine_append_iff.1 (h _ t ht he rfl)).2
  · rintro h _ t ht - rfl
    exact hmark.append (h t ht)

theorem oneLine_create_iff (b : CreateBlock) :
    (∀ l ∈ b.comments, OneLine l) ↔ (∀ t, b.refine = some t → OneLine t) ∧
      (b.form = .rebuilt → ∀ a ∈ b.members, ∀ t, a.target = some t → OneLine t) := by
  unfold CreateBlock.comments CreateBlock.calls
  rw [List.flatMap_append, List.forall_mem_append, oneLine_checks_iff, and_comm]
  refine and_congr_right fun _ => ?_
  cases b.form with
  | composed => exact iff_of_true (List.forall_mem_nil _) fun h => by cases h
  | rebuilt =>
    dsimp only
    rw [List.flatMap_singleton, oneLine_targets_iff]
    exact ⟨fun h _ => h, fun h => h rfl⟩

theorem oneLine_where_iff (w : WhereBlock) :
    (∀ l ∈ w.comments, OneLine l) ↔ ∀ v ∈ w.jsonFilters, Json.Unseparated v.texts := by
  have hmark : OneLine "    // TODO: JSON filter " := by decide
  have hcaption : OneLine "    // JSON path filters" := by decide
  unfold WhereBlock.comments
  split
  · next h =>
    rw [List.isEmpty_iff.1 h]
    exact iff_of_true (List.forall_mem_nil _) (List.forall_mem_nil _)
  · simp only [List.forall_mem_cons, List.forall_mem_map, and_iff_right hcaption,
      oneLine_append_iff, and_iff_right hmark, Json.oneLine_write_iff]

theorem oneLine_list_iff (b : ListBlock) :
    (∀ l ∈ b.comments, OneLine l) ↔
      ∀ w, b.filter = some w → ∀ v ∈ w.jsonFilters, Json.Unseparated v.texts := by
  have hcaptions : ∀ l ∈ b.captions, OneLine l := by
    unfold ListBlock.captions
    simp only [List.forall_mem_append]
    refine ⟨⟨⟨⟨?_, ?_⟩, ?_⟩, ?_⟩, ?_⟩
    · split <;> decide
    · split <;> decide
    · decide
    · decide
    · split <;> decide
  unfold ListBlock.comments
  rw [List.forall_mem_append, and_iff_left hcaptions]
  cases b.filter with
  | none => exact iff_of_true (List.forall_mem_nil _) fun _ h => by cases h
  | some w =>
    show (∀ l ∈ w.comments, OneLine l) ↔ _
    rw [oneLine_where_iff]
    simp only [Option.some.injEq, forall_eq']

/-- a list has a filter block when there is a JSON filter -/
theorem filter_of_jsonFilter {x : Context} {v : Value} (hv : v ∈ x.rules.list.jsonFilters) :
    x.listBlock.value.filter = some x.whereBlock.value := by
  have hwhere : x.rules.list.hasWhere = true := by
    unfold ListRules.hasWhere
    simp [List.ne_nil_of_mem hv]
  unfold Context.listBlock
  rw [if_pos hwhere]

theorem jsonFilters_listBlock_iff (x : Context) (p : Value → Prop) :
    (∀ w, x.listBlock.value.filter = some w → ∀ v ∈ w.jsonFilters, p v) ↔
      ∀ v ∈ x.rules.list.jsonFilters, p v := by
  constructor
  · exact fun h v hv => h _ (filter_of_jsonFilter hv) v hv
  · intro h w hw v hv
    unfold Context.listBlock at hw
    dsimp only at hw
    split at hw
    · obtain rfl := Option.some.inj hw
      exact h v hv
    · cases hw

/-! ## their lines -/

theorem mem_lines_of_comments {s : CrudSet} {l : String}
    (h : l ∈ s.create.comments ++ s.list.comments) : l ∈ s.lines := by
  rw [← filter_lines] at h
  exact (List.mem_filter.1 h).1

theorem mem_lines_of_refine (b : Base) {m : Model} {t : String}
    (h : (rulesOf m).create.refine = some t) (ht : t ≠ "") :
    "      // " ++ t ∈ (setOf b m).value.lines := by
  have hcheck : t ∈ (setOf b m).value.create.checks :=
    List.mem_filter.2 ⟨Option.mem_toList.2 h, decide_eq_true ht⟩
  refine mem_lines_of_comments (List.mem_append_left _ ?_)
  refine List.mem_flatMap.2 ⟨.refine t, List.mem_append_right _ ?_, List.mem_singleton.2 rfl⟩
  exact List.mem_map_of_mem hcheck

theorem mem_lines_of_jsonFilter (b : Base) {m : Model} {v : Value}
    (hv : v ∈ (rulesOf m).list.jsonFilters) :
    "    // TODO: JSON filter " ++ Json.write v ∈ (setOf b m).value.lines := by
  let x := contextOf b m
  have hne : x.whereBlock.value.jsonFilters.isEmpty = false := by
    rw [List.isEmpty_eq_false_iff]
    exact List.ne_nil_of_mem hv
  have hcomment : "    // TODO: JSON filter " ++ Json.write v ∈ x.whereBlock.value.comments := by
    unfold WhereBlock.comments
    rw [hne]
    exact List.mem_cons_of_mem _ (List.mem_map_of_mem hv)
  refine mem_lines_of_comments (List.mem_append_right _ ?_)
  show _ ∈ x.listBlock.value.comments
  rw [ListBlock.comments, filter_of_jsonFilter hv]
  exact List.mem_append_left _ hcomment

/-- **Comments end with their lines**, if and only if the message of the check that creation asks for
is on one line, and so are the models that foreign keys lead to, unless the schema is derived from a
layer, and no text in a JSON filter holds a separator of lines or paragraphs. -/
theorem comments_on_one_line_iff (b : Base) (m : Model) :
    let s := (setOf b m).value
    (∀ l ∈ s.lines, opensComment l = true → OneLine l) ↔
      (∀ t, (rulesOf m).create.refine = some t → OneLine t) ∧
      (b.layered = false → ∀ a ∈ s.create.members, ∀ t, a.target = some t → OneLine t) ∧
      ∀ v ∈ (rulesOf m).list.jsonFilters, Json.Unseparated v.texts := by
  intro s
  have hcreate := oneLine_create_iff s.create
  have hlist := (oneLine_list_iff s.list).trans
    (jsonFilters_listBlock_iff (contextOf b m) fun v => Json.Unseparated v.texts)
  have hform : s.create.form = .rebuilt ↔ b.layered = false := by
    show (if b.layered then CreateForm.composed else .rebuilt) = .rebuilt ↔ _
    cases b.layered <;> simp
  have hfilter : (∀ l ∈ s.lines, opensComment l = true → OneLine l) ↔
      ∀ l ∈ s.lines.filter opensComment, OneLine l := by
    simp only [List.mem_filter, and_imp]
  rw [hfilter, filter_lines, List.forall_mem_append, hcreate, hlist, hform, and_assoc]
  rfl

/-- a model with a message and a text in a filter over two lines -/
def review : Model :=
  { name := "Review"
    documentation := some ("@crud.create.refine(\"Title and body\nmust differ\")\n" ++
      "@crud.list.jsonFilter([\"a\u2028b\"])")
    fields := [{ name := "id", type := "Int", isId := true }] }

def reviewBase : Base := ⟨{ crudSchemas := true }, { models := [review] }, true, none⟩

/-- Both go on behind the end of their comment. -/
theorem comment_broken :
    let s := (setOf reviewBase review).value
    ("      // " ++ "Title and body\nmust differ" ∈ s.lines ∧
      opensComment ("      // " ++ "Title and body\nmust differ") = true ∧
      ¬OneLine ("      // " ++ "Title and body\nmust differ")) ∧
    "    // TODO: JSON filter " ++ "[\"a\u2028b\"]" ∈ s.lines ∧
      opensComment ("    // TODO: JSON filter " ++ "[\"a\u2028b\"]") = true ∧
      ¬OneLine ("    // TODO: JSON filter " ++ "[\"a\u2028b\"]") := by
  intro s
  have hrules : ((rulesOf review).create.refine, (rulesOf review).list.jsonFilters.map Json.write) =
      (some "Title and body\nmust differ", ["[\"a\u2028b\"]"]) := by
    decide +kernel
  obtain ⟨hrefine, hjson⟩ := Prod.mk.inj hrules
  have hmessage := mem_lines_of_refine reviewBase hrefine (by decide)
  obtain ⟨v, hv, hw⟩ : ∃ v ∈ (rulesOf review).list.jsonFilters, Json.write v = "[\"a\u2028b\"]" :=
    List.mem_map.1 (hjson ▸ List.mem_singleton_self _)
  have hfilter := mem_lines_of_jsonFilter reviewBase hv
  rw [hw] at hfilter
  exact ⟨⟨hmessage, by decide, by decide⟩, hfilter, by decide, by decide⟩

end ZodSchema.Crud
