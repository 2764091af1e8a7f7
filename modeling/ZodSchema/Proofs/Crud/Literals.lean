import ZodSchema.Proofs.Crud.Create
import ZodSchema.Proofs.Crud.Declarations
import ZodSchema.Proofs.Crud.Names
import ZodSchema.Proofs.Crud.Update
import ZodSchema.Proofs.Generation.Order
import ZodSchema.Proofs.Text.Property
import ZodSchema.Proofs.Validation.Keys

/-!
# Object literals of CRUD blocks

The blocks of a model are written with object literals.  Keys of entries stand in them once.  The
filters of a list come from three lists of names, and the pattern of an update check binds variables
by two rules; there, a name may stand twice.

* `Literal`                an object literal over several lines
* `CrudSet.literals`, `WhereBlock.literal`   those of the blocks
* `lines_literals`, `lines_where`   they are written
* `nodup_keys_literals`, `nodup_keys_where_iff`   when a key stands once
* `nodup_properties_iff`   when the keys denote different properties
* `Unshadowed`, `nodup_names_paramOf_iff`   when the variables of a pattern are different
* `literal_keys_iff`       all of it, for a data model that passes validation
-/

namespace ZodSchema.Crud

open Schema Text TypeScript

/-! ## literals -/

/-- an object literal: its keys, and what stands behind each colon -/
structure Literal where
  indent : String
  entries : List (String × String)

namespace Literal

def keys (l : Literal) : List String := l.entries.map (·.1)

def lines (l : Literal) : List String :=
  l.entries.map fun e => l.indent ++ (Text.key e.1 ++ ": " ++ e.2)

/-- what the keys denote when they are read again -/
def properties (l : Literal) : List (Option String) := l.keys.map fun k => keyName? (Text.key k)

end Literal

def trueEntryOf (key : String) : String × String := (key, "true,")

def CreateBlock.memberEntry (b : CreateBlock) (m : CreateMember) : String × String :=
  (m.key, shapeMember b.source m.key ++ (m.default.map defaultText).getD "" ++ ",")

def CreateBlock.literals (b : CreateBlock) : List Literal :=
  match b.form with
  | .composed =>
    [⟨"    ", b.omitted.map trueEntryOf⟩,
      ⟨"    ", (b.members.filter (·.default.isSome)).map b.memberEntry⟩]
  | .rebuilt => [⟨"    ", b.members.map b.memberEntry⟩]

def UpdateBlock.literals (b : UpdateBlock) : List Literal :=
  [⟨"    ", b.omitted.map trueEntryOf⟩, ⟨"    ", b.ids.map fun i => (i.1, i.2 ++ ",")⟩]

def WhereBlock.literal (b : WhereBlock) : Literal :=
  ⟨"    ", b.filters.map (fun k => (k, shapeMember b.source k ++ ".optional(),")) ++
    b.custom.map fun f => (f.1, f.2 ++ ",")⟩

def IdentifierBlock.literal (b : IdentifierBlock) : Literal := ⟨"  ", b.keys.map trueEntryOf⟩

namespace ListBlock

def offsetEntries (b : ListBlock) : List (String × String) :=
  if b.pagination = .cursor then []
  else [("offset", "z.number().int().nonnegative().optional(),"), ("limit", b.sizeCheck)]

def cursorEntries (b : ListBlock) : List (String × String) :=
  if b.pagination = .offset then []
  else
    let cursor := match b.cursorKey with
      | some k => shapeMember b.source k ++ ".optional()"
      | none => "z.string().optional()"
    [("cursor", cursor ++ ","), ("take", b.sizeCheck)]

def sortEntries (b : ListBlock) : List (String × String) :=
  match b.sort with
  | some s =>
    [("orderBy", "z.enum(" ++ quoteAll s.options ++ ")" ++
      (match s.default with
        | some d => ".default(" ++ quote d ++ "),"
        | none => ".optional(),"))]
  | none =>
    [("sortBy", "z.string().optional(),"),
      ("sortOrder", "z.enum([\"asc\", \"desc\"]).optional(),")]

def filterEntries (b : ListBlock) : List (String × String) :=
  match b.filter with
  | some w => [("where", w.schema ++ ",")]
  | none => [("filters", b.source ++ ".partial().optional(),")]

def literal (b : ListBlock) : Literal :=
  ⟨"  ", b.offsetEntries ++ b.cursorEntries ++ b.sortEntries ++ b.filterEntries⟩

end ListBlock

/-- the literals of an operation, save that of the filters -/
def CrudSet.literals (s : CrudSet) : Operation → List Literal
  | .create => s.create.literals
  | .update => s.update.literals
  | .list => [s.list.literal]
  | .get => [s.get.literal]
  | .delete => [s.delete.literal]

/-! ## they are written -/

section
variable {l : Literal} {ls xs ys : List String}

theorem dropLast_sublist_append (xs ys : List String) :
    xs.dropLast.Sublist (xs ++ ys).dropLast := by
  by_cases h : ys = []
  · rw [h, List.append_nil]
  · rw [List.dropLast_append_of_ne_nil h]
    exact (List.dropLast_sublist xs).trans (List.sublist_append_left xs _)

theorem sublist_append_dropLast (xs ys : List String) :
    ys.dropLast.Sublist (xs ++ ys).dropLast := by
  by_cases h : ys = []
  · rw [h]
    exact List.nil_sublist _
  · rw [List.dropLast_append_of_ne_nil h]
    exact List.sublist_append_right xs _

/-- the last line is another one when a constant is closed -/
theorem dropLast_sublist_closedConst (name first : String) (rest : List String) :
    rest.dropLast.Sublist (closedConst name first rest).lines := by
  unfold closedConst
  split
  · exact (List.sublist_append_left _ _).trans (List.sublist_cons_self _ _)
  · next h =>
    rw [List.getLast?_eq_none_iff.1 h]
    exact List.nil_sublist _

theorem map_sublist_objectCall (name : String) (ls : List String) :
    (ls.map ("    " ++ ·)).Sublist (objectCall name ls).dropLast := by
  unfold objectCall
  split
  · next h =>
    rw [List.isEmpty_iff.1 h]
    exact List.Sublist.refl _
  · rw [List.dropLast_concat]
    exact List.sublist_cons_self _ _

/-- lines of the statement in the middle -/
theorem sublist_second {ls : List String} {a b c : Stmt} (h : ls.Sublist b.lines) :
    ls.Sublist ([a, b, c].flatMap Stmt.lines) :=
  (h.trans (List.sublist_append_left _ _)).trans (List.sublist_append_right _ _)

theorem trueEntry_eq (key : String) : trueEntry key = Text.key key ++ ": " ++ "true," := by
  rw [trueEntry, String.append_assoc]
  rfl

theorem memberLine_eq (b : CreateBlock) (m : CreateMember) :
    b.memberLine m = Text.key (b.memberEntry m).1 ++ ": " ++ (b.memberEntry m).2 := by
  unfold CreateBlock.memberLine CreateBlock.memberEntry
  simp only [String.append_assoc]

theorem lines_true (indent : String) (keys : List String) :
    (⟨indent, keys.map trueEntryOf⟩ : Literal).lines = (keys.map trueEntry).map (indent ++ ·) := by
  unfold Literal.lines
  rw [List.map_map, List.map_map]
  refine List.map_congr_left fun k _ => ?_
  exact congrArg (indent ++ ·) (trueEntry_eq k).symm

theorem lines_members (b : CreateBlock) (ms : List CreateMember) :
    (⟨"    ", ms.map b.memberEntry⟩ : Literal).lines = (ms.map b.memberLine).map ("    " ++ ·) := by
  unfold Literal.lines
  rw [List.map_map, List.map_map]
  refine List.map_congr_left fun m _ => ?_
  exact congrArg ("    " ++ ·) (memberLine_eq b m).symm

theorem lines_append (indent : String) (es es' : List (String × String)) :
    (⟨indent, es ++ es'⟩ : Literal).lines =
      (⟨indent, es⟩ : Literal).lines ++ (⟨indent, es'⟩ : Literal).lines :=
  List.map_append

theorem lines_create (b : CreateBlock) (hl : l ∈ b.literals) :
    l.lines.Sublist (b.stmts.flatMap Stmt.lines) := by
  have hconst : ∀ {a c : Stmt} {name first : String} {rest : List String},
      l.lines.Sublist rest.dropLast →
        l.lines.Sublist ([a, closedConst name first rest, c].flatMap Stmt.lines) :=
    fun h => sublist_second (h.trans (dropLast_sublist_closedConst _ _ _))
  unfold CreateBlock.literals at hl
  unfold CreateBlock.stmts
  cases hf : b.form with
  | composed =>
    rw [hf] at hl
    simp only [List.mem_cons, List.not_mem_nil, or_false] at hl
    refine hconst (List.Sublist.trans ?_ (dropLast_sublist_append _ _))
    unfold CreateBlock.composedLines
    rcases hl with rfl | rfl
    · rw [lines_true]
      exact (map_sublist_objectCall "omit" _).trans (dropLast_sublist_append _ _)
    · rw [lines_members]
      exact (map_sublist_objectCall "extend" _).trans (sublist_append_dropLast _ _)
  | rebuilt =>
    rw [hf, List.mem_singleton] at hl
    subst hl
    refine hconst (List.Sublist.trans ?_ (dropLast_sublist_append _ _))
    unfold CreateBlock.rebuiltLines
    rw [List.dropLast_concat, lines_members, List.map_map]
    refine List.Sublist.trans ?_ (List.sublist_append_right _ _)
    induction b.members with
    | nil => exact List.nil_sublist _
    | cons m ms ih =>
      rw [List.map_cons, List.flatMap_cons, List.append_assoc]
      exact (ih.cons_cons _).trans (List.sublist_append_right _ _)

theorem lines_update (b : UpdateBlock) (hl : l ∈ b.literals) :
    l.lines.Sublist (b.stmts.flatMap Stmt.lines) := by
  have hids : (⟨"    ", b.ids.map fun i => (i.1, i.2 ++ ",")⟩ : Literal).lines =
      (b.ids.map fun i => Text.key i.1 ++ ": " ++ i.2 ++ ",").map ("    " ++ ·) := by
    unfold Literal.lines
    rw [List.map_map, List.map_map]
    refine List.map_congr_left fun i _ => ?_
    simp only [Function.comp_apply, String.append_assoc]
  have hcall := fun name ls => (map_sublist_objectCall name ls).trans (List.dropLast_sublist _)
  unfold UpdateBlock.literals at hl
  simp only [List.mem_cons, List.not_mem_nil, or_false] at hl
  refine sublist_second (List.Sublist.trans ?_ (List.sublist_cons_self _ _))
  refine List.Sublist.trans ?_ (List.sublist_append_left _ _)
  rcases hl with rfl | rfl
  · rw [lines_true, List.append_assoc]
    exact (hcall "omit" _).trans (List.sublist_append_left _ _)
  · rw [hids]
    exact (hcall "extend" _).trans (List.sublist_append_right _ _)

theorem lines_where (b : WhereBlock) : b.literal.lines.Sublist (b.stmts.flatMap Stmt.lines) := by
  have hlines : b.literal.lines =
      b.filters.map (fun k =>
        "    " ++ Text.key k ++ ": " ++ shapeMember b.source k ++ ".optional(),") ++
      b.custom.map fun f => "    " ++ Text.key f.1 ++ ": " ++ f.2 ++ "," := by
    unfold WhereBlock.literal Literal.lines
    rw [List.map_append, List.map_map, List.map_map]
    congr 1
    · refine List.map_congr_left fun k _ => ?_
      simp only [Function.comp_apply, String.append_assoc]
    · refine List.map_congr_left fun f _ => ?_
      simp only [Function.comp_apply, String.append_assoc]
  rw [hlines]
  unfold WhereBlock.stmts
  simp only [List.flatMap_cons, List.flatMap_nil, List.append_nil, Stmt.lines, List.append_assoc]
  refine List.Sublist.trans ?_ (List.sublist_cons_self _ _)
  refine List.Sublist.trans ?_ (List.sublist_append_right _ _)
  exact (List.sublist_append_left _ _).append_left _

theorem lines_identifier (b : IdentifierBlock) :
    b.literal.lines.Sublist (b.stmts.flatMap Stmt.lines) := by
  unfold IdentifierBlock.literal
  rw [lines_true, List.map_map]
  refine sublist_second ?_
  split
  · next h =>
    rw [List.isEmpty_iff.1 h]
    exact List.nil_sublist _
  · exact (List.sublist_append_left _ _).trans (List.sublist_cons_self _ _)

/-- a line with a fixed key -/
theorem line_of_key (key : String) {opening : String}
    (h : "  " ++ (Text.key key ++ ": ") = opening) (s : String) :
    "  " ++ (Text.key key ++ ": " ++ s) = opening ++ s := by
  rw [← h]
  simp only [String.append_assoc]

theorem lines_offset (b : ListBlock) :
    (⟨"  ", b.offsetEntries⟩ : Literal).lines.Sublist b.offsetLines := by
  unfold ListBlock.offsetEntries ListBlock.offsetLines
  split
  · exact List.Sublist.refl _
  · have ho := line_of_key "offset" (show _ = "  offset: " by decide +kernel)
      "z.number().int().nonnegative().optional(),"
    have hl := line_of_key "limit" (show _ = "  limit: " by decide +kernel) b.sizeCheck
    simp only [Literal.lines, List.map_cons, List.map_nil, ho, hl]
    exact List.sublist_cons_self _ _

theorem lines_cursor (b : ListBlock) :
    (⟨"  ", b.cursorEntries⟩ : Literal).lines.Sublist b.cursorLines := by
  unfold ListBlock.cursorEntries ListBlock.cursorLines
  split
  · exact List.Sublist.refl _
  · have hc := line_of_key "cursor" (show _ = "  cursor: " by decide +kernel)
    have ht := line_of_key "take" (show _ = "  take: " by decide +kernel) b.sizeCheck
    simp only [Literal.lines, List.map_cons, List.map_nil, hc, ht]
    simp only [String.append_assoc]
    exact List.sublist_cons_self _ _

theorem lines_sort (b : ListBlock) :
    (⟨"  ", b.sortEntries⟩ : Literal).lines.Sublist b.sortLines := by
  unfold ListBlock.sortEntries ListBlock.sortLines
  refine List.Sublist.trans ?_ (List.sublist_cons_self _ _)
  cases b.sort with
  | some s =>
    have ho := line_of_key "orderBy" (show _ = "  orderBy: " by decide +kernel)
    have he : "  orderBy: z.enum(" = "  orderBy: " ++ "z.enum(" := by decide +kernel
    simp only [Literal.lines, List.map_cons, List.map_nil, ho, he]
    simp only [String.append_assoc]
    exact List.Sublist.refl _
  | none =>
    have hs := line_of_key "sortBy" (show _ = "  sortBy: " by decide +kernel)
    have ht := line_of_key "sortOrder" (show _ = "  sortOrder: " by decide +kernel)
    simp only [Literal.lines, List.map_cons, List.map_nil, hs, ht]
    exact List.Sublist.refl _

theorem lines_filter (b : ListBlock) :
    (⟨"  ", b.filterEntries⟩ : Literal).lines.Sublist b.filterLines := by
  unfold ListBlock.filterEntries ListBlock.filterLines
  refine List.Sublist.trans ?_ (List.sublist_cons_self _ _)
  cases b.filter with
  | some w =>
    have hw := line_of_key "where" (show _ = "  where: " by decide +kernel)
    simp only [Literal.lines, List.map_cons, List.map_nil, hw]
    simp only [String.append_assoc]
    exact List.Sublist.refl _
  | none =>
    have hf := line_of_key "filters" (show _ = "  filters: " by decide +kernel)
    simp only [Literal.lines, List.map_cons, List.map_nil, hf]
    simp only [String.append_assoc]
    exact List.Sublist.refl _

theorem lines_list (b : ListBlock) : b.literal.lines.Sublist (b.stmts.flatMap Stmt.lines) := by
  have hlines := (((lines_offset b).append (lines_cursor b)).append (lines_sort b)).append
    (lines_filter b)
  rw [← lines_append, ← lines_append, ← lines_append] at hlines
  unfold ListBlock.stmts
  rw [List.flatMap_append]
  refine List.Sublist.trans (sublist_second ?_) (List.sublist_append_right _ _)
  refine List.Sublist.trans ?_ (List.sublist_cons_self _ _)
  refine List.Sublist.trans ?_ (List.sublist_append_left _ _)
  exact hlines.trans (List.sublist_append_left _ _)

theorem lines_literals (s : CrudSet) (op : Operation) (hl : l ∈ s.literals op) :
    l.lines.Sublist ((s.stmts op).flatMap Stmt.lines) := by
  cases op with
  | create => exact lines_create s.create hl
  | update => exact lines_update s.update hl
  | list =>
    rw [List.mem_singleton.1 hl]
    exact lines_list s.list
  | get =>
    rw [List.mem_singleton.1 hl]
    exact lines_identifier s.get
  | delete =>
    rw [List.mem_singleton.1 hl]
    exact lines_identifier s.delete

end

/-! ## keys -/

section
variable {l : Literal}

theorem keys_true (indent : String) (keys : List String) :
    (⟨indent, keys.map trueEntryOf⟩ : Literal).keys = keys := by
  unfold Literal.keys
  rw [List.map_map]
  exact List.map_id' keys

theorem keys_members (b : CreateBlock) (ms : List CreateMember) :
    (⟨"    ", ms.map b.memberEntry⟩ : Literal).keys = ms.map (·.key) := by
  unfold Literal.keys
  rw [List.map_map]
  rfl

theorem nodup_keys_list (b : ListBlock) : b.literal.keys.Nodup := by
  unfold Literal.keys ListBlock.literal ListBlock.offsetEntries ListBlock.cursorEntries
    ListBlock.sortEntries ListBlock.filterEntries
  cases b.pagination <;> cases b.sort <;> cases b.filter <;> simp

variable {x : Context}

theorem keys_members_createBlock (x : Context) :
    x.createBlock.value.members.map (·.key) = x.kept.map (·.2.key) := by
  show (x.kept.map _).map _ = _
  rw [List.map_map]
  rfl

/-- keys of entries stand once in every literal but that of the filters -/
theorem nodup_keys_literals (hk : x.keys.Nodup) (op : Operation)
    (hl : l ∈ x.crudSet.value.literals op) : l.keys.Nodup := by
  have hids : x.idKeys.Nodup := (x.sublist_keys _).nodup hk
  cases op with
  | create =>
    have hm := Context.nodup_kept hk
    rw [← keys_members_createBlock] at hm
    change l ∈ x.createBlock.value.literals at hl
    unfold CreateBlock.literals at hl
    split at hl
    · simp only [List.mem_cons, List.not_mem_nil, or_false] at hl
      rcases hl with rfl | rfl
      · rw [keys_true]
        exact (x.sublist_keys _).nodup hk
      · rw [keys_members]
        exact (List.filter_sublist.map _).nodup hm
    · rw [List.mem_singleton.1 hl, keys_members]
      exact hm
  | update =>
    change l ∈ x.updateBlock.value.literals at hl
    unfold UpdateBlock.literals at hl
    simp only [List.mem_cons, List.not_mem_nil, or_false] at hl
    rcases hl with rfl | rfl
    · rw [keys_true]
      exact nodup_eraseDups _
    · show ((x.updateBlock.value.ids.map _).map _).Nodup
      rw [List.map_map]
      have hi := x.ids_updateBlock
      rw [← hi] at hids
      exact hids
  | list =>
    rw [List.mem_singleton.1 hl]
    exact nodup_keys_list _
  | get =>
    rw [List.mem_singleton.1 hl]
    exact (keys_true _ _).symm ▸ hids
  | delete =>
    rw [List.mem_singleton.1 hl]
    exact (keys_true _ _).symm ▸ hids

/-! ## filters -/

/-- the types of a model's filters have different names -/
theorem nodup_customTypes (m : Model) : ((rulesOf m).list.customTypes.map (·.1)).Nodup := by
  rw [customTypes_rulesOf]
  exact Assoc.nodup_settled _

theorem nodup_customNames_iff (ht : (x.rules.list.customTypes.map (·.1)).Nodup) :
    x.customNames.Nodup ↔ x.rules.list.customFilters.Nodup := by
  unfold Context.customNames
  rw [List.nodup_append', and_iff_left]
  refine ⟨ht.filter _, fun n hn hn' => ?_⟩
  have hc := (List.mem_filter.1 hn').2
  simp [hn] at hc

theorem keys_literal_where (x : Context) :
    x.whereBlock.value.literal.keys = x.whereBlock.value.filters ++ x.customNames := by
  unfold Literal.keys WhereBlock.literal
  rw [List.map_append, List.map_map, List.map_map]
  show x.whereBlock.value.filters.map id ++ ((x.customNames.map _).map _) = _
  rw [List.map_id, List.map_map]
  congr 1
  exact List.map_id' _

/-- the keys of the filters are different when the declared names are, and no other filter has the
key of an entry that is one -/
theorem nodup_keys_where_iff (ht : (x.rules.list.customTypes.map (·.1)).Nodup) :
    x.whereBlock.value.literal.keys.Nodup ↔ x.rules.list.customFilters.Nodup ∧
      ∀ n ∈ x.rules.list.customFilters ++ x.rules.list.customTypes.map (·.1),
        n ∉ x.whereBlock.value.filters := by
  have hf : x.whereBlock.value.filters.Nodup := nodup_eraseDups _
  rw [keys_literal_where, List.nodup_append', and_iff_right hf, nodup_customNames_iff ht]
  refine and_congr_right fun _ => ?_
  constructor
  · intro hd n hn hm
    exact hd hm (Context.mem_customNames.2 (List.mem_append.1 hn))
  · intro h n hm hn
    exact h n (List.mem_append.2 (Context.mem_customNames.1 hn)) hm

/-! ## what keys denote -/

theorem denoted_of_isName {k : String} (h : IsName k) : denoted k = k :=
  denoted_eq_self_iff.2 fun hf => h.line hf.feed

/-- of different texts, only a name and the name with a line feed denote one property -/
theorem nodup_map_denoted_iff {ks : List String} :
    (ks.map denoted).Nodup ↔ ks.Nodup ∧ ∀ k ∈ ks, IsName k → k ++ "\n" ∉ ks := by
  constructor
  · intro h
    refine ⟨h.of_map _, fun k hk hn hf => ?_⟩
    have he : denoted (k ++ "\n") = denoted k := by rw [denoted_fed hn, denoted_of_isName hn]
    exact fed_ne_self k (List.inj_on_of_nodup_map h hf hk he)
  · rintro ⟨hn, h⟩
    -- a text without the line feed denotes itself
    have hfed : ∀ {k t : String}, t ++ "\n" ∈ ks → IsName t → k ∈ ks → ¬IsFedName k →
        denoted k ≠ denoted (t ++ "\n") := by
      intro k t ht hname hk hkf he
      rw [denoted_fed hname, denoted_eq_self_iff.2 hkf] at he
      subst he
      exact h k hk hname ht
    refine hn.map_on fun k hk l hl he => ?_
    by_cases hkf : IsFedName k <;> by_cases hlf : IsFedName l
    · obtain ⟨t, ht, rfl⟩ := hkf
      obtain ⟨u, hu, rfl⟩ := hlf
      rw [denoted_fed ht, denoted_fed hu] at he
      rw [he]
    · obtain ⟨t, ht, rfl⟩ := hkf
      exact absurd he.symm (hfed hk ht hl hlf)
    · obtain ⟨u, hu, rfl⟩ := hlf
      exact absurd he (hfed hl hu hk hkf)
    · rwa [denoted_eq_self_iff.2 hkf, denoted_eq_self_iff.2 hlf] at he

theorem nodup_properties_iff (l : Literal) :
    l.properties.Nodup ↔ l.keys.Nodup ∧ ∀ k ∈ l.keys, IsName k → k ++ "\n" ∉ l.keys := by
  have hp : l.properties = (l.keys.map denoted).map some := by
    unfold Literal.properties
    rw [List.map_map]
    exact List.map_congr_left fun k _ => keyName?_key k
  rw [hp, List.nodup_map_iff fun _ _ => Option.some.inj, nodup_map_denoted_iff]

end

/-! ## variables -/

/-- identifiers whose variables are different from each other and from the rest: they denote
different properties, none of them `updateData`, and none of them the name that a quoted one is
given -/
structure Unshadowed (ids : List String) : Prop where
  properties : (ids.map denoted).Nodup
  rest : "updateData" ∉ ids.map denoted
  numbered : ∀ i k, ids[i]? = some k → isIdentifier k = false →
    "_id" ++ natText i ∉ ids.map denoted

section
variable {ids : List String} {i j : Nat} {k n : String}

theorem denoted_of_isIdentifier (h : isIdentifier k = true) : denoted k = word k := if_pos h

theorem denoted_of_not_isIdentifier (h : isIdentifier k = false) : denoted k = k :=
  if_neg (by simp [h])

theorem isIdentifier_word (h : isIdentifier k = true) : isIdentifier (word k) = true :=
  isIdentifier_iff.2 (Or.inl ((isIdentifier_eq k).1 h))

/-- a variable is a property that stands without quotes -/
theorem mem_map_denoted_iff (hn : isIdentifier n = true) :
    n ∈ ids.map denoted ↔
      ∃ i k, ids[i]? = some k ∧ isIdentifier k = true ∧ (bindingAt i k).name = n := by
  constructor
  · intro h
    obtain ⟨k, hk, rfl⟩ := List.mem_map.1 h
    obtain ⟨i, hi⟩ := List.mem_iff_getElem?.1 hk
    cases hki : isIdentifier k with
    | true => exact ⟨i, k, hi, hki, by rw [name_of_isIdentifier hki, denoted_of_isIdentifier hki]⟩
    | false =>
      rw [denoted_of_not_isIdentifier hki, hki] at hn
      cases hn
  · rintro ⟨i, k, hi, hki, rfl⟩
    refine List.mem_map.2 ⟨k, List.mem_of_getElem? hi, ?_⟩
    rw [name_of_isIdentifier hki, denoted_of_isIdentifier hki]

theorem unshadowed_of_nodup (h : (bound ids).Nodup) (hr : "updateData" ∉ bound ids)
    (hn : ids.Nodup) : Unshadowed ids where
  properties := by
    refine hn.map_on fun k hk l hl he => ?_
    obtain ⟨i, hi⟩ := List.mem_iff_getElem?.1 hk
    obtain ⟨j, hj⟩ := List.mem_iff_getElem?.1 hl
    cases hki : isIdentifier k <;> cases hli : isIdentifier l
    · rwa [denoted_of_not_isIdentifier hki, denoted_of_not_isIdentifier hli] at he
    · rw [denoted_of_not_isIdentifier hki, denoted_of_isIdentifier hli] at he
      rw [he, isIdentifier_word hli] at hki
      cases hki
    · rw [denoted_of_isIdentifier hki, denoted_of_not_isIdentifier hli] at he
      rw [← he, isIdentifier_word hki] at hli
      cases hli
    · rw [denoted_of_isIdentifier hki, denoted_of_isIdentifier hli, ← name_of_isIdentifier (i := i) hki,
        ← name_of_isIdentifier (i := j) hli] at he
      obtain rfl := eq_of_bound h hi hj he
      exact Option.some.inj (hi.symm.trans hj)
  rest hm := by
    obtain ⟨i, k, hi, -, he⟩ := (mem_map_denoted_iff (by decide)).1 hm
    exact hr (mem_bound.2 ⟨i, k, hi, he⟩)
  numbered i k hi hk hm := by
    obtain ⟨j, l, hj, hl, he⟩ := (mem_map_denoted_iff (isIdentifier_numbered i)).1 hm
    rw [← name_of_not_isIdentifier hk] at he
    obtain rfl := eq_of_bound h hj hi he
    rw [Option.some.inj (hi.symm.trans hj), hl] at hk
    cases hk

theorem Unshadowed.name_injective (hu : Unshadowed ids) (hi : ids[i]? = some k)
    (hj : ids[j]? = some n) (he : (bindingAt i k).name = (bindingAt j n).name) : i = j := by
  cases hki : isIdentifier k <;> cases hni : isIdentifier n
  · rw [name_of_not_isIdentifier hki, name_of_not_isIdentifier hni] at he
    exact natText_injective ((String.append_right_inj "_id").1 he)
  · rw [name_of_not_isIdentifier hki] at he
    exact absurd ((mem_map_denoted_iff (isIdentifier_numbered i)).2 ⟨j, n, hj, hni, he.symm⟩)
      (hu.numbered i k hi hki)
  · rw [name_of_not_isIdentifier hni] at he
    exact absurd ((mem_map_denoted_iff (isIdentifier_numbered j)).2 ⟨i, k, hi, hki, he⟩)
      (hu.numbered j n hj hni)
  · rw [name_of_isIdentifier hki, name_of_isIdentifier hni, ← denoted_of_isIdentifier hki,
      ← denoted_of_isIdentifier hni] at he
    have hlt : i < (ids.map denoted).length := by
      rw [List.length_map]
      exact (List.getElem?_eq_some_iff.1 hi).1
    refine (List.getElem?_inj hlt hu.properties).1 ?_
    rw [List.getElem?_map, List.getElem?_map, hi, hj, Option.map_some, Option.map_some, he]

theorem Unshadowed.rest_not_mem (hu : Unshadowed ids) : "updateData" ∉ bound ids := by
  intro hm
  obtain ⟨i, k, hi, he⟩ := mem_bound.1 hm
  cases hki : isIdentifier k with
  | true => exact hu.rest ((mem_map_denoted_iff (by decide)).2 ⟨i, k, hi, hki, he⟩)
  | false =>
    rw [name_of_not_isIdentifier hki] at he
    exact numbered_ne i (by decide) he

/-- the variables of the parameter are different, if and only if no identifier is shadowed -/
theorem nodup_names_paramOf_iff (hn : ids.Nodup) :
    (paramOf ids).names.Nodup ↔ Unshadowed ids := by
  by_cases h : ids = []
  · subst h
    refine iff_of_true (List.nodup_singleton "data") ⟨List.nodup_nil, List.not_mem_nil, ?_⟩
    intro i k hi
    cases hi
  · rw [names_paramOf h, ← List.concat_eq_append, List.nodup_concat]
    constructor
    · rintro ⟨hr, hb⟩
      exact unshadowed_of_nodup hb hr hn
    · intro hu
      exact ⟨hu.rest_not_mem, nodup_bound fun _ _ _ _ hi hj => hu.name_injective hi hj⟩

end

/-! ## data models that pass -/

theorem nodup_keys_of_valid {d : Datamodel} {c : Config} {m : Model}
    (h : (Validation.validate d c).isValid = true) (hm : m ∈ d.models) (layered : Bool)
    (registry : Option Brand.Registry) : (contextOf ⟨c, d, layered, registry⟩ m).keys.Nodup := by
  have hfirst := Generation.firstOfName_eq (Validation.names_of_valid h).1 hm
  have hk := Validation.keys_of_valid h hm
  show ((Schema.entries c d m).map (·.2.key)).Nodup
  rw [Schema.entries, hfirst, List.map_map]
  exact hk

/-- **Keys in the blocks of a model that passes validation.**  Every literal but that of the filters
has different keys.  The filters have, if and only if no further filter is declared twice and none is
called like a filter that is the key of an entry.  Read again, different keys denote different
properties unless one is another one with a line feed behind it.  The variables that the pattern of
the update check binds are different, if and only if no identifier is shadowed. -/
theorem literal_keys_iff {d : Datamodel} {c : Config} {m : Model}
    (h : (Validation.validate d c).isValid = true) (hm : m ∈ d.models) (layered : Bool)
    (registry : Option Brand.Registry) :
    let s := (setOf ⟨c, d, layered, registry⟩ m).value
    let r := (rulesOf m).list
    let ids := s.update.ids.map (·.1)
    (∀ op, ∀ l ∈ s.literals op,
      l.lines.Sublist ((s.stmts op).flatMap Stmt.lines) ∧ l.keys.Nodup) ∧
    (∀ w, s.list.filter = some w →
      w.literal.lines.Sublist ((s.stmts .list).flatMap Stmt.lines) ∧
      (w.literal.keys.Nodup ↔ r.customFilters.Nodup ∧
        ∀ n ∈ r.customFilters ++ r.customTypes.map (·.1), n ∉ w.filters)) ∧
    (∀ l : Literal, l.properties.Nodup ↔
      l.keys.Nodup ∧ ∀ k ∈ l.keys, IsName k → k ++ "\n" ∉ l.keys) ∧
    s.update.predicate = checkText (paramOf ids) ∧
    ((paramOf ids).names.Nodup ↔ Unshadowed ids) := by
  intro s r ids
  have hk := nodup_keys_of_valid h hm layered registry
  have hids : ids = (contextOf ⟨c, d, layered, registry⟩ m).idKeys := Context.ids_updateBlock _
  refine ⟨fun op l hl => ⟨lines_literals s op hl, nodup_keys_literals hk op hl⟩, ?filters,
    nodup_properties_iff, predicate_eq s.update, ?pattern⟩
  case filters =>
    intro w hw
    have hwhere : w = (contextOf ⟨c, d, layered, registry⟩ m).whereBlock.value := by
      change (Context.listBlock _).value.filter = some w at hw
      unfold Context.listBlock at hw
      dsimp only at hw
      split at hw
      · exact (Option.some.inj hw).symm
      · cases hw
    constructor
    · have hlines : (s.stmts .list).flatMap Stmt.lines = s.list.stmts.flatMap Stmt.lines := rfl
      rw [hlines, ListBlock.stmts, hw, List.flatMap_append, List.flatMap_append, List.append_assoc]
      exact (lines_where w).trans (List.sublist_append_left _ _)
    · rw [hwhere]
      exact nodup_keys_where_iff (nodup_customTypes m)
  case pattern =>
    refine nodup_names_paramOf_iff ?_
    rw [hids]
    exact (Context.sublist_keys _).nodup hk

/-- a ticket with two identifiers, whose list has filters of three kinds -/
def ticket : Model :=
  { name := "Ticket"
    documentation := some ("@crud.list.filters([\"row\"]) @crud.list.customFilters([\"sold_gte\"])\n" ++
      "@crud.list.customFilterTypes(\x7b\"hall\": \"z.string()\"\x7d)")
    fields := [
      { name := "row", type := "Int", isId := true },
      { name := "number", type := "Int", isId := true, dbName := some "seat-number" },
      { name := "sold", type := "DateTime" }] }

def tickets : Datamodel := { models := [ticket] }

theorem literal_keys_ticket :
    (Validation.validate tickets {}).isValid = true ∧
      ∃ w, (setOf ⟨{}, tickets, false, none⟩ ticket).value.list.filter = some w ∧
        w.literal.keys = ["row", "sold_gte", "hall"] ∧ w.literal.keys.Nodup ∧
        (paramOf ["row", "seat-number"]).names = ["row", "_id1", "updateData"] ∧
        Unshadowed ["row", "seat-number"] := by
  have hv : (Validation.validate tickets {}).isValid = true := by decide +kernel
  obtain ⟨-, hfilters, -, -, hvars⟩ :=
    literal_keys_iff hv (List.mem_singleton_self ticket) false none
  have hsome : (setOf ⟨{}, tickets, false, none⟩ ticket).value.list.filter.map
      (fun w => (w.filters, w.literal.keys)) = some (["row"], ["row", "sold_gte", "hall"]) := by
    decide +kernel
  obtain ⟨w, hw, hw'⟩ := Option.map_eq_some_iff.1 hsome
  obtain ⟨hf, hkeys⟩ := Prod.mk.inj hw'
  have hids : (setOf ⟨{}, tickets, false, none⟩ ticket).value.update.ids.map (·.1) =
      ["row", "seat-number"] := by decide +kernel
  have hnames : (paramOf ["row", "seat-number"]).names = ["row", "_id1", "updateData"] := by
    decide +kernel
  rw [hids, hnames] at hvars
  refine ⟨hv, w, hw, hkeys, (hfilters w hw).2.2 ?_, hnames, hvars.1 (by decide)⟩
  rw [hf]
  decide +kernel

/-- a note that declares a filter twice, and one that has the key of an entry -/
def note : Model :=
  { name := "Note"
    documentation := some
      "@crud.list.filters([\"tag\"]) @crud.list.customFilters([\"tag\", \"topic\", \"topic\"])"
    fields := [{ name := "id", type := "Int", isId := true }, { name := "tag", type := "String" }] }

/-- an identifier that is called like the variable of another one -/
def place : Model :=
  { name := "Place"
    fields := [
      { name := "_id1", type := "Int", isId := true },
      { name := "number", type := "Int", isId := true, dbName := some "seat-number" },
      { name := "note", type := "String" }] }

def duplicates : Datamodel := { models := [note, place] }

/-- Validation has no error, yet keys of the filters and a variable of the pattern stand twice. -/
theorem filters_written_twice :
    (Validation.validate duplicates {}).isValid = true ∧
      (setOf ⟨{}, duplicates, false, none⟩ note).value.list.filter.map (·.literal.keys) =
        some ["tag", "tag", "topic", "topic"] ∧
      (setOf ⟨{}, duplicates, false, none⟩ place).value.update.predicate =
        "(\x7b _id1, \"seat-number\": _id1, ...updateData \x7d) => Object.keys(updateData).length > 0" ∧
      (paramOf ["_id1", "seat-number"]).names = ["_id1", "_id1", "updateData"] := by
  decide +kernel

end ZodSchema.Crud
