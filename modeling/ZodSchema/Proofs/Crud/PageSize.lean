import ZodSchema.Proofs.Contract.Check
import ZodSchema.Proofs.Crud.Comments
import ZodSchema.Proofs.Crud.Directives

/-!
# Page sizes

The schema of a list bounds how many rows may be asked for.  The bound is the page size that the
directives of the model leave, or that of the settings when they leave none or zero.

* `Apart`                    a line that bounds no number of rows, told by how it begins
* `ListBlock.Bounds`         a bound that is written
* `ListBlock.bounds_iff`     it is the page size of the block
* `page_size_in_range_iff`   when it is within the range of the settings
-/

namespace ZodSchema.Crud

open Text TypeScript

/-! ## lines of other entries -/

/-- how the entries begin that bound a number of rows -/
def sizeMarks : List String := ["  l", "  t"]

/-- the text begins so -/
def Marked (s : String) : Prop := ∃ p ∈ sizeMarks, p.toList <+: s.toList

/-- the text can be told from all that begin so by its first characters -/
def Apart (s : String) : Prop :=
  ∀ p ∈ sizeMarks, ¬ p.toList <+: s.toList ∧ ¬ s.toList <+: p.toList

instance : DecidablePred Marked := fun _ => inferInstanceAs (Decidable (∃ _ ∈ _, _))

instance : DecidablePred Apart := fun _ => inferInstanceAs (Decidable (∀ _ ∈ _, _))

theorem Apart.not_marked {s : String} (h : Apart s) : ¬ Marked s := by
  rintro ⟨p, hp, hs⟩
  exact (h p hp).1 hs

theorem Apart.append {s : String} (h : Apart s) (t : String) : Apart (s ++ t) := by
  intro p hp
  obtain ⟨h1, h2⟩ := h p hp
  rw [String.toList_append]
  constructor
  · intro hps
    rcases List.prefix_or_prefix_of_prefix hps (List.prefix_append s.toList t.toList) with h | h
    · exact h1 h
    · exact h2 h
  · exact fun hsp => h2 ((List.prefix_append _ _).trans hsp)

theorem apart_doc (ls : List String) : ∀ l ∈ (Stmt.doc ls).lines, Apart l := by
  show ∀ l ∈ docBlock ls "", Apart l
  unfold docBlock
  split
  · exact fun _ h => absurd h List.not_mem_nil
  · rw [List.forall_mem_append, List.forall_mem_cons, List.forall_mem_map,
      List.forall_mem_singleton]
    refine ⟨⟨by decide, fun l _ => ?_⟩, by decide⟩
    obtain ⟨t, ht⟩ := exists_docLine l
    rw [ht]
    exact (show Apart " *" by decide).append t

theorem apart_typeDef (name type : String) : ∀ l ∈ (Stmt.typeDef name type).lines, Apart l :=
  List.forall_mem_singleton.2
    (((((show Apart "export type " by decide).append _).append _).append _).append _)

theorem apart_const (name first : String) {rest : List String} {P : String → Prop}
    (hp : ∀ l, Apart l → P l) (h : ∀ l ∈ rest, P l) :
    ∀ l ∈ (Stmt.const name first rest).lines, P l :=
  List.forall_mem_cons.2
    ⟨hp _ ((((show Apart "export const " by decide).append _).append _).append _), h⟩

theorem apart_where (w : WhereBlock) : ∀ l ∈ w.stmts.flatMap Stmt.lines, Apart l := by
  have hindent : Apart "    " := by decide
  rw [WhereBlock.stmts, List.flatMap_cons, List.flatMap_nil, List.append_nil]
  refine apart_const _ _ (fun _ h => h) ?_
  simp only [List.forall_mem_append, List.forall_mem_map, List.forall_mem_singleton]
  refine ⟨⟨⟨⟨by decide, fun k _ => ?_⟩, fun f _ => ?_⟩, ?_⟩, by decide⟩
  · exact (((hindent.append _).append _).append _).append _
  · exact (((hindent.append _).append _).append _).append _
  · split
    · exact fun _ h => absurd h List.not_mem_nil
    · refine List.forall_mem_cons.2 ⟨by decide, List.forall_mem_map.2 fun v _ => ?_⟩
      exact (show Apart "    // TODO: JSON filter " by decide).append _

/-! ## what is written -/

/-- the entry `name`, bounded by `n` -/
def sizeLine (name : String) (n : Int) : String :=
  "  " ++ name ++ ": " ++ ("z.number().int().positive().max(" ++ intText n ++ ").optional(),")

namespace ListBlock

variable {b : ListBlock} {l name : String} {n : Int}

/-- the schema writes the bound for `limit` or for `take` -/
def Bounds (b : ListBlock) (n : Int) : Prop :=
  ∃ name ∈ ["limit", "take"], sizeLine name n ∈ b.stmts.flatMap Stmt.lines

/-- a line that begins like a bound is one, and has the page size of the block -/
def Sized (b : ListBlock) (l : String) : Prop :=
  Marked l → ∃ name ∈ ["limit", "take"], l = sizeLine name b.maxSize

theorem sized_of_apart (b : ListBlock) (h : Apart l) : b.Sized l :=
  fun hm => absurd hm h.not_marked

theorem sizeLine_limit (b : ListBlock) : sizeLine "limit" b.maxSize = "  limit: " ++ b.sizeCheck :=
  congrArg (· ++ b.sizeCheck) (show "  " ++ "limit" ++ ": " = "  limit: " by decide)

theorem sizeLine_take (b : ListBlock) : sizeLine "take" b.maxSize = "  take: " ++ b.sizeCheck :=
  congrArg (· ++ b.sizeCheck) (show "  " ++ "take" ++ ": " = "  take: " by decide)

theorem sized_offsetLines : ∀ l ∈ b.offsetLines, b.Sized l := by
  unfold offsetLines
  split
  · exact fun _ h => absurd h List.not_mem_nil
  · rw [List.forall_mem_cons, List.forall_mem_cons, List.forall_mem_singleton]
    exact ⟨b.sized_of_apart (by decide), b.sized_of_apart (by decide),
      fun _ => ⟨"limit", by decide, b.sizeLine_limit.symm⟩⟩

theorem sized_cursorLines : ∀ l ∈ b.cursorLines, b.Sized l := by
  unfold cursorLines
  split
  · exact fun _ h => absurd h List.not_mem_nil
  · rw [List.forall_mem_cons, List.forall_mem_cons, List.forall_mem_singleton]
    exact ⟨b.sized_of_apart (by decide),
      b.sized_of_apart (((show Apart "  cursor: " by decide).append _).append _),
      fun _ => ⟨"take", by decide, b.sizeLine_take.symm⟩⟩

theorem apart_sortLines : ∀ l ∈ b.sortLines, Apart l := by
  unfold sortLines
  refine List.forall_mem_cons.2 ⟨by decide, ?_⟩
  split
  · refine List.forall_mem_singleton.2 ?_
    exact (((show Apart "  orderBy: z.enum(" by decide).append _).append _).append _
  · decide

theorem apart_filterLines : ∀ l ∈ b.filterLines, Apart l := by
  unfold filterLines
  refine List.forall_mem_cons.2 ⟨by decide, ?_⟩
  split
  · exact List.forall_mem_singleton.2 (((show Apart "  where: " by decide).append _).append _)
  · exact List.forall_mem_singleton.2 (((show Apart "  filters: " by decide).append _).append _)

theorem sized_lines : ∀ l ∈ b.stmts.flatMap Stmt.lines, b.Sized l := by
  have horg : ∀ l ∈ (if b.orgScoped then
      ["  // Organization scoped: callers filter by the current organization."] else []),
      Apart l := by
    split <;> decide
  rw [ListBlock.stmts, List.flatMap_append, List.forall_mem_append]
  constructor
  · cases b.filter with
    | none => exact fun _ h => absurd h List.not_mem_nil
    | some w =>
      rw [List.flatMap_append, List.forall_mem_append]
      exact ⟨fun l hl => b.sized_of_apart (apart_where w l hl),
        List.forall_mem_singleton.2 fun h => absurd h (by decide)⟩
  · simp only [List.flatMap_cons, List.flatMap_nil, List.append_nil, List.forall_mem_append]
    refine ⟨fun l hl => b.sized_of_apart (apart_doc _ l hl),
      apart_const _ _ (fun _ => b.sized_of_apart) ?_,
      fun l hl => b.sized_of_apart (apart_typeDef _ _ l hl)⟩
    simp only [List.forall_mem_append, List.forall_mem_singleton]
    exact ⟨⟨⟨⟨⟨sized_offsetLines, sized_cursorLines⟩,
      fun l hl => b.sized_of_apart (apart_sortLines l hl)⟩,
      fun l hl => b.sized_of_apart (apart_filterLines l hl)⟩,
      fun l hl => b.sized_of_apart (horg l hl)⟩, b.sized_of_apart (by decide)⟩

theorem marked_sizeLine (hn : name ∈ ["limit", "take"]) (n : Int) : Marked (sizeLine name n) := by
  rw [List.mem_cons, List.mem_singleton] at hn
  rcases hn with rfl | rfl
  · exact ⟨"  l", by decide, by simp [sizeLine]⟩
  · exact ⟨"  t", by decide, by simp [sizeLine]⟩

theorem eq_of_sizeLine {name' : String} {n' : Int} (hn : name ∈ ["limit", "take"])
    (hn' : name' ∈ ["limit", "take"]) (h : sizeLine name n = sizeLine name' n') : n = n' := by
  have hs : ∀ name, sizeLine name n = sizeLine name n' → n = n' := by
    intro name h
    unfold sizeLine at h
    have hb := (String.append_right_inj _).1 h
    exact intText_injective ((String.append_right_inj _).1 ((String.append_left_inj _).1 hb))
  have ht := congrArg (fun s : String => s.toList.take 3) h
  simp only [List.mem_cons, List.not_mem_nil, or_false] at hn hn'
  rcases hn with rfl | rfl <;> rcases hn' with rfl | rfl
  · exact hs _ h
  · simp [sizeLine] at ht
  · simp [sizeLine] at ht
  · exact hs _ h

/-- the schema writes its page size, as its only bound -/
theorem bounds_iff : b.Bounds n ↔ n = b.maxSize := by
  constructor
  · rintro ⟨name, hn, hl⟩
    obtain ⟨name', hn', he⟩ := sized_lines _ hl (marked_sizeLine hn n)
    exact eq_of_sizeLine hn hn' he
  · rintro rfl
    have hmem : ∀ l ∈ b.offsetLines ++ b.cursorLines, l ∈ b.stmts.flatMap Stmt.lines := by
      intro l hl
      rw [ListBlock.stmts, List.flatMap_append]
      refine List.mem_append_right _ (List.mem_flatMap.2 ?_)
      refine ⟨_, List.mem_cons_of_mem _ List.mem_cons_self, List.mem_cons_of_mem _ ?_⟩
      simp only [List.mem_append] at hl ⊢
      tauto
    by_cases hp : b.pagination = .cursor
    · refine ⟨"take", by decide, hmem _ (List.mem_append_right _ ?_)⟩
      rw [sizeLine_take, cursorLines, if_neg (by rw [hp]; decide)]
      simp
    · refine ⟨"limit", by decide, hmem _ (List.mem_append_left _ ?_)⟩
      rw [sizeLine_limit, offsetLines, if_neg hp]
      simp

end ListBlock

/-! ## the page size of a model -/

/-- the page size by directives, with that of the settings in the place of none and of zero -/
def pageSizeFor (c : Config) (ds : List Annotations.Rule) : Int :=
  match pageSizeOf ds with
  | some n => if n = 0 then c.crud.maxPageSize else n
  | none => c.crud.maxPageSize

theorem maxSize_contextOf (b : Base) (m : Model) :
    (contextOf b m).maxSize = pageSizeFor b.config (docRules m.documentation) := by
  have hr : (contextOf b m).rules.list.maxPageSize = pageSizeOf (docRules m.documentation) :=
    maxPageSize_rulesBy (docRules m.documentation) m.fields
  unfold Context.maxSize pageSizeFor
  rw [hr]
  rfl

theorem bounds_setOf {b : Base} {m : Model} {n : Int} :
    (setOf b m).value.list.Bounds n ↔ n = pageSizeFor b.config (docRules m.documentation) := by
  rw [← maxSize_contextOf]
  exact ListBlock.bounds_iff

/-- **Page sizes.**  The schema of a list writes one bound.  For accepted settings it is within
their range, if and only if the page size that the directives leave, if any, is zero or within the
range. -/
theorem page_size_in_range_iff {v : Value} (b : Base) (m : Model)
    (hc : Contract.configOf v = .ok b.config) :
    (∀ n, (setOf b m).value.list.Bounds n ↔
        n = pageSizeFor b.config (docRules m.documentation)) ∧
      ((∀ n, (setOf b m).value.list.Bounds n → 1 ≤ n ∧ n ≤ 10000) ↔
        ∀ n, pageSizeOf (docRules m.documentation) = some n → 0 ≤ n ∧ n ≤ 10000) := by
  have hsettings := Contract.pageSize_of_configOf hc
  refine ⟨fun n => bounds_setOf, ?_⟩
  simp only [bounds_setOf, forall_eq, pageSizeFor]
  cases pageSizeOf (docRules m.documentation) with
  | none => simp [hsettings]
  | some k =>
    by_cases hz : k = 0
    · simp [hz, hsettings]
    · simp only [if_neg hz, Option.some.injEq, forall_eq']
      omega

/-- settings with a page size of their own -/
def feedSettings : Value := .map [(.text "crud", .map [(.text "max_page_size", .int 25)])]

def feedConfig : Config := { crud := { maxPageSize := 25 } }

/-- a model that states its page size -/
def feed (directive : String) : Model :=
  { name := "Feed"
    documentation := some directive
    fields := [{ name := "id", type := "Int", isId := true }] }

def feedBase (directive : String) : Base :=
  { config := feedConfig
    datamodel := { models := [feed directive] }
    layered := false
    registry := none }

theorem configOf_feedSettings : Contract.configOf feedSettings = .ok feedConfig := by
  rfl

theorem page_size_feed :
    (setOf (feedBase "@crud.list.maxPageSize(50)")
        (feed "@crud.list.maxPageSize(50)")).value.list.Bounds 50 ∧
      ∀ n, (setOf (feedBase "@crud.list.maxPageSize(50)")
        (feed "@crud.list.maxPageSize(50)")).value.list.Bounds n → 1 ≤ n ∧ n ≤ 10000 := by
  have h := page_size_in_range_iff (feedBase "@crud.list.maxPageSize(50)")
    (feed "@crud.list.maxPageSize(50)") configOf_feedSettings
  have hs : pageSizeOf (docRules (feed "@crud.list.maxPageSize(50)").documentation) = some 50 := by
    decide +kernel
  refine ⟨(h.1 50).2 (by decide +kernel), h.2.2 ?_⟩
  rintro n hn
  cases hs.symm.trans hn
  decide

/-- A bound that no positive number keeps, and one beyond the range. -/
theorem page_size_out_of_range :
    Contract.configOf feedSettings = .ok feedConfig ∧
      (setOf (feedBase "@crud.list.maxPageSize(-5)")
        (feed "@crud.list.maxPageSize(-5)")).value.list.Bounds (-5) ∧
      (setOf (feedBase "@crud.list.maxPageSize(99_999)")
        (feed "@crud.list.maxPageSize(99_999)")).value.list.Bounds 99999 := by
  refine ⟨configOf_feedSettings, bounds_setOf.2 ?_, bounds_setOf.2 ?_⟩
  all_goals decide +kernel

end ZodSchema.Crud
