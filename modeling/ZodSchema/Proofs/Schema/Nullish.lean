import ZodSchema.Proofs.Zod.Validators

/-!
# Missing values in object entries

An entry says that its value may be missing by the member `.nullish()`.  The member comes from the
annotation of the field or is added behind everything else, for a nullable field whose annotation
has none.

* `Expr.chain`, `Expr.outer`   the members of an expression, and those on the whole value
* `nullities`                  how often the annotation says that the value may be missing
* `count_chain`, `count_outer`  how often the entry says so
* `emit_nullish_iff`           when a nullable field has the member exactly once
-/

namespace ZodSchema.Zod

namespace Expr

/-- the members on the opening; those on the items, when the expression is a list -/
def inner (e : Expr) : List String := e.members ++ if e.brand = "" then [] else [e.brand]

/-- the members behind, on the whole value -/
def wrappers (e : Expr) : List String :=
  (if e.list then [".array()"] else []) ++ if e.nullish then [Zod.nullish] else []

/-- all members in order, the description aside -/
def chain (e : Expr) : List String := e.inner ++ e.wrappers

/-- the members that are called on the whole value -/
def outer (e : Expr) : List String := if e.list then e.wrappers else e.chain

theorem body_eq (e : Expr) : e.body = e.opening ++ String.join e.chain := by
  have hb : String.join (if e.brand = "" then [] else [e.brand]) = e.brand := by
    split <;> simp [*]
  have hw : String.join e.wrappers =
      (if e.list then ".array()" else "") ++ (if e.nullish then Zod.nullish else "") := by
    unfold wrappers
    cases e.list <;> cases e.nullish <;> simp
  unfold body core chain inner
  rw [String.join_append, String.join_append, hb, hw]
  simp only [String.append_assoc]

end Expr

theorem isTopLevel_of_isNullity {v : String} (h : isNullity v = true) :
    Annotations.isTopLevel v = false := by
  unfold isNullity at h
  rw [Bool.or_eq_true, beq_iff_eq, beq_iff_eq] at h
  rcases h with rfl | rfl <;> decide +kernel

/-- the members that an annotation adds say so as often as it does itself -/
theorem count_chainable (vs : List String) :
    (chainable vs).count nullish = vs.countP isNullity := by
  have hp : ∀ v : String, (asNullish v == nullish) = isNullity v := fun v => by
    rw [Bool.eq_iff_iff, beq_iff_eq, asNullish_eq_nullish]
  have ht : ∀ v : String, (isNullity v && !Annotations.isTopLevel v) = isNullity v := by
    intro v
    cases h : isNullity v with
    | false => rfl
    | true => rw [isTopLevel_of_isNullity h, Bool.not_false, Bool.and_true]
  unfold chainable List.count
  rw [List.countP_map, List.countP_filter]
  exact List.countP_congr fun v _ => by simp [hp, ht]

end ZodSchema.Zod

namespace ZodSchema.Schema

open Zod

variable {c : Config} {d : Datamodel} {f : Field} {a : Option Annotations}

/-- the entry takes over what its annotation says -/
def Chained (f : Field) (a : Option Annotations) : Prop :=
  f.kind.value = .scalar ∧ a.bind (·.typeOverride) = none

instance : Decidable (Chained f a) := inferInstanceAs (Decidable (_ ∧ _))

/-- how often an entry takes over from its annotation that the value may be missing -/
def nullities (f : Field) : Nat :=
  let a := Annotations.of? f.documentation
  if Chained f a then ((a.map (·.validators)).getD []).countP isNullity else 0

/-- enumerations and external types are checked without any member -/
theorem draft_of_not_chained (h : ¬Chained f a) :
    (draft c d f a).2 = false ∧ (draft c d f a).1.expr.members = [] ∧
      (draft c d f a).1.expr.brand = "" := by
  unfold draft
  split
  · unfold overrideDraft
    split <;> exact ⟨rfl, rfl, rfl⟩
  · next ho =>
    split
    · unfold enumDraft
      split <;> exact ⟨rfl, rfl, rfl⟩
    · next hk => exact absurd ⟨hk, ho⟩ h
    · exact ⟨rfl, rfl, rfl⟩

theorem brand_scalarExpr (c : Config) (d : Datamodel) (f : Field) (a : Option Annotations) :
    (scalarExpr c d f a).brand = (a.map (·.brandMarker)).getD "" := by
  unfold scalarExpr
  dsimp only
  split <;> rfl

theorem brandMarker_ne_nullish (a : Annotations) : a.brandMarker ≠ nullish := by
  unfold Annotations.brandMarker
  split
  · split
    · decide
    · intro h
      have ht := congrArg (fun s : String => s.toList.take 2) h
      simp [nullish] at ht
  · decide

theorem count_inner_scalarExpr (c : Config) (d : Datamodel) (f : Field) (a : Option Annotations) :
    (scalarExpr c d f a).inner.count nullish =
      ((a.map (·.validators)).getD []).countP isNullity := by
  obtain ⟨inferred, hm, hi⟩ := inferred_append_chainable c d f a
  have hz : inferred.count nullish = 0 := List.count_eq_zero.2 fun h =>
    not_infix_of_mem_defaultValidators (hi _ h) (List.infix_refl _)
  have hb : (a.map (·.brandMarker)).getD "" ≠ nullish := by
    cases a with
    | none => decide
    | some a => exact brandMarker_ne_nullish a
  unfold Expr.inner
  rw [hm, List.count_append, List.count_append, hz, count_chainable, brand_scalarExpr]
  split
  · simp
  · simp [hb]

/-- only members of the annotation say that the items of a list, or what the opening checks, may
be missing -/
theorem count_inner (c : Config) (d : Datamodel) (f : Field) :
    (emit c d f).expr.inner.count nullish = nullities f := by
  show (draft c d f (Annotations.of? f.documentation)).1.expr.inner.count nullish = _
  unfold nullities
  by_cases h : Chained f (Annotations.of? f.documentation)
  · rw [draft_of_scalar c d _ h.1 h.2, count_inner_scalarExpr]
    exact (if_pos h).symm
  · obtain ⟨_, hm, hb⟩ := draft_of_not_chained (c := c) (d := d) h
    unfold Expr.inner
    rw [hm, hb]
    exact (if_neg h).symm

theorem any_declaresNullability (a : Option Annotations) :
    a.any (·.declaresNullability) = !((a.map (·.validators)).getD []).countP isNullity == 0 := by
  cases a with
  | none => rfl
  | some a =>
    show a.validators.any isNullity = !a.validators.countP isNullity == 0
    rw [Bool.eq_iff_iff, List.any_eq_true, Bool.not_eq_true', beq_eq_false_iff_ne,
      ← Nat.pos_iff_ne_zero, List.countP_pos_iff]

/-- the wrapper is added to a nullable field whose annotation does not say so -/
theorem nullish_emit (c : Config) (d : Datamodel) (f : Field) :
    (emit c d f).expr.nullish = (f.isNullable && nullities f == 0) := by
  let a := Annotations.of? f.documentation
  have he : (emit c d f).expr.nullish =
      (f.isNullable && !((draft c d f a).2 && a.any (·.declaresNullability))) := rfl
  rw [he, any_declaresNullability]
  unfold nullities
  by_cases h : Chained f a
  · rw [draft_of_scalar c d _ h.1 h.2, if_pos h, Bool.true_and, Bool.not_not]
  · rw [(draft_of_not_chained h).1, if_neg h]
    rfl

theorem count_wrappers (c : Config) (d : Datamodel) (f : Field) :
    (emit c d f).expr.wrappers.count nullish =
      if f.isNullable = true ∧ nullities f = 0 then 1 else 0 := by
  have hl : ".array()" ≠ nullish := by decide
  unfold Expr.wrappers
  rw [nullish_emit, List.count_append]
  cases (emit c d f).expr.list <;> simp [hl, apply_ite]

theorem count_chain (c : Config) (d : Datamodel) (f : Field) :
    (emit c d f).expr.chain.count nullish =
      nullities f + if f.isNullable = true ∧ nullities f = 0 then 1 else 0 := by
  unfold Expr.chain
  rw [List.count_append, count_inner, count_wrappers]

theorem count_outer (c : Config) (d : Datamodel) (f : Field) :
    (emit c d f).expr.outer.count nullish =
      (if f.isList = true then 0 else nullities f) +
        if f.isNullable = true ∧ nullities f = 0 then 1 else 0 := by
  have hl : (emit c d f).expr.list = f.isList := rfl
  unfold Expr.outer
  rw [hl]
  cases f.isList with
  | true => rw [if_pos rfl, if_pos rfl, count_wrappers, Nat.zero_add]
  | false => rw [if_neg (by decide), if_neg (by decide), count_chain]

/-- **Missing values.**  Of the members of an entry, those of a nullable field say exactly once that
the whole value may be missing, unless its annotation says so more than once, or says so for a
list: then it is the items that may be missing.  A required field says so only if its annotation
does. -/
theorem emit_nullish_iff (c : Config) (d : Datamodel) (f : Field) :
    let e := (emit c d f).expr
    let a := Annotations.of? f.documentation
    e.body = e.opening ++ String.join e.chain ∧
      (f.isNullable = true →
        (e.chain.count nullish = 1 ∧ e.outer.count nullish = 1 ↔
          nullities f ≤ 1 ∧ ¬(f.isList = true ∧ 0 < nullities f))) ∧
      (f.isNullable = false → a.any (·.declaresNullability) = false →
        e.chain.count nullish = 0) := by
  intro e a
  refine ⟨e.body_eq, fun hn => ?_, fun hn ha => ?_⟩
  -- with a member of the annotation the wrapper is missing: a second one is too many, and on the
  -- items of a list none is left for the whole value
  · rw [count_chain, count_outer, hn]
    cases f.isList <;> grind
  · have hz : nullities f = 0 := by
      rw [any_declaresNullability, Bool.not_eq_false', beq_iff_eq] at ha
      show (if Chained f a then _ else 0) = 0
      split
      · exact ha
      · rfl
    rw [count_chain, hz, hn]
    rfl

/-- a list that may be missing, whose annotation speaks of missing values -/
def tagsField : Field :=
  { name := "tags", type := "String", isList := true, isRequired := false
    documentation := some "@zod.nullable()" }

/-- a value that may be missing, whose annotation says so twice -/
def nickField : Field :=
  { name := "nick", type := "String", isRequired := false
    documentation := some "@zod.nullable().nullish()" }

/-- The items of the list may be missing and the list may not; the other entry has the member
twice. -/
theorem nullish_misplaced :
    tagsField.isNullable = true ∧ nickField.isNullable = true ∧
      (emit {} { models := [] } tagsField).expr.body = "z.string().nullish().array()" ∧
      (emit {} { models := [] } tagsField).expr.outer.count nullish = 0 ∧
      (emit {} { models := [] } nickField).expr.body = "z.string().nullish().nullish()" ∧
      (emit {} { models := [] } nickField).expr.chain.count nullish = 2 := by
  decide +kernel

end ZodSchema.Schema
