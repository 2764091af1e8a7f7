import ZodSchema.Proofs.Layer.File
import ZodSchema.Proofs.Schema.Nullish

/-!
# Missing values in layers

A layer that changes an entry takes the entry's outermost `.nullish()` off and puts one around what
it makes of it.  An entry tells by a flag whether there is one to take off.  The flag looks at the
last member of the annotation, and the annotation may speak of missing values further inside.

* `outerNullish_emit`     when the flag is set
* `getLast?_outer`        what the flag promises
* `endsWith_change`       when the changed entry may be missing
* `unwrap_safe`           nothing but a `.nullish()` is taken off
* `change_nullish_iff`    when the changed entry may be missing just as the entry may
-/

namespace ZodSchema

namespace Zod

/-- the last member of a chain is kept when it says that the value may be missing -/
theorem getLast?_chainable {vs : List String} (h : vs.getLast?.map asNullish = some nullish) :
    (chainable vs).getLast? = some nullish := by
  obtain ⟨v, hv, hn⟩ := Option.map_eq_some_iff.1 h
  obtain ⟨ws, rfl⟩ := List.getLast?_eq_some_iff.1 hv
  have ht := isTopLevel_of_isNullity (asNullish_eq_nullish.1 hn)
  unfold chainable
  rw [List.filter_append, List.filter_cons_of_pos (by simp [ht]), List.filter_nil,
    List.map_append, List.map_singleton, hn, List.getLast?_concat]

namespace Expr

variable {e : Expr}

/-- without brand and description -/
def bare (e : Expr) : Expr := { e with brand := "", description := none }

theorem getLast?_outer_of_nullish (h : e.nullish = true) :
    e.bare.outer.getLast? = some Zod.nullish := by
  have hw : e.bare.wrappers.getLast? = some Zod.nullish := by
    show (_ ++ if e.nullish then [Zod.nullish] else []).getLast? = _
    rw [h, if_pos rfl, List.getLast?_concat]
  unfold outer
  split
  · exact hw
  · rw [chain, List.getLast?_append, hw]
    rfl

/-- what is neither list nor wrapped ends in its last member -/
theorem getLast?_outer_of_members (hl : e.list = false) (hn : e.nullish = false) :
    e.bare.outer.getLast? = e.members.getLast? := by
  have hw : e.bare.wrappers = [] := by
    show ((if e.list then [".array()"] else []) ++ if e.nullish then [Zod.nullish] else []) = _
    rw [hl, hn]
    rfl
  have ho : e.bare.outer = e.bare.chain := if_neg (by simp [bare, hl])
  rw [ho, chain, hw, List.append_nil]
  exact congrArg List.getLast? (List.append_nil e.members)

theorem wrappers_of_getLast? (hl : e.list = true) (h : e.wrappers.getLast? = some Zod.nullish) :
    e.wrappers = [".array()", Zod.nullish] := by
  unfold wrappers at h ⊢
  rw [hl] at h ⊢
  cases hn : e.nullish with
  | true => rfl
  | false =>
    rw [hn] at h
    exact absurd h (by decide)

/-- the text ends in the last member; in a list, the list is inside -/
theorem render_of_getLast?_outer (hd : e.description = none)
    (h : e.outer.getLast? = some Zod.nullish) :
    ∃ s, e.render = s ++ Zod.nullish ∧
      (e.list = true → Text.Str.endsWith s ".array()" = true) := by
  have hr : e.render = e.opening ++ String.join e.chain := by
    unfold render describe
    rw [hd, e.body_eq]
    exact String.append_empty
  unfold outer at h
  cases hl : e.list with
  | false =>
    rw [hl, if_neg (by decide)] at h
    obtain ⟨ms, hm⟩ := List.getLast?_eq_some_iff.1 h
    refine ⟨e.opening ++ String.join ms, ?_, fun h => Bool.noConfusion h⟩
    rw [hr, hm, String.join_append, String.append_assoc]
    rfl
  | true =>
    rw [hl, if_pos rfl] at h
    refine ⟨e.opening ++ String.join e.inner ++ ".array()", ?_,
      fun _ => Text.Str.endsWith_append_self ..⟩
    rw [hr, chain, wrappers_of_getLast? hl h, String.join_append]
    simp only [String.append_assoc]
    rfl

end Expr

end Zod

namespace Schema

open Zod

variable {c : Config} {d : Datamodel} {f : Field}

/-! ## the flag -/

theorem draft_snd (c : Config) (d : Datamodel) (f : Field) (a : Option Annotations) :
    (draft c d f a).2 = decide (Chained f a) := by
  by_cases h : Chained f a
  · rw [draft_of_scalar c d a h.1 h.2, decide_eq_true h]
  · rw [(draft_of_not_chained h).1, decide_eq_false h]

/-- the flag is set for an entry that is wrapped, and for one that takes over an annotation whose
last member says that the value may be missing -/
theorem outerNullish_emit (c : Config) (d : Datamodel) (f : Field) :
    (emit c d f).outerNullish = ((f.isNullable && nullities f == 0) ||
      (decide (Chained f (Annotations.of? f.documentation)) &&
        chainEndsNullish f (Annotations.of? f.documentation))) := by
  rw [← nullish_emit c d f, ← draft_snd c d]
  rfl

/-- an annotation whose last member says so is that of a field that is no list -/
theorem of_chainEndsNullish {a : Option Annotations} (h : chainEndsNullish f a = true) :
    f.isList = false ∧ ((a.map (·.validators)).getD []).getLast?.map asNullish = some nullish := by
  cases a with
  | none => cases h
  | some a =>
    unfold chainEndsNullish at h
    simp only [Bool.and_eq_true, Bool.not_eq_true', beq_iff_eq] at h
    exact ⟨h.1.2, h.2⟩

theorem nullities_pos_of_chainEndsNullish
    (hc : Chained f (Annotations.of? f.documentation))
    (h : chainEndsNullish f (Annotations.of? f.documentation) = true) : 0 < nullities f := by
  obtain ⟨v, hv, hn⟩ := Option.map_eq_some_iff.1 (of_chainEndsNullish h).2
  unfold nullities
  rw [if_pos hc]
  exact List.countP_pos_iff.2 ⟨v, List.mem_of_getLast? hv, asNullish_eq_nullish.1 hn⟩

/-- **The flag is right**: brand and description aside, the last member that is called on the whole
value is `.nullish()`. -/
theorem getLast?_outer (h : (emit c d f).outerNullish = true) :
    (emit c d f).expr.bare.outer.getLast? = some nullish := by
  let a := Annotations.of? f.documentation
  cases hn : (emit c d f).expr.nullish with
  | true => exact Expr.getLast?_outer_of_nullish hn
  | false =>
    rw [outerNullish_emit, ← nullish_emit c d f, hn, Bool.false_or, Bool.and_eq_true,
      decide_eq_true_iff] at h
    obtain ⟨hc, he⟩ := h
    obtain ⟨hl, hv⟩ := of_chainEndsNullish he
    obtain ⟨inferred, hm, _⟩ := inferred_append_chainable c d f a
    rw [Expr.getLast?_outer_of_members hl hn]
    show (draft c d f a).1.expr.members.getLast? = _
    rw [draft_of_scalar c d a hc.1 hc.2, hm, List.getLast?_append, getLast?_chainable hv]
    rfl

end Schema

namespace Layer

open Schema Zod

variable {c : Config} {d : Datamodel} {r : Option Brand.Registry} {m : Model} {l : LayerSchema}
  {k : Kind} {f : Field} {e : Entry} {p : Field × Entry} {o : Override}

/-! ## the wrapper of a changed entry -/

theorem eq_emit_of_mem (hp : p ∈ entries c d m) : p.2 = emit c d p.1 := by
  obtain ⟨f, _, rfl⟩ := List.mem_map.1 hp
  rfl

/-- the name of the brand that stands in place of the entry ends like a member -/
def Override.brandEndsNullish (o : Override) : Bool :=
  o.brand.any fun b => Text.Str.endsWith ("brands." ++ b) nullish

theorem endsWith_rewrap (expr : String) (f : Field) (e : Entry) :
    Text.Str.endsWith (rewrap expr f e) nullish =
      (e.outerNullish || f.isNullable || Text.Str.endsWith expr nullish) := by
  unfold rewrap
  cases e.outerNullish || f.isNullable with
  | true => exact Text.Str.endsWith_append_self ..
  | false => rfl

theorem endsWith_runtimeTransform {t : String} (h : runtimeTransform? f.type = some t) (s : String) :
    Text.Str.endsWith (s ++ ".pipe(" ++ t ++ ")") nullish = false := by
  unfold runtimeTransform? at h
  split at h
  · obtain rfl := Option.some.inj h
    rw [String.append_assoc, String.append_assoc, Text.Str.endsWith_append s (by decide)]
    decide
  · cases h

theorem endsWith_externalTransform {t : String} (h : externalTransform? f.type = some t) :
    Text.Str.endsWith t nullish = false := by
  unfold externalTransform? at h
  split at h
  · rw [← Option.some.inj h]
    decide +kernel
  · split at h
    · rw [← Option.some.inj h]
      decide +kernel
    · cases h

/-- a changed entry may be missing when the field is nullable or the flag is set -/
theorem endsWith_change (ho : change? k m r (f, e) = some o) (hl : f.isList = false) :
    Text.Str.endsWith o.expr nullish =
      (e.outerNullish || f.isNullable || o.brandEndsNullish) := by
  have hw (s : String) : listWrap f s = s := by
    rw [listWrap, hl]
    rfl
  cases k with
  | database => cases ho
  | runtime =>
    unfold change? runtimeOverride? at ho
    dsimp only at ho
    split at ho
    · obtain rfl := Option.some.inj ho
      rw [endsWith_rewrap, hw]
      rfl
    · obtain ⟨t, ht, rfl⟩ := Option.map_eq_some_iff.1 ho
      rw [endsWith_rewrap, hw, endsWith_runtimeTransform ht]
      rfl
  | external =>
    obtain ⟨t, ht, rfl⟩ := Option.map_eq_some_iff.1 ho
    rw [endsWith_rewrap, hw, endsWith_externalTransform ht]
    rfl

/-! ## what is taken off -/

/-- a transformed entry is read from the member of its key -/
theorem expr_runtimeOverride (ho : runtimeOverride? m f e r = some o) (hb : o.brand = none) :
    ∃ rest, o.expr = shapeSource m.name e ++ (".pipe(" ++ rest) := by
  unfold runtimeOverride? at ho
  split at ho
  · rw [← Option.some.inj ho] at hb
    cases hb
  · obtain ⟨t, _, rfl⟩ := Option.map_eq_some_iff.1 ho
    unfold rewrap
    dsimp only
    split
    · exact ⟨listWrap f t ++ ")" ++ nullish, by simp only [String.append_assoc]; rfl⟩
    · exact ⟨listWrap f t ++ ")", by simp only [String.append_assoc]⟩

/-- the flag decides whether a wrapper is taken off that member -/
theorem startsWith_runtimeOverride (ho : runtimeOverride? m f e r = some o) (hb : o.brand = none) :
    Text.Str.startsWith o.expr
        (Text.member (Schema.schemaName m.name ++ ".shape") e.key ++ ".unwrap().unwrap()") =
      e.outerNullish := by
  obtain ⟨rest, hr⟩ := expr_runtimeOverride ho hb
  rw [hr, shapeSource]
  cases e.outerNullish with
  | true =>
    rw [if_pos rfl, Text.Str.startsWith_iff]
    exact ⟨_, String.toList_append⟩
  | false =>
    rw [if_neg (by decide), Text.Str.startsWith_append]
    simp [Text.Str.startsWith, Text.dropStart?]

/-- **Taking off is safe.**  A runtime layer takes a wrapper off the member of an entry exactly when
the entry's flag is set.  Then, brand and description aside, the entry ends in `.nullish()`, around
the list when it is one. -/
theorem unwrap_safe (c : Config) (d : Datamodel) (r : Option Brand.Registry) (m : Model) :
    (∀ l ∈ layersOf c d r m,
      l.overrides = (entries c d m).filterMap (change? l.kind (d.firstOfName m) r)) ∧
    ∀ p ∈ entries c d m,
      (∀ o, change? .runtime (d.firstOfName m) r p = some o → o.brand = none →
        (Text.Str.startsWith o.expr
            (Text.member (Schema.schemaName m.name ++ ".shape") p.2.key ++ ".unwrap().unwrap()") =
              true ↔
          p.2.outerNullish = true)) ∧
      (p.2.outerNullish = true →
        p.2.expr.bare.outer.getLast? = some nullish ∧
          ∃ s, p.2.expr.bare.render = s ++ nullish ∧
            (p.1.isList = true → Text.Str.endsWith s ".array()" = true)) := by
  refine ⟨fun l hl => overrides_eq hl, fun p hp => ⟨fun o ho hb => ?_, fun hn => ?_⟩⟩
  · rw [← startsWith_runtimeOverride ho hb, d.name_firstOfName]
  · rw [eq_emit_of_mem hp] at hn ⊢
    have hg := getLast?_outer hn
    exact ⟨hg, Expr.render_of_getLast?_outer rfl hg⟩

def partsField : Field :=
  { name := "parts", type := "BigInt", isList := true, isRequired := false
    documentation := some "@zod.brand(\"Part\").describe(\"Parts\")" }

def limitField : Field := { name := "limit", type := "BigInt", isRequired := false }

/-- an account: a list and a value that may be missing, and two values whose annotations say so
before they go on, with a check that is left out and with one that is kept -/
def account : Model :=
  { name := "Account"
    fields := [
      partsField, limitField,
      { name := "total", type := "BigInt", documentation := some "@zod.nullable().email()" },
      { name := "rate", type := "Decimal"
        documentation := some "@zod.nullable().refine((v) => v !== \"0\")" }] }

def accounts : Datamodel := { models := [account] }

theorem unwrap_safe_parts :
    let e := emit {} accounts partsField
    e.outerNullish = true ∧
      e.expr.render = "z.string().brand(\"Part\").array().nullish().describe(\"Parts\")" ∧
      ∃ s, e.expr.bare.render = s ++ nullish ∧ Text.Str.endsWith s ".array()" = true := by
  have hp : (partsField, emit {} accounts partsField) ∈ entries {} accounts account :=
    List.mem_map_of_mem List.mem_cons_self
  have hn : (emit {} accounts partsField).outerNullish = true := by decide +kernel
  obtain ⟨_, s, hs, hl⟩ := ((unwrap_safe {} accounts none account).2 _ hp).2 hn
  exact ⟨hn, by decide +kernel, s, hs, hl rfl⟩

/-! ## the wrapper and the entry's own -/

theorem mem_chain_iff (c : Config) (d : Datamodel) (f : Field) :
    nullish ∈ (emit c d f).expr.chain ↔ f.isNullable = true ∨ 0 < nullities f := by
  rw [← List.count_pos_iff, count_chain]
  split <;> grind

/-- **Missing values in changed entries.**  For a scalar field that is no list and has no external
type, a changed entry ends in `.nullish()` just when the entry has that member, if and only if the
field is nullable, or the last member of its annotation says that the value may be missing, or none
does.  A brand whose name ends like the member counts as one that has it. -/
theorem change_nullish_iff (hl : l ∈ layersOf c d r m) (hp : p ∈ entries c d m)
    (ho : change? l.kind (d.firstOfName m) r p = some o)
    (hc : Chained p.1 (Annotations.of? p.1.documentation)) (hs : p.1.isList = false) :
    o ∈ l.overrides ∧
      ((Text.Str.endsWith o.expr nullish = true ↔ nullish ∈ p.2.expr.chain) ↔
        p.1.isNullable = true ∨
          chainEndsNullish p.1 (Annotations.of? p.1.documentation) = true ∨
          (o.brandEndsNullish = true ↔ 0 < nullities p.1)) := by
  have he := eq_emit_of_mem hp
  refine ⟨overrides_eq hl ▸ List.mem_filterMap.2 ⟨p, hp, ho⟩, ?_⟩
  have hn := nullities_pos_of_chainEndsNullish hc
  rw [endsWith_change (f := p.1) (e := p.2) ho hs, he, mem_chain_iff, outerNullish_emit,
    decide_eq_true hc, Bool.true_and]
  simp only [Bool.or_eq_true, Bool.and_eq_true, beq_iff_eq]
  -- the last member is one of the annotation's: the two differ where only members inside say so
  tauto

theorem change_nullish_limit :
    ∃ l ∈ layersOf {} accounts none account, ∃ p ∈ entries {} accounts account,
      ∃ o ∈ l.overrides,
        o.expr = "AccountSchema.shape.limit.unwrap().unwrap().pipe(z.coerce.bigint()).nullish()" ∧
          (Text.Str.endsWith o.expr nullish = true ↔ nullish ∈ p.2.expr.chain) := by
  let p := (limitField, emit {} accounts limitField)
  have hp : p ∈ entries {} accounts account :=
    List.mem_map_of_mem (List.mem_cons_of_mem _ List.mem_cons_self)
  have hl : ⟨"Account", .runtime, (entries {} accounts account).filterMap
      (change? .runtime (accounts.firstOfName account) none)⟩ ∈ layersOf {} accounts none account :=
    List.mem_cons_of_mem _ List.mem_cons_self
  have hc : Chained p.1 (Annotations.of? p.1.documentation) := by decide
  obtain ⟨ho, hi⟩ := change_nullish_iff hl hp rfl hc rfl
  exact ⟨_, hl, p, hp, _, ho, by decide +kernel, hi.2 (Or.inl rfl)⟩

/-- Two entries of the account may be missing by a member further inside, and the changed entries
may not. -/
theorem inner_nullish_lost :
    let es := entries {} accounts account
    let ls := layersOf {} accounts none account
    (∀ p ∈ es, p.2.key ∈ ["total", "rate"] →
        Chained p.1 (Annotations.of? p.1.documentation) ∧ p.1.isList = false ∧
          nullish ∈ p.2.expr.chain) ∧
      (∃ l ∈ ls, l.kind = .runtime ∧ ∃ o ∈ l.overrides, o.key = "total" ∧
        o.expr = "AccountSchema.shape.total.pipe(z.coerce.bigint())" ∧
          Text.Str.endsWith o.expr nullish = false) ∧
      ∃ l ∈ ls, l.kind = .external ∧ ∃ o ∈ l.overrides, o.key = "rate" ∧
        o.expr = "z.union([z.string(), z.number()]).transform((val) => String(val))" ∧
          Text.Str.endsWith o.expr nullish = false := by
  decide +kernel

end Layer

end ZodSchema
