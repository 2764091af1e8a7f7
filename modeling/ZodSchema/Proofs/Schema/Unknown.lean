import ZodSchema.Proofs.Schema.Entry
import ZodSchema.Proofs.Schema.Nullish

/-!
# Entries that check nothing

A field whose type is neither a scalar type nor an enumeration of the data model is emitted as
`z.unknown()`, unless its documentation says what it is emitted as.

* `Unresolved`        the type of a field is not known
* `Overruled`         the documentation of a field says what stands for its type
* `opens_unknown_iff` when the entry of a field of unknown type opens with `z.unknown()`
* `warnings_emit`     what is warned of, and for which fields
-/

namespace ZodSchema.Schema

open Zod

variable {c : Config} {d : Datamodel} {f : Field} {w : String}

/-! ## types that are not known -/

def isUnknownEnum (d : Datamodel) (f : Field) : Bool :=
  f.kind.value == .enumeration && (d.enum? f.type).isNone

def isUnknownScalar (f : Field) : Bool :=
  f.kind.value == .scalar && !scalarTypes.contains f.type

/-- the type is neither a scalar type nor an enumeration of the data model -/
def Unresolved (d : Datamodel) (f : Field) : Prop :=
  isUnknownEnum d f = true ∨ isUnknownScalar f = true

/-- An external type with a schema to import stands for the field; where no external type is named,
the first validator of a scalar stands for it when it names a primitive. -/
def Overruled (f : Field) : Prop :=
  let a := Annotations.of? f.documentation
  (a.bind (·.typeOverride)).any (fun o => !(overrideRefs o).isEmpty) = true ∨
    (Chained f a ∧ (a.bind topLevelBase?).isSome = true)

instance : Decidable (Overruled f) := inferInstanceAs (Decidable (_ ∨ _))

theorem overruled_of_override {o : String}
    (h : (Annotations.of? f.documentation).bind (·.typeOverride) = some o) :
    Overruled f ↔ overrideRefs o ≠ [] := by
  unfold Overruled Chained
  dsimp only
  rw [h]
  simp

theorem overruled_of_none
    (h : (Annotations.of? f.documentation).bind (·.typeOverride) = none) :
    Overruled f ↔ f.kind.value = .scalar ∧
      ((Annotations.of? f.documentation).bind topLevelBase?).isSome = true := by
  unfold Overruled Chained
  dsimp only
  rw [h]
  simp

theorem isUnknownEnum_iff :
    isUnknownEnum d f = true ↔ f.kind.value = .enumeration ∧ d.enum? f.type = none := by
  rw [isUnknownEnum, Bool.and_eq_true, beq_iff_eq, Option.isNone_iff_eq_none]

theorem isUnknownScalar_iff :
    isUnknownScalar f = true ↔ f.kind.value = .scalar ∧ f.type ∉ scalarTypes := by
  rw [isUnknownScalar, Bool.and_eq_true, beq_iff_eq, Bool.not_eq_true', ← Bool.not_eq_true,
    List.contains_iff_mem]

theorem isEmitted_of_isUnknownScalar (h : isUnknownScalar f = true) : f.isEmitted = true := by
  rw [Field.isEmitted, (isUnknownScalar_iff.1 h).1]
  rfl

theorem Unresolved.isEmitted (h : Unresolved d f) : f.isEmitted = true := by
  rcases h with h | h
  · rw [Field.isEmitted, (isUnknownEnum_iff.1 h).1]
    rfl
  · exact isEmitted_of_isUnknownScalar h

theorem baseExpression_of_not_mem (p : Provider) {type : String} (h : type ∉ scalarTypes) :
    baseExpression p type = "z.unknown()" := by
  have hp : primitive p type = "unknown" := by
    unfold primitive
    split <;> first | rfl | exact absurd (by decide) h
  unfold baseExpression
  split
  · exact absurd (by decide) h
  · exact absurd (by decide) h
  · exact absurd (by decide) h
  · exact absurd (by decide) h
  · rw [hp]
    decide

/-! ## how an entry opens -/

theorem render_eq (e : Expr) :
    e.render = e.opening ++ (String.join e.chain ++ e.describe) := by
  rw [Expr.render, Expr.body_eq, String.append_assoc]

theorem opens_of_opening {e : Expr} (h : e.opening = "z.unknown()") :
    Text.Str.startsWith e.render "z.unknown()" = true := by
  rw [render_eq, h]
  exact Text.Str.startsWith_iff.2 ⟨_, String.toList_append⟩

/-- the first four characters of an opening are those of the entry -/
theorem take_of_opens {e : Expr} (hl : 4 ≤ e.opening.toList.length)
    (h : Text.Str.startsWith e.render "z.unknown()" = true) :
    e.opening.toList.take 4 = ['z', '.', 'u', 'n'] := by
  obtain ⟨r, hr⟩ := Text.Str.startsWith_iff.1 h
  have ht := congrArg (List.take 4) hr
  rw [render_eq, String.toList_append, List.take_append_of_le_length hl] at ht
  rw [ht]
  rfl

theorem not_opens_overrideExpr {e : Expr} {schemas : List String}
    (he : e.opening = (overrideExpr schemas).opening) :
    ¬Text.Str.startsWith e.render "z.unknown()" = true := by
  intro h
  obtain ⟨rest, hr⟩ := opening_overrideExpr schemas
  rw [hr] at he
  have ht := take_of_opens (by simp [he]) h
  simp [he] at ht

theorem not_opens_topLevelBase {e : Expr} {a : Annotations} (he : topLevelBase? a = some e.opening) :
    ¬Text.Str.startsWith e.render "z.unknown()" = true := by
  intro h
  -- of the names that begin with a `u` none goes on with an `n`
  have hnames : ∀ n ∈ Annotations.topLevelNames,
      2 ≤ n.toList.length ∧ 'z' :: '.' :: n.toList.take 2 ≠ ['z', '.', 'u', 'n'] := by
    decide
  obtain ⟨n, hn, ht⟩ := take_of_topLevelBase? he
  obtain ⟨hl, hne⟩ := hnames n hn
  have hlen : 4 ≤ e.opening.toList.length := by
    have := congrArg List.length ht
    simp only [List.length_take, List.length_cons] at this
    omega
  exact hne (ht.symm.trans (take_of_opens hlen h))

/-- **Fields of unknown type.**  The entry opens with `z.unknown()`, unless the documentation says
what stands for the type. -/
theorem opens_unknown_iff (c : Config) (h : Unresolved d f) :
    Text.Str.startsWith (emit c d f).expr.render "z.unknown()" = true ↔ ¬Overruled f := by
  have ho := opening_emit c d f
  unfold draft at ho
  split at ho
  · next o hov =>
    rw [overruled_of_override hov]
    unfold overrideDraft at ho
    split at ho
    · next hr => exact iff_of_true (opens_of_opening ho) fun hn => hn hr
    · next hr => exact iff_of_false (not_opens_overrideExpr ho) fun hn => hn hr
  · next hov =>
    rw [overruled_of_none hov]
    rcases h with h | h
    · obtain ⟨hk, he⟩ := isUnknownEnum_iff.1 h
      rw [hk, enumDraft, he] at ho
      refine iff_of_true (opens_of_opening ho) fun hs => ?_
      rw [hk] at hs
      cases hs.1
    · obtain ⟨hk, ht⟩ := isUnknownScalar_iff.1 h
      rw [hk, scalarExpr] at ho
      rw [and_iff_right hk]
      cases hb : (Annotations.of? f.documentation).bind topLevelBase? with
      | none =>
        rw [hb] at ho
        refine iff_of_true (opens_of_opening ?_) (by decide)
        rw [ho]
        exact baseExpression_of_not_mem _ ht
      | some base =>
        rw [hb] at ho
        obtain ⟨a, -, ha⟩ := Option.bind_eq_some_iff.1 hb
        refine iff_of_false (not_opens_topLevelBase (a := a) ?_) fun hn => hn rfl
        rw [ho, ha]

/-! ## warnings -/

/-- what the emission of a field of an unknown enumeration has to say -/
def unknownEnumText (field type : String) : String :=
  "Field '" ++ field ++ "' references unknown enum '" ++ type ++ "'; emitting z.unknown()."

/-- only external types and unknown enumerations are warned of -/
theorem warnings_emit (h : w ∈ (emit c d f).warnings) :
    (∃ rest, w = "External type override '" ++ rest) ∨
      (isUnknownEnum d f = true ∧ w = unknownEnumText f.name f.type) := by
  replace h : w ∈ (draft c d f (Annotations.of? f.documentation)).1.warnings := h
  unfold draft at h
  split at h
  · unfold overrideDraft at h
    split at h
    · rw [List.mem_singleton.1 h, String.append_assoc]
      exact Or.inl ⟨_, rfl⟩
    · cases h
  · split at h
    · next hk =>
      unfold enumDraft at h
      split at h
      · cases h
      · next he =>
        refine Or.inr ⟨isUnknownEnum_iff.2 ⟨hk, ?_⟩, List.mem_singleton.1 h⟩
        exact Option.not_isSome_iff_eq_none.1 he
    · cases h
    · cases h

end ZodSchema.Schema
