import ZodSchema.Proofs.Brand.Declared
import ZodSchema.Proofs.Schema.Entry
import ZodSchema.Proofs.Text.Literal

/-!
# A brand and the field that declares it

The entry of a field and the schema of the brand that it declares come from one annotation by
different rules.  The brand opens as its type selector says and keeps every validator; the entry
opens as the declared type says and keeps no second validator that stands for a primitive.

* `fieldOpening`, `brandOpening`, `behind`   what opens either, and the validators behind it
* `body_firstSite`, `schema_firstSite`       the two expressions in these terms
* `Agreeing`                                 where the rules lead to the same
* `agreeing_of_body_eq`                      both expressions are equal nowhere else
* `field_agrees_with_brand`                  and there they are equal
-/

namespace ZodSchema.Brand

open Annotations (isTopLevel nullabilityMembers)
open Schema (emit scalarExpr)
open Zod

variable {c : Config} {d : Datamodel} {model : String} {f : Field} {a : Annotations} {b : String}
  {p : Provider} {vs : List String} {x : Declaration} {strict : Bool} {r : Registry}

/-- what opens the entry of a field -/
def fieldOpening (p : Provider) (f : Field) (a : Annotations) : String :=
  (topLevelBase? a).getD (baseExpression p f.type)

/-- what opens the schema of a brand -/
def brandOpening (p : Provider) (f : Field) (a : Annotations) : String :=
  (topLevelBase? a).getD ((a.typeSelector.bind selectorBase?).getD (baseExpression p f.type))

/-- the validators behind the opening -/
def behind (a : Annotations) : List String :=
  if (topLevelBase? a).isSome then a.validators.tail else a.validators

/-- The field is the first one that declares the brand, and nothing but its annotation says which
values it takes. -/
structure FirstSite (d : Datamodel) (model : String) (f : Field) (a : Annotations) (b : String) :
    Prop where
  scalar : f.kind.value = .scalar
  required : f.isRequired = true
  single : f.isList = false
  stated : Annotations.of? f.documentation = some a
  own : a.typeOverride = none
  brand : a.brand = some b
  present : ∀ v ∈ a.validators, v ∉ nullabilityMembers
  first : first? (declarations d) b = some (declaration d.provider.value model f a)

/-! ## both expressions -/

theorem scalarExpr_eq (hc : c.defaultValidators = false) :
    scalarExpr c d f (some a) =
      { opening := fieldOpening d.provider.value f a
        members := chainable (behind a)
        brand := a.brandMarker } := by
  unfold scalarExpr fieldOpening behind
  rw [Option.bind_some, hc]
  cases topLevelBase? a <;> rfl

theorem resolveChain_eq (h : ∀ v ∈ a.validators, v ∉ nullabilityMembers) :
    resolveChain p f a = brandOpening p f a ++ String.join (behind a) := by
  have hkeep : ∀ vs ⊆ a.validators,
      (vs.filter fun v => !nullabilityMembers.contains v) = vs := fun vs hvs =>
    List.filter_eq_self.2 fun v hv => by simpa using h v (hvs hv)
  unfold resolveChain brandOpening behind
  cases topLevelBase? a with
  | some base => exact congrArg (base ++ String.join ·) (hkeep _ (List.tail_sublist _).subset)
  | none => exact congrArg (_ ++ String.join ·) (hkeep _ (List.Subset.refl _))

theorem ne_empty_of_first? (h : first? (declarations d) b = some x) : b ≠ "" := by
  obtain ⟨_, _, _, _, hx⟩ := exists_of_mem_declarations (List.mem_of_find?_eq_some h)
  obtain ⟨_, _, _, hne⟩ := exists_of_declarationOf? hx
  rwa [brand_of_first? h] at hne

theorem body_firstSite (h : FirstSite d model f a b) (hc : c.defaultValidators = false) :
    (emit c d f).expr.body = fieldOpening d.provider.value f a ++
      (String.join (chainable (behind a)) ++ (".brand(\"" ++ b ++ "\")")) := by
  have hb : a.brandMarker = ".brand(\"" ++ b ++ "\")" := by
    rw [Annotations.brandMarker, h.brand]
    exact if_neg (ne_empty_of_first? h.first)
  have he : (emit c d f).expr = { scalarExpr c d f (some a) with
      list := f.isList
      nullish := f.isNullable && !(true && a.declaresNullability)
      description := a.description } := by
    unfold emit
    rw [h.stated]
    dsimp only
    rw [Schema.draft_scalar c d h.scalar h.own]
    rfl
  rw [he, scalarExpr_eq hc, hb, Field.isNullable, h.required, h.single]
  simp [Expr.body, Expr.core, String.append_assoc]

theorem schema_firstSite (h : FirstSite d model f a b)
    (hr : Registry.ofDatamodel d strict = .ok r) :
    ∃ entry, r.get? b = some entry ∧ entry.schema = brandOpening d.provider.value f a ++
      (String.join (behind a) ++ (".brand(" ++ Text.quote b ++ ")")) := by
  have hreg : r = declared (declarations d) := by
    rw [ofDatamodel_eq_verdict, verdict] at hr
    split at hr
    · exact (Except.ok.inj hr).symm
    · split at hr
      · cases hr
      · exact (Except.ok.inj hr).symm
  refine ⟨branded (declarations d) (declaration d.provider.value model f a), ?_, ?_⟩
  · rw [hreg, get?_declared, h.first]
    rfl
  · have hn : a.brand.getD "" = b := by rw [h.brand]; rfl
    show resolveChain d.provider.value f a ++ ".brand(" ++ Text.quote (a.brand.getD "") ++ ")" = _
    rw [resolveChain_eq h.present, hn]
    simp only [String.append_assoc]

/-! ## where they agree -/

/-- The annotation opens the brand as the entry, and no validator behind the opening stands for a
primitive. -/
structure Agreeing (p : Provider) (f : Field) (a : Annotations) : Prop where
  opening : brandOpening p f a = fieldOpening p f a
  behind : ∀ v ∈ behind a, isTopLevel v = false

/-- Nothing behind the opening is rewritten, and the name of the brand needs no escapes. -/
structure Literal (a : Annotations) (b : String) : Prop where
  behind : ∀ v ∈ behind a, asNullish v = v
  name : Text.quote b = "\"" ++ b ++ "\""

theorem chainable_eq_self (ht : ∀ v ∈ vs, isTopLevel v = false) (hn : ∀ v ∈ vs, asNullish v = v) :
    chainable vs = vs := by
  have hf : (vs.filter fun v => !isTopLevel v) = vs :=
    List.filter_eq_self.2 fun v hv => by rw [ht v hv]; rfl
  rw [chainable, hf, List.map_congr_left hn, List.map_id']

theorem length_asNullish_le (v : String) : (asNullish v).toList.length ≤ v.toList.length := by
  rw [asNullish, Text.Str.toList_replace]
  exact Text.length_replace_le (by decide) (by decide) _

theorem length_pos_of_isTopLevel {v : String} (h : isTopLevel v = true) : 0 < v.toList.length := by
  obtain ⟨n, _, rest, hv⟩ := isTopLevel_iff.1 h
  rw [hv]
  exact Nat.succ_pos _

/-- the members are shorter than the validators, when one of these stands for a primitive -/
theorem length_chainable (vs : List String) :
    (String.join (chainable vs)).toList.length +
        (if ∀ v ∈ vs, isTopLevel v = false then 0 else 1) ≤
      (String.join vs).toList.length := by
  induction vs with
  | nil => exact Nat.le_refl 0
  | cons v vs ih =>
    rw [String.join_cons, String.toList_append, List.length_append]
    by_cases ht : isTopLevel v = true
    · have hc : chainable (v :: vs) = chainable vs := by simp [chainable, ht]
      have hpos := length_pos_of_isTopLevel ht
      rw [hc]
      split <;> split at ih <;> omega
    · have hc : chainable (v :: vs) = asNullish v :: chainable vs := by simp [chainable, ht]
      have hle := length_asNullish_le v
      rw [Bool.not_eq_true] at ht
      rw [hc, String.join_cons, String.toList_append, List.length_append]
      simp only [List.forall_mem_cons, ht, true_and]
      omega

theorem selectorBase?_mem {s base : String} (h : selectorBase? s = some base) :
    base ∈ Schema.bases := by
  unfold selectorBase? at h
  split at h
  all_goals cases h
  all_goals decide

/-- the openings of declared types and selectors are told apart in front of anything -/
theorem eq_of_bases {s t u v : String} (hs : s ∈ Schema.bases) (ht : t ∈ Schema.bases)
    (h : s ++ u = t ++ v) : s = t := by
  have hfree : ∀ s ∈ Schema.bases, ∀ t ∈ Schema.bases, s.toList <+: t.toList → s = t := by
    decide
  have hl : s.toList ++ u.toList = t.toList ++ v.toList := by
    rw [← String.toList_append, h, String.toList_append]
  have h1 : s.toList <+: t.toList ++ v.toList := hl ▸ List.prefix_append _ _
  rcases List.prefix_or_prefix_of_prefix h1 (List.prefix_append _ _) with hp | hp
  · exact hfree s hs t ht hp
  · exact (hfree t ht s hs hp).symm

theorem opening_eq {u v : String} (h : fieldOpening p f a ++ u = brandOpening p f a ++ v) :
    brandOpening p f a = fieldOpening p f a := by
  unfold fieldOpening brandOpening at h ⊢
  cases hb : topLevelBase? a with
  | some base => rfl
  | none =>
    rw [hb, Option.getD_none, Option.getD_none] at h
    cases hs : a.typeSelector.bind selectorBase? with
    | none => rfl
    | some base =>
      rw [hs, Option.getD_some] at h
      obtain ⟨t, _, ht⟩ := Option.bind_eq_some_iff.1 hs
      exact (eq_of_bases (Schema.baseExpression_mem ..) (selectorBase?_mem ht) h).symm

/-- Equal expressions open alike, and are then as long as each other only when no validator was left
out. -/
theorem agreeing_of_body_eq (h : fieldOpening p f a ++
      (String.join (chainable (behind a)) ++ (".brand(\"" ++ b ++ "\")")) =
    brandOpening p f a ++ (String.join (behind a) ++ (".brand(" ++ Text.quote b ++ ")"))) :
    Agreeing p f a := by
  have ho := opening_eq h
  refine ⟨ho, ?_⟩
  by_contra hn
  -- a validator that was left out would make the entry shorter
  have hlen := congrArg (fun s : String => s.toList.length) h
  have hc := length_chainable (behind a)
  have hq := Text.length_quote b
  rw [if_neg hn] at hc
  have hm : ".brand(\"".toList.length + "\")".toList.length =
      ".brand(".toList.length + ")".toList.length + 2 := rfl
  simp only [ho, String.toList_append, List.length_append, -String.reduceToList] at hlen
  omega

/-- **A brand and the field that declares it first.**  Without inferred checks the entry of the
field, its description aside, is the schema of the brand where both open alike and no validator
behind the opening stands for a primitive, the texts being written alike as well; and only
there. -/
theorem field_agrees_with_brand (h : FirstSite d model f a b) (hc : c.defaultValidators = false)
    (hr : Registry.ofDatamodel d strict = .ok r) :
    ∃ entry, r.get? b = some entry ∧
      (Agreeing d.provider.value f a ∧ Literal a b → (emit c d f).expr.body = entry.schema) ∧
      ((emit c d f).expr.body = entry.schema → Agreeing d.provider.value f a) := by
  obtain ⟨entry, hget, hs⟩ := schema_firstSite h hr
  refine ⟨entry, hget, ?_, ?_⟩
  · rintro ⟨ha, hl⟩
    have hm : ".brand(" ++ ("\"" ++ b ++ "\"") ++ ")" = ".brand(\"" ++ b ++ "\")" := by
      apply String.toList_injective
      simp
    rw [body_firstSite h hc, hs, ha.opening, chainable_eq_self ha.behind hl.behind, hl.name, hm]
  · intro heq
    rw [body_firstSite h hc, hs] at heq
    exact agreeing_of_body_eq heq

/-- an address with a bound and a brand -/
def mailField : Field :=
  { name := "email"
    type := "String"
    documentation := some "@zod.email().max(9).brand(\"Email\")" }

def mailStated : Annotations :=
  { chain := "email().max(9).brand(\"Email\")"
    segments := [.named "email()" "email" (some ""), .named "max(9)" "max" (some "9"),
      .named "brand(\"Email\")" "brand" (some "\"Email\"")]
    validators := [".email()", ".max(9)"]
    brand := some "Email" }

def mailData : Datamodel := { models := [{ name := "User", fields := [mailField] }] }

theorem firstSite_mail : FirstSite mailData "User" mailField mailStated "Email" where
  scalar := rfl
  required := rfl
  single := rfl
  stated := rfl
  own := rfl
  brand := rfl
  present := by decide
  first := rfl

theorem mail_agrees_with_brand :
    FirstSite mailData "User" mailField mailStated "Email" ∧
      ∃ r, Registry.ofDatamodel mailData true = .ok r ∧
        ∃ entry, r.get? "Email" = some entry ∧
          (emit { defaultValidators := false } mailData mailField).expr.body = entry.schema := by
  have hr : Registry.ofDatamodel mailData true = .ok (declared (declarations mailData)) := by
    rw [ofDatamodel_eq_verdict, verdict]
    have hn : (declared (declarations mailData)).conflicts = [] := by decide +kernel
    rw [hn]
  have ha : Agreeing mailData.provider.value mailField mailStated :=
    ⟨by decide +kernel, by decide +kernel⟩
  have hl : Literal mailStated "Email" := ⟨by decide +kernel, by decide +kernel⟩
  obtain ⟨entry, hget, heq, _⟩ := field_agrees_with_brand (c := { defaultValidators := false })
    firstSite_mail rfl hr
  exact ⟨firstSite_mail, _, hr, entry, hget, heq ⟨ha, hl⟩⟩

/-- a number whose annotation selects another primitive than its type -/
def serialField : Field :=
  { name := "serial", type := "BigInt", documentation := some "@zod.bigint.brand(\"Serial\")" }

def serialStated : Annotations :=
  { chain := "bigint.brand(\"Serial\")"
    segments := [.named "bigint" "bigint" none,
      .named "brand(\"Serial\")" "brand" (some "\"Serial\"")]
    typeSelector := some "bigint"
    brand := some "Serial" }

/-- an address whose check stands behind another one -/
def lateField : Field :=
  { name := "mail", type := "String", documentation := some "@zod.min(5).email().brand(\"Email\")" }

def lateStated : Annotations :=
  { chain := "min(5).email().brand(\"Email\")"
    segments := [.named "min(5)" "min" (some "5"), .named "email()" "email" (some ""),
      .named "brand(\"Email\")" "brand" (some "\"Email\"")]
    validators := [".min(5)", ".email()"]
    brand := some "Email" }

def crossedData : Datamodel :=
  { models := [{ name := "Item", fields := [serialField, lateField] }] }

theorem firstSite_serial : FirstSite crossedData "Item" serialField serialStated "Serial" where
  scalar := rfl
  required := rfl
  single := rfl
  stated := rfl
  own := rfl
  brand := rfl
  present := by decide
  first := rfl

theorem firstSite_late : FirstSite crossedData "Item" lateField lateStated "Email" where
  scalar := rfl
  required := rfl
  single := rfl
  stated := by decide +kernel
  own := rfl
  brand := rfl
  present := by decide
  first := rfl

/-- The selector opens the brand and not the entry; the second check is in the brand and not in the
entry. -/
theorem crossed_from_brands :
    FirstSite crossedData "Item" serialField serialStated "Serial" ∧
      FirstSite crossedData "Item" lateField lateStated "Email" ∧
      ∃ r, Registry.ofDatamodel crossedData true = .ok r ∧
        (r.get? "Serial").map (·.schema) = some "z.bigint().brand(\"Serial\")" ∧
        (emit { defaultValidators := false } crossedData serialField).expr.body =
          "z.string().brand(\"Serial\")" ∧
        (r.get? "Email").map (·.schema) = some "z.string().min(5).email().brand(\"Email\")" ∧
        (emit { defaultValidators := false } crossedData lateField).expr.body =
          "z.string().min(5).brand(\"Email\")" := by
  refine ⟨firstSite_serial, firstSite_late, declared (declarations crossedData), ?_, ?_⟩
  · rw [ofDatamodel_eq_verdict, verdict]
    have hn : (declared (declarations crossedData)).conflicts = [] := by decide +kernel
    rw [hn]
  · decide +kernel

end ZodSchema.Brand
