import ZodSchema.Schema.Entry
import ZodSchema.Proofs.Annotations.Segment
import ZodSchema.Proofs.Text.Replace

/-!
# What becomes of the validators of a field

The entry of a scalar field opens with its primitive, or with the first validator when that one
stands for a primitive.  All other validators are its members.

* `isTopLevel_iff`           the texts of the validators that stand for a primitive
* `topLevelBase?_closed`     the first validator as an opening
* `inferred_not_stated`      a check that is inferred is not stated as well
* `emit_keeps_validators`    every validator that may follow an opening is kept
-/

namespace ZodSchema.Zod

open Annotations (isTopLevel topLevelNames callArgs? callArgs?_call dropFinalNewline_call)

variable {v n : String} {rest : List Char}

/-- the text of the validator ends with its parenthesis -/
def closed (v : String) : Bool := v.toList.getLast? == some ')'

/-! ## validators that stand for a primitive -/

theorem isTopLevel_iff :
    isTopLevel v = true ↔ ∃ n ∈ topLevelNames, ∃ rest, v.toList = '.' :: n.toList ++ '(' :: rest := by
  unfold isTopLevel
  rw [List.any_eq_true]
  refine exists_congr fun n => and_congr_right fun _ => ?_
  rw [Text.Str.startsWith_iff]
  refine exists_congr fun r => ?_
  simp

theorem isWord_topLevelNames (hn : n ∈ topLevelNames) : ∀ c ∈ n.toList, Text.isWord c = true := by
  have h : (topLevelNames.all fun n => n.toList.all Text.isWord) = true := by decide +kernel
  exact List.all_eq_true.1 (List.all_eq_true.1 h n hn)

theorem toList_ne_nil_of_mem (hn : n ∈ topLevelNames) : n.toList ≠ [] := by
  have h : (topLevelNames.all fun n => !n.toList.isEmpty) = true := by decide +kernel
  simpa using List.all_eq_true.1 h n hn

/-- the name of a validator that stands for a primitive is read up to its parenthesis -/
theorem callParts?_topLevel (hn : n ∈ topLevelNames)
    (hv : v.toList = '.' :: n.toList ++ '(' :: rest) :
    callParts? v = (callArgs? (Text.dropFinalNewline ('(' :: rest))).map fun args =>
      (n, String.ofList args) := by
  have hw := isWord_topLevelNames hn
  have hp : Text.isWord '(' = false := by decide
  unfold callParts?
  simp only [hv, List.cons_append, Text.takeWhile_run hw hp, Text.dropWhile_run hw hp]
  split
  · next h => exact absurd h (toList_ne_nil_of_mem hn)
  · rw [String.ofList_toList]

/-- an opening comes from a first validator that stands for a primitive, and calls its name -/
theorem exists_of_topLevelBase? {a : Annotations} {base : String}
    (h : topLevelBase? a = some base) :
    ∃ v vs, a.validators = v :: vs ∧ isTopLevel v = true ∧
      ∃ n ∈ topLevelNames, ∃ args, base = "z." ++ n ++ "(" ++ args ++ ")" := by
  unfold topLevelBase? at h
  split at h
  · next v vs ha =>
    split at h
    · next ht =>
      obtain ⟨n, hn, rest, hv⟩ := isTopLevel_iff.1 ht
      rw [callParts?_topLevel hn hv, Option.map_map] at h
      obtain ⟨args, _, rfl⟩ := Option.map_eq_some_iff.1 h
      exact ⟨v, vs, ha, ht, n, hn, _, rfl⟩
    · cases h
  · cases h

theorem exists_of_closed (hv : v.toList = '.' :: n.toList ++ '(' :: rest) (hc : closed v = true) :
    ∃ args, rest = args ++ [')'] := by
  unfold closed at hc
  rw [hv, beq_iff_eq, List.getLast?_append] at hc
  cases rest with
  | nil => simp at hc
  | cons c rest =>
    rw [List.getLast?_cons_cons] at hc
    exact List.getLast?_eq_some_iff.1 (by simpa using hc)

/-- a closed validator that stands for a primitive becomes the opening as it is -/
theorem topLevelBase?_closed {a : Annotations} {vs : List String} (ha : a.validators = v :: vs)
    (ht : isTopLevel v = true) (hc : closed v = true) : topLevelBase? a = some ("z" ++ v) := by
  obtain ⟨n, hn, rest, hv⟩ := isTopLevel_iff.1 ht
  obtain ⟨args, rfl⟩ := exists_of_closed hv hc
  have he : "z." ++ n ++ "(" ++ String.ofList args ++ ")" = "z" ++ v := by
    apply String.toList_injective
    simp [hv]
  unfold topLevelBase?
  rw [ha]
  dsimp only
  rw [if_pos ht, callParts?_topLevel hn hv, dropFinalNewline_call, callArgs?_call]
  simp [he]

/-! ## missing values -/

/-- the member says that the value may be missing -/
def isNullity (v : String) : Bool := v == ".nullable()" || v == ".nullish()"

theorem asNullish_eq_nullish : asNullish v = nullish ↔ isNullity v = true := by
  unfold isNullity
  rw [Bool.or_eq_true, beq_iff_eq, beq_iff_eq]
  constructor
  · exact Text.Str.eq_of_replace_eq (by decide) (by decide)
  · rintro (rfl | rfl) <;> decide

/-- a member that says nothing about missing values was not changed -/
theorem eq_of_asNullish {w : String} (h : asNullish v = w) (hw : ¬ nullish.toList <:+: w.toList) :
    v = w := by
  have ht : w.toList = Text.replace ".nullable()".toList nullish.toList v.toList := by
    rw [← h, asNullish, Text.Str.toList_replace]
  have ho : ".nullable()".toList ≠ [] := by decide
  rcases Text.replace_eq_self_or_infix ho nullish.toList v.toList with he | he
  · exact String.toList_injective (by rw [ht, he])
  · exact absurd (ht ▸ he) hw

end ZodSchema.Zod

namespace ZodSchema.Schema

open Zod
open Annotations (isTopLevel)

variable {f : Field} {a : Annotations} {w : String}

/-! ## checks that are inferred -/

/-- an inferred check calls one of three names, and none that stands for it is stated -/
theorem exists_of_mem_defaultValidators {a : Option Annotations} (h : w ∈ defaultValidators f a) :
    ∃ n ∈ ["cuid2", "uuid", "int"], w = Annotations.call n "" ∧
      ∃ names, n ∈ names ∧ (!a.any (·.hasValidator names)) = true := by
  unfold defaultValidators at h
  dsimp only at h
  split at h
  · split at h
    · next hc =>
      exact ⟨"cuid2", by decide, List.mem_singleton.1 h, _, by decide, (Bool.and_eq_true_iff.1 hc).2⟩
    · split at h
      · next hc =>
        exact ⟨"uuid", by decide, List.mem_singleton.1 h, _, by decide, (Bool.and_eq_true_iff.1 hc).2⟩
      · cases h
  · split at h
    · next hc =>
      exact ⟨"int", by decide, List.mem_singleton.1 h, _, by decide, (Bool.and_eq_true_iff.1 hc).2⟩
    · cases h

/-- the annotation does not state an inferred check -/
theorem not_mem_of_mem_defaultValidators (h : w ∈ defaultValidators f (some a)) :
    w ∉ a.validators := by
  obtain ⟨n, -, rfl, names, hn, hs⟩ := exists_of_mem_defaultValidators h
  intro hm
  have hstated : a.hasValidator names = true :=
    List.any_eq_true.2 ⟨_, hm, List.any_eq_true.2 ⟨n, hn, beq_self_eq_true _⟩⟩
  simp [hstated] at hs

/-- an inferred check is too short to say anything about missing values -/
theorem not_infix_of_mem_defaultValidators {a : Option Annotations}
    (h : w ∈ defaultValidators f a) : ¬ nullish.toList <:+: w.toList := by
  have hshort : ∀ n ∈ ["cuid2", "uuid", "int"],
      (Annotations.call n "").toList.length < nullish.toList.length := by
    decide
  obtain ⟨n, hn, rfl, -⟩ := exists_of_mem_defaultValidators h
  exact fun hi => Nat.not_lt.2 hi.length_le (hshort n hn)

/-- no stated validator, also after rewriting, is inferred once more -/
theorem inferred_not_stated (h : w ∈ defaultValidators f (some a)) :
    w ∉ a.validators.map asNullish := by
  intro hm
  obtain ⟨v, hv, he⟩ := List.mem_map.1 hm
  have hw := eq_of_asNullish he (not_infix_of_mem_defaultValidators h)
  exact not_mem_of_mem_defaultValidators h (hw ▸ hv)

/-! ## the entry -/

theorem opening_emit (c : Config) (d : Datamodel) (f : Field) :
    (emit c d f).expr.opening =
      (draft c d f (Annotations.of? f.documentation)).1.expr.opening := rfl

theorem members_emit (c : Config) (d : Datamodel) (f : Field) :
    (emit c d f).expr.members =
      (draft c d f (Annotations.of? f.documentation)).1.expr.members := rfl

theorem draft_of_scalar (c : Config) (d : Datamodel) (a : Option Annotations)
    (hk : f.kind.value = .scalar) (ho : a.bind (·.typeOverride) = none) :
    draft c d f a = ({ expr := scalarExpr c d f a }, true) := by
  unfold draft
  rw [ho, hk]

theorem draft_scalar (c : Config) (d : Datamodel) (hk : f.kind.value = .scalar)
    (ho : a.typeOverride = none) :
    draft c d f (some a) = ({ expr := scalarExpr c d f (some a) }, true) :=
  draft_of_scalar c d (some a) hk ho

/-- the members are the validators that may follow an opening, behind checks that are inferred -/
theorem inferred_append_chainable (c : Config) (d : Datamodel) (f : Field)
    (a : Option Annotations) :
    ∃ inferred, (scalarExpr c d f a).members =
        inferred ++ chainable ((a.map (·.validators)).getD []) ∧
      ∀ w ∈ inferred, w ∈ defaultValidators f a := by
  unfold scalarExpr
  dsimp only
  split
  · next base hb =>
    obtain ⟨a, rfl, hb⟩ := Option.bind_eq_some_iff.1 hb
    obtain ⟨v, vs, ha, ht, _⟩ := exists_of_topLevelBase? hb
    refine ⟨[], ?_, fun w hw => by cases hw⟩
    simp [ha, chainable, ht]
  · refine ⟨_, rfl, fun w hw => ?_⟩
    split at hw
    · exact hw
    · cases hw

/-- the checks that are inferred are not stated -/
theorem members_scalarExpr (c : Config) (d : Datamodel) (f : Field) (a : Annotations) :
    ∃ inferred, (scalarExpr c d f (some a)).members = inferred ++ chainable a.validators ∧
      ∀ w ∈ inferred, w ∉ a.validators.map asNullish := by
  obtain ⟨inferred, hm, hi⟩ := inferred_append_chainable c d f (some a)
  exact ⟨inferred, hm, fun w hw => inferred_not_stated (hi w hw)⟩

/-- **No validator that may follow an opening is lost.**  For a scalar field without an external
type, all validators but those that stand for a primitive are members of its expression, in order
and each as often as it is stated, `.nullable()` being widened; a first validator that stands for a
primitive, and is closed, is the opening. -/
theorem emit_keeps_validators (c : Config) (d : Datamodel) (hk : f.kind.value = .scalar)
    (ha : Annotations.of? f.documentation = some a) (ho : a.typeOverride = none) :
    let kept := (a.validators.filter fun v => !isTopLevel v).map asNullish
    kept.Sublist (emit c d f).expr.members ∧
      (∀ w ∈ kept, (emit c d f).expr.members.count w = kept.count w) ∧
      ∀ v vs, a.validators = v :: vs → isTopLevel v = true → closed v = true →
        (emit c d f).expr.opening = "z" ++ v := by
  intro kept
  have hm : (emit c d f).expr.members = (scalarExpr c d f (some a)).members := by
    rw [members_emit, ha, draft_scalar c d hk ho]
  have ho : (emit c d f).expr.opening = (scalarExpr c d f (some a)).opening := by
    rw [opening_emit, ha, draft_scalar c d hk ho]
  obtain ⟨inferred, hi, hd⟩ := members_scalarExpr c d f a
  rw [hm, ho, hi]
  refine ⟨List.sublist_append_right .., fun w hw => ?_, fun v vs hv ht hc => ?_⟩
  -- a check that is inferred would count twice if it were stated as well
  · have hz : inferred.count w = 0 := List.count_eq_zero.2 fun hi => by
      obtain ⟨v, hv, he⟩ := List.mem_map.1 hw
      exact hd w hi (List.mem_map.2 ⟨v, (List.mem_filter.1 hv).1, he⟩)
    rw [List.count_append, hz, Nat.zero_add]
    rfl
  · unfold scalarExpr
    rw [Option.bind_some, topLevelBase?_closed hv ht hc]

/-- an address with a bound, which may be missing -/
def addressField : Field :=
  { name := "email", type := "String", documentation := some "@zod.email().max(9).nullable()" }

def addressStated : Annotations :=
  { chain := "email().max(9).nullable()"
    segments := [.named "email()" "email" (some ""), .named "max(9)" "max" (some "9"),
      .named "nullable()" "nullable" (some "")]
    validators := [".email()", ".max(9)", ".nullable()"] }

theorem of?_addressField :
    Annotations.of? addressField.documentation = some addressStated := by
  decide +kernel

theorem emit_keeps_address :
    addressField.kind.value = .scalar ∧ addressStated.typeOverride = none ∧
      [".max(9)", ".nullish()"].Sublist (emit {} { models := [] } addressField).expr.members ∧
      (emit {} { models := [] } addressField).expr.opening = "z.email()" := by
  obtain ⟨h1, _, h2⟩ :=
    emit_keeps_validators {} { models := [] } (f := addressField) rfl of?_addressField rfl
  have hk : (addressStated.validators.filter fun v => !isTopLevel v).map asNullish =
      [".max(9)", ".nullish()"] := by
    decide +kernel
  rw [hk] at h1
  exact ⟨rfl, rfl, h1, h2 ".email()" _ rfl (by decide) (by decide)⟩

/-- an address whose check stands behind another one -/
def lateAddress : Field :=
  { name := "email", type := "String", documentation := some "@zod.min(5).email()" }

/-- A validator that stands for a primitive and does not come first is left out. -/
theorem late_address_dropped :
    (Annotations.of? lateAddress.documentation).map (·.validators) = some [".min(5)", ".email()"] ∧
      lateAddress.kind.value = .scalar ∧
      (emit {} { models := [] } lateAddress).expr =
        { opening := "z.string()", members := [".min(5)"] } := by
  decide +kernel

end ZodSchema.Schema
