import ZodSchema.Proofs.Zod.Validators

/-!
# Checks that are inferred

A whole number is checked to be one, and an identifier that the database generates has its format
checked, unless the annotation states such a check itself.

* `callsOf`                  the members that call one of the names, with any arguments
* `callsOf_chainable`        what is left of them behind an opening
* `emit_infers_when_missing`  the calls of an inferred check in the entry of a field
-/

namespace ZodSchema.Zod

open Annotations (isTopLevel topLevelNames call)

variable {names : List String} {n v : String}

/-! ## calls of a name -/

/-- the member calls one of the names, with any arguments -/
def isCallOf (names : List String) (v : String) : Bool :=
  closed v && names.any fun n => Text.Str.startsWith v ("." ++ n ++ "(")

/-- the members that call one of the names -/
def callsOf (names vs : List String) : List String := vs.filter (isCallOf names)

theorem toList_call (n args : String) :
    (call n args).toList = '.' :: n.toList ++ '(' :: (args.toList ++ [')']) := by
  simp [call]

theorem isCallOf_iff : isCallOf names v = true ↔ ∃ n ∈ names, ∃ args, v = call n args := by
  unfold isCallOf
  rw [Bool.and_eq_true, List.any_eq_true]
  constructor
  · rintro ⟨hc, n, hn, hs⟩
    obtain ⟨rest, hv⟩ := Text.Str.startsWith_iff.1 hs
    have hv : v.toList = '.' :: n.toList ++ '(' :: rest := by simpa using hv
    obtain ⟨args, rfl⟩ := exists_of_closed hv hc
    refine ⟨n, hn, String.ofList args, String.toList_injective ?_⟩
    rw [hv, toList_call, String.toList_ofList]
  · rintro ⟨n, hn, args, rfl⟩
    refine ⟨?_, n, hn, Text.Str.startsWith_iff.2 ⟨args.toList ++ [')'], ?_⟩⟩
    · rw [closed, toList_call, ← List.cons_append, ← List.append_assoc, List.getLast?_concat]
      rfl
    · rw [toList_call]
      simp

/-- the names of the checks that are inferred -/
def checkNames : List String := ["int", "cuid", "cuid2", "uuid"]

theorem toList_checkName (hn : n ∈ checkNames) :
    ∃ x p, ("." ++ n ++ "(").toList = '.' :: x :: p ∧ '.' ∉ x :: p ∧ x ≠ 'n' := by
  simp only [checkNames, List.mem_cons, List.not_mem_nil, or_false] at hn
  rcases hn with rfl | rfl | rfl | rfl
  all_goals exact ⟨_, _, rfl, by decide, by decide⟩

theorem startsWith_asNullish (hn : n ∈ checkNames) (v : String) :
    Text.Str.startsWith (asNullish v) ("." ++ n ++ "(") =
      Text.Str.startsWith v ("." ++ n ++ "(") := by
  obtain ⟨x, p, hx, hd, hne⟩ := toList_checkName hn
  have hp : ∀ s, Text.Str.startsWith s ("." ++ n ++ "(") = true ↔ '.' :: x :: p <+: s.toList := by
    intro s
    rw [Text.Str.startsWith_iff, hx]
    exact exists_congr fun _ => eq_comm
  rw [Bool.eq_iff_iff, hp, hp, asNullish, Text.Str.toList_replace]
  exact Text.cons_prefix_replace_iff hd hne hne v.toList

/-- a member calls what it called before it was widened -/
theorem isCallOf_asNullish (hn : names ⊆ checkNames) (v : String) :
    isCallOf names (asNullish v) = isCallOf names v := by
  have hc : closed (asNullish v) = closed v := by
    rw [closed, closed, asNullish, Text.Str.toList_replace,
      Text.getLast?_replace (by decide) (by decide)]
  have hs : (names.any fun n => Text.Str.startsWith (asNullish v) ("." ++ n ++ "(")) =
      names.any fun n => Text.Str.startsWith v ("." ++ n ++ "(") := by
    rw [Bool.eq_iff_iff, List.any_eq_true, List.any_eq_true]
    exact exists_congr fun n => and_congr_right fun hm => by rw [startsWith_asNullish (hn hm)]
  rw [isCallOf, isCallOf, hc, hs]

/-! ## calls behind an opening -/

theorem callsOf_chainable (hn : names ⊆ checkNames) (vs : List String) :
    callsOf names (chainable vs) = chainable (callsOf names vs) := by
  unfold callsOf chainable
  rw [List.filter_map, List.filter_filter, List.filter_filter]
  congr 1
  refine List.filter_congr fun v _ => ?_
  rw [Function.comp_apply, isCallOf_asNullish hn, Bool.and_comm]

theorem isTopLevel_call_iff (hw : ∀ c ∈ n.toList, Text.isWord c = true) (args : String) :
    isTopLevel (call n args) = true ↔ n ∈ topLevelNames := by
  rw [isTopLevel_iff, toList_call]
  constructor
  · rintro ⟨m, hm, rest, h⟩
    have hp : Text.isWord '(' = false := by decide
    have ht := congrArg (List.takeWhile Text.isWord) (List.cons.inj h).2
    rw [List.append_eq, List.append_eq, Text.takeWhile_run hw hp,
      Text.takeWhile_run (isWord_topLevelNames hm) hp] at ht
    rwa [String.toList_injective ht]
  · intro hm
    exact ⟨n, hm, _, rfl⟩

/-- no call of an identifier format stands behind an opening -/
theorem callsOf_chainable_topLevel (hn : names ⊆ checkNames) (ht : names ⊆ topLevelNames)
    (vs : List String) : callsOf names (chainable vs) = [] := by
  have hf : (callsOf names vs).filter (fun v => !isTopLevel v) = [] := by
    refine List.filter_eq_nil_iff.2 fun v hv => ?_
    obtain ⟨n, hm, args, rfl⟩ := isCallOf_iff.1 (List.mem_filter.1 hv).2
    rw [(isTopLevel_call_iff (isWord_topLevelNames (ht hm)) args).2 (ht hm)]
    decide
  rw [callsOf_chainable hn, chainable, hf, List.map_nil]

/-- all calls of `int` do -/
theorem length_callsOf_int (vs : List String) :
    (callsOf ["int"] (chainable vs)).length = (callsOf ["int"] vs).length := by
  have hf : (callsOf ["int"] vs).filter (fun v => !isTopLevel v) = callsOf ["int"] vs := by
    refine List.filter_eq_self.2 fun v hv => ?_
    obtain ⟨n, hm, args, rfl⟩ := isCallOf_iff.1 (List.mem_filter.1 hv).2
    rw [List.mem_singleton.1 hm, Bool.not_eq_true', Bool.eq_false_iff]
    have hw : ∀ c ∈ "int".toList, Text.isWord c = true := List.all_eq_true.1 (by decide)
    exact mt (isTopLevel_call_iff hw args).1 (by decide)
  rw [callsOf_chainable (by decide), chainable, hf, List.length_map]

end ZodSchema.Zod

namespace ZodSchema.Schema

open Zod

variable {c : Config} {f : Field} {a : Option Annotations} {names : List String}

/-! ## what is inferred -/

theorem defaultValidators_int (ht : f.type = "Int") :
    defaultValidators f a = if a.any (·.hasValidator ["int"]) then [] else [".int()"] := by
  cases ha : a.any (·.hasValidator ["int"]) <;> simp [defaultValidators, ht, ha]

theorem defaultValidators_cuid (ht : f.type = "String")
    (hg : f.defaultGenerator.any (["cuid", "cuid2"].contains ·) = true)
    (ha : a.any (·.hasValidator ["cuid", "cuid2"]) = false) :
    defaultValidators f a = [".cuid2()"] := by
  unfold defaultValidators
  simp only [if_pos ht, hg, ha, Bool.not_false, Bool.and_self, if_true]

theorem defaultValidators_uuid (ht : f.type = "String") (hg : f.defaultGenerator = some "uuid")
    (ha : a.any (·.hasValidator ["uuid"]) = false) : defaultValidators f a = [".uuid()"] := by
  simp [defaultValidators, ht, hg, ha]

/-- a check that is stated without arguments is stated -/
theorem length_callsOf_pos (h : a.any (·.hasValidator names) = true) :
    0 < (callsOf names ((a.map (·.validators)).getD [])).length := by
  cases a with
  | none => cases h
  | some a =>
    obtain ⟨v, hv, h⟩ := List.any_eq_true.1 h
    obtain ⟨n, hn, hc⟩ := List.any_eq_true.1 h
    have hcall : isCallOf names v = true := isCallOf_iff.2 ⟨n, hn, "", beq_iff_eq.1 hc⟩
    exact List.length_pos_of_mem (List.mem_filter.2 ⟨hv, hcall⟩)

theorem topLevelBase?_eq_none (h : a.any (·.firstIsTopLevel) = false) :
    a.bind topLevelBase? = none := by
  cases hb : a.bind topLevelBase? with
  | none => rfl
  | some base =>
    obtain ⟨a, rfl, hb⟩ := Option.bind_eq_some_iff.1 hb
    obtain ⟨v, vs, ha, ht, _⟩ := exists_of_topLevelBase? hb
    have hf : a.firstIsTopLevel = true := by
      rw [Annotations.firstIsTopLevel, ha]
      exact ht
    simp [hf] at h

/-- the members of an entry that opens with the type of its field -/
theorem members_emit_inferred (d : Datamodel) (hc : c.defaultValidators = true)
    (hk : f.kind.value = .scalar)
    (ho : (Annotations.of? f.documentation).bind (·.typeOverride) = none)
    (ht : (Annotations.of? f.documentation).any (·.firstIsTopLevel) = false) :
    (emit c d f).expr.members = defaultValidators f (Annotations.of? f.documentation) ++
      chainable (((Annotations.of? f.documentation).map (·.validators)).getD []) := by
  rw [members_emit, draft_of_scalar c d _ hk ho]
  unfold scalarExpr
  rw [topLevelBase?_eq_none ht, hc]
  rfl

/-- **Checks are inferred when they are missing.**  A whole number is checked to be one as often as
the annotation says so, at least once; and a generated identifier whose format the annotation does
not state without arguments has the one that is inferred, whatever other formats stand behind the
first validator. -/
theorem emit_infers_when_missing (d : Datamodel) (hc : c.defaultValidators = true)
    (hk : f.kind.value = .scalar)
    (ho : (Annotations.of? f.documentation).bind (·.typeOverride) = none)
    (ht : (Annotations.of? f.documentation).any (·.firstIsTopLevel) = false) :
    let a := Annotations.of? f.documentation
    let stated (names : List String) := callsOf names ((a.map (·.validators)).getD [])
    let emitted (names : List String) := callsOf names (emit c d f).expr.members
    (f.type = "Int" → (stated ["int"] = [] ∨ a.any (·.hasValidator ["int"]) = true) →
      (emitted ["int"]).length = max 1 (stated ["int"]).length) ∧
    (f.type = "String" → f.defaultGenerator.any (["cuid", "cuid2"].contains ·) = true →
      a.any (·.hasValidator ["cuid", "cuid2"]) = false →
      emitted ["cuid", "cuid2"] = [".cuid2()"]) ∧
    (f.type = "String" → f.defaultGenerator = some "uuid" →
      a.any (·.hasValidator ["uuid"]) = false → emitted ["uuid"] = [".uuid()"]) := by
  intro a stated emitted
  have hm : ∀ names, emitted names = callsOf names (defaultValidators f a) ++
      callsOf names (chainable ((a.map (·.validators)).getD [])) := by
    intro names
    show callsOf names (emit c d f).expr.members = _
    rw [members_emit_inferred d hc hk ho ht]
    exact List.filter_append ..
  refine ⟨fun hi hs => ?_, fun hi hg hs => ?_, fun hi hg hs => ?_⟩
  · rw [hm, List.length_append, length_callsOf_int, defaultValidators_int hi]
    cases ha : a.any (·.hasValidator ["int"]) with
    | true =>
      have hpos : 0 < (stated ["int"]).length := length_callsOf_pos ha
      rw [if_pos rfl, Nat.max_eq_right hpos]
      exact Nat.zero_add _
    | false =>
      have hz : stated ["int"] = [] := hs.resolve_right (by simp [ha])
      have hi : (callsOf ["int"] [".int()"]).length = 1 := by decide
      show _ + (stated ["int"]).length = _
      rw [if_neg Bool.false_ne_true, hz, hi]
      rfl
  · rw [hm, defaultValidators_cuid hi hg hs, callsOf_chainable_topLevel (by decide) (by decide)]
    decide
  · rw [hm, defaultValidators_uuid hi hg hs, callsOf_chainable_topLevel (by decide) (by decide)]
    decide

/-- a generated identifier with a bound, and its formats stated behind it -/
def ticketField : Field :=
  { name := "id", type := "String", hasDefault := true
    default := some (.generator { name := "cuid" })
    documentation := some "@zod.min(5).cuid(\"a\").cuid2(\"b\")" }

def keyField : Field :=
  { name := "key", type := "String", hasDefault := true
    default := some (.generator { name := "uuid" }) }

/-- a whole number whose annotation says so twice -/
def viewsField : Field :=
  { name := "views", type := "Int", documentation := some "@zod.int().int(\"whole\")" }

theorem infers_ticket_key_views :
    (callsOf ["cuid", "cuid2"] (emit {} { models := [] } ticketField).expr.members = [".cuid2()"]) ∧
      (callsOf ["uuid"] (emit {} { models := [] } keyField).expr.members = [".uuid()"]) ∧
      (callsOf ["int"] (emit {} { models := [] } viewsField).expr.members).length = 2 := by
  have ht := emit_infers_when_missing (c := {}) (f := ticketField) { models := [] } rfl rfl
    (by decide +kernel) (by decide +kernel)
  have hk := emit_infers_when_missing (c := {}) (f := keyField) { models := [] } rfl rfl rfl rfl
  have hv := emit_infers_when_missing (c := {}) (f := viewsField) { models := [] } rfl rfl
    (by decide +kernel) (by decide +kernel)
  refine ⟨ht.2.1 rfl (by decide) (by decide +kernel), hk.2.2 rfl rfl rfl, ?_⟩
  have hn : (callsOf ["int"] (((Annotations.of? viewsField.documentation).map (·.validators)).getD
      [])).length = 2 := by
    decide +kernel
  rw [hv.1 rfl (.inr (by decide +kernel)), hn]
  rfl

/-- The annotation states two formats behind the first validator; neither becomes a member. -/
theorem late_formats_dropped :
    ticketField.kind.value = .scalar ∧ ticketField.type = "String" ∧
      ticketField.defaultGenerator = some "cuid" ∧
      (Annotations.of? ticketField.documentation).bind (·.typeOverride) = none ∧
      (Annotations.of? ticketField.documentation).any (·.firstIsTopLevel) = false ∧
      callsOf ["cuid", "cuid2"]
          (((Annotations.of? ticketField.documentation).map (·.validators)).getD []) =
        [".cuid(\"a\")", ".cuid2(\"b\")"] ∧
      callsOf ["cuid", "cuid2"] (emit {} { models := [] } ticketField).expr.members =
        [".cuid2()"] := by
  decide +kernel

end ZodSchema.Schema
