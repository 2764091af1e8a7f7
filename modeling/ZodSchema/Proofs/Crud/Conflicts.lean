import ZodSchema.Proofs.Crud.Options

/-!
# Conflicting option sets

Two declarations may ask for one option set with different values.  Of enumerations the last one
counts, and of the types of a filter the last one; nothing is reported of that.  Enumerations come
before filter types, wherever they stand.

* `declarations`   the option sets that the directives of a model declare, in order
* `settledSets`    those that are left, in the order in which they count
* `get?_settledSets`   the values that a set gets
* `conflictWarning_mem_setOf_iff`   when a conflict is reported
* `Unreplaced`     no declaration of a set is replaced before the sets are built
* `first_set_kept_iff`   when the first declaration is kept and the others are reported
* `first_set_replaced`   a set that is replaced in silence
-/

namespace ZodSchema.Crud

open Annotations (Rule)
open Text Context

variable {m : Model} {x : Context} {name f : String} {values others : List String}

/-! ## declarations -/

/-- the option set that an enumeration declares -/
def enumSet (e : String × List String) : String × List String := (optionBase e.1, e.2)

/-- the option sets that a directive declares -/
def declaredSets (d : Rule) : List (String × List String) :=
  (enumDecl? d).toList.map enumSet ++ (typeDecls d).filterMap filterSet?

/-- the option sets that the directives of a model declare, in the order of the text -/
def declarations (m : Model) : List (String × List String) :=
  (docRules m.documentation).flatMap declaredSets

/-- the filter types that are left, each in its last form, where its filter was first given one -/
def settledFilters (m : Model) : List (String × List String) :=
  (Assoc.settled (typed m)).filterMap filterSet?

/-- the enumerations that are left, from the last key to the first one, each with its last values -/
def settledEnums (m : Model) : List (String × List String) :=
  ((Assoc.settled (enumerated m)).map enumSet).reverse

/-- the declarations that are left, in the order in which they count -/
def settledSets (m : Model) : List (String × List String) := settledEnums m ++ settledFilters m

theorem mem_declarations_iff {s : String × List String} :
    s ∈ declarations m ↔
      s ∈ (enumerated m).map enumSet ∨ s ∈ (typed m).filterMap filterSet? := by
  unfold declarations declaredSets enumerated typed
  simp only [List.mem_flatMap, List.mem_append, List.mem_map, List.mem_filterMap,
    Option.mem_toList]
  constructor
  · rintro ⟨d, hd, ⟨e, he, rfl⟩ | ⟨t, ht, hs⟩⟩
    · exact Or.inl ⟨e, ⟨d, hd, he⟩, rfl⟩
    · exact Or.inr ⟨t, ⟨d, hd, ht⟩, hs⟩
  · rintro (⟨e, ⟨d, hd, he⟩, rfl⟩ | ⟨t, ⟨d, hd, ht⟩, hs⟩)
    · exact ⟨d, hd, Or.inl ⟨e, he, rfl⟩⟩
    · exact ⟨d, hd, Or.inr ⟨t, ht, hs⟩⟩

theorem name_of_filterSet? {t : String × String} {s : String × List String}
    (h : filterSet? t = some s) : Str.pascalCase t.1 = s.1 := by
  obtain ⟨_, -, rfl⟩ := Option.map_eq_some_iff.1 h
  rfl

theorem get?_filterSet? (t : String × String) (h : Str.pascalCase t.1 ≠ name) :
    Assoc.get? name (filterSet? t).toList = none := by
  cases ht : filterSet? t with
  | none => rfl
  | some s => exact if_neg (name_of_filterSet? ht ▸ h)

/-- without enumerations, filter types are all that declare the set -/
theorem get?_declarations (h : name ∉ ((enumerated m).map enumSet).map (·.1)) :
    Assoc.get? name (declarations m) = Assoc.get? name ((typed m).filterMap filterSet?) := by
  unfold enumerated at h
  unfold declarations typed
  revert h
  induction docRules m.documentation with
  | nil => exact fun _ => rfl
  | cons d ds ih =>
    intro h
    have hhead : Assoc.get? name ((enumDecl? d).toList.map enumSet) = none ∧
        name ∉ ((ds.filterMap enumDecl?).map enumSet).map (·.1) := by
      cases he : enumDecl? d with
      | none =>
        rw [List.filterMap_cons_none he] at h
        exact ⟨rfl, h⟩
      | some e =>
        rw [List.filterMap_cons_some he, List.map_cons, List.map_cons, List.mem_cons, not_or] at h
        exact ⟨if_neg (Ne.symm h.1), h.2⟩
    rw [List.flatMap_cons, List.flatMap_cons, List.filterMap_append, Assoc.get?_append,
      Assoc.get?_append, ih hhead.2, declaredSets, Assoc.get?_append, hhead.1, Option.none_or]

/-! ## what is left of them -/

theorem mem_settledEnums {s : String × List String} (h : s ∈ settledEnums m) :
    s ∈ (enumerated m).map enumSet := by
  obtain ⟨e, he, rfl⟩ := List.mem_map.1 (List.mem_reverse.1 h)
  exact List.mem_map_of_mem (Assoc.mem_of_mem_settled he)

/-- a set that an enumeration declares is left -/
theorem exists_mem_settledEnums (h : name ∈ ((enumerated m).map enumSet).map (·.1)) :
    ∃ vs, (name, vs) ∈ settledEnums m := by
  obtain ⟨s, hs, rfl⟩ := List.mem_map.1 h
  obtain ⟨e, he, rfl⟩ := List.mem_map.1 hs
  obtain ⟨vs, hvs⟩ := Assoc.exists_mem_settled (List.mem_map_of_mem (f := Prod.fst) he)
  exact ⟨vs, List.mem_reverse.2 (List.mem_map.2 ⟨_, hvs, rfl⟩)⟩

theorem enumSets_contextOf (b : Base) (m : Model) :
    (contextOf b m).enumSets = Assoc.settled ((Assoc.settled (enumerated m)).map enumSet) := by
  rw [Context.enumSets, rules_contextOf, enums_rulesOf]
  show _ = ((Assoc.settled (enumerated m)).map enumSet).foldl _ []
  rw [List.foldl_map]
  rfl

theorem filterSets_contextOf (b : Base) (m : Model) :
    (contextOf b m).filterSets = settledFilters m := by
  rw [Context.filterSets, rules_contextOf, customTypes_rulesOf]
  rfl

/-- the values of a set are those of the first declaration that is left -/
theorem get?_settledSets (b : Base) (m : Model) (name : String) :
    (contextOf b m).valuesOf? name = Assoc.get? name (settledSets m) := by
  rw [Context.valuesOf?, Assoc.get?_append, enumSets_contextOf, filterSets_contextOf,
    Assoc.get?_settled, settledSets, settledEnums, Assoc.get?_append]

theorem options_setOf (b : Base) (m : Model) :
    (setOf b m).value.options = (contextOf b m).optionSets.value := rfl

theorem filter_options_iff (b : Base) (m : Model) :
    (setOf b m).value.options.filter (·.name = name) = [⟨name, values⟩] ↔
      Assoc.get? name (settledSets m) = some values := by
  have hnodup : ((contextOf b m).sets.value.map (·.1)).Nodup := by
    have h := nodup_optionSets (contextOf b m)
    rwa [optionSets_eq, List.map_map] at h
  have hfilter : (setOf b m).value.options.filter (·.name = name) =
      ((contextOf b m).sets.value.filter (·.1 = name)).map fun e => ⟨e.1, e.2⟩ := by
    rw [options_setOf, optionSets_eq, List.filter_map]
    rfl
  rw [hfilter, Assoc.filter_key hnodup, get?_sets, get?_settledSets]
  cases Assoc.get? name (settledSets m) <;> simp

/-- a conflict is reported when a filter type that is left has other values than the set -/
theorem conflictWarning_mem_setOf_iff (b : Base) (m : Model) (name : String) :
    (contextOf b m).conflictWarning name ∈ (setOf b m).warnings ↔
      ∃ others, (name, others) ∈ settledFilters m ∧
        Assoc.get? name (settledSets m) ≠ some others := by
  rw [← filterSets_contextOf b m, ← get?_settledSets b m, ← conflictWarning_mem_optionSets_iff,
    ← conflictWarning_mem_iff]
  rfl

/-! ## declarations that nothing replaces -/

/-- no declaration of the set is replaced before the sets are built: the enumerations state the same
values, and each filter has one type -/
structure Unreplaced (m : Model) (name : String) (values : List String) : Prop where
  enums : ∀ k vs, (k, vs) ∈ enumerated m → optionBase k = name → vs = values
  types : ∀ f s s', (f, s) ∈ typed m → (f, s') ∈ typed m → Str.pascalCase f = name → s = s'

theorem get?_filterSets_put {t : String × String} {ts : List (String × String)}
    (h : ∀ s, (t.1, s) ∈ ts → Str.pascalCase t.1 = name → s = t.2) :
    Assoc.get? name ((Assoc.put t.1 t.2 ts).filterMap filterSet?) =
      (Assoc.get? name (ts.filterMap filterSet?)).or (Assoc.get? name (filterSet? t).toList) := by
  induction ts with
  | nil =>
    rw [Assoc.put, filterMap_filterSet?_cons]
    exact congrArg (Assoc.get? name) (List.append_nil _)
  | cons e ts ih =>
    rw [Assoc.put]
    split
    · next he =>
      rw [filterMap_filterSet?_cons, filterMap_filterSet?_cons, Assoc.get?_append,
        Assoc.get?_append]
      by_cases hn : Str.pascalCase t.1 = name
      · -- the type that is replaced is the same
        obtain rfl : e = t :=
          Prod.ext he (h e.2 (by rw [← he]; exact List.mem_cons_self) hn)
        cases Assoc.get? name (filterSet? e).toList with
        | none => exact (Option.or_none).symm
        | some vs => rfl
      · have hn' : Str.pascalCase e.1 ≠ name := by rwa [he]
        rw [get?_filterSet? (e.1, t.2) hn', get?_filterSet? e hn', get?_filterSet? t hn,
          Option.or_none]
    · rw [filterMap_filterSet?_cons, filterMap_filterSet?_cons, Assoc.get?_append,
        Assoc.get?_append, ih fun s hs => h s (List.mem_cons_of_mem _ hs), Option.or_assoc]

/-- while each filter has one type, the first filter of a set stays the first -/
theorem get?_filterSets_settled {ts : List (String × String)}
    (h : ∀ f s s', (f, s) ∈ ts → (f, s') ∈ ts → Str.pascalCase f = name → s = s') :
    Assoc.get? name ((Assoc.settled ts).filterMap filterSet?) =
      Assoc.get? name (ts.filterMap filterSet?) := by
  induction ts using List.reverseRecOn with
  | nil => rfl
  | append_singleton ts t ih =>
    have hput : Assoc.settled (ts ++ [t]) = Assoc.put t.1 t.2 (Assoc.settled ts) :=
      List.foldl_append
    have hlast : t ∈ ts ++ [t] := List.mem_append_right _ List.mem_cons_self
    have hold : ∀ s, (t.1, s) ∈ Assoc.settled ts → Str.pascalCase t.1 = name → s = t.2 :=
      fun s hs => h t.1 s t.2 (List.mem_append_left _ (Assoc.mem_of_mem_settled hs)) hlast
    rw [hput, get?_filterSets_put hold, ih fun f s s' hs hs' =>
      h f s s' (List.mem_append_left _ hs) (List.mem_append_left _ hs'), List.filterMap_append,
      Assoc.get?_append, filterMap_filterSet?_cons t [], List.filterMap_nil, List.append_nil]

namespace Unreplaced

/-- the first declaration is the first one that is left -/
theorem get?_settledSets (h : Unreplaced m name values)
    (hf : Assoc.get? name (declarations m) = some values) :
    Assoc.get? name (settledSets m) = some values := by
  rw [settledSets, Assoc.get?_append]
  by_cases hk : name ∈ ((enumerated m).map enumSet).map (·.1)
  · -- whichever enumeration counts, its values are these
    obtain ⟨vs, hvs⟩ := exists_mem_settledEnums hk
    obtain ⟨vs', hget⟩ := Assoc.exists_get? (List.mem_map_of_mem (f := Prod.fst) hvs)
    obtain ⟨⟨k, _⟩, he, hs⟩ := List.mem_map.1 (mem_settledEnums (Assoc.mem_of_get? hget))
    obtain ⟨hname, rfl⟩ := Prod.mk.inj hs
    rw [hget, Option.some_or, h.enums k _ he hname]
  · have hnone : Assoc.get? name (settledEnums m) = none := by
      refine Assoc.get?_eq_none fun hm => ?_
      obtain ⟨s, hs, rfl⟩ := List.mem_map.1 hm
      exact hk (List.mem_map_of_mem (mem_settledEnums hs))
    rw [hnone, Option.none_or, settledFilters, get?_filterSets_settled h.types,
      ← get?_declarations hk, hf]

/-- a filter type with other values is left -/
theorem mem_settledFilters (h : Unreplaced m name values) (ho : (name, others) ∈ declarations m)
    (hne : others ≠ values) : (name, others) ∈ settledFilters m := by
  rcases mem_declarations_iff.1 ho with ho | ho
  · obtain ⟨⟨k, vs⟩, he, hs⟩ := List.mem_map.1 ho
    obtain ⟨hk, rfl⟩ := Prod.mk.inj hs
    exact absurd (h.enums k vs he hk) hne
  · obtain ⟨⟨f, s⟩, ht, hs⟩ := List.mem_filterMap.1 ho
    have hf : Str.pascalCase f = name := name_of_filterSet? (t := (f, s)) hs
    exact List.mem_filterMap.2
      ⟨(f, s), Assoc.mem_settled ht fun s' hs' => h.types f s' s hs' ht hf, hs⟩

end Unreplaced

/-! ## sets -/

/-- the set has the values of its first declaration, and the others are reported -/
structure KeepsFirst (b : Base) (m : Model) (name : String) (values : List String) : Prop where
  set : (setOf b m).value.options.filter (·.name = name) = [⟨name, values⟩]
  reported : (contextOf b m).conflictWarning name ∈ (setOf b m).warnings

theorem keepsFirst_iff (b : Base) (m : Model) :
    KeepsFirst b m name values ↔ Assoc.get? name (settledSets m) = some values ∧
      ∃ others, (name, others) ∈ settledFilters m ∧ others ≠ values := by
  constructor
  · rintro ⟨hset, hreported⟩
    have hget := (filter_options_iff b m).1 hset
    obtain ⟨others, hm, hne⟩ := (conflictWarning_mem_setOf_iff b m name).1 hreported
    exact ⟨hget, others, hm, fun he => hne (he ▸ hget)⟩
  · rintro ⟨hget, others, hm, hne⟩
    refine ⟨(filter_options_iff b m).2 hget,
      (conflictWarning_mem_setOf_iff b m name).2 ⟨others, hm, fun he => hne ?_⟩⟩
    exact Option.some.inj (he.symm.trans hget)

/-- **Conflicting declarations.**  When directives declare an option set with different values, it
has the values of the first one and the conflict is reported if and only if the first one is the
first that is left, and a filter type that is left has other values.  This is so while no declaration
of the set is replaced.  Conflicts of enumerations alone are never reported. -/
theorem first_set_kept_iff (b : Base) (m : Model) {name : String} {values : List String}
    (hf : Assoc.get? name (declarations m) = some values)
    (hc : ∃ others, (name, others) ∈ declarations m ∧ others ≠ values) :
    (KeepsFirst b m name values ↔ Assoc.get? name (settledSets m) = some values ∧
      ∃ others, (name, others) ∈ settledFilters m ∧ others ≠ values) ∧
    (Unreplaced m name values → KeepsFirst b m name values) ∧
    ((∀ f s, (f, s) ∈ typed m → Str.pascalCase f ≠ name) →
      (contextOf b m).conflictWarning name ∉ (setOf b m).warnings) := by
  refine ⟨keepsFirst_iff b m, fun h => ?kept, fun h => ?silent⟩
  case kept =>
    obtain ⟨others, ho, hne⟩ := hc
    exact (keepsFirst_iff b m).2 ⟨h.get?_settledSets hf, others, h.mem_settledFilters ho hne, hne⟩
  case silent =>
    rw [conflictWarning_mem_setOf_iff]
    rintro ⟨others, ho, -⟩
    obtain ⟨⟨f, s⟩, ht, hs⟩ := List.mem_filterMap.1 ho
    exact h f s (Assoc.mem_of_mem_settled ht) (name_of_filterSet? (t := (f, s)) hs)

/-- The enumeration is kept, and the two filters of its name are reported. -/
theorem first_set_kept_sort :
    Assoc.get? "Sort" (declarations album) = some ["new", "old"] ∧
      ("Sort", ["new"]) ∈ declarations album ∧ ["new"] ≠ ["new", "old"] ∧
      KeepsFirst albumBase album "Sort" ["new", "old"] := by
  have hrules : docRules album.documentation =
      [⟨"enum.SortEnum", "[\"new\", \"old\"]"⟩, ⟨"list.customFilterTypes",
        "\x7b\"sort\": \"enum(['new'])\", \"_sort\": \"enum(['a'])\"\x7d"⟩] := by
    decide +kernel
  have henums : enumerated album = [("SortEnum", ["new", "old"])] := by
    rw [enumerated, hrules]
    decide +kernel
  have htypes : typed album = [("sort", "enum(['new'])"), ("_sort", "enum(['a'])")] := by
    rw [typed, hrules]
    decide +kernel
  have hdecl : declarations album =
      [("Sort", ["new", "old"]), ("Sort", ["new"]), ("Sort", ["a"])] := by
    rw [declarations, hrules]
    decide +kernel
  have hf : Assoc.get? "Sort" (declarations album) = some ["new", "old"] := by
    rw [hdecl]
    rfl
  have hm : ("Sort", ["new"]) ∈ declarations album := by
    rw [hdecl]
    decide
  have hu : Unreplaced album "Sort" ["new", "old"] := by
    refine ⟨fun k vs he _ => ?_, fun f s s' hs hs' _ => ?_⟩
    · rw [henums, List.mem_singleton] at he
      exact (Prod.mk.inj he).2
    · rw [htypes] at hs hs'
      simp only [List.mem_cons, List.not_mem_nil, or_false, Prod.mk.injEq] at hs hs'
      rcases hs with ⟨rfl, rfl⟩ | ⟨rfl, rfl⟩
      · rcases hs' with ⟨-, rfl⟩ | ⟨hf, -⟩
        · rfl
        · exact absurd hf (by decide)
      · rcases hs' with ⟨hf, -⟩ | ⟨-, rfl⟩
        · exact absurd hf (by decide)
        · rfl
  have hne : ["new"] ≠ ["new", "old"] := by decide
  exact ⟨hf, hm, hne, (first_set_kept_iff albumBase album hf ⟨_, hm, hne⟩).2.1 hu⟩

/-- a model with two enumerations of one set, a filter with two types, and a filter before an
enumeration of its set -/
def draft : Model :=
  { name := "Draft"
    documentation := some ("@crud.enum.Status([\"draft\"]) @crud.enum.StatusEnum([\"live\"])\n" ++
      "@crud.list.customFilterTypes(\x7b\"kind\": \"enum(['a'])\", \"mood\": \"enum(['x'])\"\x7d)\n" ++
      "@crud.list.customFilterTypes(\x7b\"kind\": \"enum(['b'])\"\x7d) @crud.enum.Mood([\"y\"])")
    fields := [{ name := "id", type := "Int", isId := true }] }

def draftBase : Base := ⟨{ crudSchemas := true }, { models := [draft] }, false, none⟩

/-- Of every set the last values are kept, and two of the sets are replaced in silence. -/
theorem first_set_replaced :
    declarations draft = [("Status", ["draft"]), ("Status", ["live"]), ("Kind", ["a"]),
        ("Mood", ["x"]), ("Kind", ["b"]), ("Mood", ["y"])] ∧
      (setOf draftBase draft).value.options =
        [⟨"Status", ["live"]⟩, ⟨"Mood", ["y"]⟩, ⟨"Kind", ["b"]⟩] ∧
      ∀ name, (contextOf draftBase draft).conflictWarning name ∈ (setOf draftBase draft).warnings ↔
        name = "Mood" := by
  have hrules : docRules draft.documentation =
      [⟨"enum.Status", "[\"draft\"]"⟩, ⟨"enum.StatusEnum", "[\"live\"]"⟩,
        ⟨"list.customFilterTypes",
          "\x7b\"kind\": \"enum(['a'])\", \"mood\": \"enum(['x'])\"\x7d"⟩,
        ⟨"list.customFilterTypes", "\x7b\"kind\": \"enum(['b'])\"\x7d"⟩,
        ⟨"enum.Mood", "[\"y\"]"⟩] := by
    decide +kernel
  have henums : enumerated draft =
      [("Status", ["draft"]), ("StatusEnum", ["live"]), ("Mood", ["y"])] := by
    rw [enumerated, hrules]
    decide +kernel
  have htypes : typed draft =
      [("kind", "enum(['a'])"), ("mood", "enum(['x'])"), ("kind", "enum(['b'])")] := by
    rw [typed, hrules]
    decide +kernel
  have hfilters : settledFilters draft = [("Kind", ["b"]), ("Mood", ["x"])] := by
    rw [settledFilters, htypes]
    decide +kernel
  have hleft : settledEnums draft =
      [("Mood", ["y"]), ("Status", ["live"]), ("Status", ["draft"])] := by
    rw [settledEnums, henums]
    decide +kernel
  refine ⟨?declared, ?options, fun name => ?reported⟩
  case declared =>
    rw [declarations, hrules]
    decide +kernel
  case options =>
    rw [options_setOf, Context.optionSets, rules_contextOf, enums_rulesOf, customTypes_rulesOf,
      henums, htypes]
    decide +kernel
  case reported =>
    rw [conflictWarning_mem_setOf_iff, settledSets, hleft, hfilters]
    constructor
    · rintro ⟨others, ho, hne⟩
      simp only [List.mem_cons, List.not_mem_nil, or_false, Prod.mk.injEq] at ho
      rcases ho with ⟨rfl, rfl⟩ | ⟨rfl, -⟩
      · exact absurd (by decide) hne
      · rfl
    · rintro rfl
      exact ⟨["x"], by decide, by decide⟩

end ZodSchema.Crud
