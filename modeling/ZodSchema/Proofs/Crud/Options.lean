import Mathlib.Data.List.TakeWhile
import ZodSchema.Proofs.Crud.Declarations
import ZodSchema.Proofs.Crud.Keys
import ZodSchema.Proofs.Crud.Names
import ZodSchema.Proofs.Text.Words

/-!
# Option sets

A filter type that enumerates its values refers to an option set.  Sets come from the enumerations
of the rules first, then from the filter types, and the first one of a name is kept.

* `get?_foldl_addFilterOptions`       the set of a name
* `warnings_foldl_addFilterOptions`   the filters that are reported
* `space_not_mem_names`               the names of the sets, with no space in them
* `filter_lines_options`              the line that declares a set
* `option_set_declared`               every set that a filter refers to is declared once
-/

namespace ZodSchema

namespace Crud

open Text TypeScript

variable {x : Context} {m : Model} {n : String}

/-! ## names of enumerations -/

/-- the key of a directive has no space, and so the name of an enumeration has none -/
theorem space_not_mem_enums (m : Model) : ∀ n ∈ (rulesOf m).enums.map (·.1), ' ' ∉ n.toList := by
  intro n hn
  rw [enums_rulesOf] at hn
  obtain ⟨e, he, rfl⟩ := List.mem_map.1 hn
  obtain ⟨d, hd, he⟩ := List.mem_filterMap.1 (Assoc.mem_of_mem_settled he)
  obtain ⟨name, hname, rfl⟩ := Option.map_eq_some_iff.1 he
  have hkey := space_not_mem_docRules hd
  rw [dropStart?_eq_some_iff.1 hname, List.mem_append, not_or] at hkey
  rw [String.toList_ofList]
  exact hkey.2

/-! ## sets -/

namespace Context

/-- the option set of a filter type, with the items that it enumerates -/
def filterSet? (t : String × String) : Option (String × List String) :=
  (enumShape? t.2).map fun inner =>
    (Str.pascalCase t.1, (quotedItemsFrom 0 inner).map String.ofList)

/-- the sets that the filter types of the rules ask for -/
def filterSets (x : Context) : List (String × List String) :=
  x.rules.list.customTypes.filterMap filterSet?

/-- the sets that the enumerations of the rules declare; the last one of a name counts -/
def enumSets (x : Context) : List (String × List String) :=
  x.rules.enums.foldl (fun acc e => Assoc.put (optionBase e.1) e.2 acc) []

/-- the values of the set of a name: those of an enumeration, otherwise those of the first filter -/
def valuesOf? (x : Context) (name : String) : Option (List String) :=
  Assoc.get? name (x.enumSets ++ x.filterSets)

def conflictWarning (x : Context) (name : String) : String :=
  "Option set '" ++ name ++ "Options' on model '" ++ x.model.name ++
    "' is declared twice with different values; keeping the first."

variable {acc : Reported (List (String × List String))} {t : String × String}
  {s : String × List String}

theorem addFilterOptions_of_none (h : filterSet? t = none) : x.addFilterOptions acc t = acc := by
  have he : enumShape? t.2 = none := Option.map_eq_none_iff.1 h
  unfold addFilterOptions
  rw [he]

theorem addFilterOptions_of_some (h : filterSet? t = some s) :
    x.addFilterOptions acc t =
      match Assoc.get? s.1 acc.value with
      | some old =>
        if old = s.2 then acc
        else { acc with warnings := acc.warnings ++ [x.conflictWarning s.1] }
      | none => { acc with value := acc.value ++ [s] } := by
  obtain ⟨inner, he, rfl⟩ := Option.map_eq_some_iff.1 h
  unfold addFilterOptions
  rw [he]
  rfl

/-- the set of a filter is taken up unless its name has one -/
theorem get?_addFilterOptions (x : Context) (acc : Reported (List (String × List String)))
    (t : String × String) (name : String) :
    Assoc.get? name (x.addFilterOptions acc t).value =
      (Assoc.get? name acc.value).or (Assoc.get? name (filterSet? t).toList) := by
  cases h : filterSet? t with
  | none =>
    rw [addFilterOptions_of_none h]
    exact (Option.or_none).symm
  | some s =>
    rw [addFilterOptions_of_some h]
    cases hs : Assoc.get? s.1 acc.value with
    | none =>
      dsimp only
      rw [Assoc.get?_append]
      rfl
    | some old =>
      have hkeep : Assoc.get? name acc.value =
          (Assoc.get? name acc.value).or (Assoc.get? name [s]) := by
        by_cases hn : s.1 = name
        · rw [← hn, hs, Option.some_or]
        · have hnone : Assoc.get? name [s] = none := if_neg hn
          rw [hnone, Option.or_none]
      dsimp only
      split
      · exact hkeep
      · exact hkeep

theorem filterMap_filterSet?_cons (t : String × String) (ts : List (String × String)) :
    (t :: ts).filterMap filterSet? = (filterSet? t).toList ++ ts.filterMap filterSet? := by
  cases h : filterSet? t with
  | none => exact List.filterMap_cons_none h
  | some s => exact List.filterMap_cons_some h

theorem get?_foldl_addFilterOptions (x : Context) (ts : List (String × String))
    (acc : Reported (List (String × List String))) (name : String) :
    Assoc.get? name (ts.foldl x.addFilterOptions acc).value =
      (Assoc.get? name acc.value).or (Assoc.get? name (ts.filterMap filterSet?)) := by
  induction ts generalizing acc with
  | nil => exact (Option.or_none).symm
  | cons t ts ih =>
    rw [List.foldl_cons, ih, get?_addFilterOptions, filterMap_filterSet?_cons, Assoc.get?_append,
      Option.or_assoc]

/-- a filter whose set has other values is reported -/
theorem warnings_addFilterOptions (x : Context) (acc : Reported (List (String × List String)))
    (t : String × String) :
    (x.addFilterOptions acc t).warnings = acc.warnings ++
      ((filterSet? t).toList.filter fun s =>
        Assoc.get? s.1 (x.addFilterOptions acc t).value != some s.2).map
          fun s => x.conflictWarning s.1 := by
  cases h : filterSet? t with
  | none =>
    rw [addFilterOptions_of_none h]
    exact (List.append_nil _).symm
  | some s =>
    have hget := get?_addFilterOptions x acc t s.1
    rw [h] at hget
    have hself : Assoc.get? s.1 (some s).toList = some s.2 := if_pos rfl
    rw [hself] at hget
    rw [Option.toList_some, List.filter_singleton, hget, addFilterOptions_of_some h]
    cases hs : Assoc.get? s.1 acc.value with
    | none => simp
    | some old =>
      dsimp only
      by_cases ho : old = s.2
      · simp [ho]
      · have hne : (some old != some s.2) = true := by simpa using ho
        rw [if_neg ho, Option.some_or, hne]
        rfl

theorem warnings_foldl_addFilterOptions (x : Context) (ts : List (String × String))
    (acc : Reported (List (String × List String))) :
    (ts.foldl x.addFilterOptions acc).warnings = acc.warnings ++
      ((ts.filterMap filterSet?).filter fun s =>
        Assoc.get? s.1 (ts.foldl x.addFilterOptions acc).value != some s.2).map
          fun s => x.conflictWarning s.1 := by
  induction ts generalizing acc with
  | nil => exact (List.append_nil _).symm
  | cons t ts ih =>
    -- the set of this filter stays what it is
    have hkeep : ∀ s ∈ (filterSet? t).toList,
        Assoc.get? s.1 (ts.foldl x.addFilterOptions (x.addFilterOptions acc t)).value =
          Assoc.get? s.1 (x.addFilterOptions acc t).value := by
      intro s hs
      have hself : Assoc.get? s.1 (filterSet? t).toList = some s.2 := by
        rw [Option.mem_toList.1 hs]
        exact if_pos rfl
      rw [get?_foldl_addFilterOptions, get?_addFilterOptions, hself]
      cases Assoc.get? s.1 acc.value <;> rfl
    rw [List.foldl_cons, ih, warnings_addFilterOptions, filterMap_filterSet?_cons,
      List.filter_append, List.map_append, List.append_assoc]
    congr 3
    refine List.filter_congr fun s hs => ?_
    rw [hkeep s hs]

/-! ## the sets of a model -/

/-- the sets that are declared, with what is reported -/
def sets (x : Context) : Reported (List (String × List String)) :=
  x.rules.list.customTypes.foldl x.addFilterOptions ⟨x.enumSets, []⟩

theorem optionSets_eq (x : Context) :
    x.optionSets = ⟨x.sets.value.map fun e => ⟨e.1, e.2⟩, x.sets.warnings⟩ := rfl

theorem get?_sets (x : Context) (name : String) :
    Assoc.get? name x.sets.value = x.valuesOf? name := by
  rw [sets, get?_foldl_addFilterOptions, valuesOf?, Assoc.get?_append]
  rfl

theorem mem_optionSets {values : List String} (h : x.valuesOf? n = some values) :
    ⟨n, values⟩ ∈ x.optionSets.value := by
  rw [← get?_sets] at h
  exact List.mem_map.2 ⟨(n, values), Assoc.mem_of_get? h, rfl⟩

theorem warnings_optionSets (x : Context) :
    x.optionSets.warnings =
      (x.filterSets.filter fun s => x.valuesOf? s.1 != some s.2).map
        fun s => x.conflictWarning s.1 := by
  have hw := warnings_foldl_addFilterOptions x x.rules.list.customTypes ⟨x.enumSets, []⟩
  have hget : ∀ name, Assoc.get? name
      (x.rules.list.customTypes.foldl x.addFilterOptions ⟨x.enumSets, []⟩).value =
        x.valuesOf? name := x.get?_sets
  simp only [hget, List.nil_append] at hw
  exact hw

theorem conflictWarning_injective (x : Context) : Function.Injective x.conflictWarning := by
  intro n n' h
  unfold conflictWarning at h
  simp only [String.append_assoc] at h
  have h := (String.append_right_inj _).1 h
  exact (String.append_left_inj _).1 h

/-- the set of a filter is there -/
theorem exists_valuesOf? (h : s ∈ x.filterSets) : ∃ values, x.valuesOf? s.1 = some values := by
  have hs : s.1 ∈ (x.enumSets ++ x.filterSets).map (·.1) :=
    List.mem_map_of_mem (List.mem_append_right _ h)
  cases hv : x.valuesOf? s.1 with
  | none => exact absurd hs (Assoc.not_mem_keys hv)
  | some values => exact ⟨values, rfl⟩

/-- a set is reported when some filter has other values -/
theorem conflictWarning_mem_optionSets_iff (x : Context) (n : String) :
    x.conflictWarning n ∈ x.optionSets.warnings ↔
      ∃ others, (n, others) ∈ x.filterSets ∧ x.valuesOf? n ≠ some others := by
  rw [warnings_optionSets, List.mem_map]
  constructor
  · rintro ⟨⟨n', others⟩, hm, he⟩
    obtain rfl := conflictWarning_injective x he
    obtain ⟨hm, hne⟩ := List.mem_filter.1 hm
    exact ⟨others, hm, bne_iff_ne.1 hne⟩
  · rintro ⟨others, hm, hne⟩
    exact ⟨(n, others), List.mem_filter.2 ⟨hm, bne_iff_ne.2 hne⟩, rfl⟩

theorem mem_warnings_optionSets {values : List String} (h : x.valuesOf? n = some values) :
    x.conflictWarning n ∈ x.optionSets.warnings ↔
      ∃ others, (n, others) ∈ x.filterSets ∧ others ≠ values := by
  rw [conflictWarning_mem_optionSets_iff, h]
  simp only [ne_eq, Option.some.injEq, eq_comm]

/-! ## other warnings

A warning of option sets begins with a letter that no other warning of a model begins with. -/

theorem head_conflictWarning (x : Context) (name : String) :
    (x.conflictWarning name).toList.head? = some 'O' := by
  unfold conflictWarning
  simp only [String.append_assoc]
  exact Str.head?_append (by decide) _

theorem head_optionSets : ∀ w ∈ x.optionSets.warnings, w.toList.head? = some 'O' := by
  intro w hw
  rw [warnings_optionSets] at hw
  obtain ⟨s, -, rfl⟩ := List.mem_map.1 hw
  exact head_conflictWarning x s.1

theorem head_sort : ∀ w ∈ x.sort.warnings, w.toList.head? = some '@' := by
  intro w hw
  unfold Context.sort at hw
  dsimp only at hw
  split at hw
  · cases hw
  · split at hw
    · cases hw
    · split at hw
      · cases hw
      · dsimp only at hw
        split at hw
        · cases hw
        · rw [List.mem_singleton.1 hw]
          simp only [String.append_assoc]
          exact Str.head?_append (by decide) _

theorem head_unknownWarning (x : Context) (directive name : String) :
    (x.unknownWarning directive name).toList.head? = some 'U' := by
  unfold Context.unknownWarning
  simp only [String.append_assoc]
  exact Str.head?_append (by decide) _

theorem head_unknownWarnings : ∀ w ∈ x.unknownWarnings, w.toList.head? = some 'U' := by
  intro w hw
  obtain ⟨e, -, rfl⟩ := List.mem_map.1 hw
  exact head_unknownWarning x e.1 e.2

/-- a conflict of option sets is reported by the option sets alone -/
theorem conflictWarning_mem_iff (x : Context) (name : String) :
    x.conflictWarning name ∈ x.crudSet.warnings ↔ x.conflictWarning name ∈ x.optionSets.warnings := by
  have hhead := head_conflictWarning x name
  obtain ⟨hp, he⟩ := crudSet_warnings x
  rw [hp.mem_iff, he, List.mem_append, List.mem_append]
  constructor
  · rintro (hw | hw | hw)
    · exact absurd ((head_unknownWarnings _ hw).symm.trans hhead) (by decide)
    · exact hw
    · exact absurd ((head_sort _ hw).symm.trans hhead) (by decide)
  · exact fun hw => Or.inr (Or.inl hw)

/-! ## names of sets -/

theorem space_not_mem_optionBase {n : String} (h : ' ' ∉ n.toList) :
    ' ' ∉ (optionBase n).toList := by
  unfold optionBase
  split
  · rw [Str.dropLast, String.toList_ofList]
    exact fun hm => h (List.mem_of_mem_take hm)
  · exact h

theorem space_not_mem_sets (h : ∀ n ∈ x.rules.enums.map (·.1), ' ' ∉ n.toList) :
    ∀ n ∈ x.sets.value.map (·.1), ' ' ∉ n.toList := by
  have hdeclared : ∀ n ∈ x.enumSets.map (·.1), ' ' ∉ n.toList := by
    refine List.foldlRecOn
      (motive := fun es : List (String × List String) => ∀ n ∈ es.map (·.1), ' ' ∉ n.toList)
      _ _ ?_ ?_
    · exact List.forall_mem_nil _
    · intro es hes e he n hn
      rcases Assoc.mem_keys_put_iff.1 hn with rfl | hn
      · exact space_not_mem_optionBase (h _ (List.mem_map_of_mem he))
      · exact hes n hn
  refine List.foldlRecOn
    (motive := fun acc : Reported (List (String × List String)) =>
      ∀ n ∈ acc.value.map (·.1), ' ' ∉ n.toList) _ _ ?_ ?_
  · exact hdeclared
  intro acc hacc t _ n hn
  cases ht : filterSet? t with
  | none =>
    rw [addFilterOptions_of_none ht] at hn
    exact hacc n hn
  | some s =>
    have hname : s.1 = Str.pascalCase t.1 := by
      obtain ⟨_, -, rfl⟩ := Option.map_eq_some_iff.1 ht
      rfl
    rw [addFilterOptions_of_some ht] at hn
    split at hn
    · split at hn <;> exact hacc n hn
    · rw [List.map_append, List.mem_append, List.map_singleton, List.mem_singleton] at hn
      rcases hn with hn | rfl
      · exact hacc n hn
      · rw [hname]
        exact space_not_mem_pascalCase t.1

theorem space_not_mem_names (b : Base) (m : Model) :
    ∀ o ∈ (contextOf b m).optionSets.value, ' ' ∉ o.name.toList := by
  intro o ho
  rw [optionSets_eq] at ho
  obtain ⟨e, he, rfl⟩ := List.mem_map.1 ho
  exact space_not_mem_sets (space_not_mem_enums m) _ (List.mem_map_of_mem he)

end Context

/-! ## lines -/

/-- how a line begins that declares a set -/
def optionOpening (name : String) : String := "export const " ++ name ++ "Options = "

def OptionSet.line (o : OptionSet) : String :=
  optionOpening o.name ++ quoteAll o.values ++ " as const;"

theorem lines_option (o : OptionSet) : o.stmts.flatMap Stmt.lines =
    [o.line, "export type " ++ o.name ++ " = " ++ ("(typeof " ++ o.constant ++ ")[number]") ++ ";"] := by
  have hl : o.line = "export const " ++ o.constant ++ " = " ++ (quoteAll o.values ++ " as const;") := by
    unfold OptionSet.line optionOpening OptionSet.constant
    have he : "Options = " = "Options" ++ " = " := rfl
    rw [he]
    simp only [String.append_assoc]
  rw [hl]
  rfl

theorem toList_optionOpening (name : String) : (optionOpening name).toList =
    "export const ".toList ++ ((name ++ "Options").toList ++ ' ' :: "= ".toList) := by
  have he : ("Options = " : String).toList = "Options".toList ++ ' ' :: "= ".toList := by decide
  unfold optionOpening
  simp only [String.toList_append, he, List.append_assoc]

/-- a name without a space ends where it seems to -/
theorem eq_of_options_append {n n' : String} (h : ' ' ∉ n.toList) (h' : ' ' ∉ n'.toList)
    {r r' : List Char}
    (he : (n ++ "Options").toList ++ ' ' :: r = (n' ++ "Options").toList ++ ' ' :: r') : n = n' := by
  have hrun : ∀ {name : String}, ' ' ∉ name.toList →
      ∀ c ∈ (name ++ "Options").toList, (c != ' ') = true := by
    intro name h c hc
    rw [bne_iff_ne]
    rintro rfl
    rw [String.toList_append, List.mem_append] at hc
    exact hc.elim h (by decide)
  have ht := congrArg (List.takeWhile (· != ' ')) he
  rw [takeWhile_run (hrun h) (by decide), takeWhile_run (hrun h') (by decide)] at ht
  exact (String.append_left_inj _).1 (String.toList_inj.1 ht)

theorem startsWith_line_iff {o : OptionSet} (ho : ' ' ∉ o.name.toList) (hn : ' ' ∉ n.toList) :
    Str.startsWith o.line (optionOpening n) = true ↔ o.name = n := by
  rw [Str.startsWith_iff, OptionSet.line, String.append_assoc, String.toList_append]
  constructor
  · rintro ⟨r, hr⟩
    rw [toList_optionOpening, toList_optionOpening] at hr
    simp only [List.append_assoc, List.cons_append, List.append_cancel_left_eq] at hr
    exact eq_of_options_append ho hn hr
  · rintro rfl
    exact ⟨_, rfl⟩

theorem startsWith_typeLine (o : OptionSet) (n : String) :
    Str.startsWith
      ("export type " ++ o.name ++ " = " ++ ("(typeof " ++ o.constant ++ ")[number]") ++ ";")
      (optionOpening n) = false := by
  rw [← Bool.not_eq_true, Str.startsWith_iff]
  rintro ⟨r, hr⟩
  -- the first letter behind `export`
  rw [toList_optionOpening] at hr
  have h := congrArg (fun cs : List Char => cs[7]?) hr
  simp only [String.toList_append, List.append_assoc] at h
  rw [List.getElem?_append_left (by decide), List.getElem?_append_left (by decide)] at h
  exact absurd h (by decide)

theorem filter_lines_option {o : OptionSet} (ho : ' ' ∉ o.name.toList) (hn : ' ' ∉ n.toList) :
    (o.stmts.flatMap Stmt.lines).filter (Str.startsWith · (optionOpening n)) =
      if o.name = n then [o.line] else [] := by
  have hline := startsWith_line_iff ho hn
  simp only [lines_option, List.filter_cons, List.filter_nil, startsWith_typeLine, hline,
    Bool.false_eq_true, if_false]

/-- of the lines of sets with different names, one declares a set -/
theorem filter_lines_options {os : List OptionSet} {o : OptionSet} (hn : (os.map (·.name)).Nodup)
    (hs : ∀ o ∈ os, ' ' ∉ o.name.toList) (ho : o ∈ os) :
    ((os.flatMap OptionSet.stmts).flatMap Stmt.lines).filter
      (Str.startsWith · (optionOpening o.name)) = [o.line] := by
  have hspace := hs o ho
  have hother : ∀ os' : List OptionSet, (∀ o' ∈ os', ' ' ∉ o'.name.toList) →
      o.name ∉ os'.map (·.name) → ((os'.flatMap OptionSet.stmts).flatMap Stmt.lines).filter
        (Str.startsWith · (optionOpening o.name)) = [] := by
    intro os' hs' hno
    rw [List.flatMap_assoc, List.filter_flatMap, List.flatMap_eq_nil_iff]
    intro o' ho'
    rw [filter_lines_option (hs' o' ho') hspace, if_neg]
    exact fun he => hno (he ▸ List.mem_map_of_mem ho')
  induction os with
  | nil => cases ho
  | cons o' os ih =>
    obtain ⟨hnew, hn⟩ := List.nodup_cons.1 hn
    obtain ⟨hhead, htail⟩ := List.forall_mem_cons.1 hs
    rw [List.flatMap_cons, List.flatMap_append, List.filter_append,
      filter_lines_option hhead hspace]
    rcases List.mem_cons.1 ho with rfl | ho
    · rw [if_pos rfl, hother os htail hnew, List.append_nil]
    · have hne : o'.name ≠ o.name := fun he => hnew (List.mem_map.2 ⟨o, ho, he.symm⟩)
      rw [if_neg hne, List.nil_append, ih hn htail ho]

/-! ## filters -/

namespace Context

variable {shape : String} {s : String × List String}

/-- the check of a filter whose type enumerates its values -/
theorem customFilter_of_filterSet? (ht : Assoc.get? n x.rules.list.customTypes = some shape)
    (hs : filterSet? (n, shape) = some s) :
    x.customFilter n = "z.enum(" ++ s.1 ++ "Options).optional()" := by
  obtain ⟨inner, he, rfl⟩ := Option.map_eq_some_iff.1 hs
  unfold customFilter
  rw [ht]
  dsimp only
  rw [he]
  rfl

theorem mem_filterSets (ht : Assoc.get? n x.rules.list.customTypes = some shape)
    (hs : filterSet? (n, shape) = some s) : s ∈ x.filterSets :=
  List.mem_filterMap.2 ⟨(n, shape), Assoc.mem_of_get? ht, hs⟩

theorem mem_custom_iff (ht : Assoc.get? n x.rules.list.customTypes = some shape)
    (hs : filterSet? (n, shape) = some s) (expr : String) :
    (n, expr) ∈ x.whereBlock.value.custom ↔ expr = "z.enum(" ++ s.1 ++ "Options).optional()" := by
  have hn : n ∈ x.customNames :=
    mem_customNames.2 (Or.inr (List.mem_map_of_mem (Assoc.mem_of_get? ht)))
  rw [← customFilter_of_filterSet? ht hs]
  show (n, expr) ∈ x.customNames.map _ ↔ _
  rw [List.mem_map]
  constructor
  · rintro ⟨n', -, he⟩
    obtain ⟨rfl, rfl⟩ := Prod.mk.inj he
    rfl
  · rintro rfl
    exact ⟨n, hn, rfl⟩

theorem filter_listBlock (ht : Assoc.get? n x.rules.list.customTypes = some shape) :
    x.listBlock.value.filter = some x.whereBlock.value := by
  have hne : x.rules.list.customTypes ≠ [] := by
    intro he
    rw [he] at ht
    cases ht
  have hwhere : x.rules.list.hasWhere = true := by
    unfold ListRules.hasWhere
    simp [hne]
  unfold listBlock
  rw [if_pos hwhere]

end Context

theorem rules_contextOf (b : Base) (m : Model) : (contextOf b m).rules = rulesOf m := rfl

theorem line_mem_where {w : WhereBlock} {f : String × String} (hf : f ∈ w.custom) :
    "    " ++ Text.key f.1 ++ ": " ++ f.2 ++ "," ∈ w.stmts.flatMap Stmt.lines := by
  unfold WhereBlock.stmts
  simp only [List.flatMap_cons, List.flatMap_nil, List.append_nil, Stmt.lines, List.mem_cons,
    List.mem_append]
  exact Or.inr (Or.inl (Or.inl (Or.inr (List.mem_map_of_mem hf))))

/-- **Option sets.**  A filter whose type enumerates its values is written with the set of its name,
and one line declares this set among the sets of the model.  The values are those that an enumeration
states, otherwise those of the first filter that has the name; it is reported when these are other
values than those of the filter, and not unless some filter of the name has other values. -/
theorem option_set_declared (b : Base) (m : Model) {name shape : String}
    {s : String × List String} (ht : Assoc.get? name (rulesOf m).list.customTypes = some shape)
    (hs : Context.filterSet? (name, shape) = some s) :
    let x := contextOf b m
    let r := setOf b m
    let expr := "z.enum(" ++ s.1 ++ "Options).optional()"
    (∃ w, r.value.list.filter = some w ∧ (∀ e, (name, e) ∈ w.custom ↔ e = expr) ∧
      "    " ++ Text.key name ++ ": " ++ expr ++ "," ∈ (r.value.stmts .list).flatMap Stmt.lines) ∧
    ∃ values, x.valuesOf? s.1 = some values ∧
      ((r.value.options.flatMap OptionSet.stmts).flatMap Stmt.lines).filter
          (Str.startsWith · ("export const " ++ s.1 ++ "Options = ")) =
        ["export const " ++ s.1 ++ "Options = " ++ quoteAll values ++ " as const;"] ∧
      (values ≠ s.2 → x.conflictWarning s.1 ∈ r.warnings) ∧
      (x.conflictWarning s.1 ∈ x.optionSets.warnings ↔
        ∃ others, (s.1, others) ∈ x.filterSets ∧ others ≠ values) := by
  intro x r expr
  have hmem : s ∈ x.filterSets := Context.mem_filterSets ht hs
  obtain ⟨values, hv⟩ := Context.exists_valuesOf? hmem
  have hset : ⟨s.1, values⟩ ∈ x.optionSets.value := Context.mem_optionSets hv
  have hreport := Context.mem_warnings_optionSets hv
  refine ⟨⟨x.whereBlock.value, ?filter, Context.mem_custom_iff ht hs, ?line⟩,
    values, hv, ?declared, ?reported, hreport⟩
  case filter => exact Context.filter_listBlock ht
  case line =>
    have hline := line_mem_where ((Context.mem_custom_iff (x := x) ht hs expr).2 rfl)
    show _ ∈ (x.listBlock.value.stmts).flatMap Stmt.lines
    rw [ListBlock.stmts, Context.filter_listBlock (x := x) ht, List.flatMap_append,
      List.flatMap_append]
    exact List.mem_append_left _ (List.mem_append_left _ hline)
  case declared =>
    have hoptions : r.value.options = x.optionSets.value := rfl
    have hone := filter_lines_options (nodup_optionSets x) (Context.space_not_mem_names b m) hset
    rw [hoptions]
    unfold OptionSet.line optionOpening at hone
    exact hone
  case reported =>
    intro hne
    have hw := hreport.2 ⟨s.2, hmem, Ne.symm hne⟩
    show _ ∈ x.optionSets.warnings ++ _ ++ _ ++ _
    rw [List.append_assoc, List.append_assoc]
    exact List.mem_append_left _ hw

/-- a model with an enumeration and two filters of one name in Pascal case -/
def album : Model :=
  { name := "Album"
    documentation := some ("@crud.enum.SortEnum([\"new\", \"old\"])\n" ++
      "@crud.list.customFilterTypes(\x7b\"sort\": \"enum(['new'])\", \"_sort\": \"enum(['a'])\"\x7d)")
    fields := [{ name := "id", type := "Int", isId := true }] }

def albumBase : Base := ⟨{ crudSchemas := true }, { models := [album] }, false, none⟩

/-- The first filter gives way to the enumeration, and this is reported. -/
theorem option_set_declared_sort :
    (contextOf albumBase album).filterSets = [("Sort", ["new"]), ("Sort", ["a"])] ∧
      (((setOf albumBase album).value.options.flatMap OptionSet.stmts).flatMap Stmt.lines).filter
          (Str.startsWith · ("export const " ++ "Sort" ++ "Options = ")) =
        ["export const " ++ "Sort" ++ "Options = " ++ quoteAll ["new", "old"] ++ " as const;"] ∧
      (contextOf albumBase album).conflictWarning "Sort" ∈ (setOf albumBase album).warnings := by
  have hrules : ((rulesOf album).enums, (rulesOf album).list.customTypes) =
      ([("SortEnum", ["new", "old"])], [("sort", "enum(['new'])"), ("_sort", "enum(['a'])")]) := by
    decide +kernel
  obtain ⟨henums, htypes⟩ := Prod.mk.inj hrules
  have hdeclared : (contextOf albumBase album).enumSets = [("Sort", ["new", "old"])] := by
    rw [Context.enumSets, rules_contextOf, henums]
    decide +kernel
  have hfilters : (contextOf albumBase album).filterSets = [("Sort", ["new"]), ("Sort", ["a"])] := by
    rw [Context.filterSets, rules_contextOf, htypes]
    decide +kernel
  have ht : Assoc.get? "sort" (rulesOf album).list.customTypes = some "enum(['new'])" := by
    rw [htypes]
    rfl
  have hs : Context.filterSet? ("sort", "enum(['new'])") = some ("Sort", ["new"]) := by
    decide +kernel
  obtain ⟨-, values, hv, hline, hw, -⟩ := option_set_declared albumBase album ht hs
  unfold Context.valuesOf? at hv
  rw [hdeclared, hfilters] at hv
  obtain rfl : ["new", "old"] = values := Option.some.inj hv
  exact ⟨hfilters, hline, hw (by decide)⟩

end Crud

end ZodSchema
