import ZodSchema.Proofs.Crud.File

/-!
# Keys of the base schema

Layers and CRUD blocks speak of the entries of a base schema by their keys.  A name in a rule that
no entry answers to is reported and left out.

* `overrides_sublist`    layers change keys of the base schema only
* `KeysOf`               the keys that the blocks of a set mention
* `withoutUnknown`       a context with the known names of its rules alone
* `crudSet_value`        what unknown names change in the blocks
* `crudSet_warnings`     each of them is reported once
* `keys_closed`          both, for every model
-/

namespace ZodSchema

/-! ## layers -/

/-- the keys that the base schema of a model declares -/
def Schema.keys (c : Config) (d : Datamodel) (m : Model) : List String :=
  (Schema.entries c d m).map (·.2.key)

namespace Layer

open Schema

variable {c : Config} {d : Datamodel} {r : Option Brand.Registry} {m : Model} {l : LayerSchema}

/-- changed entries that keep their keys, in order -/
theorem sublist_of_keeps {es : List (Field × Entry)} {f : Field × Entry → Option Override}
    (hf : ∀ p o, f p = some o → o.key = p.2.key) :
    ((es.filterMap f).map (·.key)).Sublist (es.map (·.2.key)) := by
  induction es with
  | nil => exact List.Sublist.slnil
  | cons p es ih =>
    cases hp : f p with
    | none =>
      rw [List.filterMap_cons_none hp]
      exact ih.cons _
    | some o =>
      rw [List.filterMap_cons_some hp, List.map_cons, List.map_cons, hf p o hp]
      exact ih.cons_cons _

theorem key_change? {k : Kind} {p : Field × Entry} {o : Override} (h : change? k m r p = some o) :
    o.key = p.2.key := by
  cases k with
  | database => cases h
  | runtime =>
    unfold change? runtimeOverride? at h
    dsimp only at h
    split at h
    · rw [← Option.some.inj h]
    · obtain ⟨_, _, rfl⟩ := Option.map_eq_some_iff.1 h
      rfl
  | external =>
    obtain ⟨_, _, rfl⟩ := Option.map_eq_some_iff.1 h
    rfl

/-- the changed keys of a layer are keys of the base schema, in order; values as stored change
none -/
theorem overrides_sublist (hl : l ∈ layersOf c d r m) :
    (l.kind = .database → l.overrides = []) ∧
      (l.overrides.map (·.key)).Sublist (Schema.keys c d m) := by
  rw [overrides_eq hl]
  refine ⟨fun hk => ?_, sublist_of_keeps fun _ _ h => key_change? h⟩
  rw [hk]
  exact List.filterMap_eq_nil_iff.2 fun _ _ => rfl

end Layer

namespace Crud

open Schema

/-! ## blocks -/

/-- the keys that the blocks of a set mention are among `keys` -/
structure KeysOf (keys : List String) (s : CrudSet) : Prop where
  createOmitted : s.create.omitted.Sublist keys
  createMembers : ∀ a ∈ s.create.members, a.key ∈ keys
  updateOmitted : ∀ k ∈ s.update.omitted, k ∈ keys
  /-- an identifier of the update block is a brand, or the member of its key -/
  updateIds : ∀ i ∈ s.update.ids, i.1 ∈ keys ∧
    ((∃ b, i.2 = "brands." ++ b) ∨ i.2 = shapeMember s.update.source i.1)
  filters : ∀ w, s.list.filter = some w → ∀ k ∈ w.filters, k ∈ keys
  cursor : ∀ k, s.list.cursorKey = some k → k ∈ keys
  get : s.get.keys.Sublist keys
  delete : s.delete.keys.Sublist keys

namespace Context

variable {x : Context} {names : List String} {k : String}

def keys (x : Context) : List String := x.entries.map (·.2.key)

theorem sublist_keys (p : Field × Entry → Bool) :
    ((x.entries.filter p).map (·.2.key)).Sublist x.keys :=
  List.filter_sublist.map _

theorem mem_keys_of_filter {p : Field × Entry → Bool}
    (h : k ∈ (x.entries.filter p).map (·.2.key)) : k ∈ x.keys :=
  (sublist_keys p).subset h

/-- with different keys, a key belongs to one entry -/
theorem mem_keys_filter_iff (hk : x.keys.Nodup) {p : Field × Entry} (hp : p ∈ x.entries)
    (q : Field × Entry → Bool) :
    p.2.key ∈ (x.entries.filter q).map (·.2.key) ↔ q p = true := by
  constructor
  · intro h
    obtain ⟨r, hr, he⟩ := List.mem_map.1 h
    obtain ⟨hr, hq⟩ := List.mem_filter.1 hr
    rwa [← List.inj_on_of_nodup_map hk hr hp he]
  · exact fun h => List.mem_map_of_mem (List.mem_filter.2 ⟨hp, h⟩)

theorem mem_keys_of_resolve (directive : String)
    (h : k ∈ (x.resolve directive names).value) : k ∈ x.keys := by
  obtain ⟨n, _, hn⟩ := List.mem_filterMap.1 (List.mem_eraseDups.1 h)
  obtain ⟨p, hp, rfl⟩ := Option.map_eq_some_iff.1 hn
  exact List.mem_map_of_mem (List.mem_of_find?_eq_some hp)

theorem mem_customNames {n : String} :
    n ∈ x.customNames ↔ n ∈ x.rules.list.customFilters ∨ n ∈ x.rules.list.customTypes.map (·.1) := by
  unfold Context.customNames
  simp only [List.mem_append, List.mem_filter, Bool.not_eq_true', ← Bool.not_eq_true,
    List.contains_iff_mem]
  tauto

theorem mem_keys_of_updateOmitted (h : k ∈ x.updateBlock.value.omitted) : k ∈ x.keys := by
  obtain ⟨h, _⟩ := List.mem_filter.1 (List.mem_eraseDups.1 h)
  rcases List.mem_append.1 h with h | h
  · rcases List.mem_append.1 h with h | h
    · rcases List.mem_append.1 h with h | h
      · exact mem_keys_of_filter h
      · exact mem_keys_of_resolve "update.omit" h
    · exact mem_keys_of_resolve "update.immutable" h
  · exact mem_keys_of_filter h

theorem idExpr_cases (x : Context) (p : Field × Entry) :
    (∃ b, x.idExpr p = "brands." ++ b) ∨ x.idExpr p = shapeMember x.source p.2.key := by
  unfold idExpr
  split
  · exact Or.inl ⟨_, rfl⟩
  · exact Or.inr rfl

theorem crudSet_keysOf (x : Context) : KeysOf x.keys x.crudSet.value where
  createOmitted := sublist_keys _
  createMembers a ha := by
    obtain ⟨p, hp, rfl⟩ := List.mem_map.1 ha
    exact mem_keys_of_filter (List.mem_map_of_mem hp)
  updateOmitted k hk := mem_keys_of_updateOmitted hk
  updateIds i hi := by
    obtain ⟨p, hp, rfl⟩ := List.mem_map.1 hi
    exact ⟨mem_keys_of_filter (List.mem_map_of_mem hp), idExpr_cases x p⟩
  filters w hw k hk := by
    simp only [crudSet, listBlock] at hw
    split at hw
    · obtain rfl := Option.some.inj hw
      exact mem_keys_of_resolve "list.filters" hk
    · cases hw
  cursor k hk := by
    have hi : x.idKeys = [k] := by
      simp only [crudSet, listBlock] at hk
      split at hk
      · next h => rw [h, Option.some.inj hk]
      · cases hk
    exact mem_keys_of_filter (show k ∈ x.idKeys by rw [hi]; exact List.mem_singleton_self _)
  get := sublist_keys _
  delete := sublist_keys _

/-! ## unknown names -/

/-- some entry answers to the name -/
def knows (x : Context) (name : String) : Bool := (x.entry? name).isSome

/-- the names of entries in the rules, with the directives that state them -/
def ruleNames (x : Context) : List (String × String) :=
  x.rules.create.omitted.map (fun n => ("create.omit", n)) ++
    x.rules.create.defaults.map (fun e => ("create.defaults", Display.plain e.1)) ++
    x.rules.update.omitted.map (fun n => ("update.omit", n)) ++
    x.rules.update.immutable.map (fun n => ("update.immutable", n)) ++
    x.rules.list.filters.map (fun n => ("list.filters", n))

/-- a warning for every name that no entry answers to -/
def unknownWarnings (x : Context) : List String :=
  (x.ruleNames.filter fun e => !x.knows e.2).map fun e => x.unknownWarning e.1 e.2

/-- the context with the known names of its rules alone -/
def withoutUnknown (x : Context) : Context :=
  { x with
    rules := { x.rules with
      create := { x.rules.create with
        omitted := x.rules.create.omitted.filter x.knows
        defaults := x.rules.create.defaults.filter fun e => x.knows (Display.plain e.1) }
      update := { x.rules.update with
        omitted := x.rules.update.omitted.filter x.knows
        immutable := x.rules.update.immutable.filter x.knows }
      list := { x.rules.list with
        filters := x.rules.list.filters.filter x.knows } } }

/-- the names that are left are the known ones -/
theorem ruleNames_withoutUnknown (x : Context) :
    x.withoutUnknown.ruleNames = x.ruleNames.filter fun e => x.knows e.2 := by
  simp only [ruleNames, withoutUnknown, List.filter_append, List.filter_map]
  rfl

theorem filterMap_knows {α β : Type} (x : Context) (name : α → String)
    (g : α → Field × Entry → β) (es : List α) :
    (es.filter fun e => x.knows (name e)).filterMap (fun e => (x.entry? (name e)).map (g e)) =
      es.filterMap fun e => (x.entry? (name e)).map (g e) := by
  rw [List.filterMap_filter]
  congr 1
  funext e
  unfold knows
  cases x.entry? (name e) <;> rfl

theorem unknown_of_knows {α : Type} (x : Context) (name : α → String) (es : List α) :
    (es.filter fun e => x.knows (name e)).filter (fun e => (x.entry? (name e)).isNone) = [] := by
  rw [List.filter_filter, List.filter_eq_nil_iff]
  intro e _
  unfold knows
  cases x.entry? (name e) <;> simp

theorem resolve_knows (x : Context) (directive : String) (names : List String) :
    x.resolve directive (names.filter x.knows) =
      { value := (x.resolve directive names).value, warnings := [] } := by
  have hv := filterMap_knows x id (fun _ p => p.2.key) names
  have hw := unknown_of_knows x id names
  simp only [id] at hv hw
  unfold resolve
  rw [hv, hw]
  rfl

theorem createDefaults_withoutUnknown (x : Context) :
    x.withoutUnknown.createDefaults = { value := x.createDefaults.value, warnings := [] } := by
  have hv := filterMap_knows x (fun e => Display.plain e.1) (fun e p => (p.2.key, e.2))
    x.rules.create.defaults
  have hw := unknown_of_knows x (fun e => Display.plain e.1) x.rules.create.defaults
  exact congr (congrArg Reported.mk hv) (List.map_eq_nil_iff.2 hw)

/-! ## blocks without unknown names -/

theorem createBlock_withoutUnknown (x : Context) :
    x.withoutUnknown.createBlock = { value := x.createBlock.value, warnings := [] } := by
  have hd := createDefaults_withoutUnknown x
  have ho := resolve_knows x "create.omit" x.rules.create.omitted
  unfold createBlock
  rw [hd, show x.withoutUnknown.resolve "create.omit" x.withoutUnknown.rules.create.omitted = _
    from ho]
  rfl

theorem updateBlock_withoutUnknown (x : Context) :
    x.withoutUnknown.updateBlock = { value := x.updateBlock.value, warnings := [] } := by
  have ho := resolve_knows x "update.omit" x.rules.update.omitted
  have hi := resolve_knows x "update.immutable" x.rules.update.immutable
  unfold updateBlock
  rw [show x.withoutUnknown.resolve "update.omit" x.withoutUnknown.rules.update.omitted = _ from ho,
    show x.withoutUnknown.resolve "update.immutable" x.withoutUnknown.rules.update.immutable = _
      from hi]
  rfl

theorem whereBlock_withoutUnknown (x : Context) :
    x.withoutUnknown.whereBlock = { value := x.whereBlock.value, warnings := [] } := by
  have hf := resolve_knows x "list.filters" x.rules.list.filters
  unfold whereBlock
  rw [show x.withoutUnknown.resolve "list.filters" x.withoutUnknown.rules.list.filters = _ from hf]
  rfl

/-- unknown filters still make the list ask for a filter block -/
theorem listBlock_value (x : Context) :
    x.listBlock.value = { x.withoutUnknown.listBlock.value with
      filter := if x.rules.list.hasWhere then some x.withoutUnknown.whereBlock.value else none } := by
  rw [whereBlock_withoutUnknown]
  unfold listBlock
  split <;> rfl

/-- unknown names change nothing in the blocks but whether there is a filter block -/
theorem crudSet_value (x : Context) :
    x.crudSet.value = { x.withoutUnknown.crudSet.value with
      list := { x.withoutUnknown.crudSet.value.list with
        filter := if x.rules.list.hasWhere then some x.withoutUnknown.whereBlock.value
          else none } } := by
  have hc := congrArg Reported.value (createBlock_withoutUnknown x)
  have hu := congrArg Reported.value (updateBlock_withoutUnknown x)
  have hl := listBlock_value x
  unfold crudSet
  dsimp only
  rw [hc, hu, hl]
  rfl

/-! ## warnings -/

theorem map_unknown {α : Type} (x : Context) (directive : String) (name : α → String)
    (es : List α) :
    ((es.map fun e => (directive, name e)).filter fun e => !x.knows e.2).map
        (fun e => x.unknownWarning e.1 e.2) =
      (es.filter fun e => (x.entry? (name e)).isNone).map
        fun e => x.unknownWarning directive (name e) := by
  rw [List.filter_map, List.map_map]
  congr 2
  funext e
  show (!x.knows (name e)) = _
  unfold knows
  cases x.entry? (name e) <;> rfl

theorem unknownWarnings_eq (x : Context) :
    x.unknownWarnings =
      x.createBlock.warnings ++ x.updateBlock.warnings ++ x.whereBlock.warnings := by
  have hc := map_unknown x "create.omit" id x.rules.create.omitted
  have hd := map_unknown x "create.defaults" (fun e => Display.plain e.1) x.rules.create.defaults
  have hu := map_unknown x "update.omit" id x.rules.update.omitted
  have hi := map_unknown x "update.immutable" id x.rules.update.immutable
  have hf := map_unknown x "list.filters" id x.rules.list.filters
  simp only [id] at hc hu hi hf
  simp only [unknownWarnings, ruleNames, List.filter_append, List.map_append, hc, hd, hu, hi, hf]
  simp only [createBlock, updateBlock, whereBlock, resolve, createDefaults, List.append_assoc]

theorem listBlock_warnings (x : Context) :
    x.listBlock.warnings = x.whereBlock.warnings ++ x.sort.warnings := by
  unfold listBlock
  dsimp only
  split
  · rfl
  · next h =>
    have hf : x.rules.list.filters = [] := by
      simp only [ListRules.hasWhere, Bool.not_eq_true', Bool.not_eq_false, Bool.and_eq_true,
        List.isEmpty_iff] at h
      simpa using h.1.1.1
    have hw : x.whereBlock.warnings = [] := by
      unfold whereBlock
      rw [hf]
      rfl
    rw [hw]

/-- every unknown name is reported once, besides what there is to report without them -/
theorem crudSet_warnings (x : Context) :
    x.crudSet.warnings.Perm (x.unknownWarnings ++ x.withoutUnknown.crudSet.warnings) ∧
      x.withoutUnknown.crudSet.warnings = x.optionSets.warnings ++ x.sort.warnings := by
  have hw : x.withoutUnknown.crudSet.warnings = x.optionSets.warnings ++ x.sort.warnings := by
    have hl := listBlock_warnings x.withoutUnknown
    unfold crudSet
    dsimp only
    rw [createBlock_withoutUnknown, updateBlock_withoutUnknown, hl, whereBlock_withoutUnknown]
    simp only [List.append_nil, List.nil_append]
    rfl
  refine ⟨?_, hw⟩
  rw [hw, unknownWarnings_eq]
  unfold crudSet
  dsimp only
  rw [listBlock_warnings]
  -- the order differs: option sets are reported first, sort options last
  refine List.perm_iff_count.2 fun a => ?_
  simp only [List.count_append]
  omega

end Context

/-! ## models -/

/-- **Layers and blocks mention keys of the base schema only.**  Names in rules that no entry
answers to are reported, each once; they change nothing in the blocks, except that filters that are
declared make the list ask for a filter block even when all of them are unknown. -/
theorem keys_closed (b : Base) (m : Model) :
    (∀ l ∈ Layer.layersOf b.config b.datamodel b.registry m,
      (l.kind = .database → l.overrides = []) ∧
        (l.overrides.map (·.key)).Sublist (Schema.keys b.config b.datamodel m)) ∧
    KeysOf (Schema.keys b.config b.datamodel m) (setOf b m).value ∧
    let x := contextOf b m
    x.withoutUnknown.ruleNames = x.ruleNames.filter (fun e => x.knows e.2) ∧
    x.crudSet.value = { x.withoutUnknown.crudSet.value with
      list := { x.withoutUnknown.crudSet.value.list with
        filter := if x.rules.list.hasWhere then some x.withoutUnknown.whereBlock.value
          else none } } ∧
    x.crudSet.warnings.Perm (x.unknownWarnings ++ x.withoutUnknown.crudSet.warnings) ∧
    x.withoutUnknown.crudSet.warnings = x.optionSets.warnings ++ x.sort.warnings :=
  ⟨fun _ hl => Layer.overrides_sublist hl, Context.crudSet_keysOf (contextOf b m),
    Context.ruleNames_withoutUnknown _, Context.crudSet_value _, Context.crudSet_warnings _⟩

/-- a model whose only filter is unknown -/
def post : Model :=
  { name := "Post"
    documentation := some "@crud.list.filters([\"nope\"])"
    fields := [{ name := "id", type := "String", isId := true },
      { name := "title", type := "String" }] }

def postBase : Base := ⟨{ crudSchemas := true }, { models := [post] }, false, none⟩

/-- The unknown filter brings a filter block that is not there without it. -/
theorem unknown_filter_asks_for_where :
    (contextOf postBase post).ruleNames = [("list.filters", "nope")] ∧
      (contextOf postBase post).knows "nope" = false ∧
      (setOf postBase post).value.list.filter.isSome = true ∧
      (contextOf postBase post).withoutUnknown.crudSet.value.list.filter.isSome = false := by
  decide +kernel

end Crud

end ZodSchema
