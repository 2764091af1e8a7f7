import ZodSchema.Proofs.Crud.Keys
import ZodSchema.Proofs.Text.Literal

/-!
# Update schemas

An update schema leaves out the keys that nobody changes, asks for the identifiers, and checks that
something else is given.  The check is a function of one parameter: an object pattern binds every
identifier to a variable and the other keys to a rest, whose keys are counted.  No two variables of
a parameter have one name, and none is called by a reserved word; a schema whose check breaks this
rule is no module.

* `mem_updateOmitted`     the keys that are left out
* `Param`, `check`        the parameter of a check, and its answer for the keys of a payload
* `predicate_eq`          the check is written as its parameter says
* `Bindable`              identifiers that can be bound beside each other and the rest
* `check_iff`             with these, and only with these, the check does what it is there for
* `update_checks_iff`     all of it, for every set of rules
-/

namespace ZodSchema.Crud

open Schema Text

/-! ## what is left out -/

namespace Context

variable {x : Context} {p : Field × Entry}

/-- the entry is the first one that answers to one of the names -/
def Named (x : Context) (names : List String) (p : Field × Entry) : Prop :=
  ∃ n ∈ names, x.entry? n = some p

/-- entries that nobody changes -/
def Unchanged (x : Context) (p : Field × Entry) : Prop :=
  x.isTimestamp p = true ∨ x.Named x.rules.update.omitted p ∨
    x.Named x.rules.update.immutable p ∨ "update" ∈ (x.fieldRules p.1).omitFrom

theorem mem_idKeys_iff (hk : x.keys.Nodup) (hp : p ∈ x.entries) :
    p.2.key ∈ x.idKeys ↔ p.1.isId = true :=
  mem_keys_filter_iff hk hp _

theorem mem_resolve_iff (hk : x.keys.Nodup) (hp : p ∈ x.entries) (directive : String)
    (names : List String) :
    p.2.key ∈ (x.resolve directive names).value ↔ x.Named names p := by
  unfold resolve
  rw [List.mem_eraseDups, List.mem_filterMap]
  refine exists_congr fun n => and_congr_right fun _ => ?_
  constructor
  · intro h
    obtain ⟨q, hq, he⟩ := Option.map_eq_some_iff.1 h
    rwa [← List.inj_on_of_nodup_map hk (List.mem_of_find?_eq_some hq) hp he]
  · intro h
    rw [h]
    rfl

/-- an entry is left out unless it is an identifier, when nobody changes it -/
theorem mem_updateOmitted (hk : x.keys.Nodup) (hp : p ∈ x.entries) :
    p.2.key ∈ x.updateBlock.value.omitted ↔ p.1.isId = false ∧ x.Unchanged p := by
  have hn : (!x.idKeys.contains p.2.key) = true ↔ p.1.isId = false := by
    rw [Bool.not_eq_true', ← Bool.not_eq_true, List.contains_iff_mem, mem_idKeys_iff hk hp,
      Bool.not_eq_true]
  unfold updateBlock Unchanged
  dsimp only
  rw [List.mem_eraseDups, List.mem_filter, hn, List.mem_append, List.mem_append, List.mem_append,
    mem_keys_filter_iff hk hp, mem_keys_filter_iff hk hp, mem_resolve_iff hk hp,
    mem_resolve_iff hk hp, List.contains_iff_mem, or_assoc, or_assoc, and_comm]

theorem not_mem_idKeys_of_updateOmitted {k : String} (h : k ∈ x.updateBlock.value.omitted) :
    k ∉ x.idKeys := by
  have hf := (List.mem_filter.1 (List.mem_eraseDups.1 h)).2
  rwa [Bool.not_eq_true', ← Bool.not_eq_true, List.contains_iff_mem] at hf

end Context

/-! ## parameters -/

/-- the name in a token: a line feed behind it is blank -/
def word (token : String) : String := String.ofList (dropFinalNewline token.toList)

theorem word_word {k : String} (h : isIdentifier k = true) : word (word k) = word k := by
  have hw : dropFinalNewline (word k).toList = (word k).toList := by
    refine dropFinalNewline_eq_self fun c hc => isIdentRest_of_mem h ?_
    rwa [word, String.toList_ofList] at hc
  rw [word, hw, String.ofList_toList]

/-- a property in an object pattern -/
inductive Binding where
  /-- bound to the variable of its own name -/
  | same (token : String)
  | renamed (property name : String)

namespace Binding

def text : Binding → String
  | same t => t
  | renamed p n => quote p ++ ": " ++ n

def property : Binding → String
  | same t => word t
  | renamed p _ => p

/-- the variable -/
def name : Binding → String
  | same t => word t
  | renamed _ n => n

end Binding

/-- the parameter of a check -/
inductive Param where
  | whole (name : String)
  | pattern (bindings : List Binding) (rest : String)

namespace Param

def text : Param → String
  | whole n => n
  | pattern bs r => "\x7b " ++ Str.join ", " (bs.map Binding.text) ++ ", ..." ++ r ++ " \x7d"

/-- the variables that it binds -/
def names : Param → List String
  | whole n => [n]
  | pattern bs r => bs.map Binding.name ++ [r]

/-- the variable whose keys are counted -/
def counted : Param → String
  | whole n => n
  | pattern _ r => r

/-- of the keys of a payload, those that are counted -/
def left (keys : List String) : Param → List String
  | whole _ => keys
  | pattern bs _ => keys.filter fun k => !(bs.map Binding.property).contains k

end Param

/-- words that name no variable of a module -/
def reservedWords : List String :=
  ["break", "case", "catch", "class", "const", "continue", "debugger", "default", "delete", "do",
    "else", "enum", "export", "extends", "false", "finally", "for", "function", "if", "import", "in",
    "instanceof", "new", "null", "return", "super", "switch", "this", "throw", "true", "try",
    "typeof", "var", "void", "while", "with", "let", "static", "yield", "await", "implements",
    "interface", "package", "private", "protected", "public", "arguments", "eval"]

/-- the parameter binds variables, and leaves `Object` what it is -/
def Param.Sound (p : Param) : Prop :=
  p.names.Nodup ∧ ∀ n ∈ p.names, n ∉ reservedWords ∧ n ≠ "Object"

instance (p : Param) : Decidable p.Sound := inferInstanceAs (Decidable (_ ∧ _))

/-- whether some key is counted; there is no answer with a parameter that does not work -/
def check (p : Param) (keys : List String) : Option Bool :=
  if p.Sound then some !(p.left keys).isEmpty else none

/-- the check as it is written -/
def checkText (p : Param) : String :=
  "(" ++ p.text ++ ") => Object.keys(" ++ p.counted ++ ").length > 0"

/-! ## the parameter of an update schema -/

/-- an identifier in the pattern: by its own name, or by its position -/
def bindingAt (index : Nat) (key : String) : Binding :=
  if Text.key key = key then .same key else .renamed key ("_id" ++ natText index)

def paramOf (ids : List String) : Param :=
  if ids.isEmpty then .whole "data" else .pattern (ids.mapIdx bindingAt) "updateData"

theorem patternFrom_eq (index : Nat) (keys : List String) :
    UpdateBlock.patternFrom index keys =
      (keys.mapIdx fun i k => bindingAt (index + i) k).map Binding.text := by
  induction keys generalizing index with
  | nil => rfl
  | cons k ks ih =>
    have hk : UpdateBlock.patternItem index k = (bindingAt index k).text := by
      unfold UpdateBlock.patternItem bindingAt
      split
      · rfl
      · show quote k ++ (": " ++ "_id") ++ natText index = quote k ++ ": " ++ ("_id" ++ natText index)
        simp only [String.append_assoc]
    rw [UpdateBlock.patternFrom, List.mapIdx_cons, List.map_cons, ih, hk]
    simp only [Nat.add_assoc, Nat.add_comm 1, Nat.add_zero]

theorem predicate_eq (b : UpdateBlock) : b.predicate = checkText (paramOf (b.ids.map (·.1))) := by
  unfold UpdateBlock.predicate paramOf
  rw [List.isEmpty_map]
  split
  · rfl
  · rw [patternFrom_eq]
    simp only [Nat.zero_add, checkText, Param.text, Param.counted, String.append_assoc]
    rfl

/-! ## identifiers that can be bound -/

/-- identifiers that can be bound beside each other and the rest: one that is written as it is has
the name of a variable, which is not in use, and no other one bears the name that a quoted one is
given -/
structure Bindable (ids : List String) : Prop where
  plain : ∀ k ∈ ids, isIdentifier k = true →
    word k = k ∧ k ∉ reservedWords ∧ k ≠ "Object" ∧ k ≠ "updateData"
  apart : ∀ i k, ids[i]? = some k → isIdentifier k = false → "_id" ++ natText i ∉ ids

variable {ids : List String} {i j : Nat} {k l : String}

theorem bindingAt_of_isIdentifier (h : isIdentifier k = true) : bindingAt i k = .same k :=
  if_pos (key_eq_self_iff.2 h)

theorem bindingAt_of_not_isIdentifier (h : isIdentifier k = false) :
    bindingAt i k = .renamed k ("_id" ++ natText i) :=
  if_neg fun he => Bool.noConfusion ((key_eq_self_iff.1 he).symm.trans h)

theorem name_of_isIdentifier (h : isIdentifier k = true) : (bindingAt i k).name = word k :=
  congrArg Binding.name (bindingAt_of_isIdentifier h)

theorem name_of_not_isIdentifier (h : isIdentifier k = false) :
    (bindingAt i k).name = "_id" ++ natText i :=
  congrArg Binding.name (bindingAt_of_not_isIdentifier h)

theorem property_of_isIdentifier (h : isIdentifier k = true) :
    (bindingAt i k).property = word k :=
  congrArg Binding.property (bindingAt_of_isIdentifier h)

theorem property_of_not_isIdentifier (h : isIdentifier k = false) :
    (bindingAt i k).property = k :=
  congrArg Binding.property (bindingAt_of_not_isIdentifier h)

theorem isIdentRest_underscoreId : ∀ c ∈ "_id".toList, isIdentRest c = true :=
  List.all_eq_true.1 (show "_id".toList.all isIdentRest = true by decide)

/-- the name by a position is that of a variable -/
theorem isIdentifier_numbered (i : Nat) : isIdentifier ("_id" ++ natText i) = true :=
  isIdentifier_append_natText rfl rfl isIdentRest_underscoreId i

theorem word_numbered (i : Nat) : word ("_id" ++ natText i) = "_id" ++ natText i := by
  rw [word, dropFinalNewline_eq_self (isIdentRest_append_natText isIdentRest_underscoreId i),
    String.ofList_toList]

/-- it begins with an underscore, unlike any name in use -/
theorem numbered_ne (i : Nat) {n : String} (h : n.toList.head? ≠ some '_') :
    "_id" ++ natText i ≠ n := by
  rintro rfl
  rw [String.toList_append] at h
  exact h rfl

theorem head?_reservedWords : ∀ n ∈ "updateData" :: "Object" :: reservedWords,
    n.toList.head? ≠ some '_' := by
  decide +kernel

/-- bindable identifiers are bound to different variables -/
theorem Bindable.name_injective (hb : Bindable ids) (hn : ids.Nodup) (hi : ids[i]? = some k)
    (hj : ids[j]? = some l) (h : (bindingAt i k).name = (bindingAt j l).name) : i = j := by
  have hk := List.mem_of_getElem? hi
  have hl := List.mem_of_getElem? hj
  have hlt := (List.getElem?_eq_some_iff.1 hi).1
  cases hik : isIdentifier k <;> cases hil : isIdentifier l
  · rw [name_of_not_isIdentifier hik, name_of_not_isIdentifier hil] at h
    exact natText_injective ((String.append_right_inj "_id").1 h)
  · rw [name_of_not_isIdentifier hik, name_of_isIdentifier hil, (hb.plain l hl hil).1] at h
    exact absurd (h ▸ hl) (hb.apart i k hi hik)
  · rw [name_of_isIdentifier hik, name_of_not_isIdentifier hil, (hb.plain k hk hik).1] at h
    exact absurd (h ▸ hk) (hb.apart j l hj hil)
  · rw [name_of_isIdentifier hik, name_of_isIdentifier hil, (hb.plain k hk hik).1,
      (hb.plain l hl hil).1] at h
    exact (List.getElem?_inj hlt hn).1 (by rw [hi, hj, h])

/-- the variables of bindable identifiers may be called as they are -/
theorem Bindable.name_allowed (hb : Bindable ids) (hi : ids[i]? = some k) :
    (bindingAt i k).name ∉ reservedWords ∧ (bindingAt i k).name ≠ "Object" ∧
      (bindingAt i k).name ≠ "updateData" := by
  cases hik : isIdentifier k with
  | true =>
    obtain ⟨hw, h⟩ := hb.plain k (List.mem_of_getElem? hi) hik
    rwa [name_of_isIdentifier hik, hw]
  | false =>
    rw [name_of_not_isIdentifier hik]
    refine ⟨fun hr => ?_, numbered_ne i ?_, numbered_ne i ?_⟩
    · exact numbered_ne i (head?_reservedWords _
        (List.mem_cons_of_mem _ (List.mem_cons_of_mem _ hr))) rfl
    · exact head?_reservedWords "Object" (by decide)
    · exact head?_reservedWords "updateData" (by decide)

theorem Bindable.property_eq (hb : Bindable ids) (hi : ids[i]? = some k) :
    (bindingAt i k).property = k := by
  cases hik : isIdentifier k with
  | true => rw [property_of_isIdentifier hik, (hb.plain k (List.mem_of_getElem? hi) hik).1]
  | false => exact property_of_not_isIdentifier hik

/-! ## what the check answers -/

/-- the variables of the identifiers -/
def bound (ids : List String) : List String := (ids.mapIdx bindingAt).map Binding.name

/-- the properties of the identifiers -/
def properties (ids : List String) : List String := (ids.mapIdx bindingAt).map Binding.property

theorem getElem?_bound (ids : List String) (i : Nat) :
    (bound ids)[i]? = ids[i]?.map fun k => (bindingAt i k).name := by
  rw [bound, List.getElem?_map, List.getElem?_mapIdx, Option.map_map]
  rfl

theorem getElem?_bound_of (hi : ids[i]? = some k) :
    (bound ids)[i]? = some (bindingAt i k).name := by
  rw [getElem?_bound, hi]
  rfl

theorem getElem?_properties (ids : List String) (i : Nat) :
    (properties ids)[i]? = ids[i]?.map fun k => (bindingAt i k).property := by
  rw [properties, List.getElem?_map, List.getElem?_mapIdx, Option.map_map]
  rfl

theorem names_paramOf (h : ids ≠ []) : (paramOf ids).names = bound ids ++ ["updateData"] := by
  rw [paramOf, if_neg (by simpa using h)]
  rfl

theorem left_paramOf (h : ids ≠ []) (keys : List String) :
    (paramOf ids).left keys = keys.filter fun k => !(properties ids).contains k := by
  rw [paramOf, if_neg (by simpa using h)]
  rfl

theorem mem_bound {n : String} :
    n ∈ bound ids ↔ ∃ i k, ids[i]? = some k ∧ (bindingAt i k).name = n := by
  simp only [List.mem_iff_getElem?, getElem?_bound, Option.map_eq_some_iff]

theorem mem_properties {n : String} :
    n ∈ properties ids ↔ ∃ i k, ids[i]? = some k ∧ (bindingAt i k).property = n := by
  simp only [List.mem_iff_getElem?, getElem?_properties, Option.map_eq_some_iff]

/-- positions with one variable are one position -/
theorem eq_of_bound (h : (bound ids).Nodup) (hi : ids[i]? = some k) (hj : ids[j]? = some l)
    (he : (bindingAt i k).name = (bindingAt j l).name) : i = j := by
  have hlt : i < (bound ids).length := by
    rw [bound, List.length_map, List.length_mapIdx]
    exact (List.getElem?_eq_some_iff.1 hi).1
  refine (List.getElem?_inj hlt h).1 ?_
  rw [getElem?_bound_of hi, getElem?_bound_of hj, he]

theorem nodup_bound (h : ∀ i j k l, ids[i]? = some k → ids[j]? = some l →
    (bindingAt i k).name = (bindingAt j l).name → i = j) : (bound ids).Nodup := by
  rw [List.nodup_iff_getElem?_ne_getElem?]
  intro i j hij hj he
  rw [bound, List.length_map, List.length_mapIdx] at hj
  have hi := List.getElem?_eq_getElem (Nat.lt_trans hij hj)
  have hj := List.getElem?_eq_getElem hj
  rw [getElem?_bound_of hi, getElem?_bound_of hj] at he
  exact Nat.ne_of_lt hij (h i j _ _ hi hj (Option.some.inj he))

theorem Bindable.sound (hb : Bindable ids) (hn : ids.Nodup) (h : ids ≠ []) :
    (paramOf ids).Sound := by
  unfold Param.Sound
  rw [names_paramOf h, List.nodup_append]
  have hbound : (bound ids).Nodup := nodup_bound fun _ _ _ _ hi hj => hb.name_injective hn hi hj
  refine ⟨⟨hbound, List.nodup_singleton _, ?_⟩, ?_⟩
  · intro n hv m hm
    obtain ⟨i, k, hi, rfl⟩ := mem_bound.1 hv
    rw [List.mem_singleton.1 hm]
    exact (hb.name_allowed hi).2.2
  · intro n hm
    rcases List.mem_append.1 hm with hm | hm
    · obtain ⟨i, k, hi, rfl⟩ := mem_bound.1 hm
      exact ⟨(hb.name_allowed hi).1, (hb.name_allowed hi).2.1⟩
    · rw [List.mem_singleton.1 hm]
      decide

theorem Bindable.properties_eq (hb : Bindable ids) : properties ids = ids := by
  apply List.ext_getElem?
  intro i
  rw [getElem?_properties]
  cases hi : ids[i]? with
  | none => rfl
  | some k => rw [Option.map_some, hb.property_eq hi]

/-- a property that is bound without quotes is a word -/
theorem word_of_mem_properties (hk : isIdentifier k = true) (h : k ∈ properties ids) :
    word k = k := by
  obtain ⟨i, l, hi, rfl⟩ := mem_properties.1 h
  cases hil : isIdentifier l with
  | true => rw [property_of_isIdentifier hil, word_word hil]
  | false =>
    rw [property_of_not_isIdentifier hil, hil] at hk
    cases hk

theorem bindable_of_sound (h : ids ≠ []) (hs : (paramOf ids).Sound)
    (hp : ∀ k ∈ ids, k ∈ properties ids) : Bindable ids := by
  obtain ⟨hn, ha⟩ := hs
  rw [names_paramOf h] at hn ha
  have hv := (List.nodup_append.1 hn).1
  refine ⟨fun k hk hki => ?_, fun i k hi hik hm => ?_⟩
  · have hw := word_of_mem_properties hki (hp k hk)
    obtain ⟨i, hi⟩ := List.mem_iff_getElem?.1 hk
    have hm : k ∈ bound ids := by
      refine mem_bound.2 ⟨i, k, hi, ?_⟩
      rw [name_of_isIdentifier hki, hw]
    obtain ⟨hr, ho⟩ := ha k (List.mem_append_left _ hm)
    exact ⟨hw, hr, ho, (List.nodup_append.1 hn).2.2 k hm _ (List.mem_singleton_self _)⟩
  -- the numbered name would stand twice in the parameter
  · obtain ⟨j, hj⟩ := List.mem_iff_getElem?.1 hm
    have he : (bindingAt i k).name = (bindingAt j ("_id" ++ natText i)).name := by
      rw [name_of_not_isIdentifier hik, name_of_isIdentifier (isIdentifier_numbered i),
        word_numbered]
    obtain rfl := eq_of_bound hv hi hj he
    rw [hi] at hj
    rw [Option.some.inj hj, isIdentifier_numbered] at hik
    cases hik

/-- **Bindable identifiers** are those with which the check answers, for every payload, whether it
has a key that is no identifier. -/
theorem check_iff (hn : ids.Nodup) :
    (∀ keys, check (paramOf ids) keys = some (decide (∃ k ∈ keys, k ∉ ids))) ↔ Bindable ids := by
  by_cases h : ids = []
  · subst h
    refine ⟨fun _ => ⟨fun k hk => absurd hk List.not_mem_nil, fun i k hi => ?_⟩, fun _ keys => ?_⟩
    · cases hi
    · have hs : (paramOf []).Sound := by decide
      rw [check, if_pos hs]
      cases keys <;> simp [paramOf, Param.left]
  · constructor
    · intro ha
      have hs : (paramOf ids).Sound := by
        have h0 := ha []
        unfold check at h0
        split at h0
        · assumption
        · cases h0
      refine bindable_of_sound h hs fun k hk => ?_
      have h1 := ha [k]
      rw [check, if_pos hs, left_paramOf h] at h1
      by_contra hm
      simp [hk, hm] at h1
    · intro hb keys
      rw [check, if_pos (hb.sound hn h), left_paramOf h, hb.properties_eq, Option.some.injEq,
        Bool.eq_iff_iff, Bool.not_eq_true', decide_eq_true_iff, List.isEmpty_eq_false_iff_exists_mem]
      simp [List.mem_filter]

/-! ## the schema -/

theorem Context.ids_updateBlock (x : Context) : x.updateBlock.value.ids.map (·.1) = x.idKeys := by
  show (x.ids.map fun p => (p.2.key, x.idExpr p)).map (·.1) = x.ids.map (·.2.key)
  rw [List.map_map]
  rfl

/-- **Update schemas.**  When the keys of the entries are different, an update schema leaves out,
each once, the keys that nobody changes and that are no identifiers; it asks for every identifier
once; and its check tells whether a payload has another key besides, if and only if the identifiers
can be bound. -/
theorem update_checks_iff (x : Context) (hk : x.keys.Nodup) :
    let b := x.updateBlock.value
    (b.omitted.Nodup ∧
      (∀ k ∈ b.omitted, k ∈ x.keys ∧ k ∉ x.idKeys) ∧
      (∀ p ∈ x.entries, p.2.key ∈ b.omitted ↔ p.1.isId = false ∧ x.Unchanged p)) ∧
    ((b.ids.map (·.1)).Nodup ∧
      ∀ i, i ∈ b.ids ↔ ∃ p ∈ x.entries, p.1.isId = true ∧ (p.2.key, x.idExpr p) = i) ∧
    b.predicate = checkText (paramOf x.idKeys) ∧
    ((∀ keys, check (paramOf x.idKeys) keys = some (decide (∃ k ∈ keys, k ∉ x.idKeys))) ↔
      Bindable x.idKeys) := by
  intro b
  have hn : x.idKeys.Nodup := (x.sublist_keys _).nodup hk
  have hi : b.ids.map (·.1) = x.idKeys := x.ids_updateBlock
  refine ⟨⟨nodup_eraseDups _, fun k h => ?_, fun p hp => ?_⟩, ⟨?_, fun i => ?_⟩, ?_, check_iff hn⟩
  · exact ⟨Context.mem_keys_of_updateOmitted h, Context.not_mem_idKeys_of_updateOmitted h⟩
  · exact Context.mem_updateOmitted hk hp
  · rwa [hi]
  · show i ∈ (x.entries.filter _).map _ ↔ _
    simp only [List.mem_map, List.mem_filter, and_assoc]
  · rw [predicate_eq, hi]

/-- a seat in a row, with a key that is no identifier -/
def seat : Model :=
  { name := "Seat"
    documentation := some "@crud.update.immutable([\"row\", \"hall\"])"
    fields := [
      { name := "row", type := "Int", isId := true },
      { name := "number", type := "Int", isId := true, dbName := some "seat-number" },
      { name := "hall", type := "String" },
      { name := "note", type := "String" },
      { name := "updatedAt", type := "DateTime" }] }

def seatContext : Context := contextOf ⟨{ crudSchemas := true }, { models := [seat] }, false, none⟩ seat

theorem update_checks_seat :
    seatContext.keys.Nodup ∧ seatContext.updateBlock.value.omitted = ["updatedAt", "hall"] ∧
      seatContext.updateBlock.value.predicate =
        "(\x7b row, \"seat-number\": _id1, ...updateData \x7d) => Object.keys(updateData).length > 0" ∧
      check (paramOf seatContext.idKeys) ["row", "seat-number"] = some false ∧
      check (paramOf seatContext.idKeys) ["row", "seat-number", "note"] = some true := by
  have hk : seatContext.keys.Nodup := by decide +kernel
  have hi : seatContext.idKeys = ["row", "seat-number"] := by decide +kernel
  obtain ⟨_, _, hp, hc⟩ := update_checks_iff seatContext hk
  rw [hi] at hc hp ⊢
  have hb : Bindable ["row", "seat-number"] := by
    refine ⟨by decide +kernel, fun i k hk _ => ?_⟩
    match i, hk with
    | 0, _ => decide +kernel
    | 1, _ => decide +kernel
  refine ⟨hk, by decide +kernel, ?_, ?_, ?_⟩
  · rw [hp]
    decide +kernel
  · rw [hc.2 hb]
    decide
  · rw [hc.2 hb]
    decide

/-- an identifier that is called by a reserved word -/
def enrollment : Model :=
  { name := "Enrollment"
    fields := [
      { name := "student", type := "String", isId := true },
      { name := "class", type := "String", isId := true },
      { name := "grade", type := "Int" }] }

def enrollmentContext : Context :=
  contextOf ⟨{ crudSchemas := true }, { models := [enrollment] }, false, none⟩ enrollment

/-- The pattern binds a variable that cannot be, and the check has no answer for a payload with a
grade. -/
theorem class_unbound :
    enrollmentContext.keys.Nodup ∧ enrollmentContext.idKeys = ["student", "class"] ∧
      enrollmentContext.updateBlock.value.predicate =
        "(\x7b student, class, ...updateData \x7d) => Object.keys(updateData).length > 0" ∧
      check (paramOf enrollmentContext.idKeys) ["student", "class", "grade"] = none := by
  decide +kernel

end ZodSchema.Crud
