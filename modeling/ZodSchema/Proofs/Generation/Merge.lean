import ZodSchema.Generation.Document
import ZodSchema.Proofs.Value

/-!
# Merged mappings

A mapping merged into another one, key by key, where each mapping stands at one place only.

* `isKeyed`          a mapping has each key once, and so have the mappings in it
* `merge`            a mapping with the entries of another one
* `valueOf?_merge`   what is found under a key after a merge
* `merge_merge`      a second merge
* `at?_mergeValue_of_leaf`, `at?_mergeValue_of_leaves`   what is found at a path of keys
-/

namespace ZodSchema.Generation

open Value (same put)

/-! ## look-up -/

section
variable {k j v : Value} {es : Value.Entries}

theorem get?_eq_valueOf? (name : String) (es : Value.Entries) :
    Value.get? name es = valueOf? (.text name) es := by
  induction es with
  | nil => rfl
  | cons e es ih =>
    obtain ⟨k, v⟩ := e
    cases k with
    | text s => simp [Value.get?, valueOf?, same, ih]
    | _ => simp [Value.get?, valueOf?, same, Value.ratio?, ih]

theorem valueOf?_congr (h : same k j = true) (es : Value.Entries) :
    valueOf? k es = valueOf? j es := by
  induction es with
  | nil => rfl
  | cons e es ih =>
    obtain ⟨l, v⟩ := e
    unfold valueOf?
    rw [Value.same_comm l k, Value.same_congr h, Value.same_comm j l, ih]

theorem valueOf?_put (k j v : Value) (es : Value.Entries) :
    valueOf? j (put k v es) = if same k j then some v else valueOf? j es := by
  induction es with
  | nil => rfl
  | cons e es ih =>
    obtain ⟨l, w⟩ := e
    unfold put
    split
    · next hl =>
      unfold valueOf?
      rw [Value.same_congr hl]
      split <;> rfl
    · next hl =>
      unfold valueOf?
      rw [ih]
      split
      · next hj =>
        -- the first entry is under `j`, so `k` is another key
        have hk : ¬ same k j = true := fun hk => hl (Value.same_trans hj (Value.same_comm k j ▸ hk))
        rw [if_neg hk]
      · rfl

/-- an entry that is there already -/
theorem put_of_valueOf? (h : valueOf? k es = some v) : put k v es = es := by
  induction es with
  | nil => cases h
  | cons e es ih =>
    obtain ⟨l, w⟩ := e
    unfold valueOf? at h
    unfold put
    split at h
    · next hl =>
      cases h
      rw [if_pos hl]
    · next hl => rw [if_neg hl, ih h]

theorem mem_of_valueOf? (h : valueOf? k es = some v) : ∃ e ∈ es, same e.1 k = true ∧ e.2 = v := by
  induction es with
  | nil => cases h
  | cons e es ih =>
    unfold valueOf? at h
    split at h
    · next hl => exact ⟨e, List.mem_cons_self, hl, Option.some.inj h⟩
    · obtain ⟨e', he, hk⟩ := ih h
      exact ⟨e', List.mem_cons_of_mem _ he, hk⟩

end

/-! ## mappings with distinct keys -/

mutual

/-- the mappings that keys lead to have each key once -/
def isKeyed : Value → Bool
  | .map es => keysApart es
  | _ => true

/-- every key is one, no two are the same, and the values are alike -/
def keysApart : List (Value × Value) → Bool
  | [] => true
  | (k, v) :: es => same k k && es.all (fun e => !same k e.1) && isKeyed v && keysApart es

end

section
variable {k v : Value} {es : Value.Entries}

theorem keysApart_cons : keysApart ((k, v) :: es) = true ↔
    same k k = true ∧ (∀ e ∈ es, same k e.1 = false) ∧ isKeyed v = true ∧ keysApart es = true := by
  simp [keysApart, and_assoc]

theorem valueOf?_eq_none (h : ∀ e ∈ es, same k e.1 = false) : valueOf? k es = none := by
  cases hv : valueOf? k es with
  | none => rfl
  | some v =>
    obtain ⟨e, he, hk, -⟩ := mem_of_valueOf? hv
    rw [Value.same_comm, h e he] at hk
    cases hk

/-- the value of an entry is found under its key -/
theorem valueOf?_of_mem (h : keysApart es = true) {e : Value × Value} (he : e ∈ es) :
    valueOf? e.1 es = some e.2 := by
  induction es with
  | nil => cases he
  | cons e' es ih =>
    obtain ⟨k, v⟩ := e'
    obtain ⟨hself, hne, -, hes⟩ := keysApart_cons.1 h
    unfold valueOf?
    rcases List.mem_cons.1 he with rfl | he
    · rw [if_pos hself]
    · rw [if_neg (by rw [hne e he]; decide), ih hes he]

theorem isKeyed_of_mem (h : keysApart es = true) {e : Value × Value} (he : e ∈ es) :
    isKeyed e.2 = true := by
  induction es with
  | nil => cases he
  | cons e' es ih =>
    obtain ⟨-, -, hv, hes⟩ := keysApart_cons.1 h
    rcases List.mem_cons.1 he with rfl | he
    · exact hv
    · exact ih hes he

theorem isKeyed_of_valueOf? (h : keysApart es = true) (hv : valueOf? k es = some v) :
    isKeyed v = true := by
  obtain ⟨e, he, -, rfl⟩ := mem_of_valueOf? hv
  exact isKeyed_of_mem h he

end

/-! ## a merge -/

mutual

/-- the value of a key after `over` is merged into what was there -/
def mergeValue (old : Option Value) : Value → Value
  | .map es =>
    match old with
    | some (.map target) => .map (merge target es)
    | _ => .map es
  | v => v

/-- mappings are merged key by key, any other value replaces what was there -/
def merge (target : Value.Entries) : List (Value × Value) → Value.Entries
  | [] => target
  | (k, v) :: es => merge (put k (mergeValue (valueOf? k target) v) target) es

end

section
variable {overrides target : Value.Entries}

/-- **What is found after a merge.**  A key that the overrides do not have keeps its value; under
any other, their value replaces what was there, or is merged into it. -/
theorem valueOf?_merge (h : keysApart overrides = true) (k : Value) (target : Value.Entries) :
    valueOf? k (merge target overrides) =
      match valueOf? k overrides with
      | none => valueOf? k target
      | some v => some (mergeValue (valueOf? k target) v) := by
  induction overrides generalizing target with
  | nil => rfl
  | cons e es ih =>
    obtain ⟨l, v⟩ := e
    obtain ⟨-, hne, -, hes⟩ := keysApart_cons.1 h
    unfold merge
    rw [ih hes, valueOf?_put]
    cases hl : same l k with
    | true =>
      have hk : valueOf? k es = none := by
        rw [← valueOf?_congr hl]
        exact valueOf?_eq_none hne
      rw [hk, valueOf?, if_pos hl, if_pos rfl, valueOf?_congr hl]
    | false => rw [valueOf?, hl, if_neg (by decide), if_neg (by decide)]

/-- nothing changes where the target has, under each key, what the merge would put there -/
theorem merge_eq_self (h : ∀ e ∈ overrides, ∃ w, valueOf? e.1 target = some w ∧
    mergeValue (some w) e.2 = w) : merge target overrides = target := by
  induction overrides with
  | nil => rfl
  | cons e es ih =>
    obtain ⟨⟨w, hw, hm⟩, hes⟩ := List.forall_mem_cons.1 h
    obtain ⟨k, v⟩ := e
    unfold merge
    rw [hw, hm, put_of_valueOf? hw, ih hes]

theorem mergeValue_of_leaf {v : Value} (h : v.entries? = none) (old : Option Value) :
    mergeValue old v = v := by
  unfold mergeValue
  split
  · cases h
  · rfl

/-- a value merged into itself -/
theorem mergeValue_self {v : Value} (h : isKeyed v = true) : mergeValue (some v) v = v := by
  induction v using Value.induction with
  | leaf v hv => exact mergeValue_of_leaf hv _
  | map es ih =>
    have hes : keysApart es = true := by simpa [isKeyed] using h
    show Value.map (merge es es) = _
    rw [merge_eq_self]
    exact fun e he => ⟨e.2, valueOf?_of_mem hes he, ih e he (isKeyed_of_mem hes he)⟩

theorem mergeValue_mergeValue {v : Value} (h : isKeyed v = true) (old : Option Value) :
    mergeValue (some (mergeValue old v)) v = mergeValue old v := by
  induction v using Value.induction generalizing old with
  | leaf v hv => rw [mergeValue_of_leaf hv, mergeValue_of_leaf hv]
  | map es ih =>
    have hes : keysApart es = true := by simpa [isKeyed] using h
    by_cases ht : ∃ target, old = some (.map target)
    · obtain ⟨target, rfl⟩ := ht
      show Value.map (merge (merge target es) es) = .map (merge target es)
      rw [merge_eq_self]
      intro e he
      refine ⟨_, ?_, ih e he (isKeyed_of_mem hes he) (valueOf? e.1 target)⟩
      rw [valueOf?_merge hes, valueOf?_of_mem hes he]
    · have hm : mergeValue old (.map es) = .map es := by
        unfold mergeValue
        split
        · next t => exact absurd ⟨t, rfl⟩ ht
        · rfl
      rw [hm, mergeValue_self h]

/-- **A second merge changes nothing.** -/
theorem merge_merge (h : keysApart overrides = true) (target : Value.Entries) :
    merge (merge target overrides) overrides = merge target overrides := by
  have hk : isKeyed (.map overrides) = true := by simpa [isKeyed] using h
  have hm := mergeValue_mergeValue hk (some (.map target))
  exact Value.map.inj hm

end

/-! ## paths of keys -/

/-- the path leaves the value at a key that is missing in a mapping -/
def Leaves : List Value → Value → Prop
  | k :: ks, .map es =>
    match valueOf? k es with
    | some v => Leaves ks v
    | none => True
  | _, _ => False

section
variable {path : List Value} {v w old : Value}

theorem at?_cons {k : Value} {ks : List Value} (h : at? (k :: ks) v = some w) :
    ∃ es u, v = .map es ∧ valueOf? k es = some u ∧ at? ks u = some w := by
  cases v with
  | map es =>
    obtain ⟨u, hu, hw⟩ := Option.bind_eq_some_iff.1 h
    exact ⟨es, u, rfl, hu, hw⟩
  | _ => cases h

/-- what the overrides state at a path is there after the merge -/
theorem at?_mergeValue_of_leaf (hk : isKeyed v = true) (h : at? path v = some w)
    (hw : w.entries? = none) (old : Option Value) : at? path (mergeValue old v) = some w := by
  induction path generalizing v old with
  | nil =>
    cases h
    rw [mergeValue_of_leaf hw]
    rfl
  | cons k ks ih =>
    obtain ⟨es, u, rfl, hu, hw'⟩ := at?_cons h
    have hes : keysApart es = true := by simpa [isKeyed] using hk
    unfold mergeValue
    split
    · next target =>
      show (valueOf? k (merge target es)).bind (at? ks) = _
      rw [valueOf?_merge hes, hu]
      exact ih (isKeyed_of_valueOf? hes hu) hw' _
    · exact h

/-- a path that the overrides leave keeps its value -/
theorem at?_mergeValue_of_leaves (hk : isKeyed v = true) (hl : Leaves path v)
    (h : at? path old = some w) : at? path (mergeValue (some old) v) = some w := by
  induction path generalizing v old with
  | nil => cases hl
  | cons k ks ih =>
    obtain ⟨target, u, rfl, hu, hw⟩ := at?_cons h
    cases v with
    | map es =>
      have hes : keysApart es = true := by simpa [isKeyed] using hk
      show (valueOf? k (merge target es)).bind (at? ks) = _
      unfold Leaves at hl
      rw [valueOf?_merge hes, hu]
      split at hl
      · next x hx =>
        rw [hx]
        exact ih (isKeyed_of_valueOf? hes hx) hl hw
      · next hx =>
        rw [hx]
        exact hw
    | _ => cases hl

end

end ZodSchema.Generation
