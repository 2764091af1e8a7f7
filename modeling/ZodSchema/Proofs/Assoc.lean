import Mathlib.Data.List.Induction
import Mathlib.Data.List.Nodup
import ZodSchema.Assoc

/-!
# Entries by key

* `nodup_put`, `mem_of_mem_put`   keys and entries after a value was set
* `get?_append`, `filter_key`     look-up
* `putAll`    values set one after the other
* `settled`   each key once, with its last value
-/

namespace ZodSchema.Assoc

variable {κ α ι : Type} [DecidableEq κ] {k : κ} {v : α} {es : List (κ × α)}

theorem keys_put (k : κ) (v : α) (es : List (κ × α)) :
    (put k v es).map (·.1) = if k ∈ es.map (·.1) then es.map (·.1) else es.map (·.1) ++ [k] := by
  induction es with
  | nil => rfl
  | cons e es ih =>
    unfold put
    by_cases h : e.1 = k
    · simp [h]
    · rw [if_neg h, List.map_cons, ih]
      by_cases hk : k ∈ es.map (·.1)
      · simp [hk]
      · rw [if_neg hk, if_neg (by simpa [Ne.symm h] using hk)]
        rfl

theorem nodup_put (h : (es.map (·.1)).Nodup) (k : κ) (v : α) : ((put k v es).map (·.1)).Nodup := by
  rw [keys_put]
  split
  · exact h
  · next hk =>
    rw [← List.concat_eq_append]
    exact h.concat hk

theorem nodup_foldl_put {ι : Type} (key : ι → κ) (value : ι → α) (xs : List ι)
    (acc : List (κ × α)) (h : (acc.map (·.1)).Nodup) :
    ((xs.foldl (fun acc x => put (key x) (value x) acc) acc).map (·.1)).Nodup :=
  List.foldlRecOn (motive := fun es : List (κ × α) => (es.map (·.1)).Nodup) _ _ h
    fun _ hn _ _ => nodup_put hn _ _

theorem not_mem_keys (h : get? k es = none) : k ∉ es.map (·.1) := by
  induction es with
  | nil => exact List.not_mem_nil
  | cons e es ih =>
    unfold get? at h
    split at h
    · cases h
    · next hne =>
      rw [List.map_cons, List.mem_cons, not_or]
      exact ⟨fun he => hne he.symm, ih h⟩

/-! ## look-up -/

theorem get?_append (k : κ) (es es' : List (κ × α)) :
    get? k (es ++ es') = (get? k es).or (get? k es') := by
  induction es with
  | nil => rfl
  | cons e es ih =>
    rw [List.cons_append, get?, get?]
    split
    · rfl
    · exact ih

theorem mem_of_get? (h : get? k es = some v) : (k, v) ∈ es := by
  induction es with
  | nil => cases h
  | cons e es ih =>
    rw [get?] at h
    split at h
    · next he =>
      rw [← he, ← Option.some.inj h]
      exact List.mem_cons_self
    · exact List.mem_cons_of_mem _ (ih h)

theorem get?_eq_none (h : k ∉ es.map (·.1)) : get? k es = none := by
  cases hv : get? k es with
  | none => rfl
  | some v => exact absurd (List.mem_map_of_mem (mem_of_get? hv)) h

theorem exists_get? (h : k ∈ es.map (·.1)) : ∃ v, get? k es = some v := by
  cases hv : get? k es with
  | none => exact absurd h (not_mem_keys hv)
  | some v => exact ⟨v, rfl⟩

/-- with different keys, a key has one entry -/
theorem filter_key (h : (es.map (·.1)).Nodup) (k : κ) :
    es.filter (·.1 = k) = ((get? k es).map (k, ·)).toList := by
  induction es with
  | nil => rfl
  | cons e es ih =>
    obtain ⟨hne, hn⟩ := List.nodup_cons.1 h
    rw [get?]
    by_cases he : e.1 = k
    · subst he
      have hnone : es.filter (·.1 = e.1) = [] := by
        refine List.filter_eq_nil_iff.2 fun e' he' => ?_
        rw [decide_eq_true_eq]
        exact fun heq => hne (List.mem_map.2 ⟨e', he', heq⟩)
      rw [List.filter_cons_of_pos (by simp), hnone, if_pos rfl]
      rfl
    · rw [List.filter_cons_of_neg (by simpa using he), ih hn, if_neg he]

theorem mem_keys_put_iff {j : κ} : j ∈ (put k v es).map (·.1) ↔ j = k ∨ j ∈ es.map (·.1) := by
  rw [keys_put]
  split
  · next hk =>
    constructor
    · exact Or.inr
    · rintro (rfl | hj)
      · exact hk
      · exact hj
  · rw [List.mem_append, List.mem_singleton, or_comm]

theorem get?_put (j : κ) (e : κ × α) (es : List (κ × α)) :
    get? j (put e.1 e.2 es) = (get? j [e]).or (get? j es) := by
  by_cases h : e.1 = j
  · subst h
    rw [get?_put_self, get?, if_pos rfl, Option.some_or]
  · rw [get?_put_of_ne (Ne.symm h), get?, if_neg h]
    rfl

theorem mem_of_mem_put {e : κ × α} (h : e ∈ put k v es) : e = (k, v) ∨ e ∈ es := by
  induction es with
  | nil => exact Or.inl (List.mem_singleton.1 h)
  | cons e' es ih =>
    rw [put] at h
    split at h
    · next hk =>
      rcases List.mem_cons.1 h with rfl | h
      · exact Or.inl (congrArg (·, v) hk)
      · exact Or.inr (List.mem_cons_of_mem _ h)
    · rcases List.mem_cons.1 h with rfl | h
      · exact Or.inr List.mem_cons_self
      · exact (ih h).imp_right (List.mem_cons_of_mem _)

/-! ## entries set one after the other -/

/-- sets the values of several keys, in order -/
def putAll (us : List (κ × α)) (es : List (κ × α)) : List (κ × α) :=
  us.foldl (fun es u => put u.1 u.2 es) es

theorem putAll_cons (u : κ × α) (us es : List (κ × α)) :
    putAll (u :: us) es = putAll us (put u.1 u.2 es) := rfl

theorem put_of_not_mem {k : κ} {es : List (κ × α)} (v : α) (h : k ∉ es.map (·.1)) :
    put k v es = es ++ [(k, v)] := by
  induction es with
  | nil => rfl
  | cons e es ih =>
    rw [List.map_cons, List.mem_cons, not_or] at h
    rw [put, if_neg (Ne.symm h.1), ih h.2, List.cons_append]

/-- new keys are added at the end -/
theorem putAll_append {us es : List (κ × α)} (h : ((es ++ us).map (·.1)).Nodup) :
    putAll us es = es ++ us := by
  induction us generalizing es with
  | nil => rw [List.append_nil, putAll, List.foldl_nil]
  | cons u us ih =>
    have hu : u.1 ∉ es.map (·.1) := by
      rw [List.map_append, List.nodup_append] at h
      exact fun hm => h.2.2 _ hm _ (List.mem_map_of_mem List.mem_cons_self) rfl
    rw [List.append_cons] at h
    rw [putAll_cons, put_of_not_mem u.2 hu, ih h, List.append_assoc, List.singleton_append]

/-- values of other keys leave the first entry alone -/
theorem putAll_cons_of_ne {us : List (κ × α)} {e : κ × α} (es : List (κ × α))
    (h : ∀ u ∈ us, u.1 ≠ e.1) : putAll us (e :: es) = e :: putAll us es := by
  induction us generalizing es with
  | nil => rfl
  | cons u us ih =>
    have hp : put u.1 u.2 (e :: es) = e :: put u.1 u.2 es :=
      if_neg (Ne.symm (h u List.mem_cons_self))
    rw [putAll_cons, putAll_cons, hp, ih _ fun v hv => h v (List.mem_cons_of_mem _ hv)]

/-- setting the values that differ sets them all -/
theorem putAll_filter {k : ι → κ} {f g : ι → α} {p : ι → Bool} {xs : List ι}
    (hk : (xs.map k).Nodup) (hp : ∀ x ∈ xs, p x = false → f x = g x) :
    putAll ((xs.filter p).map fun x => (k x, g x)) (xs.map fun x => (k x, f x)) =
      xs.map fun x => (k x, g x) := by
  induction xs with
  | nil => rfl
  | cons x xs ih =>
    rw [List.map_cons, List.nodup_cons] at hk
    have hx := ih hk.2 fun y hy => hp y (List.mem_cons_of_mem _ hy)
    have hne : ∀ u ∈ (xs.filter p).map (fun x => (k x, g x)), u.1 ≠ k x := by
      intro u hu he
      obtain ⟨y, hy, rfl⟩ := List.mem_map.1 hu
      exact hk.1 (he ▸ List.mem_map_of_mem (List.mem_filter.1 hy).1)
    rw [List.map_cons, List.map_cons]
    cases h : p x with
    | true =>
      rw [List.filter_cons_of_pos h, List.map_cons, putAll_cons, put, if_pos rfl,
        putAll_cons_of_ne _ hne, hx]
    | false =>
      rw [List.filter_cons_of_neg (by simp [h]), putAll_cons_of_ne _ hne, hx,
        hp x List.mem_cons_self h]

/-! ## settled entries -/

/-- each key once, in the order of the first entries, with its last value -/
def settled (es : List (κ × α)) : List (κ × α) := putAll es []

theorem get?_putAll (k : κ) (us es : List (κ × α)) :
    get? k (putAll us es) = (get? k us.reverse).or (get? k es) := by
  induction us generalizing es with
  | nil => rfl
  | cons u us ih =>
    rw [putAll_cons, ih, get?_put, List.reverse_cons, get?_append, Option.or_assoc]

/-- the last value of a key -/
theorem get?_settled (k : κ) (es : List (κ × α)) : get? k (settled es) = get? k es.reverse := by
  rw [settled, get?_putAll]
  exact Option.or_none

theorem nodup_settled (es : List (κ × α)) : ((settled es).map (·.1)).Nodup :=
  nodup_foldl_put _ _ _ _ List.nodup_nil

theorem mem_of_mem_settled {e : κ × α} (h : e ∈ settled es) : e ∈ es := by
  unfold settled at h
  induction es using List.reverseRecOn with
  | nil => cases h
  | append_singleton es a ih =>
    rw [putAll, List.foldl_append] at h
    rcases mem_of_mem_put h with rfl | h
    · exact List.mem_append_right _ List.mem_cons_self
    · exact List.mem_append_left _ (ih h)

/-- no key is lost -/
theorem exists_mem_settled (h : k ∈ es.map (·.1)) : ∃ v, (k, v) ∈ settled es := by
  have hk : k ∈ es.reverse.map (·.1) := by rwa [List.map_reverse, List.mem_reverse]
  obtain ⟨v, hv⟩ := exists_get? hk
  exact ⟨v, mem_of_get? ((get?_settled k es).trans hv)⟩

/-- a key whose entries all have one value has it in the end -/
theorem mem_settled (h : (k, v) ∈ es) (hv : ∀ w, (k, w) ∈ es → w = v) : (k, v) ∈ settled es := by
  obtain ⟨w, hw⟩ := exists_mem_settled (List.mem_map_of_mem (f := Prod.fst) h)
  rwa [hv w (mem_of_mem_settled hw)] at hw

end ZodSchema.Assoc
