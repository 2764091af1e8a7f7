import ZodSchema.Proofs.Generation.Merge

/-!
# Documents whose mappings stand at one place each

Storing and merging in place, as a document with anchored mappings needs it, is the merge of trees
as long as nothing is written to a mapping that stands at several places.

* `setAt`             a mapping put in the place of another one
* `Loaded.alone`      nowhere else stands the mapping of this place
* `assign_of_alone`   an entry stored in such a mapping
* `mergeAt_of_alone`  entries merged into it
-/

namespace ZodSchema.Generation

open Value (Place same put)

/-! ## one mapping in the place of another -/

/-- `t` in place of the mapping at a path of keys -/
def setAt (t : Value.Entries) : Place → Value.Entries → Value.Entries
  | [], _ => t
  | j :: p, es =>
    match valueOf? j es with
    | some (.map u) => put j (.map (setAt t p u)) es
    | _ => es

section
variable {j k v : Value} {es t u : Value.Entries} {p : Place}

theorem put_put (h : same k k = true) (v w : Value) (es : Value.Entries) :
    put k w (put k v es) = put k w es := by
  induction es with
  | nil => simp only [put, h, if_true]
  | cons e es ih =>
    obtain ⟨l, x⟩ := e
    by_cases hl : same l k = true
    · simp only [put, hl, if_true]
    · simp only [put, hl, ih, Bool.false_eq_true, if_false]

/-- what has a value is a key -/
theorem same_self_of_valueOf? (h : valueOf? k es = some v) : same k k = true := by
  obtain ⟨e, -, he, -⟩ := mem_of_valueOf? h
  exact Value.same_trans (Value.same_comm e.1 k ▸ he) he

theorem valueOf?_put_of_some (h : valueOf? j es = some v) (w : Value) :
    valueOf? j (put j w es) = some w := by
  rw [valueOf?_put, if_pos (same_self_of_valueOf? h)]

theorem at?_cons_map (h : at? (j :: p) (.map es) = some (.map t)) :
    ∃ u, valueOf? j es = some (.map u) ∧ at? p (.map u) = some (.map t) := by
  obtain ⟨v, hv, ht⟩ := Option.bind_eq_some_iff.1 h
  cases v with
  | map u => exact ⟨u, hv, ht⟩
  | _ => cases p <;> cases ht

theorem at?_setAt (h : at? p (.map es) = some (.map t)) (t' : Value.Entries) :
    at? p (.map (setAt t' p es)) = some (.map t') := by
  induction p generalizing es with
  | nil => rfl
  | cons j p ih =>
    obtain ⟨u, hu, ht⟩ := at?_cons_map h
    simp only [setAt, hu]
    show (valueOf? j _).bind (at? p) = _
    rw [valueOf?_put_of_some hu]
    exact ih ht

theorem at?_snoc (h : at? p (.map es) = some (.map t)) (k : Value) :
    at? (p ++ [k]) (.map es) = valueOf? k t := by
  induction p generalizing es with
  | nil =>
    cases h
    exact Option.bind_fun_some _
  | cons j p ih =>
    obtain ⟨u, hu, ht⟩ := at?_cons_map h
    show (valueOf? j es).bind (at? (p ++ [k])) = _
    rw [hu]
    exact ih ht

theorem setAt_setAt (h : at? p (.map es) = some (.map t)) (t₁ t₂ : Value.Entries) :
    setAt t₂ p (setAt t₁ p es) = setAt t₂ p es := by
  induction p generalizing es with
  | nil => rfl
  | cons j p ih =>
    obtain ⟨u, hu, ht⟩ := at?_cons_map h
    simp only [setAt, hu, valueOf?_put_of_some hu, ih ht,
      put_put (same_self_of_valueOf? hu)]

theorem setAt_self (h : at? p (.map es) = some (.map t)) : setAt t p es = es := by
  induction p generalizing es with
  | nil =>
    cases h
    rfl
  | cons j p ih =>
    obtain ⟨u, hu, ht⟩ := at?_cons_map h
    simp only [setAt, hu, ih ht, put_of_valueOf? hu]

theorem setAt_snoc (h : at? p (.map es) = some (.map t)) (hk : valueOf? k t = some (.map u))
    (u' : Value.Entries) : setAt u' (p ++ [k]) es = setAt (put k (.map u') t) p es := by
  induction p generalizing es with
  | nil =>
    cases h
    simp only [List.nil_append, setAt, hk]
  | cons j p ih =>
    obtain ⟨w, hw, ht⟩ := at?_cons_map h
    simp only [List.cons_append, setAt, hw, ih ht]

theorem putAt_eq (h : at? p (.map es) = some (.map t)) (k v : Value) :
    putAt k v p (.map es) = .map (setAt (put k v t) p es) := by
  induction p generalizing es with
  | nil =>
    cases h
    rfl
  | cons j p ih =>
    obtain ⟨u, hu, ht⟩ := at?_cons_map h
    simp only [putAt, setAt, hu, ih ht]

end

/-! ## mappings that stand alone -/

theorem isUnder_snoc (p : Place) (k : Value) : isUnder (p ++ [k]) p = false := by
  induction p with
  | nil => rfl
  | cons j p ih =>
    show (same j j && isUnder (p ++ [k]) p) = false
    rw [ih, Bool.and_false]

namespace Loaded

/-- the mapping at a place stands nowhere else -/
def alone (raw : Loaded) (p : Place) : Bool := !raw.twins.any fun c => c.any (samePlace p)

section
variable {raw : Loaded} {p q : Place} {t : Value.Entries}

theorem placesOf_of_alone (h : raw.alone p = true) : raw.placesOf p = [p] := by
  have hn : raw.twins.find? (·.any (samePlace p)) = none := by
    rw [List.find?_eq_none]
    intro c hc ha
    have : raw.twins.any (fun c => c.any (samePlace p)) = true := List.any_eq_true.2 ⟨c, hc, ha⟩
    rw [alone, this] at h
    cases h
  rw [placesOf, hn]
  rfl

theorem entries_assign_of_alone (h : raw.alone p = true)
    (ht : at? p (.map raw.entries) = some (.map t)) (k v : Value) :
    (raw.assign p k v).entries = setAt (put k v t) p raw.entries := by
  simp only [assign, placesOf_of_alone h, List.any_cons, List.any_nil, Bool.or_false,
    isUnder_snoc, List.filter_cons, List.filter_nil, Bool.not_false, if_true, List.foldl_cons,
    List.foldl_nil, putAt_eq ht]
  rfl

/-- what stands alone does so after a change of what stands alone -/
theorem alone_assign (h : raw.alone p = true) (k v : Value) (hq : raw.alone q = true) :
    (raw.assign p k v).alone q = true := by
  have htwins : (raw.assign p k v).twins =
      raw.twins.map (·.filter fun r => !isUnder (p ++ [k]) r) := by
    simp [assign, placesOf_of_alone h, isUnder_snoc]
  unfold alone at hq ⊢
  rw [Bool.not_eq_true', List.any_eq_false] at hq ⊢
  rw [htwins]
  intro c hc ha
  obtain ⟨d, hd, rfl⟩ := List.mem_map.1 hc
  obtain ⟨r, hr, hs⟩ := List.any_eq_true.1 ha
  exact hq d hd (List.any_eq_true.2 ⟨r, (List.mem_filter.1 hr).1, hs⟩)

/-! ## a merge in place -/

/-- `after` comes of `raw` by `t` in place of the mapping at `p`, and all that stood alone does so
still -/
structure Replaced (raw : Loaded) (p : Place) (t : Value.Entries) (after : Loaded) : Prop where
  entries : after.entries = setAt t p raw.entries
  alone : ∀ q, raw.alone q = true → after.alone q = true

theorem replaced_assign (h : raw.alone p = true)
    (ht : at? p (.map raw.entries) = some (.map t)) (k v : Value) :
    Replaced raw p (put k v t) (raw.assign p k v) :=
  ⟨entries_assign_of_alone h ht k v, fun _ => alone_assign h k v⟩

theorem Replaced.trans {raw₁ raw₂ : Loaded} {t₁ t₂ : Value.Entries}
    (ht : at? p (.map raw.entries) = some (.map t)) (h₁ : Replaced raw p t₁ raw₁)
    (h₂ : Replaced raw₁ p t₂ raw₂) : Replaced raw p t₂ raw₂ := by
  refine ⟨?_, fun q hq => h₂.alone q (h₁.alone q hq)⟩
  rw [h₂.entries, h₁.entries, setAt_setAt ht]

/-- the entry of a key, merged in place -/
def MergesEntry (v : Value) : Prop := ∀ (raw : Loaded) (p : Place) (t : Value.Entries) (k : Value),
  at? p (.map raw.entries) = some (.map t) → raw.alone p = true →
    (∀ r ∈ mappings v, raw.alone (p ++ k :: r) = true) →
      Replaced raw p (put k (mergeValue (valueOf? k t) v) t) (raw.mergeEntry p k v)

theorem replaced_mergeAt {es : Value.Entries} (hes : ∀ e ∈ es, MergesEntry e.2)
    (ht : at? p (.map raw.entries) = some (.map t)) (hp : raw.alone p = true)
    (h : ∀ r ∈ entryMappings es, raw.alone (p ++ r) = true) :
    Replaced raw p (merge t es) (raw.mergeAt p es) := by
  induction es generalizing raw t with
  | nil =>
    exact ⟨(setAt_self ht).symm, fun _ hq => hq⟩
  | cons e es ih =>
    obtain ⟨k, v⟩ := e
    obtain ⟨hv, hes⟩ := List.forall_mem_cons.1 hes
    have h₁ := hv raw p t k ht hp fun r hr =>
      h _ (List.mem_append_left _ (List.mem_map_of_mem hr))
    have ht₁ : at? p (.map (raw.mergeEntry p k v).entries) =
        some (.map (put k (mergeValue (valueOf? k t) v) t)) := by
      rw [h₁.entries]
      exact at?_setAt ht _
    exact h₁.trans ht (ih hes ht₁ (h₁.alone p hp) fun r hr =>
      h₁.alone _ (h r (List.mem_append_right _ hr)))

theorem mergesEntry (v : Value) : MergesEntry v := by
  induction v using Value.induction with
  | leaf v hv =>
    intro raw p t k ht hp _
    rw [mergeValue_of_leaf hv]
    have he : raw.mergeEntry p k v = raw.assign p k v := by
      cases v with
      | map es => cases hv
      | _ => rfl
    exact he ▸ replaced_assign hp ht k v
  | map es ih =>
    intro raw p t k ht hp h
    unfold mergeEntry mergeValue
    rw [at?_snoc ht]
    cases hk : valueOf? k t with
    | none => exact replaced_assign hp ht k _
    | some w =>
      cases w with
      | map u =>
        have hu : at? (p ++ [k]) (.map raw.entries) = some (.map u) := (at?_snoc ht k).trans hk
        have hr := replaced_mergeAt ih hu (h [] List.mem_cons_self) fun r hr => by
          rw [List.append_assoc]
          exact h r (List.mem_cons_of_mem _ hr)
        exact ⟨hr.entries.trans (setAt_snoc ht hk _), hr.alone⟩
      | _ => exact replaced_assign hp ht k _

/-- **A merge in place.**  Where none of the mappings that are written to stands elsewhere, the
mapping at a place becomes the one that a merge of trees makes of it. -/
theorem mergeAt_of_alone {es : Value.Entries} (ht : at? p (.map raw.entries) = some (.map t))
    (h : ∀ r ∈ mappings (.map es), raw.alone (p ++ r) = true) :
    Replaced raw p (merge t es) (raw.mergeAt p es) :=
  replaced_mergeAt (fun e _ => mergesEntry e.2) ht
    (by simpa using h [] List.mem_cons_self) fun r hr => h r (List.mem_cons_of_mem _ hr)

end

end Loaded

end ZodSchema.Generation
