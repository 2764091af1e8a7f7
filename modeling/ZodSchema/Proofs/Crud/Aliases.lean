import ZodSchema.Proofs.Crud.Update

/-!
# Names of entries

A rule speaks of an entry by the name of its field, by its key or by its stored name, and the first
entry that answers is taken.  The name of a field leads to another entry when an entry before it has
the name for its key or its stored name.

* `find?_eq_some_iff_first`        of several elements that pass, the first one is found
* `Obscured`                       an entry before this one answers to the name of its field
* `Reaches`                        what the rules that state a name do to a key
* `declared_name_resolves_iff`     the names that lead to the entries of their fields
* `owner_obscured`                 one that does not
-/

namespace ZodSchema.Crud

open Schema

/-- an element that passes is found when none before it passes -/
theorem find?_eq_some_iff_first {α : Type} {l : List α} {a : α} {f : α → Bool} (hn : l.Nodup)
    (ha : a ∈ l) (hf : f a = true) :
    l.find? f = some a ↔ ∀ b, [b, a].Sublist l → f b = false := by
  induction l with
  | nil => cases ha
  | cons c l ih =>
    obtain ⟨hc, hn⟩ := List.nodup_cons.1 hn
    rcases List.mem_cons.1 ha with rfl | ha
    · -- nothing stands before it
      rw [List.find?_cons_of_pos hf]
      refine iff_of_true rfl fun b hb => ?_
      have hm : a ∈ l := by
        cases hb with
        | cons _ hb => exact hb.subset (List.mem_cons_of_mem _ List.mem_cons_self)
        | cons_cons _ hb => exact hb.subset List.mem_cons_self
      exact absurd hm hc
    · cases hfc : f c with
      | true =>
        rw [List.find?_cons_of_pos hfc]
        have hca : c ≠ a := fun he => hc (he ▸ ha)
        refine iff_of_false (fun h => hca (Option.some.inj h)) fun h => ?_
        have hb := h c ((List.singleton_sublist.2 ha).cons_cons c)
        rw [hfc] at hb
        cases hb
      | false =>
        rw [List.find?_cons_of_neg (by simp [hfc]), ih hn ha]
        constructor
        · intro h b hb
          cases hb with
          | cons _ hb => exact h b hb
          | cons_cons _ _ => exact hfc
        · exact fun h b hb => h b (hb.cons c)

namespace Context

variable {x : Context} {p q : Field × Entry} {n : String}

/-- an entry before this one has the name of its field for a key or a stored name -/
def Obscured (x : Context) (p : Field × Entry) : Prop :=
  ∃ q, [q, p].Sublist x.entries ∧ (q.2.key = p.1.name ∨ q.1.storageName = p.1.name)

/-- rules that state the name apply to the key -/
structure Reaches (x : Context) (name key : String) : Prop where
  createOmitted : name ∈ x.rules.create.omitted → key ∈ x.createBlock.value.omitted
  createDefaults : ∀ v, (.text name, v) ∈ x.rules.create.defaults → (key, v) ∈ x.createDefaults.value
  /-- an identifier is asked for, whatever the rules say -/
  updateOmitted : name ∈ x.rules.update.omitted ∨ name ∈ x.rules.update.immutable →
    key ∈ x.idKeys ∨ key ∈ x.updateBlock.value.omitted
  filters : name ∈ x.rules.list.filters → key ∈ x.whereBlock.value.filters

/-! ## looking up -/

theorem answersTo_iff : answersTo n q = true ↔ n = q.1.name ∨ n = q.2.key ∨ n = q.1.storageName := by
  unfold answersTo
  rw [Bool.or_eq_true, Bool.or_eq_true, beq_iff_eq, beq_iff_eq, beq_iff_eq, or_assoc]

theorem nodup_entries (hk : x.keys.Nodup) : x.entries.Nodup := hk.of_map _

/-- with different names of fields, another entry answers to the name by its key or its stored name -/
theorem answersTo_of_ne (hn : (x.entries.map (·.1.name)).Nodup) (hp : p ∈ x.entries)
    (hq : q ∈ x.entries) (hne : q ≠ p) :
    answersTo p.1.name q = true ↔ q.2.key = p.1.name ∨ q.1.storageName = p.1.name := by
  have hname : p.1.name ≠ q.1.name := fun he =>
    hne (List.inj_on_of_nodup_map hn hq hp he.symm)
  rw [answersTo_iff, or_iff_right hname, eq_comm, @eq_comm _ p.1.name q.1.storageName]

theorem entry_name_iff (hn : (x.entries.map (·.1.name)).Nodup) (hk : x.keys.Nodup)
    (hp : p ∈ x.entries) : x.entry? p.1.name = some p ↔ ¬x.Obscured p := by
  have hself : answersTo p.1.name p = true := answersTo_iff.2 (Or.inl rfl)
  have hnd := nodup_entries hk
  unfold entry? Obscured
  rw [find?_eq_some_iff_first hnd hp hself, not_exists]
  refine forall_congr' fun q => ?_
  rw [not_and]
  refine forall_congr' fun hs => ?_
  have hq : q ∈ x.entries := hs.subset List.mem_cons_self
  have hne : q ≠ p := by
    rintro rfl
    exact absurd (hs.nodup hnd) (by simp)
  rw [← answersTo_of_ne hn hp hq hne, Bool.not_eq_true]

/-- some entry answers to the name of a field -/
theorem exists_entry_name (hp : p ∈ x.entries) :
    ∃ q ∈ x.entries, x.entry? p.1.name = some q := by
  have hs : (x.entry? p.1.name).isSome = true :=
    List.find?_isSome.2 ⟨p, hp, answersTo_iff.2 (Or.inl rfl)⟩
  obtain ⟨q, hq⟩ := Option.isSome_iff_exists.1 hs
  exact ⟨q, List.mem_of_find?_eq_some hq, hq⟩

/-- the entry that an obscured name leads to -/
theorem Obscured.exists_entry (h : x.Obscured p) (hn : (x.entries.map (·.1.name)).Nodup)
    (hk : x.keys.Nodup) (hp : p ∈ x.entries) :
    ∃ q ∈ x.entries, x.entry? p.1.name = some q ∧ q.2.key ≠ p.2.key ∧
      (q.2.key = p.1.name ∨ q.1.storageName = p.1.name) := by
  obtain ⟨q, hq, he⟩ := exists_entry_name hp
  have hne : q ≠ p := by
    rintro rfl
    exact (entry_name_iff hn hk hp).1 he h
  have hkey : q.2.key ≠ p.2.key := fun hk' => hne (List.inj_on_of_nodup_map hk hq hp hk')
  exact ⟨q, hq, he, hkey, (answersTo_of_ne hn hp hq hne).1 (List.find?_some he)⟩

theorem resolve_singleton (h : x.entry? n = some q) (directive : String) :
    x.resolve directive [n] = ⟨[q.2.key], []⟩ := by
  unfold resolve
  rw [List.filterMap_cons_some (by rw [h]; rfl), List.filter_cons_of_neg (by simp [h])]
  rfl

theorem mem_resolve_of_entry (h : x.entry? n = some q) {names : List String} (hm : n ∈ names)
    (directive : String) : q.2.key ∈ (x.resolve directive names).value := by
  unfold resolve
  rw [List.mem_eraseDups, List.mem_filterMap]
  refine ⟨n, hm, ?_⟩
  rw [h]
  rfl

/-! ## rules -/

theorem mem_createOmitted_of_entry (h : x.entry? n = some q) (hm : n ∈ x.rules.create.omitted) :
    q.2.key ∈ x.createBlock.value.omitted := by
  have ho := mem_resolve_of_entry h hm "create.omit"
  refine List.mem_map_of_mem (List.mem_filter.2 ⟨List.mem_of_find?_eq_some h, ?_⟩)
  unfold omitsOnCreate
  dsimp only
  rw [List.contains_iff_mem.2 ho, Bool.or_true]
  simp only [Bool.true_or]

theorem mem_createDefaults_of_entry (h : x.entry? n = some q) {v : Value}
    (hm : (.text n, v) ∈ x.rules.create.defaults) : (q.2.key, v) ∈ x.createDefaults.value := by
  unfold createDefaults
  refine List.mem_filterMap.2 ⟨_, hm, ?_⟩
  show (x.entry? n).map _ = _
  rw [h]
  rfl

theorem mem_updateOmitted_of_entry (h : x.entry? n = some q)
    (hm : n ∈ x.rules.update.omitted ∨ n ∈ x.rules.update.immutable) :
    q.2.key ∈ x.idKeys ∨ q.2.key ∈ x.updateBlock.value.omitted := by
  by_cases hi : q.2.key ∈ x.idKeys
  · exact Or.inl hi
  · right
    show q.2.key ∈ (List.filter _ _).eraseDups
    rw [List.mem_eraseDups, List.mem_filter, List.mem_append, List.mem_append, List.mem_append]
    refine ⟨Or.inl ?_, by simpa using hi⟩
    rcases hm with hm | hm
    · exact Or.inl (Or.inr (mem_resolve_of_entry h hm "update.omit"))
    · exact Or.inr (mem_resolve_of_entry h hm "update.immutable")

theorem reaches_of_entry (h : x.entry? n = some q) : x.Reaches n q.2.key where
  createOmitted := mem_createOmitted_of_entry h
  createDefaults _ := mem_createDefaults_of_entry h
  updateOmitted := mem_updateOmitted_of_entry h
  filters hm := mem_resolve_of_entry h hm "list.filters"

end Context

open Context

/-- **The name of a field leads to its entry**, if and only if no entry before it has the name for
its key or its stored name; the rules that state the name then apply to its key.  The name of an
obscured field leads to the key of another entry alone.  Either way there is nothing to report. -/
theorem declared_name_resolves_iff (x : Context) (hn : (x.entries.map (·.1.name)).Nodup)
    (hk : x.keys.Nodup) {p : Field × Entry} (hp : p ∈ x.entries) :
    (∀ directive, x.resolve directive [p.1.name] = ⟨[p.2.key], []⟩ ↔ ¬x.Obscured p) ∧
    (¬x.Obscured p → x.Reaches p.1.name p.2.key) ∧
    (x.Obscured p → ∃ q ∈ x.entries, q.2.key ≠ p.2.key ∧
      (q.2.key = p.1.name ∨ q.1.storageName = p.1.name) ∧
      (∀ directive, x.resolve directive [p.1.name] = ⟨[q.2.key], []⟩) ∧
      x.Reaches p.1.name q.2.key) := by
  have hentry := entry_name_iff hn hk hp
  have hobs : x.Obscured p → ∃ q ∈ x.entries, q.2.key ≠ p.2.key ∧
      (q.2.key = p.1.name ∨ q.1.storageName = p.1.name) ∧
      (∀ directive, x.resolve directive [p.1.name] = ⟨[q.2.key], []⟩) ∧
      x.Reaches p.1.name q.2.key := by
    intro h
    obtain ⟨q, hq, he, hne, ha⟩ := h.exists_entry hn hk hp
    exact ⟨q, hq, hne, ha, resolve_singleton he, reaches_of_entry he⟩
  refine ⟨fun directive => ⟨fun hr h => ?_, fun h => ?_⟩, fun h => ?_, hobs⟩
  · obtain ⟨q, -, hne, -, hq, -⟩ := hobs h
    have he := congrArg Reported.value ((hq directive).symm.trans hr)
    exact hne (List.singleton_inj.1 he)
  · exact resolve_singleton (hentry.2 h) directive
  · exact reaches_of_entry (hentry.2 h)

def author : Field := { name := "author", type := "String", dbName := some "owner" }

def owner : Field := { name := "owner", type := "String", dbName := some "holder" }

/-- a post with an author, whose column is called like another field, and that field -/
def postWith (first second : Field) : Context :=
  let m : Model :=
    { name := "Post"
      documentation := some "@crud.update.immutable([\"owner\"])"
      fields := [{ name := "id", type := "Int", isId := true }, first, second] }
  contextOf ⟨{ crudSchemas := true }, { models := [m] }, false, none⟩ m

def ownerFirst : Context := postWith owner author

def authorFirst : Context := postWith author owner

/-- Before the column that is called like it, the field can be named. -/
theorem declared_name_resolves_owner :
    (ownerFirst.entries.map (·.1.name)).Nodup ∧ ownerFirst.keys = ["id", "holder", "owner"] ∧
      ∃ p ∈ ownerFirst.entries, p.1.name = "owner" ∧ ¬ownerFirst.Obscured p ∧
        ownerFirst.Reaches "owner" "holder" ∧
        ownerFirst.updateBlock.value.omitted = ["holder"] := by
  have hn : (ownerFirst.entries.map (·.1.name)).Nodup := by decide +kernel
  have hk : ownerFirst.keys = ["id", "holder", "owner"] := by decide +kernel
  have hk' : ownerFirst.keys.Nodup := by
    rw [hk]
    decide
  obtain ⟨p, hp, hname, hkey, hr⟩ : ∃ p ∈ ownerFirst.entries, p.1.name = "owner" ∧
      p.2.key = "holder" ∧ ownerFirst.resolve "update.immutable" [p.1.name] = ⟨[p.2.key], []⟩ :=
    ⟨ownerFirst.entries[1], List.getElem_mem _, rfl, rfl, rfl⟩
  obtain ⟨hi, hreach, -⟩ := declared_name_resolves_iff ownerFirst hn hk' hp
  have ho := (hi "update.immutable").1 hr
  have hreach := hreach ho
  rw [hname, hkey] at hreach
  exact ⟨hn, hk, p, hp, hname, ho, hreach, by decide +kernel⟩

/-- Behind that column, the name of the field leads to the column: `holder` stays open to updates,
and nothing is reported. -/
theorem owner_obscured :
    (authorFirst.entries.map (·.1.name)).Nodup ∧ authorFirst.keys = ["id", "owner", "holder"] ∧
      authorFirst.entries[2]?.map (fun p => (p.1.name, p.2.key)) = some ("owner", "holder") ∧
      authorFirst.resolve "update.immutable" ["owner"] = ⟨["owner"], []⟩ ∧
      authorFirst.updateBlock.value.omitted = ["owner"] ∧ authorFirst.crudSet.warnings = [] := by
  refine ⟨?_, ?_, rfl, rfl, ?_, rfl⟩ <;> decide +kernel

end ZodSchema.Crud
