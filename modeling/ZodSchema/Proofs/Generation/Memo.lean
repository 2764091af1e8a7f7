import ZodSchema.Generation.Memo
import ZodSchema.Proofs.Generation.Order
import ZodSchema.Proofs.Validation.Keys

/-!
# Kept entries and layers answer as fresh ones

What is kept comes from the first model of its name that was asked for.  With different names that
is the model itself.

* `firstIn`, `firsts`   the first model of a name, and of every name
* `Kept`                what is kept after some questions, `kept_after`
* `validated_objects`   a data model that passes, asked in any order
-/

namespace ZodSchema.Generation

open Schema Layer

variable {c : Config} {d : Datamodel} {r : Option Brand.Registry} {ms asked layered : List Model}
  {m x : Model} {n : String} {s : Memo}

/-! ## first models -/

/-- the first model that bears the name of `m` -/
def firstIn (ms : List Model) (m : Model) : Model := (ms.find? (·.name == m.name)).getD m

/-- the first model of every name -/
def firsts (ms : List Model) : List Model :=
  (ms.map (·.name)).eraseDups.filterMap fun n => ms.find? (·.name == n)

theorem find?_isSome_iff : (ms.find? (·.name == n)).isSome = true ↔ n ∈ ms.map (·.name) := by
  rw [List.find?_isSome, List.mem_map]
  exact exists_congr fun x => and_congr_right fun _ => beq_iff_eq

theorem find?_append_of_mem (h : n ∈ ms.map (·.name)) (rest : List Model) :
    (ms ++ rest).find? (·.name == n) = ms.find? (·.name == n) := by
  obtain ⟨x, hx⟩ := Option.isSome_iff_exists.1 (find?_isSome_iff.2 h)
  rw [List.find?_append, hx, Option.some_or]

theorem find?_concat_of_ne (h : m.name ≠ n) :
    (ms ++ [m]).find? (·.name == n) = ms.find? (·.name == n) := by
  rw [List.find?_append, List.find?_cons_of_neg (by simpa using h), List.find?_nil, Option.or_none]

/-- a model of a name that was there already changes nothing -/
theorem find?_concat_old (h : m.name ∈ ms.map (·.name)) (n : String) :
    (ms ++ [m]).find? (·.name == n) = ms.find? (·.name == n) := by
  by_cases hn : m.name = n
  · exact find?_append_of_mem (hn ▸ h) [m]
  · exact find?_concat_of_ne hn

theorem find?_concat_new (h : m.name ∉ ms.map (·.name)) :
    (ms ++ [m]).find? (·.name == m.name) = some m := by
  have hn : ms.find? (·.name == m.name) = none := by
    rw [← Option.not_isSome_iff_eq_none, find?_isSome_iff]
    exact h
  rw [List.find?_append, hn, Option.none_or]
  exact List.find?_cons_of_pos (beq_self_eq_true m.name)

theorem firstIn_append (h : m.name ∈ ms.map (·.name)) (rest : List Model) :
    firstIn (ms ++ rest) m = firstIn ms m := by
  unfold firstIn
  rw [find?_append_of_mem h]

theorem firstIn_concat_old (h : m.name ∈ ms.map (·.name)) (x : Model) :
    firstIn (ms ++ [m]) x = firstIn ms x := by
  unfold firstIn
  rw [find?_concat_old h]

theorem firstIn_concat_new (h : m.name ∉ ms.map (·.name)) : firstIn (ms ++ [m]) m = m := by
  unfold firstIn
  rw [find?_concat_new h]
  rfl

theorem find?_eq_firstIn (h : m.name ∈ ms.map (·.name)) :
    ms.find? (·.name == m.name) = some (firstIn ms m) := by
  obtain ⟨x, hx⟩ := Option.isSome_iff_exists.1 (find?_isSome_iff.2 h)
  unfold firstIn
  rw [hx]
  rfl

theorem firsts_concat (ms : List Model) (m : Model) :
    firsts (ms ++ [m]) = firsts ms ++ if m.name ∈ ms.map (·.name) then [] else [m] := by
  have ho : ∀ n ∈ (ms.map (·.name)).eraseDups,
      (ms ++ [m]).find? (·.name == n) = ms.find? (·.name == n) := fun n hn =>
    find?_append_of_mem (List.mem_eraseDups.1 hn) [m]
  unfold firsts
  rw [List.map_append, List.map_singleton, Text.eraseDups_concat, List.filterMap_append,
    List.filterMap_congr ho]
  congr 1
  split
  · rfl
  · next h =>
    exact List.filterMap_cons_some (find?_concat_new h)

/-! ## what is kept -/

/-- what is kept after questions about the models `asked`, of which `layered` were asked for their
layers -/
structure Kept (c : Config) (d : Datamodel) (r : Option Brand.Registry) (asked layered : List Model)
    (s : Memo) : Prop where
  entries : ∀ n, Assoc.get? n s.entries = (asked.find? (·.name == n)).map (emitted c d)
  layers : ∀ n, Assoc.get? n s.layers = (layered.find? (·.name == n)).map fun m =>
    layersOver r m (emitted c d (firstIn asked m))
  warnings : s.warnings = (firsts asked).flatMap (emissionWarnings c d)
  subset : layered ⊆ asked

namespace Kept

theorem empty (c : Config) (d : Datamodel) (r : Option Brand.Registry) : Kept c d r [] [] {} :=
  ⟨fun _ => rfl, fun _ => rfl, rfl, List.Subset.refl _⟩

theorem asked_old (h : Kept c d r asked layered s) (hm : m.name ∈ asked.map (·.name)) :
    Kept c d r (asked ++ [m]) layered s := by
  refine ⟨fun n => ?_, fun n => ?_, ?_, fun x hx => List.mem_append_left _ (h.subset hx)⟩
  · rw [h.entries, find?_concat_old hm]
  · rw [h.layers]
    simp only [firstIn_concat_old hm]
  · rw [h.warnings, firsts_concat, if_pos hm, List.append_nil]

theorem layered_old (h : Kept c d r asked layered s) (hm : m.name ∈ layered.map (·.name))
    (ha : m ∈ asked) : Kept c d r asked (layered ++ [m]) s := by
  refine ⟨h.entries, fun n => ?_, h.warnings, ?_⟩
  · rw [h.layers, find?_concat_old hm]
  · exact List.append_subset.2 ⟨h.subset, List.cons_subset.2 ⟨ha, List.nil_subset _⟩⟩

theorem entriesOf (h : Kept c d r asked layered s) (m : Model) :
    (s.entriesOf c d m).1 = emitted c d (firstIn (asked ++ [m]) m) ∧
      Kept c d r (asked ++ [m]) layered (s.entriesOf c d m).2 := by
  unfold Memo.entriesOf
  by_cases hm : m.name ∈ asked.map (·.name)
  · rw [h.entries, find?_eq_firstIn hm, firstIn_concat_old hm]
    exact ⟨rfl, h.asked_old hm⟩
  · have hn : asked.find? (·.name == m.name) = none := by
      rw [← Option.not_isSome_iff_eq_none, find?_isSome_iff]
      exact hm
    rw [h.entries, hn, firstIn_concat_new hm]
    refine ⟨rfl, fun n => ?_, fun n => ?_, ?_, fun x hx => List.mem_append_left _ (h.subset hx)⟩
    · show Assoc.get? n (Assoc.put m.name (emitted c d m) s.entries) = _
      by_cases hne : n = m.name
      · subst hne
        rw [Assoc.get?_put_self, find?_concat_new hm]
        rfl
      · rw [Assoc.get?_put_of_ne hne, h.entries, find?_concat_of_ne (Ne.symm hne)]
    · show Assoc.get? n s.layers = _
      rw [h.layers]
      refine Option.map_congr fun x hx => ?_
      have hx : x.name ∈ asked.map (·.name) :=
        List.mem_map_of_mem (h.subset (List.mem_of_find?_eq_some hx))
      rw [firstIn_append hx]
    · show s.warnings ++ emissionWarnings c d m = _
      rw [h.warnings, firsts_concat, if_neg hm, List.flatMap_append, List.flatMap_singleton]

theorem layersOf (h : Kept c d r asked layered s) (m : Model) :
    (s.layersOf c d r m).1 =
        layersOver r (firstIn (layered ++ [m]) m) (emitted c d (firstIn (asked ++ [m]) m)) ∧
      Kept c d r (asked ++ [m]) (layered ++ [m]) (s.layersOf c d r m).2 := by
  have ha : m ∈ asked ++ [m] := List.mem_append_right _ (List.mem_singleton_self m)
  unfold Memo.layersOf
  by_cases hm : m.name ∈ layered.map (·.name)
  · have hm' : m.name ∈ asked.map (·.name) := List.map_subset _ h.subset hm
    have hf := find?_eq_firstIn hm
    have hname : (firstIn layered m).name = m.name := by simpa using List.find?_some hf
    rw [h.layers, hf, firstIn_concat_old hm, firstIn_concat_old hm']
    refine ⟨?_, (h.asked_old hm').layered_old hm ha⟩
    have he : firstIn asked (firstIn layered m) = firstIn asked m :=
      Option.some.inj (by rw [← find?_eq_firstIn (by rwa [hname]), hname, find?_eq_firstIn hm'])
    show layersOver r (firstIn layered m) (emitted c d (firstIn asked (firstIn layered m))) = _
    rw [he]
  · have hn : layered.find? (·.name == m.name) = none := by
      rw [← Option.not_isSome_iff_eq_none, find?_isSome_iff]
      exact hm
    obtain ⟨he, hk⟩ := h.entriesOf m
    rw [h.layers, hn, firstIn_concat_new hm]
    refine ⟨congrArg (layersOver r m) he, hk.entries, fun n => ?_, hk.warnings,
      List.append_subset.2 ⟨hk.subset, List.cons_subset.2 ⟨ha, List.nil_subset _⟩⟩⟩
    show Assoc.get? n (Assoc.put m.name (layersOver r m (s.entriesOf c d m).1)
      (s.entriesOf c d m).2.layers) = _
    by_cases hne : n = m.name
    · subst hne
      rw [Assoc.get?_put_self, find?_concat_new hm, he]
      rfl
    · rw [Assoc.get?_put_of_ne hne, hk.layers, find?_concat_of_ne (Ne.symm hne)]

end Kept

theorem kept_after (c : Config) (d : Datamodel) (r : Option Brand.Registry) (asks : List Ask) :
    Kept c d r (asks.map Ask.model) (asks.filterMap Ask.layered?) (after c d r asks) := by
  induction asks using List.reverseRecOn with
  | nil => exact Kept.empty c d r
  | append_singleton asks a ih =>
    unfold after at ih ⊢
    rw [List.foldl_append, List.map_append, List.filterMap_append]
    cases a with
    | entries m =>
      show Kept c d r (_ ++ [m]) (_ ++ []) _
      rw [List.append_nil]
      exact (ih.entriesOf m).2
    | layers m => exact (ih.layersOf m).2

/-! ## the questions of the families -/

/-- sorting by name leaves models of one name in their order -/
theorem find?_sortedModels (d : Datamodel) (n : String) :
    d.sortedModels.find? (·.name == n) = d.models.find? (·.name == n) := by
  have ht : ∀ a b e : Model, decide (a.name ≤ b.name) = true → decide (b.name ≤ e.name) = true →
      decide (a.name ≤ e.name) = true := fun a b e h1 h2 =>
    decide_eq_true (String.le_trans (of_decide_eq_true h1) (of_decide_eq_true h2))
  have hc : ∀ a b : Model, (decide (a.name ≤ b.name) || decide (b.name ≤ a.name)) = true :=
    fun a b => by simp [String.le_total]
  have hp : (d.models.filter (·.name == n)).Pairwise fun a b => decide (a.name ≤ b.name) = true := by
    refine List.pairwise_of_forall_mem_list fun a ha b hb => decide_eq_true ?_
    have hna : a.name = n := by simpa using (List.mem_filter.1 ha).2
    have hnb : b.name = n := by simpa using (List.mem_filter.1 hb).2
    have hab : a.name = b.name := hna.trans hnb.symm
    exact hab ▸ String.le_refl a.name
  have hs : (d.models.filter (·.name == n)).Sublist (d.sortedModels.filter (·.name == n)) := by
    have h := (List.sublist_mergeSort ht hc hp List.filter_sublist).filter (·.name == n)
    rw [List.filter_filter] at h
    simp only [Bool.and_self] at h
    exact h
  have he := hs.eq_of_length ((perm_sortedModels d).filter _).length_eq.symm
  rw [← List.head?_filter, ← List.head?_filter, he]

/-- the first family asks for every model, in order -/
theorem asked_passes (hz : c.zodSchemas = true) (d : Datamodel) :
    ∃ rest, (passes c d).map Ask.model = d.sortedModels ++ rest ∧ rest ⊆ d.sortedModels := by
  unfold passes
  rw [if_pos hz, List.append_assoc, List.map_append, List.map_map]
  refine ⟨_, congrArg (· ++ _) (List.map_id _), fun x hx => ?_⟩
  simp only [List.map_append, List.mem_append, List.mem_map, List.mem_ite_nil_right] at hx
  obtain ⟨a, ⟨-, m, hm, rfl⟩, rfl⟩ | ⟨a, ⟨-, m, hm, rfl⟩, rfl⟩ := hx
  · exact hm
  · exact mem_sortedModels.2 (mem_models_of_eligible hm)

theorem emitted_firstOfName (c : Config) (d : Datamodel) (m : Model) :
    emitted c d (d.firstOfName m) = Schema.entries c d m := rfl

theorem layersOver_firstOfName (c : Config) (d : Datamodel) (r : Option Brand.Registry)
    (m : Model) :
    layersOver r (d.firstOfName m) (emitted c d (d.firstOfName m)) = Layer.layersOf c d r m := by
  unfold Layer.layersOf
  dsimp only
  rw [← emitted_firstOfName, Datamodel.firstOfName_firstOfName]
  rfl

/-! ## warnings -/

theorem firsts_append_of_subset {rest : List Model} (h : rest ⊆ ms) :
    firsts (ms ++ rest) = firsts ms := by
  induction rest using List.reverseRecOn with
  | nil => rw [List.append_nil]
  | append_singleton rest x ih =>
    obtain ⟨hrest, hx⟩ := List.append_subset.1 h
    have hm : x.name ∈ (ms ++ rest).map (·.name) :=
      List.mem_map_of_mem (List.mem_append_left _ (hx (List.mem_singleton_self x)))
    rw [← List.append_assoc, firsts_concat, if_pos hm, List.append_nil, ih hrest]

theorem flatMap_emissionWarnings (c : Config) (d : Datamodel) :
    (firsts d.sortedModels).flatMap (emissionWarnings c d) = Schema.entryWarnings c d := by
  unfold firsts Schema.entryWarnings Schema.warningsOf
  rw [List.filterMap_eq_flatMap_toList, List.flatMap_assoc]
  refine congrArg (List.flatMap · _) (funext fun n => ?_)
  rw [find?_sortedModels]
  cases h : d.models.find? (·.name == n) with
  | none => rfl
  | some m =>
    have hn : m.name = n := by simpa using List.find?_some h
    have hm : d.firstOfName m = m := by
      unfold Datamodel.firstOfName
      rw [hn, h]
      rfl
    show [m].flatMap (emissionWarnings c d) = (Schema.entries c d m).flatMap (·.2.warnings)
    rw [List.flatMap_singleton, ← emitted_firstOfName, hm, emitted, List.flatMap_map]
    rfl

/-- what the families note is what is reported of emission -/
theorem warnings_passes (r : Option Brand.Registry) (hz : c.zodSchemas = true) (d : Datamodel) :
    (after c d r (passes c d)).warnings = Schema.entryWarnings c d := by
  obtain ⟨rest, hr, hs⟩ := asked_passes hz d
  rw [(kept_after c d r _).warnings, hr, firsts_append_of_subset hs, flatMap_emissionWarnings]

/-! ## different names -/

theorem map_name_firsts (ms : List Model) :
    (firsts ms).map (·.name) = (ms.map (·.name)).eraseDups := by
  induction ms using List.reverseRecOn with
  | nil => rfl
  | append_singleton ms m ih =>
    rw [firsts_concat, List.map_append, ih, List.map_append, List.map_singleton,
      Text.eraseDups_concat]
    congr 1
    split <;> rfl

theorem firsts_eq_self (h : (ms.map (·.name)).Nodup) : firsts ms = ms := by
  induction ms using List.reverseRecOn with
  | nil => rfl
  | append_singleton ms m ih =>
    rw [List.map_append, List.map_singleton, ← List.concat_eq_append, List.nodup_concat] at h
    rw [firsts_concat, if_neg h.1, ih h.2]

theorem nodup_firsts (ms : List Model) : (firsts ms).Nodup := by
  apply List.Nodup.of_map (·.name)
  rw [map_name_firsts]
  exact Text.nodup_eraseDups _

section
variable (hn : (d.models.map (·.name)).Nodup)
include hn

theorem firstIn_of_nodup (hs : ms ⊆ d.models) (hm : m ∈ ms) : firstIn ms m = m := by
  have hf := find?_eq_firstIn (List.mem_map_of_mem hm)
  have hname : (firstIn ms m).name = m.name := by simpa using List.find?_some hf
  exact List.inj_on_of_nodup_map hn (hs (List.mem_of_find?_eq_some hf)) (hs hm) hname

theorem firstIn_concat_of_nodup (hs : ms ⊆ d.models) (hm : m ∈ d.models) :
    firstIn (ms ++ [m]) m = m := by
  refine firstIn_of_nodup hn (List.append_subset.2 ⟨hs, ?_⟩)
    (List.mem_append_right _ (List.mem_singleton_self m))
  exact List.cons_subset.2 ⟨hm, List.nil_subset _⟩

theorem mem_firsts_iff (hs : ms ⊆ d.models) (m : Model) : m ∈ firsts ms ↔ m ∈ ms := by
  unfold firsts
  rw [List.mem_filterMap]
  constructor
  · rintro ⟨n, -, h⟩
    exact List.mem_of_find?_eq_some h
  · intro h
    refine ⟨m.name, List.mem_eraseDups.2 (List.mem_map_of_mem h), ?_⟩
    rw [find?_eq_firstIn (List.mem_map_of_mem h), firstIn_of_nodup hn hs h]

theorem entriesOf_after (r : Option Brand.Registry) {asks : List Ask}
    (ha : asks.map Ask.model ⊆ d.models) (hm : m ∈ d.models) :
    ((after c d r asks).entriesOf c d m).1 = emitted c d m := by
  rw [((kept_after c d r asks).entriesOf m).1, firstIn_concat_of_nodup hn ha hm]

theorem layersOf_after (r : Option Brand.Registry) {asks : List Ask}
    (ha : asks.map Ask.model ⊆ d.models) (hm : m ∈ d.models) :
    ((after c d r asks).layersOf c d r m).1 = layersOver r m (emitted c d m) := by
  have hk := kept_after c d r asks
  rw [(hk.layersOf m).1, firstIn_concat_of_nodup hn ha hm,
    firstIn_concat_of_nodup hn (fun x hx => ha (hk.subset hx)) hm]

end

/-- **Objects of a data model that passes.**  Names of models are different, and so are the keys in
the object of a model.  So whatever the entries and the layers of a model were kept for, and in
whatever order models were asked for, the answer is that of an empty memory; every model asked for
has its warnings noted once. -/
theorem validated_objects (hv : (Validation.validate d c).isValid = true) :
    (d.models.map (·.name)).Nodup ∧
    (∀ m ∈ d.models, ((Schema.entries c d m).map (·.2.key)).Nodup) ∧
    (∀ r asks, (∀ a ∈ asks, a.model ∈ d.models) →
      (∀ m ∈ d.models,
        ((after c d r asks).entriesOf c d m).1 = (({} : Memo).entriesOf c d m).1 ∧
        ((after c d r asks).layersOf c d r m).1 = (({} : Memo).layersOf c d r m).1) ∧
      ∃ ms : List Model, ms.Nodup ∧ (∀ m, m ∈ ms ↔ ∃ a ∈ asks, a.model = m) ∧
        (after c d r asks).warnings = ms.flatMap (emissionWarnings c d)) ∧
    (∀ m ∈ d.models, ∀ r,
      (({} : Memo).entriesOf c d m).1 = Schema.entries c d m ∧
      (({} : Memo).layersOf c d r m).1 = Layer.layersOf c d r m) ∧
    ∀ r, c.zodSchemas = true →
      (after c d r (passes c d)).warnings = Schema.entryWarnings c d ∧
      Schema.entryWarnings c d = d.sortedModels.flatMap (emissionWarnings c d) := by
  have hn := (Validation.names_of_valid hv).1
  have hfirst : ∀ m ∈ d.models, d.firstOfName m = m := by
    intro m hm
    exact firstIn_of_nodup hn (List.Subset.refl _) hm
  refine ⟨hn, ?keys, ?answers, ?running, ?noted⟩
  case keys =>
    intro m hm
    have hk := Validation.keys_of_valid hv hm
    rw [← emitted_firstOfName, hfirst m hm, emitted, List.map_map]
    exact hk
  case answers =>
    intro r asks ha
    have hs : asks.map Ask.model ⊆ d.models := by
      intro m hm
      obtain ⟨a, hmem, rfl⟩ := List.mem_map.1 hm
      exact ha a hmem
    refine ⟨fun m hm => ?_, firsts (asks.map Ask.model), nodup_firsts _, fun m => ?_,
      (kept_after c d r asks).warnings⟩
    · exact ⟨entriesOf_after hn r hs hm, layersOf_after hn r hs hm⟩
    · rw [mem_firsts_iff hn hs, List.mem_map]
  case running =>
    intro m hm r
    show emitted c d m = _ ∧ layersOver r m (emitted c d m) = _
    rw [← emitted_firstOfName, ← layersOver_firstOfName, hfirst m hm]
    exact ⟨rfl, rfl⟩
  case noted =>
    intro r hz
    have hs : (d.sortedModels.map (·.name)).Nodup := ((perm_sortedModels d).map _).nodup_iff.2 hn
    rw [warnings_passes r hz, ← flatMap_emissionWarnings, firsts_eq_self hs]
    exact ⟨rfl, rfl⟩

/-- a model with a field of an enumeration that is not there -/
def unlisted : Datamodel :=
  { models := [
      { name := "Post"
        fields := [
          { name := "id", type := "String", isId := true },
          { name := "status", type := "Status", kind := ⟨.enumeration, true⟩ }] }] }

/-- three families ask for the model, and its warning is noted once -/
theorem validated_objects_unlisted :
    (Validation.validate unlisted allFamilies).isValid = true ∧
      (passes allFamilies unlisted).length = 3 ∧
      ∀ r, (after allFamilies unlisted r (passes allFamilies unlisted)).warnings =
        ["Field 'status' references unknown enum 'Status'; emitting z.unknown()."] := by
  have hv : (Validation.validate unlisted allFamilies).isValid = true := by decide +kernel
  refine ⟨hv, by decide +kernel, fun r => ?_⟩
  obtain ⟨-, -, -, -, hnoted⟩ := validated_objects hv
  obtain ⟨hw, he⟩ := hnoted r rfl
  rw [hw, he]
  decide +kernel

end ZodSchema.Generation
