import ZodSchema.Proofs.TypeScript.Names

/-!
# Import lines

A table of imports is written with its modules and their names in order.

* `Imports.pairwise_modules_sorted`, `Imports.pairwise_names_sorted`  each of them once, in order
* `Imports.has_sorted`   nothing is lost, and nothing comes in
* `Imports.Filled`       no module stands without a name
* `unlines_imports`      the lines of a table among others
-/

namespace ZodSchema.TypeScript

namespace Imports

variable {t : Imports} {module name : String} {e : String × List String}

theorem pairwise_modules_sorted (t : Imports) : (t.sorted.map (·.1)).Pairwise (· < ·) := by
  have h : t.sorted.map (·.1) = Text.Str.sortDedup (t.map (·.1)) := by
    unfold sorted
    rw [List.map_map]
    exact List.map_id _
  rw [h]
  exact Text.Str.pairwise_sortDedup _

theorem pairwise_names_sorted (he : e ∈ t.sorted) : e.2.Pairwise (· < ·) := by
  obtain ⟨m, -, rfl⟩ := List.mem_map.1 he
  exact Text.Str.pairwise_sortDedup _

theorem has_sorted : t.sorted.Has module name ↔ t.Has module name := by
  have hrow : ∀ m, name ∈ Text.Str.sortDedup ((t.filter (·.1 == m)).flatMap (·.2)) ↔
      t.Has m name := by
    intro m
    simp only [Text.Str.mem_sortDedup, List.mem_flatMap, List.mem_filter, beq_iff_eq]
    constructor
    · rintro ⟨e, ⟨he, rfl⟩, hn⟩
      exact ⟨e.2, he, hn⟩
    · rintro ⟨ns, he, hn⟩
      exact ⟨_, ⟨he, rfl⟩, hn⟩
  constructor
  · rintro ⟨ns, he, hn⟩
    obtain ⟨m, -, he⟩ := List.mem_map.1 he
    obtain ⟨rfl, rfl⟩ := Prod.mk.inj he
    exact (hrow m).1 hn
  · intro h
    have hm : module ∈ t.map (·.1) := List.mem_map.2 ⟨_, h.choose_spec.1, rfl⟩
    exact ⟨_, List.mem_map.2 ⟨module, Text.Str.mem_sortDedup.2 hm, rfl⟩, (hrow module).2 h⟩

/-- no module stands without a name -/
def Filled (t : Imports) : Prop := ∀ e ∈ t, e.2 ≠ []

theorem filled_singleton (module name : String) : Filled [(module, [name])] :=
  List.forall_mem_singleton.2 (List.cons_ne_nil _ _)

theorem Filled.add {ns : List String} (h : Filled t) (m : String) (hns : ns ≠ []) :
    Filled (t.add m ns) := by
  induction t with
  | nil =>
    obtain ⟨n, hn⟩ := List.exists_mem_of_ne_nil ns hns
    exact List.forall_mem_singleton.2 (List.ne_nil_of_mem (List.mem_eraseDups.2 hn))
  | cons e t ih =>
    obtain ⟨he, ht⟩ := List.forall_mem_cons.1 h
    unfold Imports.add
    split
    · exact List.forall_mem_cons.2 ⟨List.append_ne_nil_of_left_ne_nil he _, ht⟩
    · exact List.forall_mem_cons.2 ⟨he, ih ht⟩

theorem filled_merge {tables : List Imports} (h : ∀ t ∈ tables, Filled t) :
    Filled (merge tables) := by
  have hfold : ∀ (es acc : Imports), Filled es → Filled acc →
      Filled (es.foldl (fun acc e => acc.add e.1 e.2) acc) := by
    intro es
    induction es with
    | nil => exact fun _ _ ha => ha
    | cons e es ih =>
      intro acc hes ha
      obtain ⟨he, hes⟩ := List.forall_mem_cons.1 hes
      exact ih _ hes (ha.add e.1 he)
  refine hfold _ _ (fun e he => ?_) (List.forall_mem_nil _)
  obtain ⟨t, ht, he⟩ := List.mem_flatten.1 he
  exact h t ht e he

theorem Filled.sorted (h : Filled t) : Filled t.sorted := by
  intro e he
  obtain ⟨m, hm, rfl⟩ := List.mem_map.1 he
  obtain ⟨row, hrow, rfl⟩ := List.mem_map.1 (Text.Str.mem_sortDedup.1 hm)
  obtain ⟨n, hn⟩ := List.exists_mem_of_ne_nil _ (h row hrow)
  refine List.ne_nil_of_mem (a := n) (Text.Str.mem_sortDedup.2 (List.mem_flatMap.2 ⟨row, ?_, hn⟩))
  exact List.mem_filter.2 ⟨hrow, beq_self_eq_true _⟩

end Imports

/-- a table is written row by row -/
theorem unlines_imports (t : Imports) (xs ys : List String) :
    Text.Str.unlines (xs ++ (Stmt.imports t).lines ++ ys) =
      Text.Str.unlines (xs ++ t.sorted.map (fun e => importLine e.1 e.2) ++ ys) := by
  cases t with
  | nil =>
    have hs : Imports.sorted [] = [] := by simp [Imports.sorted, Text.Str.sortDedup]
    rw [hs]
    rfl
  | cons e t =>
    refine Text.Str.unlines_unlines xs ys ?_
    have hm : e.1 ∈ Text.Str.sortDedup ((e :: t).map (·.1)) :=
      Text.Str.mem_sortDedup.2 List.mem_cons_self
    exact List.ne_nil_of_mem (List.mem_map_of_mem (List.mem_map_of_mem hm))

end ZodSchema.TypeScript
