import Mathlib.Data.List.Nodup
import Mathlib.Data.List.Pairwise
import Mathlib.Data.List.Perm.Basic
import ZodSchema.Proofs.TypeScript.Module

/-!
# Names that files bind and export

A file binds the names that it takes from others and those that it declares; it exports the latter.

* `SourceFile.values`, `SourceFile.types`   the names bound, in either space
* `Binds`               what statements take and declare
* `nodup_values_iff`, `nodup_types_iff`   when a file binds no name twice
* `Tidy.nodup_iff`      when a table of imports names nothing twice
* `Clashless`           no name is bound twice in a file or exported twice through an index
-/

namespace ZodSchema

namespace Text

variable {x y e e' : String}

/-- of two endings of one text, one is an ending of the other -/
theorem append_eq_append_cases (h : x ++ e = y ++ e') :
    (∃ t, y = x ++ t ∧ e = t ++ e') ∨ ∃ t, x = y ++ t ∧ e' = t ++ e := by
  have hl : x.toList ++ e.toList = y.toList ++ e'.toList := by
    rw [← String.toList_append, ← String.toList_append, h]
  rcases List.append_eq_append_iff.1 hl with ⟨t, h1, h2⟩ | ⟨t, h1, h2⟩
  · refine Or.inl ⟨String.ofList t, String.toList_inj.1 ?_, String.toList_inj.1 ?_⟩
    · rw [String.toList_append, String.toList_ofList, h1]
    · rw [String.toList_append, String.toList_ofList, h2]
  · refine Or.inr ⟨String.ofList t, String.toList_inj.1 ?_, String.toList_inj.1 ?_⟩
    · rw [String.toList_append, String.toList_ofList, h1]
    · rw [String.toList_append, String.toList_ofList, h2]

/-- no text of the list is an ending of another one -/
def SuffixFree (es : List String) : Prop :=
  ∀ e ∈ es, ∀ e' ∈ es, e'.toList.isSuffixOf e.toList = true → e = e'

instance : DecidablePred SuffixFree := fun es =>
  inferInstanceAs (Decidable (∀ e ∈ es, ∀ e' ∈ es, e'.toList.isSuffixOf e.toList = true → e = e'))

theorem ite_sublist {α : Type} (p : Prop) [Decidable p] (l : List α) :
    (if p then l else []).Sublist l := by
  split
  · exact List.Sublist.refl l
  · exact List.nil_sublist l

theorem isSuffixOf_append (t e : String) : e.toList.isSuffixOf (t ++ e).toList = true := by
  rw [List.isSuffixOf_iff_suffix, String.toList_append]
  exact List.suffix_append ..

/-- texts are different when of their endings neither is an ending of the other -/
theorem append_ne_append
    (h : (e.toList.isSuffixOf e'.toList || e'.toList.isSuffixOf e.toList) = false) :
    x ++ e ≠ y ++ e' := by
  obtain ⟨h1, h2⟩ := Bool.or_eq_false_iff.1 h
  intro heq
  rcases append_eq_append_cases heq with ⟨t, -, rfl⟩ | ⟨t, -, rfl⟩
  · rw [isSuffixOf_append] at h2
    cases h2
  · rw [isSuffixOf_append] at h1
    cases h1

theorem SuffixFree.eq_of_append {es : List String} (hf : SuffixFree es) (he : e ∈ es) (he' : e' ∈ es)
    (h : x ++ e = y ++ e') : e = e' ∧ x = y := by
  -- the longer ending of one text has the shorter one as its ending
  have heq : e = e' := by
    rcases append_eq_append_cases h with ⟨t, -, rfl⟩ | ⟨t, -, rfl⟩
    · exact hf _ he _ he' (isSuffixOf_append t e')
    · exact (hf _ he' _ he (isSuffixOf_append t e)).symm
  subst heq
  exact ⟨rfl, (String.append_left_inj e).1 h⟩

theorem nodup_append (es : List String) (ps : List (String × String)) (hp : ps.map (·.2) = es)
    (hf : SuffixFree es) (hn : es.Nodup) : (ps.map fun p => p.1 ++ p.2).Nodup := by
  subst hp
  refine (List.Nodup.of_map _ hn).map_on fun p hp q hq h => ?_
  obtain ⟨he, hx⟩ := hf.eq_of_append (List.mem_map_of_mem hp) (List.mem_map_of_mem hq) h
  exact Prod.ext hx he

end Text

namespace TypeScript

/-! ## statements -/

namespace Stmt

/-- names taken from other modules, whole modules under their names there -/
def taken : Stmt → List String
  | imports table => table.flatMap (·.2)
  | importNames names _ => names
  | importAll name _ => [name]
  | _ => []

/-- the constant or function that a statement declares -/
def declared : Stmt → List String
  | const name _ _ => [name]
  | func name _ _ _ => [name]
  | _ => []

/-- the type that a statement declares -/
def aliases : Stmt → List String
  | typeDef name _ => [name]
  | _ => []

theorem values_eq (st : Stmt) : st.values = st.taken ++ st.declared := by
  cases st <;> simp [values, taken, declared]

theorem types_eq (st : Stmt) : st.types = st.taken ++ st.aliases := by
  cases st <;> simp [types, taken, aliases]

end Stmt

/-- what statements take and declare -/
structure Binds (stmts : List Stmt) (taken declared aliases : List String) : Prop where
  taken : stmts.flatMap Stmt.taken = taken
  declared : stmts.flatMap Stmt.declared = declared
  aliases : stmts.flatMap Stmt.aliases = aliases

namespace Binds

variable {xs ys : List Stmt} {t t' e e' a a' : List String}

theorem append (h : Binds xs t e a) (h' : Binds ys t' e' a') :
    Binds (xs ++ ys) (t ++ t') (e ++ e') (a ++ a') := by
  refine ⟨?_, ?_, ?_⟩
  · rw [List.flatMap_append, h.taken, h'.taken]
  · rw [List.flatMap_append, h.declared, h'.declared]
  · rw [List.flatMap_append, h.aliases, h'.aliases]

theorem flatMap {α : Type} {f : α → List Stmt} {declared aliases : α → List String} (l : List α)
    (h : ∀ x ∈ l, Binds (f x) [] (declared x) (aliases x)) :
    Binds (l.flatMap f) [] (l.flatMap declared) (l.flatMap aliases) := by
  induction l with
  | nil => exact ⟨rfl, rfl, rfl⟩
  | cons x l ih =>
    obtain ⟨hx, hl⟩ := List.forall_mem_cons.1 h
    exact hx.append (ih hl)

end Binds

/-! ## files -/

namespace SourceFile

variable {s : SourceFile} {n : String} {t e a : List String}

def values (s : SourceFile) : List String := s.stmts.flatMap Stmt.values

def types (s : SourceFile) : List String := s.stmts.flatMap Stmt.types

/-- the names that other files may take -/
def exports (s : SourceFile) : List String :=
  s.stmts.flatMap Stmt.declared ++ s.stmts.flatMap Stmt.aliases

theorem nodup_values_iff (h : Binds s.stmts t e a) : s.values.Nodup ↔ (t ++ e).Nodup := by
  have hp := List.flatMap_append_perm s.stmts Stmt.taken Stmt.declared
  rw [h.taken, h.declared] at hp
  unfold values
  rw [funext Stmt.values_eq, hp.nodup_iff]

theorem nodup_types_iff (h : Binds s.stmts t e a) : s.types.Nodup ↔ (t ++ a).Nodup := by
  have hp := List.flatMap_append_perm s.stmts Stmt.taken Stmt.aliases
  rw [h.taken, h.aliases] at hp
  unfold types
  rw [funext Stmt.types_eq, hp.nodup_iff]

theorem exports_eq (h : Binds s.stmts t e a) : s.exports = e ++ a := by
  unfold exports
  rw [h.declared, h.aliases]

end SourceFile

theorem binds_indexFile (family dir : String) (modules : List String) :
    Binds (indexFile family dir modules).stmts [] [] [] := by
  have h : ∀ st ∈ (indexFile family dir modules).stmts,
      st.taken = [] ∧ st.declared = [] ∧ st.aliases = [] := by
    intro st hst
    rcases cases_mem_indexFile hst with hst | rfl | ⟨m, rfl⟩
    · obtain rfl := List.mem_singleton.1 hst
      exact ⟨rfl, rfl, rfl⟩
    · exact ⟨rfl, rfl, rfl⟩
    · exact ⟨rfl, rfl, rfl⟩
  exact ⟨List.flatMap_eq_nil_iff.2 fun st hst => (h st hst).1,
    List.flatMap_eq_nil_iff.2 fun st hst => (h st hst).2.1,
    List.flatMap_eq_nil_iff.2 fun st hst => (h st hst).2.2⟩

/-- No file binds a name twice in one space, and no two files that an index lists export the same
name. -/
structure Clashless (files : List SourceFile) : Prop where
  values : ∀ s ∈ files, s.values.Nodup
  types : ∀ s ∈ files, s.types.Nodup
  exports : ∀ dir, ∀ s ∈ files, ∀ s' ∈ files, Listed files dir s → Listed files dir s' →
    s.family = s'.family → s.path ≠ s'.path → s.exports.Disjoint s'.exports

/-! ## tables of imports -/

namespace Imports

variable {t : Imports} {module name : String}

/-- every module once, with its names each once -/
structure Tidy (t : Imports) : Prop where
  modules : (t.map (·.1)).Nodup
  names : ∀ e ∈ t, e.2.Nodup

theorem has_cons {e : String × List String} :
    Has (e :: t) module name ↔ module = e.1 ∧ name ∈ e.2 ∨ Has t module name := by
  constructor
  · rintro ⟨ns, he, hn⟩
    rcases List.mem_cons.1 he with rfl | he
    · exact Or.inl ⟨rfl, hn⟩
    · exact Or.inr ⟨ns, he, hn⟩
  · rintro (⟨rfl, hn⟩ | ⟨ns, he, hn⟩)
    · exact ⟨e.2, List.mem_cons_self, hn⟩
    · exact ⟨ns, List.mem_cons_of_mem _ he, hn⟩

theorem has_add_iff {m : String} {ns : List String} :
    (t.add m ns).Has module name ↔ t.Has module name ∨ module = m ∧ name ∈ ns := by
  induction t with
  | nil =>
    show Has [(m, ns.eraseDups)] module name ↔ _
    rw [has_cons, List.mem_eraseDups, or_comm]
  | cons e t ih =>
    obtain ⟨m', ns'⟩ := e
    unfold add
    split
    · next h =>
      subst h
      rw [has_cons, has_cons, List.mem_append, List.mem_filter, List.mem_eraseDups]
      by_cases hn : name ∈ ns' <;> simp [hn] <;> tauto
    · rw [has_cons, has_cons, ih, or_assoc]

theorem mem_modules_add {m : String} {ns : List String} :
    module ∈ (t.add m ns).map (·.1) ↔ module ∈ t.map (·.1) ∨ module = m := by
  induction t with
  | nil => simp [add]
  | cons e t ih =>
    obtain ⟨m', ns'⟩ := e
    unfold add
    split
    · next h =>
      subst h
      simp only [List.map_cons, List.mem_cons]
      tauto
    · rw [List.map_cons, List.map_cons, List.mem_cons, List.mem_cons, ih, or_assoc]

theorem Tidy.add (h : Tidy t) (m : String) (ns : List String) : Tidy (t.add m ns) := by
  have hd : ns.eraseDups.Nodup := Text.nodup_eraseDups ns
  induction t with
  | nil => exact ⟨List.nodup_singleton m, fun e he => List.mem_singleton.1 he ▸ hd⟩
  | cons e t ih =>
    obtain ⟨m', ns'⟩ := e
    obtain ⟨hm, hn⟩ := h
    obtain ⟨hne, hnt⟩ := List.forall_mem_cons.1 hn
    rw [List.map_cons, List.nodup_cons] at hm
    unfold Imports.add
    split
    · refine ⟨List.nodup_cons.2 hm, List.forall_mem_cons.2 ⟨?_, hnt⟩⟩
      refine List.nodup_append'.2 ⟨hne, hd.filter _, ?_⟩
      intro x hx hx'
      simp [hx] at hx'
    · next hmm =>
      obtain ⟨hm', hn'⟩ := ih ⟨hm.2, hnt⟩
      refine ⟨List.nodup_cons.2 ⟨fun hmem => ?_, hm'⟩, List.forall_mem_cons.2 ⟨hne, hn'⟩⟩
      rcases mem_modules_add.1 hmem with hmem | hmem
      · exact hm.1 hmem
      · exact hmm hmem

theorem tidy_foldl (es : Imports) (h : Tidy t) :
    Tidy (es.foldl (fun acc e => acc.add e.1 e.2) t) := by
  induction es generalizing t with
  | nil => exact h
  | cons e es ih => exact ih (h.add e.1 e.2)

theorem tidy_merge (tables : List Imports) : Tidy (merge tables) :=
  tidy_foldl _ ⟨List.nodup_nil, fun e he => by cases he⟩

theorem has_foldl_iff (es : Imports) :
    (es.foldl (fun acc e => acc.add e.1 e.2) t).Has module name ↔
      t.Has module name ∨ es.Has module name := by
  induction es generalizing t with
  | nil => exact (or_iff_left fun ⟨_, h, _⟩ => by cases h).symm
  | cons e es ih => rw [List.foldl_cons, ih, has_add_iff, has_cons, or_assoc]

theorem has_merge_iff {tables : List Imports} :
    (merge tables).Has module name ↔ ∃ t ∈ tables, t.Has module name := by
  have hnil : ¬ Has [] module name := fun ⟨_, h, _⟩ => by cases h
  unfold merge
  rw [has_foldl_iff, or_iff_right hnil]
  constructor
  · rintro ⟨ns, he, hn⟩
    obtain ⟨t, ht, he⟩ := List.mem_flatten.1 he
    exact ⟨t, ht, ns, he, hn⟩
  · rintro ⟨t, ht, ns, he, hn⟩
    exact ⟨ns, List.mem_flatten.2 ⟨t, ht, he⟩, hn⟩

theorem mem_names : name ∈ t.flatMap (·.2) ↔ ∃ module, t.Has module name := by
  rw [List.mem_flatMap]
  constructor
  · rintro ⟨e, he, hn⟩
    exact ⟨e.1, e.2, he, hn⟩
  · rintro ⟨module, ns, he, hn⟩
    exact ⟨_, he, hn⟩

theorem Tidy.nodup_iff (h : Tidy t) :
    (t.flatMap (·.2)).Nodup ↔
      ∀ m m' n, t.Has m n → t.Has m' n → m = m' := by
  rw [List.nodup_flatMap]
  constructor
  · rintro ⟨-, hp⟩ m m' n ⟨ns, he, hn⟩ ⟨ns', he', hn'⟩
    by_contra hne
    have : Std.Symm (Function.onFun List.Disjoint fun e : String × List String => e.2) :=
      ⟨fun _ _ h _ hb ha => h ha hb⟩
    exact hp.forall he he' (fun e => hne (congrArg Prod.fst e)) hn hn'
  · intro hu
    refine ⟨h.names, ?_⟩
    refine (List.Nodup.of_map _ h.modules).pairwise_of_forall_ne fun e he e' he' hne n hn hn' => ?_
    have hm : e.1 = e'.1 := hu _ _ n ⟨_, he, hn⟩ ⟨_, he', hn'⟩
    exact hne (List.inj_on_of_nodup_map h.modules he he' hm)

end Imports

end TypeScript

end ZodSchema
