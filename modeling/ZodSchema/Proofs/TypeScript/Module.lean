import ZodSchema.Schema.Base
import ZodSchema.Proofs.Text.Chars

/-!
# What files declare, take and list

* `SourceFile.constants`   the constants that a file declares
* `SourceFile.takes`, `SourceFile.spaces`   names and whole modules that it takes from others
* `SourceFile.takes_of_imports`  only import statements take anything
* `Listed`                 the index of its family re-exports a file
* `Imports.has_merge`      merged tables hold what the tables hold
* `reexport_mem_indexFile` an index re-exports its modules
-/

namespace ZodSchema.TypeScript

namespace Stmt

def constant? : Stmt → Option String
  | const name _ _ => some name
  | _ => none

/-- names taken from other modules, each with the literal of its module -/
def takes : Stmt → List (String × String)
  | imports table => table.flatMap fun e => e.2.map fun n => (n, Text.quote e.1)
  | importNames names literal => names.map fun n => (n, literal)
  | _ => []

/-- a whole module that a statement takes: its name there and the literal of the module -/
def space? : Stmt → Option (String × String)
  | importAll name literal => some (name, literal)
  | _ => none

def isImport : Stmt → Bool
  | imports _ | importNames _ _ | importAll _ _ => true
  | _ => false

theorem takes_eq_nil {st : Stmt} (h : st.isImport = false) : st.takes = [] := by
  cases st with
  | imports | importNames | importAll => cases h
  | _ => rfl

theorem space?_eq_none {st : Stmt} (h : st.isImport = false) : st.space? = none := by
  cases st with
  | imports | importNames | importAll => cases h
  | _ => rfl

end Stmt

namespace SourceFile

def constants (s : SourceFile) : List String := s.stmts.filterMap Stmt.constant?

def takes (s : SourceFile) : List (String × String) := s.stmts.flatMap Stmt.takes

def spaces (s : SourceFile) : List (String × String) := s.stmts.filterMap Stmt.space?

variable {s : SourceFile} {name : String}

theorem mem_constants : name ∈ s.constants ↔ ∃ first rest, Stmt.const name first rest ∈ s.stmts := by
  unfold constants
  rw [List.mem_filterMap]
  constructor
  · rintro ⟨st, hst, he⟩
    cases st with
    | const n first rest => exact ⟨first, rest, Option.some.inj he ▸ hst⟩
    | _ => cases he
  · rintro ⟨first, rest, h⟩
    exact ⟨_, h, rfl⟩

/-- a constant that is declared has a line of its own -/
theorem exists_line (h : name ∈ s.constants) :
    ∃ value, "export const " ++ name ++ " = " ++ value ∈ s.stmts.flatMap Stmt.lines := by
  obtain ⟨first, rest, h⟩ := mem_constants.1 h
  exact ⟨first, List.mem_flatMap.2 ⟨_, h, List.mem_cons_self⟩⟩

/-- what a file takes is what its imports take, when they come first -/
theorem takes_of_imports {front rest : List Stmt} (hs : s.stmts = front ++ rest)
    (hr : ∀ st ∈ rest, st.isImport = false) :
    s.takes = front.flatMap Stmt.takes ∧ s.spaces = front.filterMap Stmt.space? := by
  have ht : rest.flatMap Stmt.takes = [] :=
    List.flatMap_eq_nil_iff.2 fun st hst => Stmt.takes_eq_nil (hr st hst)
  have hsp : rest.filterMap Stmt.space? = [] :=
    List.filterMap_eq_nil_iff.2 fun st hst => Stmt.space?_eq_none (hr st hst)
  unfold takes spaces
  rw [hs, List.flatMap_append, List.filterMap_append, ht, hsp, List.append_nil, List.append_nil]
  exact ⟨rfl, rfl⟩

end SourceFile

/-- the name and the module of the schema library -/
def zodTaken : String × String := ("z", "\"zod/v4\"")

/-- the index of the file's family in `dir` re-exports the file -/
def Listed (files : List SourceFile) (dir : String) (s : SourceFile) : Prop :=
  ∃ stem, s.path = Schema.tsPath dir stem ∧
    ∃ index ∈ files, index.family = s.family ∧ index.path = dir ++ "/index.ts" ∧
      Stmt.reexport stem ∈ index.stmts

theorem reexport_mem_indexFile {family dir stem : String} {modules : List String}
    (h : stem ∈ modules) : Stmt.reexport stem ∈ (indexFile family dir modules).stmts := by
  have hne : modules.isEmpty = false := by
    cases modules with
    | nil => cases h
    | cons => rfl
  have hm : Stmt.reexport stem ∈ (Text.Str.sortDedup modules).map Stmt.reexport :=
    List.mem_map_of_mem (Text.Str.mem_sortDedup.2 h)
  unfold indexFile
  simp [hne, hm]

/-- a file is listed when its family has an index with its module -/
theorem listed_of_mem {files : List SourceFile} {s : SourceFile} {dir : String}
    {modules : List String} (stem : String) (hi : indexFile s.family dir modules ∈ files)
    (hp : s.path = Schema.tsPath dir stem) (hm : stem ∈ modules) : Listed files dir s :=
  ⟨stem, hp, _, hi, rfl, rfl, reexport_mem_indexFile hm⟩

/-- what an index is made of -/
theorem cases_mem_indexFile {family dir : String} {modules : List String} {st : Stmt}
    (h : st ∈ (indexFile family dir modules).stmts) :
    st ∈ header ∨ st = .blank ∨ ∃ m, st = .reexport m := by
  rcases List.mem_append.1 h with h | h
  · rcases List.mem_append.1 h with h | h
    · exact Or.inl h
    · split at h
      · exact Or.inr (Or.inl (List.mem_singleton.1 h))
      · obtain ⟨m, -, rfl⟩ := List.mem_map.1 h
        exact Or.inr (Or.inr ⟨m, rfl⟩)
  · exact Or.inr (Or.inl (List.mem_singleton.1 h))

/-- an index neither declares nor takes anything -/
theorem inert_indexFile {family dir : String} {modules : List String} {st : Stmt}
    (h : st ∈ (indexFile family dir modules).stmts) : st.constant? = none ∧ st.isImport = false := by
  rcases cases_mem_indexFile h with h | rfl | ⟨m, rfl⟩
  · obtain rfl := List.mem_singleton.1 h
    exact ⟨rfl, rfl⟩
  · exact ⟨rfl, rfl⟩
  · exact ⟨rfl, rfl⟩

theorem constants_indexFile (family dir : String) (modules : List String) :
    (indexFile family dir modules).constants = [] :=
  List.filterMap_eq_nil_iff.2 fun _ h => (inert_indexFile h).1

theorem takes_indexFile (family dir : String) (modules : List String) :
    (indexFile family dir modules).takes = [] :=
  List.flatMap_eq_nil_iff.2 fun _ h => Stmt.takes_eq_nil (inert_indexFile h).2

namespace Imports

/-- the table takes the name from the module -/
def Has (t : Imports) (module name : String) : Prop := ∃ ns, (module, ns) ∈ t ∧ name ∈ ns

variable {t : Imports} {module name : String}

theorem Has.takes (h : t.Has module name) : (name, Text.quote module) ∈ (Stmt.imports t).takes := by
  obtain ⟨ns, he, hn⟩ := h
  exact List.mem_flatMap.2 ⟨_, he, List.mem_map.2 ⟨name, hn, rfl⟩⟩

theorem has_add (m : String) (ns : List String) (h : t.Has module name) :
    (t.add m ns).Has module name := by
  obtain ⟨ms, he, hn⟩ := h
  induction t with
  | nil => cases he
  | cons e t ih =>
    obtain ⟨m', ns'⟩ := e
    unfold add
    split
    · rcases List.mem_cons.1 he with he | he
      · obtain ⟨rfl, rfl⟩ := Prod.mk.inj he
        exact ⟨_, List.mem_cons_self, List.mem_append_left _ hn⟩
      · exact ⟨ms, List.mem_cons_of_mem _ he, hn⟩
    · rcases List.mem_cons.1 he with he | he
      · exact ⟨ms, he ▸ List.mem_cons_self, hn⟩
      · obtain ⟨ms', h1, h2⟩ := ih he
        exact ⟨ms', List.mem_cons_of_mem _ h1, h2⟩

theorem has_add_self (t : Imports) {ns : List String} (hn : name ∈ ns) :
    (t.add module ns).Has module name := by
  induction t with
  | nil => exact ⟨_, List.mem_cons_self, List.mem_eraseDups.2 hn⟩
  | cons e t ih =>
    obtain ⟨m', ns'⟩ := e
    unfold add
    split
    · next h =>
      subst h
      refine ⟨_, List.mem_cons_self, ?_⟩
      rw [List.mem_append, List.mem_filter, List.mem_eraseDups]
      by_cases h : name ∈ ns'
      · exact Or.inl h
      · exact Or.inr ⟨hn, by simp [h]⟩
    · obtain ⟨ms, h1, h2⟩ := ih
      exact ⟨ms, List.mem_cons_of_mem _ h1, h2⟩

theorem has_foldl_add (es t : Imports) (h : t.Has module name ∨ es.Has module name) :
    (es.foldl (fun acc e => acc.add e.1 e.2) t).Has module name := by
  induction es generalizing t with
  | nil =>
    rcases h with h | ⟨_, h, _⟩
    · exact h
    · cases h
  | cons e es ih =>
    apply ih
    rcases h with h | ⟨ns, he, hn⟩
    · exact Or.inl (has_add _ _ h)
    · rcases List.mem_cons.1 he with rfl | he
      · exact Or.inl (has_add_self t hn)
      · exact Or.inr ⟨ns, he, hn⟩

theorem has_merge {tables : List Imports} (ht : t ∈ tables) (h : t.Has module name) :
    (merge tables).Has module name := by
  obtain ⟨ns, he, hn⟩ := h
  exact has_foldl_add _ _ (Or.inr ⟨ns, List.mem_flatten.2 ⟨t, ht, he⟩, hn⟩)

end Imports

end ZodSchema.TypeScript
