import ZodSchema.Proofs.Text.Directory

/-!
# Import specifiers

A directory is imported from another one by the way between them.  A specifier whose first name is
neither a dot nor a double dot is that of a package.

* `IsRelative`             a specifier of a file
* `joined`, `collapsed`    a specifier read in a directory, and the normal form of a path
* `relativeModule_eq`      the specifier by the names on the way
* `isRelative_specifier_iff`  the names by which it is relative
* `foldl_back_relativeParts`  where they lead
* `relativeModule_iff`     when the specifier is relative, and that it leads to the target
-/

namespace ZodSchema.Text.Path

variable {start target rel s x : String} {p xs ys : Parts}

/-! ## paths that are read -/

/-- the specifier is that of a file -/
def IsRelative (rel : String) : Prop :=
  rel = "." ∨ rel = ".." ∨ Str.startsWith rel "./" = true ∨ Str.startsWith rel "../" = true

/-- `rel` as read in the directory `dir`, its dots still in it -/
def joined (dir rel : String) : String :=
  if Str.startsWith rel "/" then rel
  else if dir = "" ∨ Str.endsWith dir "/" then dir ++ rel
  else dir ++ "/" ++ rel

/-- one name more of a path that no slash opens: a double dot takes back the name before it, and
stays when there is none -/
def back (stack : Parts) (name : String) : Parts :=
  if name = "" ∨ name = "." then stack
  else if name = ".." ∧ stack.getLast? ≠ none ∧ stack.getLast? ≠ some ".." then stack.dropLast
  else stack ++ [name]

/-- a way as a text, a dot when it leads nowhere -/
def wayText (p : Parts) : String := if p = [] then "." else Str.join "/" p

/-- the normal form of a path that no slash opens -/
def collapsed (s : String) : String := wayText ((names s).foldl back [])

/-- the parts of a path without its dots -/
def dirs (s : String) : Parts := (parts s).filter (· ≠ ".")

/-- the target is below the start, and the first directory on the way begins with a dot -/
def HiddenBelow (start target : String) : Prop :=
  ∃ x rest, dirs target = dirs start ++ x :: rest ∧ Str.startsWith x "." = true

/-- the way as a specifier -/
def specifier (p : Parts) : String :=
  if Str.startsWith (wayText p) "." then wayText p else "./" ++ wayText p

/-! ## names -/

theorem join_names (s : String) : Str.join "/" (names s) = s := by
  apply String.toList_injective
  have hm : (names s).map String.toList = splitOnChar '/' s.toList := by
    rw [names, Str.splitOn, List.map_map]
    simp [Function.comp_def]
  rw [Str.join, String.toList_intercalate, hm, splitOnChar_eq_splitOn]
  exact List.intercalate_splitOn '/'

theorem head?_names_iff {d : String} (hd : '/' ∉ d.toList) :
    (names s).head? = some d ↔ s = d ∨ Str.startsWith s (d ++ "/") = true := by
  rw [Str.startsWith_iff]
  constructor
  · intro h
    obtain ⟨ps, hps⟩ := List.head?_eq_some_iff.1 h
    have hs := join_names s
    rw [hps] at hs
    cases ps with
    | nil => exact Or.inl (by rw [← hs, Str.join, String.intercalate_singleton])
    | cons y ps =>
      rw [Str.join, String.intercalate_cons_cons] at hs
      exact Or.inr ⟨_, by rw [← hs, String.toList_append]⟩
  · rintro (rfl | ⟨r, hr⟩)
    · rw [names_of_not_mem hd]
      rfl
    · have hs : s = d ++ "/" ++ String.ofList r := String.toList_injective (by simpa using hr)
      rw [hs, names_append, names_of_not_mem hd]
      rfl

/-- a relative specifier is told by its first name -/
theorem isRelative_iff :
    IsRelative rel ↔ (names rel).head? = some "." ∨ (names rel).head? = some ".." := by
  have h1 : "." ++ "/" = "./" := by decide
  have h2 : ".." ++ "/" = "../" := by decide
  rw [head?_names_iff (by decide), head?_names_iff (by decide), h1, h2]
  unfold IsRelative
  tauto

theorem names_wayText (hp : ∀ x ∈ p, '/' ∉ x.toList) :
    names (wayText p) = if p = [] then ["."] else p := by
  unfold wayText
  split
  · decide
  · next h => exact names_join h hp

/-- a text begins like its first name -/
theorem startsWith_wayText_cons (hx : x ≠ "") (p : Parts) :
    Str.startsWith (wayText (x :: p)) "." = Str.startsWith x "." := by
  have hh : (wayText (x :: p)).toList.head? = x.toList.head? := by
    have hne : x.toList ≠ [] := mt String.toList_eq_nil_iff.1 hx
    rw [wayText, if_neg (List.cons_ne_nil _ _), Str.join]
    cases p with
    | nil => rw [String.intercalate_singleton]
    | cons y p =>
      rw [String.intercalate_cons_cons, String.append_assoc, String.toList_append,
        List.head?_append_of_ne_nil _ hne]
  have hdot : ∀ t : String, Str.startsWith t "." = true ↔ t.toList.head? = some '.' := by
    intro t
    rw [Str.startsWith_iff, List.head?_eq_some_iff]
    rfl
  rw [Bool.eq_iff_iff, hdot, hdot, hh]

/-! ## where a path leads -/

/-- names go down, one by one -/
theorem foldl_back (h : ".." ∉ p) (stack : Parts) :
    p.foldl back stack = stack ++ (p.filter (· ≠ "")).filter (· ≠ ".") := by
  induction p generalizing stack with
  | nil => exact (List.append_nil stack).symm
  | cons x p ih =>
    obtain ⟨hx, hp⟩ := not_or.1 (mt List.mem_cons.2 h)
    rw [List.foldl_cons, ih hp, back]
    by_cases hd : x = "" ∨ x = "."
    · rw [if_pos hd]
      rcases hd with rfl | rfl <;> simp
    · rw [if_neg hd, if_neg fun h => hx h.1.symm]
      obtain ⟨h1, h2⟩ := not_or.1 hd
      simp [h1, h2]

theorem foldl_back_of_resolved (h : Resolved p) (stack : Parts) :
    p.foldl back stack = stack ++ p := by
  have h1 : p.filter (· ≠ "") = p := List.filter_eq_self.2 fun x hx => by simp [(h x hx).1]
  have h2 : p.filter (· ≠ ".") = p := List.filter_eq_self.2 fun x hx => by simp [(h x hx).2.1]
  rw [foldl_back fun hx => (h _ hx).2.2 rfl, h1, h2]

/-- a double dot for each of the last names takes them back -/
theorem foldl_back_up (h : ".." ∉ p) (stack : Parts) :
    (p.map fun _ => "..").foldl back (stack ++ p) = stack := by
  induction p using List.reverseRecOn with
  | nil => exact List.append_nil stack
  | append_singleton p x ih =>
    rw [List.mem_append, not_or, List.mem_singleton] at h
    have hup : (p ++ [x]).map (fun _ => "..") = ".." :: p.map fun _ => ".." := by
      rw [List.map_const', List.map_const', List.length_append, List.length_singleton,
        List.replicate_succ]
    have hx : back (stack ++ (p ++ [x])) ".." = stack ++ p := by
      have hl : (stack ++ (p ++ [x])).getLast? = some x := by
        rw [← List.append_assoc, List.getLast?_concat]
      rw [back, if_neg (by decide), hl, if_pos ⟨rfl, by simp, by simpa using Ne.symm h.2⟩,
        ← List.append_assoc, List.dropLast_concat]
    rw [hup, List.foldl_cons, hx, ih h.1]

/-! ## the way between two directories -/

theorem dropCommon_append (p xs ys : Parts) :
    dropCommon (p ++ xs) (p ++ ys) = dropCommon xs ys := by
  induction p with
  | nil => rfl
  | cons x p ih =>
    show (if x = x then dropCommon (p ++ xs) (p ++ ys) else _) = _
    rw [if_pos rfl, ih]

theorem exists_common (xs ys : Parts) :
    ∃ p, xs = p ++ (dropCommon xs ys).1 ∧ ys = p ++ (dropCommon xs ys).2 := by
  fun_induction dropCommon xs ys with
  | case1 xs x ys ih =>
    obtain ⟨p, hx, hy⟩ := ih
    exact ⟨x :: p, congrArg (x :: ·) hx, congrArg (x :: ·) hy⟩
  | case2 => exact ⟨[], rfl, rfl⟩
  | case3 => exact ⟨[], rfl, rfl⟩

theorem mem_of_mem_relativeParts (h : x ∈ relativeParts xs ys) : x = ".." ∨ x ∈ ys := by
  obtain ⟨p, -, hy⟩ := exists_common xs ys
  rcases List.mem_append.1 h with h | h
  · obtain ⟨_, -, rfl⟩ := List.mem_map.1 h
    exact Or.inl rfl
  · rw [hy]
    exact Or.inr (List.mem_append_right _ h)

theorem relativeParts_append (xs ys : Parts) : relativeParts xs (xs ++ ys) = ys := by
  have h := dropCommon_append xs [] ys
  rw [List.append_nil] at h
  unfold relativeParts
  rw [h]
  cases ys <;> rfl

/-- a way that does not go up goes down from the start -/
theorem eq_append_of_relativeParts (h : relativeParts xs ys = x :: p) (hx : x ≠ "..") :
    ys = xs ++ x :: p := by
  obtain ⟨q, hq, hy⟩ := exists_common xs ys
  unfold relativeParts at h
  dsimp only at h
  generalize dropCommon xs ys = r at h hq hy
  obtain ⟨r1, r2⟩ := r
  subst hq hy
  cases r1 with
  | nil => rw [List.append_nil, ← h]; rfl
  | cons y r1 => exact absurd (List.cons.inj h).1.symm hx

/-! ## directories -/

theorem resolved_dirs (h : ".." ∉ parts s) : Resolved (dirs s) := by
  intro x hx
  obtain ⟨hp, hdot⟩ := List.mem_filter.1 hx
  obtain ⟨-, hne⟩ := List.mem_filter.1 hp
  refine ⟨by simpa using hne, by simpa using hdot, ?_⟩
  rintro rfl
  exact h hp

theorem resolve_parts (workDir : Parts) (h : ".." ∉ parts s) :
    resolve workDir (parts s) = workDir ++ dirs s := by
  rw [← resolve_filter_dots]
  exact resolve_of_resolved workDir (resolved_dirs h)

theorem relativeModule_eq (workDir : Parts) (hs : ".." ∉ parts start) (ht : ".." ∉ parts target) :
    relativeModule workDir start target = specifier (relativeParts (dirs start) (dirs target)) := by
  have hr : relativeParts (workDir ++ dirs start) (workDir ++ dirs target) =
      relativeParts (dirs start) (dirs target) := by
    unfold relativeParts
    rw [dropCommon_append]
  show specifier
    (relativeParts (resolve workDir (parts start)) (resolve workDir (parts target))) = _
  rw [resolve_parts workDir hs, resolve_parts workDir ht, hr]

/-- the names of a directory whose slashes around it are taken off -/
theorem foldl_back_trimSlashes (h : ".." ∉ parts s) :
    (names (Str.trimSlashes s)).foldl back [] = dirs s := by
  have hn : ".." ∉ names (Str.trimSlashes s) := by
    rw [← parts_trimSlashes] at h
    exact fun hm => h (List.mem_filter.2 ⟨hm, by decide⟩)
  rw [foldl_back hn, List.nil_append, dirs, ← parts_trimSlashes s]
  rfl

/-- the way from a directory leads to the other one -/
theorem foldl_back_relativeParts (hs : Resolved xs) (ht : Resolved ys) :
    (relativeParts xs ys).foldl back xs = ys := by
  obtain ⟨p, hx, hy⟩ := exists_common xs ys
  unfold relativeParts
  dsimp only
  generalize dropCommon xs ys = r at hx hy ⊢
  subst hx hy
  have hup : ".." ∉ r.1 := fun h => (hs _ (List.mem_append_right _ h)).2.2 rfl
  rw [List.foldl_append, foldl_back_up hup]
  exact foldl_back_of_resolved (fun x hx => ht x (List.mem_append_right _ hx)) p

/-! ## specifiers -/

theorem specifier_cases (p : Parts) :
    Str.startsWith (wayText p) "." = true ∧ specifier p = wayText p ∨
      Str.startsWith (wayText p) "." = false ∧ specifier p = "." ++ "/" ++ wayText p := by
  unfold specifier
  cases Str.startsWith (wayText p) "." with
  | true => exact .inl ⟨rfl, rfl⟩
  | false => exact .inr ⟨rfl, rfl⟩

theorem foldl_back_specifier (hp : ∀ x ∈ p, '/' ∉ x.toList) (stack : Parts) :
    (names (specifier p)).foldl back stack = p.foldl back stack := by
  have hw : (names (wayText p)).foldl back stack = p.foldl back stack := by
    rw [names_wayText hp]
    split
    · next h =>
      rw [h]
      rfl
    · rfl
  rcases specifier_cases p with ⟨-, h⟩ | ⟨-, h⟩
  · rw [h, hw]
  · rw [h, names_append, List.foldl_append]
    exact hw

/-- a specifier is relative, unless its first name begins with a dot and is neither one nor two -/
theorem isRelative_specifier_iff (hp : ∀ x ∈ p, '/' ∉ x.toList) (hne : "" ∉ p) :
    IsRelative (specifier p) ↔
      ∀ x ∈ p.head?, Str.startsWith x "." = true → x = "." ∨ x = ".." := by
  rw [isRelative_iff]
  cases p with
  | nil =>
    refine iff_of_true (Or.inl ?_) fun x hx => by cases hx
    decide
  | cons x p =>
    have hx : x ≠ "" := fun h => hne (h ▸ List.mem_cons_self)
    have hn : names (wayText (x :: p)) = x :: p := by
      rw [names_wayText hp, if_neg (List.cons_ne_nil _ _)]
    rcases specifier_cases (x :: p) with ⟨hd, h⟩ | ⟨hd, h⟩ <;>
      rw [startsWith_wayText_cons hx] at hd
    · rw [h, hn]
      simp [hd]
    · rw [h, names_append]
      refine iff_of_true (Or.inl rfl) ?_
      simp [hd]

/-- a specifier is read behind the names of its directory -/
theorem foldl_back_joined (dir : String) (hrel : Str.startsWith rel "/" = false) (stack : Parts) :
    (names (joined dir rel)).foldl back stack =
      (names rel).foldl back ((names dir).foldl back stack) := by
  unfold joined
  rw [if_neg (by rw [hrel]; exact Bool.false_ne_true)]
  split
  · next h =>
    rcases h with rfl | h
    · rw [String.empty_append]
      rfl
    · -- the last name of the directory is empty, and leads nowhere
      obtain ⟨d, hd⟩ := Str.endsWith_iff.1 h
      have hd : dir = String.ofList d ++ "/" := String.toList_injective (by simpa using hd)
      have he : String.ofList d ++ "/" ++ "" = String.ofList d ++ "/" := String.append_empty
      rw [hd, names_append, ← he, names_append, List.foldl_append, List.foldl_append]
      rfl
  · rw [names_append, List.foldl_append]

theorem startsWith_specifier (p : Parts) : Str.startsWith (specifier p) "/" = false := by
  have hdot : Str.startsWith (specifier p) "." = true := by
    rcases specifier_cases p with ⟨hd, h⟩ | ⟨-, h⟩
    · rw [h, hd]
    · rw [h]
      exact Str.startsWith_iff.2 ⟨'/' :: (wayText p).toList, by simp⟩
  obtain ⟨r, hr⟩ := Str.startsWith_iff.1 hdot
  rw [Bool.eq_false_iff]
  intro h
  obtain ⟨r', hr'⟩ := Str.startsWith_iff.1 h
  rw [hr] at hr'
  simp at hr'

/-- **Import specifiers.**  Between directories without double dots, the specifier leads from the
start to the target, wherever both are read.  It is relative, unless the target is below the start
and the first directory on the way begins with a dot. -/
theorem relativeModule_iff (workDir : Parts) (hs : ".." ∉ parts start) (ht : ".." ∉ parts target) :
    let rel := relativeModule workDir start target
    (IsRelative rel ↔ ¬ HiddenBelow start target) ∧
      collapsed (joined (Str.trimSlashes start) rel) = collapsed (Str.trimSlashes target) := by
  intro rel
  let way := relativeParts (dirs start) (dirs target)
  have hrel : rel = specifier way := relativeModule_eq workDir hs ht
  have hway : ∀ x ∈ way, x ≠ "" ∧ '/' ∉ x.toList := by
    intro x hx
    rcases mem_of_mem_relativeParts hx with rfl | hx
    · decide
    · exact ⟨(resolved_dirs ht x hx).1, not_mem_of_mem_parts (List.mem_filter.1 hx).1⟩
  have hslash : ∀ x ∈ way, '/' ∉ x.toList := fun x hx => (hway x hx).2
  constructor
  · rw [hrel, isRelative_specifier_iff hslash fun h => (hway _ h).1 rfl]
    constructor
    · rintro h ⟨x, rest, he, hd⟩
      have hx : x ∈ way.head? := by
        show x ∈ (relativeParts (dirs start) (dirs target)).head?
        rw [he, relativeParts_append]
        rfl
      have hr := resolved_dirs ht x (by simp [he])
      rcases h x hx hd with h | h
      · exact hr.2.1 h
      · exact hr.2.2 h
    · intro h x hx hd
      by_contra hne
      obtain ⟨rest, hr⟩ := List.head?_eq_some_iff.1 hx
      exact h ⟨x, rest, eq_append_of_relativeParts hr (not_or.1 hne).2, hd⟩
  · have hjoin := foldl_back_joined (Str.trimSlashes start) (startsWith_specifier way) []
    rw [foldl_back_trimSlashes hs, foldl_back_specifier hslash,
      foldl_back_relativeParts (resolved_dirs hs) (resolved_dirs ht)] at hjoin
    rw [collapsed, collapsed, hrel, hjoin, foldl_back_trimSlashes ht]

theorem relativeModule_crud :
    ".." ∉ parts "/out/crud" ∧ ".." ∉ parts "out/./schemas/" ∧
      relativeModule ["home"] "/out/crud" "out/./schemas/" = "../schemas" ∧
      IsRelative (relativeModule ["home"] "/out/crud" "out/./schemas/") ∧
      collapsed (joined "out/crud" "../schemas") = "out/schemas" := by
  have hs : ".." ∉ parts "/out/crud" := by decide
  have ht : ".." ∉ parts "out/./schemas/" := by decide
  have hrel : relativeModule ["home"] "/out/crud" "out/./schemas/" = "../schemas" := by decide
  obtain ⟨h, hc⟩ := relativeModule_iff ["home"] hs ht
  refine ⟨hs, ht, hrel, h.2 ?_, ?_⟩
  · rintro ⟨x, rest, he, -⟩
    have hd : dirs "out/./schemas/" = ["out", "schemas"] := by decide
    have hd' : dirs "/out/crud" = ["out", "crud"] := by decide
    rw [hd, hd'] at he
    simp at he
  · have htrim : Str.trimSlashes "/out/crud" = "out/crud" := by decide
    have htarget : collapsed (Str.trimSlashes "out/./schemas/") = "out/schemas" := by decide
    rwa [hrel, htrim, htarget] at hc

/-- The specifier of a hidden directory is that of a package. -/
theorem relativeModule_hidden :
    ".." ∉ parts "out" ∧ ".." ∉ parts "out/.schemas" ∧
      relativeModule ["home"] "out" "out/.schemas" = ".schemas" ∧ ¬ IsRelative ".schemas" := by
  refine ⟨by decide, by decide, by decide, ?_⟩
  rw [isRelative_iff]
  decide

end ZodSchema.Text.Path
