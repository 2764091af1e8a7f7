import Mathlib.Data.List.Induction
import ZodSchema.Proofs.Text.Path

/-!
# Directories as they are written

* `Path.below`            the directory that a text names below another one
* `Path.Tidy`             a text in normal form, slashes around it aside
* `Path.below_injective`  tidy texts for one directory are one text
* `Path.tidied`           a tidy text for the directory of any text
* `Path.tidy_congr`       texts that are compared equal are both tidy or both not
-/

namespace ZodSchema.Text.Path

variable {s t : String} {root p : Parts}

/-- the directory that a text names below `root`; slashes around its parts do not count -/
def below (root : Parts) (dir : String) : Parts := resolve root (parts dir)

/-- a text in normal form, with or without slashes around it, or slashes alone -/
def Tidy (dir : String) : Prop := Str.trimSlashes dir = "" ∨ Normal (Str.trimSlashes dir)

/-! ## slashes around a text -/

theorem parts_ofList (cs : List Char) :
    parts (String.ofList cs) = ((splitOnChar '/' cs).map String.ofList).filter (· ≠ "") := by
  rw [parts, Str.splitOn, String.toList_ofList]

theorem parts_append_slash (as bs : List Char) :
    parts (String.ofList (as ++ '/' :: bs)) =
      parts (String.ofList as) ++ parts (String.ofList bs) := by
  simp only [parts_ofList, splitOnChar_append, List.map_append, List.filter_append]

theorem parts_empty : parts (String.ofList []) = [] := rfl

theorem parts_dropWhile (cs : List Char) :
    parts (String.ofList (cs.dropWhile (· == '/'))) = parts (String.ofList cs) := by
  induction cs with
  | nil => rfl
  | cons c cs ih =>
    by_cases hc : c = '/'
    · rw [hc, List.dropWhile_cons_of_pos rfl, ih]
      exact (parts_append_slash [] cs).symm
    · rw [List.dropWhile_cons_of_neg (by simpa using hc)]

theorem parts_dropWhile_reverse (cs : List Char) :
    parts (String.ofList (cs.reverse.dropWhile (· == '/')).reverse) = parts (String.ofList cs) := by
  induction cs using List.reverseRecOn with
  | nil => rfl
  | append_singleton cs c ih =>
    rw [List.reverse_append, List.reverse_singleton, List.singleton_append]
    by_cases hc : c = '/'
    · rw [hc, List.dropWhile_cons_of_pos rfl, ih, parts_append_slash, parts_empty, List.append_nil]
    · rw [List.dropWhile_cons_of_neg (by simpa using hc)]
      simp

theorem parts_trimSlashes (s : String) : parts (Str.trimSlashes s) = parts s := by
  unfold Str.trimSlashes trimBy
  rw [parts_dropWhile_reverse, parts_dropWhile, String.ofList_toList]

theorem parts_of_normal (h : Normal s) : parts s = names s :=
  List.filter_eq_self.2 fun x hx => by simp [(h x hx).1]

/-- a text in normal form has no slashes around it -/
theorem trimSlashes_of_normal (h : Normal s) : Str.trimSlashes s = s := by
  have hempty : "" ∉ names s := fun hm => (h "" hm).1 rfl
  have hsplit : ∀ as bs, s.toList = as ++ '/' :: bs → as ≠ [] ∧ bs ≠ [] := by
    intro as bs hs
    have hn : names s = (splitOnChar '/' as).map String.ofList ++
        (splitOnChar '/' bs).map String.ofList := by
      rw [names, Str.splitOn, hs, splitOnChar_append, List.map_append]
    constructor <;>
    · rintro rfl
      exact hempty (by simp [hn, splitOnChar])
  unfold Str.trimSlashes
  rw [trimBy_eq_self, String.ofList_toList]
  · intro c hc
    obtain ⟨bs, hs⟩ := List.head?_eq_some_iff.1 hc
    refine beq_eq_false_iff_ne.2 fun he => ?_
    exact (hsplit [] bs (by rw [hs, he]; rfl)).1 rfl
  · intro c hc
    obtain ⟨as, hs⟩ := List.getLast?_eq_some_iff.1 hc
    refine beq_eq_false_iff_ne.2 fun he => ?_
    exact (hsplit as [] (by rw [hs, he])).2 rfl

/-! ## one text for one directory -/

theorem names_ne_nil (s : String) : names s ≠ [] := by
  obtain ⟨p, ps, hp⟩ := exists_splitOnChar '/' s.toList
  unfold names Str.splitOn
  rw [hp]
  exact List.cons_ne_nil _ _

theorem Tidy.resolved (h : Tidy s) : Resolved (parts s) := by
  rw [← parts_trimSlashes]
  rcases h with h | h
  · rw [h]
    exact fun x hx => by cases hx
  · rw [parts_of_normal h]
    exact h

theorem below_of_tidy (root : Parts) (h : Tidy s) : below root s = root ++ parts s :=
  resolve_of_resolved root h.resolved

/-- tidy texts for one directory differ in the slashes around them -/
theorem below_injective (hs : Tidy s) (ht : Tidy t) (h : below root s = below root t) :
    Str.trimSlashes s = Str.trimSlashes t := by
  rw [below_of_tidy root hs, below_of_tidy root ht] at h
  have hp := List.append_cancel_left h
  rw [← parts_trimSlashes s, ← parts_trimSlashes t] at hp
  rcases hs with hs | hs <;> rcases ht with ht | ht
  · rw [hs, ht]
  · rw [hs, parts_of_normal ht] at hp
    exact absurd hp.symm (names_ne_nil _)
  · rw [ht, parts_of_normal hs] at hp
    exact absurd hp (names_ne_nil _)
  · rw [parts_of_normal hs, parts_of_normal ht] at hp
    exact names_injective hp

/-! ## a tidy text for every directory -/

theorem not_mem_of_mem_parts {x : String} (h : x ∈ parts s) : '/' ∉ x.toList := by
  obtain ⟨cs, hcs, rfl⟩ := List.mem_map.1 (List.mem_filter.1 h).1
  rw [String.toList_ofList]
  exact not_mem_of_mem_splitOnChar hcs

theorem names_join (hp : p ≠ []) (hs : ∀ x ∈ p, '/' ∉ x.toList) : names (Str.join "/" p) = p := by
  have hsplit : splitOnChar '/' (Str.join "/" p).toList = p.map String.toList := by
    rw [splitOnChar_eq_splitOn, Str.join, String.toList_intercalate]
    exact List.splitOn_intercalate '/' (List.forall_mem_map.2 hs) (by simpa using hp)
  rw [names, Str.splitOn, hsplit, List.map_map]
  simp [Function.comp_def]

/-- the parts of a directory read from the root, dots and double dots taken out -/
def plain (dir : String) : Parts := normalize (parts dir)

/-- a tidy text for the directory that a text names -/
def tidied (dir : String) : String := if plain dir = [] then "/" else Str.join "/" (plain dir)

theorem names_join_plain (h : plain s ≠ []) : names (Str.join "/" (plain s)) = plain s := by
  refine names_join h fun x hx => ?_
  rcases mem_of_mem_resolve hx with hx | hx
  · cases hx
  · exact not_mem_of_mem_parts hx

theorem normal_join_plain (h : plain s ≠ []) : Normal (Str.join "/" (plain s)) := by
  unfold Normal
  rw [names_join_plain h]
  exact resolved_normalize (parts s)

theorem tidy_tidied (s : String) : Tidy (tidied s) := by
  unfold tidied
  split
  · exact Or.inl rfl
  · next h =>
    have hn := normal_join_plain h
    exact Or.inr (by rwa [trimSlashes_of_normal hn])

theorem parts_tidied (s : String) : parts (tidied s) = plain s := by
  unfold tidied
  split
  · next h =>
    rw [h]
    rfl
  · next h => rw [parts_of_normal (normal_join_plain h), names_join_plain h]

theorem tidied_ne_empty (s : String) : tidied s ≠ "" := by
  unfold tidied
  split
  · decide
  · next h =>
    intro he
    have hn := normal_join_plain h
    rw [he] at hn
    exact (hn "" (List.mem_singleton_self _)).1 rfl

theorem below_tidied (root : Parts) (s : String) : below root (tidied s) = root ++ plain s := by
  rw [below_of_tidy root (tidy_tidied s), parts_tidied]

/-! ## texts that are compared equal -/

theorem forall_mem_iff {α β : Type} {R : α → β → Prop} {P : α → Prop} {Q : β → Prop}
    {xs : List α} {ys : List β} (h : List.Forall₂ R xs ys) (hR : ∀ {x y}, R x y → (P x ↔ Q y)) :
    (∀ x ∈ xs, P x) ↔ ∀ y ∈ ys, Q y := by
  induction h with
  | nil => simp
  | cons hxy _ ih => rw [List.forall_mem_cons, List.forall_mem_cons, hR hxy, ih]

theorem normal_lower : Normal (Str.lower s) ↔ Normal s := by
  have hparts := (recased_lower s.toList).splitOnChar
  unfold Normal Resolved names Str.splitOn Str.lower
  rw [List.forall_mem_map, List.forall_mem_map, String.toList_ofList]
  refine (forall_mem_iff hparts fun {p q} h => ?_).symm
  have hmark : ∀ w : String, w.toList.all isMark = true →
      (String.ofList p = w ↔ String.ofList q = w) := by
    intro w hw
    have := h.eq_iff (List.all_eq_true.1 hw)
    rwa [← String.toList_inj, ← String.toList_inj, String.toList_ofList, String.toList_ofList]
  rw [ne_eq, ne_eq, ne_eq, hmark "" (by decide), hmark "." (by decide), hmark ".." (by decide)]

theorem lower_eq_empty : Str.lower s = "" ↔ s = "" := by
  have h := (recased_lower s.toList).eq_iff (List.forall_mem_nil _)
  rw [← String.toList_inj, ← String.toList_inj, Str.lower, String.toList_ofList]
  exact h.symm

/-- the lower case tells whether a text is tidy -/
theorem tidy_congr (h : Str.lower (Str.trimSlashes s) = Str.lower (Str.trimSlashes t)) :
    Tidy s ↔ Tidy t := by
  unfold Tidy
  rw [← lower_eq_empty, ← normal_lower, h, lower_eq_empty, normal_lower]

end ZodSchema.Text.Path
