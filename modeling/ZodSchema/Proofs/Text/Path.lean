import Mathlib.Data.List.Basic
import ZodSchema.Proofs.Files.Frame
import ZodSchema.Proofs.Text.Literal
import ZodSchema.Proofs.Text.Lower

/-!
# Paths as they are written

* `Path.names`               the parts of a path text between its slashes
* `Path.Normal`              a relative path in normal form
* `Path.normalize_absolute`  where it leads to
* `plain_of_isIdentifier`    identifiers hold no slash, also in lower case
* `normal_append`            a name with an ending is in normal form
-/

namespace ZodSchema.Text.Path

variable {s : String}

/-- the parts between slashes -/
def names (s : String) : Parts := Str.splitOn '/' s

/-- a relative path in normal form -/
def Normal (s : String) : Prop := Resolved (names s)

theorem names_append (dir name : String) : names (dir ++ "/" ++ name) = names dir ++ names name := by
  unfold names Str.splitOn
  rw [← List.map_append, ← splitOnChar_append]
  simp

theorem names_injective : Function.Injective names := by
  intro s t h
  have hm := List.map_injective_iff.2 (fun _ _ => String.ofList_injective) h
  exact String.toList_injective (splitOnChar_injective '/' hm)

theorem names_of_not_mem (h : '/' ∉ s.toList) : names s = [s] := by
  unfold names Str.splitOn
  rw [splitOnChar_eq_splitOn, List.splitOn_eq_singleton h, List.map_singleton, String.ofList_toList]

theorem mem_of_mem_resolve {base rel : Parts} {x : String} (h : x ∈ resolve base rel) :
    x ∈ base ∨ x ∈ rel := by
  induction rel generalizing base with
  | nil => exact Or.inl h
  | cons y rel ih =>
    rcases ih h with h | h
    · unfold step at h
      split at h
      · exact Or.inl h
      · split at h
        · exact Or.inl (List.dropLast_subset _ h)
        · rcases List.mem_append.1 h with h | h
          · exact Or.inl h
          · exact Or.inr (List.mem_singleton.1 h ▸ List.mem_cons_self)
    · exact Or.inr (List.mem_cons_of_mem _ h)

theorem resolve_of_resolved (root : Parts) {rel : Parts} (h : Resolved rel) :
    resolve root rel = root ++ rel := by
  induction rel generalizing root with
  | nil => exact (List.append_nil root).symm
  | cons x rel ih =>
    obtain ⟨⟨h1, h2, h3⟩, hr⟩ := List.forall_mem_cons.1 h
    show resolve (step root x) rel = _
    rw [ih _ hr, step, if_neg (by simp [h1, h2]), if_neg h3, List.append_assoc]
    rfl

/-- dots lead nowhere -/
theorem resolve_filter_dots (base rel : Parts) :
    resolve base (rel.filter (· ≠ ".")) = resolve base rel := by
  induction rel generalizing base with
  | nil => rfl
  | cons x rel ih =>
    by_cases hx : x = "."
    · rw [List.filter_cons_of_neg (by simpa using hx), ih]
      show resolve base rel = resolve (step base x) rel
      rw [step, if_pos (Or.inr hx)]
    · rw [List.filter_cons_of_pos (by simpa using hx)]
      exact ih _

/-- a path in normal form leads to its names, below where it is read -/
theorem normalize_absolute (root : Parts) (h : Normal s) :
    normalize (absolute root s) = normalize root ++ names s := by
  have hs : Str.startsWith s "/" = false := by
    rw [Bool.eq_false_iff]
    intro hs
    obtain ⟨rest, hrest⟩ := Str.startsWith_iff.1 hs
    have hn : names s = "" :: (splitOnChar '/' rest).map String.ofList := by
      unfold names Str.splitOn
      rw [hrest]
      exact congrArg (List.map String.ofList) (splitOnChar_append '/' [] rest)
    exact (h "" (hn ▸ List.mem_cons_self)).1 rfl
  have hp : (parts s).filter (· ≠ ".") = names s := by
    have he : parts s = names s := List.filter_eq_self.2 fun x hx => by simp [(h x hx).1]
    rw [he]
    exact List.filter_eq_self.2 fun x hx => by simp [(h x hx).2.1]
  unfold absolute
  rw [hp, hs, if_neg (by decide)]
  show (root ++ names s).foldl step [] = _
  rw [List.foldl_append]
  exact resolve_of_resolved _ h

end ZodSchema.Text.Path

/-! ## identifiers as names -/

namespace ZodSchema.Text

variable {s : String}

/-- an identifier is plain text; it may end in a line feed -/
theorem plain_of_isIdentifier (h : isIdentifier s = true) :
    ∀ c ∈ s.toList, c.toNat < 128 ∧ c ≠ '/' := by
  intro c hc
  have hd : c ∈ dropFinalNewline s.toList ∨ c = '\n' := by
    unfold dropFinalNewline
    split
    · next hl =>
      obtain ⟨as, ha⟩ := List.getLast?_eq_some_iff.1 hl
      rw [ha] at hc ⊢
      simpa using hc
    · exact Or.inl hc
  rcases hd with hm | rfl
  · have hr := isIdentRest_of_mem h hm
    refine ⟨toNat_lt_of_isIdentRest hr, ?_⟩
    rintro rfl
    revert hr
    decide
  · decide

theorem slash_not_mem_lower (h : isIdentifier s = true) : '/' ∉ (Str.lower s).toList := by
  have hp := plain_of_isIdentifier h
  unfold Str.lower
  rw [String.toList_ofList, lower_of_ascii fun c hc => (hp c hc).1, List.mem_map]
  rintro ⟨c, hc, he⟩
  exact toLower_ne (by decide) (hp c hc).2 he

/-- a text without slashes that is longer than two dots is the name of a file -/
theorem normal_of_length (hs : '/' ∉ s.toList) (hl : 2 < s.toList.length) : Path.Normal s := by
  unfold Path.Normal
  rw [Path.names_of_not_mem hs]
  intro x hx
  rw [List.mem_singleton.1 hx]
  refine ⟨?_, ?_, ?_⟩ <;>
  · rintro rfl
    revert hl
    decide

theorem normal_append {ending : String} (hs : '/' ∉ s.toList) (he : '/' ∉ ending.toList)
    (hl : 2 < ending.toList.length) : Path.Normal (s ++ ending) := by
  apply normal_of_length
  · rw [String.toList_append, List.mem_append, not_or]
    exact ⟨hs, he⟩
  · rw [String.toList_append, List.length_append]
    omega

end ZodSchema.Text
