import Mathlib
import ZodSchema.Proofs.Text.Literal
import ZodSchema.Proofs.Text.Words

/-!
# Names in camel case and in Pascal case

Words are capitalised and joined, so in lower case both forms of a name are its words one after the
other: the letters and digits of the name.

* `isAlphanum_toLower`, `isAlphanum_toUpper`   letters and digits stay what they are
* `toLower_pascalCase`, `toLower_camelCase`    both forms in lower case
* `isAlphanum_of_mem_pascalCase`, `isAlphanum_of_mem_camelCase`   their characters
* `isUpper_head?_camelCase`    how a name in camel case begins
* `camelCase_lossless`         case conversion leaves letters and digits alone
-/

namespace ZodSchema.Text

variable {c : Char} {w cs : List Char}

/-! ## characters -/

theorem isAlphanum_toLower (h : c.isAlphanum = true) : c.toLower.isAlphanum = true := by
  by_cases hu : c.isUpper = true
  · have ha : c.toLower.isAlpha = true := by
      rw [Char.isAlpha_toLower_eq_isAlpha, Char.isAlpha, hu, Bool.true_or]
    rw [Char.isAlphanum, ha, Bool.true_or]
  · rwa [Char.toLower_eq_of_not_isUpper hu]

theorem isAlphanum_toUpper (h : c.isAlphanum = true) : c.toUpper.isAlphanum = true := by
  by_cases hl : c.isLower = true
  · have ha : c.toUpper.isAlpha = true := by
      rw [Char.isAlpha_toUpper_eq_isAlpha, Char.isAlpha, hl, Bool.or_true]
    rw [Char.isAlphanum, ha, Bool.true_or]
  · rwa [Char.toUpper_eq_of_not_isLower hl]

theorem isIdentRest_of_isAlphanum (h : c.isAlphanum = true) : isIdentRest c = true := by
  rw [isIdentRest, h]
  rfl

/-! ## capitalised words -/

theorem toLower_capitalize (w : List Char) :
    (capitalize w).map Char.toLower = w.map Char.toLower := by
  cases w with
  | nil => rfl
  | cons c cs =>
    rw [capitalize, List.map_cons, List.map_cons, List.map_map, Char.toLower_toUpper_eq_toLower]
    exact congrArg _ (List.map_congr_left fun d _ => Char.toLower_toLower_eq_toLower d)

theorem toLower_flatMap_capitalize (ws : List (List Char)) :
    (ws.flatMap capitalize).map Char.toLower = ws.flatten.map Char.toLower := by
  induction ws with
  | nil => rfl
  | cons w ws ih =>
    rw [List.flatMap_cons, List.map_append, toLower_capitalize, ih, List.flatten_cons,
      List.map_append]

theorem isAlphanum_capitalize (h : ∀ c ∈ w, c.isAlphanum = true) :
    ∀ c ∈ capitalize w, c.isAlphanum = true := by
  cases w with
  | nil => exact h
  | cons c cs =>
    obtain ⟨hc, hcs⟩ := List.forall_mem_cons.1 h
    refine List.forall_mem_cons.2 ⟨isAlphanum_toUpper hc, fun x hx => ?_⟩
    obtain ⟨d, hd, rfl⟩ := List.mem_map.1 hx
    exact isAlphanum_toLower (hcs d hd)

/-! ## words of a name -/

theorem toLower_words (cs : List Char) :
    (words cs).flatten.map Char.toLower = (asciiAlnum cs).map Char.toLower := by
  rw [flatten_words, List.map_map]
  exact List.map_congr_left fun c _ => Char.toLower_toLower_eq_toLower c

theorem isAlphanum_of_mem_words (hw : w ∈ words cs) : ∀ c ∈ w, c.isAlphanum = true := by
  intro c hc
  obtain ⟨d, hd, rfl⟩ := exists_of_mem_words hw hc
  exact isAlphanum_toLower hd

theorem isUpper_of_mem_words (hw : w ∈ words cs) : ∀ c ∈ w, c.isUpper = false := by
  intro c hc
  obtain ⟨d, -, rfl⟩ := exists_of_mem_words hw hc
  exact Char.isUpper_toLower_eq_false d

/-! ## both forms -/

theorem toLower_pascalCase (cs : List Char) :
    (pascalCase cs).map Char.toLower = (asciiAlnum cs).map Char.toLower :=
  (toLower_flatMap_capitalize (words cs)).trans (toLower_words cs)

theorem toLower_camelCase (cs : List Char) :
    (camelCase cs).map Char.toLower = (asciiAlnum cs).map Char.toLower := by
  rw [← toLower_words]
  unfold camelCase
  cases words cs with
  | nil => rfl
  | cons w ws =>
    dsimp only
    rw [List.map_append, toLower_flatMap_capitalize, List.flatten_cons, List.map_append]

theorem isAlphanum_of_mem_pascalCase (hc : c ∈ pascalCase cs) : c.isAlphanum = true := by
  obtain ⟨w, hw, hcw⟩ := List.mem_flatMap.1 hc
  exact isAlphanum_capitalize (isAlphanum_of_mem_words hw) c hcw

/-- a character of a name in camel case is one of its first word or of a capitalised one -/
theorem isAlphanum_of_mem_camelCase (hc : c ∈ camelCase cs) : c.isAlphanum = true := by
  have hall : ∀ w ∈ words cs, ∀ c ∈ w, c.isAlphanum = true := fun w hw => isAlphanum_of_mem_words hw
  unfold camelCase at hc
  cases hws : words cs with
  | nil =>
    rw [hws] at hc
    cases hc
  | cons w ws =>
    rw [hws] at hc hall
    obtain ⟨hw, hws⟩ := List.forall_mem_cons.1 hall
    rcases List.mem_append.1 hc with hc | hc
    · exact hw c hc
    · obtain ⟨w', hw', hc⟩ := List.mem_flatMap.1 hc
      exact isAlphanum_capitalize (hws w' hw') c hc

/-- the first word is in lower case, and it is not empty -/
theorem isUpper_head?_camelCase (hc : c ∈ (camelCase cs).head?) : c.isUpper = false := by
  unfold camelCase at hc
  cases hws : words cs with
  | nil =>
    rw [hws] at hc
    cases hc
  | cons w ws =>
    have hw : w ∈ words cs := hws ▸ List.mem_cons_self
    rw [hws] at hc
    dsimp only at hc
    rw [List.head?_append_of_ne_nil _ (ne_nil_of_mem_words hw)] at hc
    exact isUpper_of_mem_words hw c (List.mem_of_mem_head? hc)

namespace Str

/-- the letters and digits of a name -/
def asciiAlnum (s : String) : String := String.ofList (Text.asciiAlnum s.toList)

theorem lower_ofList (h : ∀ c ∈ cs, c.isAlphanum = true) :
    lower (String.ofList cs) = String.ofList (cs.map Char.toLower) := by
  rw [lower, String.toList_ofList,
    lower_of_ascii fun c hc => toNat_lt_of_isIdentRest (isIdentRest_of_isAlphanum (h c hc))]

theorem lower_asciiAlnum (s : String) :
    lower (asciiAlnum s) = String.ofList ((Text.asciiAlnum s.toList).map Char.toLower) :=
  lower_ofList fun _ hc => (List.mem_filter.1 hc).2

theorem lower_pascalCase (s : String) : lower (pascalCase s) = lower (asciiAlnum s) := by
  rw [lower_asciiAlnum, ← toLower_pascalCase]
  exact lower_ofList fun _ => isAlphanum_of_mem_pascalCase

theorem lower_camelCase (s : String) : lower (camelCase s) = lower (asciiAlnum s) := by
  rw [lower_asciiAlnum, ← toLower_camelCase]
  exact lower_ofList fun _ => isAlphanum_of_mem_camelCase

/-- **Case conversion.**  In camel case and in Pascal case a name has only letters and digits; in
lower case these are the letters and digits of the name, in their order.  A name in camel case begins
with no capital.  So two names that become one in camel case have the same letters and digits, but
for their case. -/
theorem camelCase_lossless (s : String) :
    lower (camelCase s) = lower (asciiAlnum s) ∧ lower (pascalCase s) = lower (asciiAlnum s) ∧
      (∀ c ∈ (camelCase s).toList ++ (pascalCase s).toList, c.isAlphanum = true) ∧
      (∀ c ∈ (camelCase s).toList.head?, c.isUpper = false) ∧
      ∀ t, camelCase s = camelCase t → lower (asciiAlnum s) = lower (asciiAlnum t) := by
  refine ⟨lower_camelCase s, lower_pascalCase s, fun c hc => ?_, fun c hc => ?_, fun t h => ?_⟩
  · rw [camelCase, pascalCase, String.toList_ofList, String.toList_ofList] at hc
    exact (List.mem_append.1 hc).elim isAlphanum_of_mem_camelCase isAlphanum_of_mem_pascalCase
  · rw [camelCase, String.toList_ofList] at hc
    exact isUpper_head?_camelCase hc
  · rw [← lower_camelCase, h, lower_camelCase]

/-- Two names that differ in their capitals and in the signs between the words become one; a letter
that is none of `A` to `Z` ends a word like any other sign. -/
theorem camelCase_lossless_html :
    camelCase "HTMLParser2_x" = "htmlParser2X" ∧ 'h' ∈ (camelCase "HTMLParser2_x").toList.head? ∧
      'h'.isUpper = false ∧ 'X' ∈ (camelCase "HTMLParser2_x").toList ∧ 'X'.isAlphanum = true ∧
      camelCase "HTMLParser2_x" = camelCase "html-parser 2Éx" ∧
      lower (asciiAlnum "HTMLParser2_x") = lower (asciiAlnum "html-parser 2Éx") := by
  have hcamel : camelCase "HTMLParser2_x" = "htmlParser2X" := by decide
  have hsame : camelCase "HTMLParser2_x" = camelCase "html-parser 2Éx" := by decide
  have hhead : 'h' ∈ (camelCase "HTMLParser2_x").toList.head? := by decide
  have hmem : 'X' ∈ (camelCase "HTMLParser2_x").toList := by decide
  obtain ⟨-, -, hall, hfirst, hinj⟩ := camelCase_lossless "HTMLParser2_x"
  exact ⟨hcamel, hhead, hfirst _ hhead, hmem, hall _ (List.mem_append_left _ hmem), hsame,
    hinj _ hsame⟩

end Str

end ZodSchema.Text
