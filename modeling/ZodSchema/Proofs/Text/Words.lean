import ZodSchema.Text.Words
import ZodSchema.Proofs.Text.Lower

/-!
# Words of a name

The words of a name tile its runs of letters and digits.  Every other character ends a word, and none
comes into a name that is made of words.

* `asciiAlnum`                 the letters and digits of a text
* `wordLength_le`              a word ends before the next character that is neither
* `wordLength_ne_zero`         a letter or digit begins a word
* `flatten_words`              the words, one after the other
* `ne_nil_of_mem_words`        no word is empty
* `space_not_mem_pascalCase`   a name in Pascal case is one run of characters
-/

namespace ZodSchema.Text

theorem toUpper_ne {c x : Char} (hx : x.toNat < 65) (h : c ≠ x) : c.toUpper ≠ x := by
  unfold Char.toUpper
  split
  · next hl =>
    rintro rfl
    have h1 : 97 ≤ c.val.toNat := UInt32.le_iff_toNat_le.1 hl.1
    have h2 : c.val.toNat ≤ 122 := UInt32.le_iff_toNat_le.1 hl.2
    have hn : (c.val + ('A'.val - 'a'.val)).toNat < 65 := hx
    have hd : ('A'.val - 'a'.val).toNat = 2 ^ 32 - 32 := rfl
    rw [UInt32.toNat_add, hd] at hn
    omega
  · exact h

theorem isAlphanum_iff {c : Char} :
    c.isAlphanum = true ↔ c.isUpper = true ∨ c.isLower = true ∨ c.isDigit = true := by
  show (c.isUpper || c.isLower || c.isDigit) = true ↔ _
  rw [Bool.or_eq_true, Bool.or_eq_true, or_assoc]

/-- the letters and digits of a text -/
def asciiAlnum (cs : List Char) : List Char := cs.filter Char.isAlphanum

/-- the letters and digits up to the first other character -/
def alnumRun (cs : List Char) : List Char := cs.takeWhile Char.isAlphanum

theorem alnumRun_cons {c : Char} (h : c.isAlphanum = true) (cs : List Char) :
    alnumRun (c :: cs) = c :: alnumRun cs :=
  List.takeWhile_cons_of_pos h

theorem length_takeWhile_le {p : Char → Bool} (hp : ∀ c, p c = true → c.isAlphanum = true)
    (cs : List Char) : (cs.takeWhile p).length ≤ (alnumRun cs).length := by
  induction cs with
  | nil => exact Nat.le_refl 0
  | cons c cs ih =>
    cases hc : p c with
    | false =>
      rw [List.takeWhile_cons_of_neg (by simp [hc])]
      exact Nat.zero_le _
    | true =>
      rw [List.takeWhile_cons_of_pos hc, alnumRun_cons (hp c hc)]
      exact Nat.succ_le_succ ih

/-! ## one word -/

theorem wordLength_le (cs : List Char) : wordLength cs ≤ (alnumRun cs).length := by
  cases cs with
  | nil => exact Nat.le_refl 0
  | cons c cs =>
    have hupper := length_takeWhile_le (fun c h => isAlphanum_iff.2 (Or.inl h)) (c :: cs)
    have hlower := length_takeWhile_le (fun c h => isAlphanum_iff.2 (Or.inr (Or.inl h)))
    have hdigit := length_takeWhile_le (fun c h => isAlphanum_iff.2 (Or.inr (Or.inr h))) (c :: cs)
    unfold wordLength
    dsimp only
    split
    · next hc =>
      have hrun := alnumRun_cons (isAlphanum_iff.2 (Or.inl hc)) cs
      split
      · rw [hrun, List.length_cons]
        omega
      · split
        · rw [hrun, List.length_cons, Nat.add_comm]
          exact Nat.succ_le_succ (hlower _)
        · split
          · split
            · exact Nat.le_trans (Nat.sub_le _ _) hupper
            · exact hupper
          · exact hupper
    · split
      · exact hlower _
      · split
        · exact hdigit
        · exact Nat.zero_le _

theorem length_takeWhile_ne_zero {p : Char → Bool} {c : Char} (h : p c = true) (cs : List Char) :
    ((c :: cs).takeWhile p).length ≠ 0 := by
  rw [List.takeWhile_cons_of_pos h]
  exact Nat.succ_ne_zero _

theorem wordLength_ne_zero {c : Char} (h : c.isAlphanum = true) (cs : List Char) :
    wordLength (c :: cs) ≠ 0 := by
  unfold wordLength
  dsimp only
  split
  · next hc =>
    split
    · exact Nat.one_ne_zero
    · next d ds =>
      split
      · rw [Nat.add_comm]
        exact Nat.succ_ne_zero _
      · next hd =>
        split
        · next e es he =>
          split
          · next hel =>
            -- the small letter is not the second character, so the run leaves one capital
            have hdu : d.isUpper = true := by
              by_contra hdu
              rw [List.dropWhile_cons_of_neg hdu] at he
              exact hd ((List.cons.inj he).1 ▸ hel)
            rw [List.takeWhile_cons_of_pos hc, List.takeWhile_cons_of_pos hdu]
            exact Nat.succ_ne_zero _
          · exact length_takeWhile_ne_zero hc _
        · exact length_takeWhile_ne_zero hc _
  · next hu =>
    split
    · next hl => exact length_takeWhile_ne_zero hl _
    · next hl =>
      have hdigit : c.isDigit = true := ((isAlphanum_iff.1 h).resolve_left hu).resolve_left hl
      rw [if_pos hdigit]
      exact length_takeWhile_ne_zero hdigit _

/-! ## all words -/

/-- the open word takes up its characters, and those behind it go to the words that follow -/
theorem flatten_wordsFrom {cs acc : List Char} {k : Nat} (hk : k ≤ (alnumRun cs).length) :
    (wordsFrom k acc cs).flatten = acc.reverse ++ (asciiAlnum cs).map Char.toLower := by
  have hclose : ∀ acc : List Char, (if acc = [] then [] else [acc.reverse]).flatten = acc.reverse := by
    intro acc
    split
    · next h => rw [h]; rfl
    · exact List.append_nil _
  induction cs generalizing k acc with
  | nil =>
    cases k <;> exact (hclose acc).trans (List.append_nil _).symm
  | cons c cs ih =>
    cases hc : c.isAlphanum with
    | false =>
      have hrun : alnumRun (c :: cs) = [] := List.takeWhile_cons_of_neg (by simp [hc])
      have hlen : wordLength (c :: cs) = 0 := by
        have := wordLength_le (c :: cs)
        rwa [hrun, List.length_nil, Nat.le_zero] at this
      have hall : asciiAlnum (c :: cs) = asciiAlnum cs := List.filter_cons_of_neg (by simp [hc])
      rw [hrun, List.length_nil, Nat.le_zero] at hk
      subst hk
      unfold wordsFrom
      dsimp only
      rw [hlen, hall]
      dsimp only
      rw [List.flatten_append, hclose, ih (Nat.zero_le _)]
      rfl
    | true =>
      have hall : asciiAlnum (c :: cs) = c :: asciiAlnum cs := List.filter_cons_of_pos hc
      -- the character goes to the open word, whether it opens it or not
      have hnext : ∀ {k : Nat} {acc : List Char}, k + 1 ≤ (alnumRun (c :: cs)).length →
          (wordsFrom k (c.toLower :: acc) cs).flatten =
            acc.reverse ++ (asciiAlnum (c :: cs)).map Char.toLower := by
        intro k acc hk
        rw [alnumRun_cons hc] at hk
        rw [ih (Nat.le_of_succ_le_succ hk), hall, List.reverse_cons, List.append_assoc]
        rfl
      cases k with
      | succ k => exact hnext hk
      | zero =>
        obtain ⟨k, hl⟩ := Nat.exists_eq_succ_of_ne_zero (wordLength_ne_zero hc cs)
        have hle := wordLength_le (c :: cs)
        rw [hl] at hle
        unfold wordsFrom
        dsimp only
        rw [hl]
        dsimp only
        rw [List.flatten_append, hclose, hnext hle]
        rfl

/-- **Words** leave out no letter and no digit, take none twice, and have nothing else. -/
theorem flatten_words (cs : List Char) :
    (words cs).flatten = (asciiAlnum cs).map Char.toLower :=
  flatten_wordsFrom (Nat.zero_le _)

theorem ne_nil_of_mem_wordsFrom {cs acc w : List Char} {k : Nat} (hw : w ∈ wordsFrom k acc cs) :
    w ≠ [] := by
  have hclose : ∀ {acc : List Char}, w ∈ (if acc = [] then [] else [acc.reverse]) → w ≠ [] := by
    intro acc hw
    split at hw
    · cases hw
    · next h =>
      rw [List.mem_singleton.1 hw]
      exact mt List.reverse_eq_nil_iff.1 h
  induction cs generalizing k acc with
  | nil => cases k <;> exact hclose hw
  | cons c cs ih =>
    cases k with
    | succ k => exact ih hw
    | zero =>
      unfold wordsFrom at hw
      dsimp only at hw
      split at hw
      · exact (List.mem_append.1 hw).elim hclose ih
      · exact (List.mem_append.1 hw).elim hclose ih

theorem ne_nil_of_mem_words {cs w : List Char} (hw : w ∈ words cs) : w ≠ [] :=
  ne_nil_of_mem_wordsFrom hw

theorem exists_of_mem_words {cs w : List Char} {c : Char} (hw : w ∈ words cs) (hc : c ∈ w) :
    ∃ d : Char, d.isAlphanum = true ∧ d.toLower = c := by
  have hm : c ∈ (words cs).flatten := List.mem_flatten.2 ⟨w, hw, hc⟩
  rw [flatten_words, List.mem_map] at hm
  obtain ⟨d, hd, he⟩ := hm
  exact ⟨d, (List.mem_filter.1 hd).2, he⟩

/-! ## spaces -/

theorem space_not_mem_words {cs w : List Char} (hw : w ∈ words cs) : ' ' ∉ w := by
  intro hm
  obtain ⟨d, hd, he⟩ := exists_of_mem_words hw hm
  refine toLower_ne (by decide) ?_ he
  rintro rfl
  cases hd

theorem space_not_mem_capitalize {w : List Char} (h : ' ' ∉ w) : ' ' ∉ capitalize w := by
  cases w with
  | nil => exact h
  | cons c cs =>
    rw [List.mem_cons, not_or] at h
    rw [capitalize, List.mem_cons, not_or, List.mem_map, not_exists]
    refine ⟨(toUpper_ne (by decide) (Ne.symm h.1)).symm, ?_⟩
    rintro d ⟨hd, he⟩
    refine toLower_ne (by decide) ?_ he
    rintro rfl
    exact h.2 hd

theorem space_not_mem_pascalCase (s : String) : ' ' ∉ (Str.pascalCase s).toList := by
  rw [Str.pascalCase, String.toList_ofList, pascalCase, List.mem_flatMap]
  rintro ⟨w, hw, hc⟩
  exact space_not_mem_capitalize (space_not_mem_words hw) hc

end ZodSchema.Text
