import Mathlib.Data.List.Basic
import ZodSchema.Text.Literal
import ZodSchema.Text.Numeral

/-!
# Names and numerals

* `isIdentRest_of_mem`    the characters of an identifier, the line feed behind it aside
* `key_eq_self_iff`       the keys that stand without quotes
* `natText_injective`, `intText_injective`, `padded_injective`   different numbers have different
  numerals
* `isIdentifier_append_natText`   an identifier with a numeral behind it is one
-/

namespace ZodSchema.Text

variable {s : String} {c : Char}

/-! ## identifiers -/

theorem isIdentRest_of_isIdentStart (h : isIdentStart c = true) : isIdentRest c = true := by
  simp only [isIdentStart, isIdentRest, Char.isAlphanum, Bool.or_eq_true] at h ⊢
  tauto

theorem toNat_lt_of_isIdentRest (h : isIdentRest c = true) : c.toNat < 128 := by
  have hv : c.toNat = c.val.toNat := rfl
  change (c.isUpper || c.isLower || c.isDigit || c == '_' || c == '$') = true at h
  simp only [Bool.or_eq_true, beq_iff_eq] at h
  rcases h with ((((h | h) | h) | rfl) | rfl)
  · have h2 : c.val.toNat ≤ 90 := UInt32.le_iff_toNat_le.1 (of_decide_eq_true h).2
    omega
  · have h2 : c.val.toNat ≤ 122 :=
      UInt32.le_iff_toNat_le.1 (of_decide_eq_true (Bool.and_eq_true_iff.1 h).2)
    omega
  · have h2 : c.val.toNat ≤ 57 :=
      UInt32.le_iff_toNat_le.1 (of_decide_eq_true (Bool.and_eq_true_iff.1 h).2)
    omega
  · decide
  · decide

theorem isIdentRest_of_mem (h : isIdentifier s = true) (hc : c ∈ dropFinalNewline s.toList) :
    isIdentRest c = true := by
  unfold isIdentifier at h
  split at h
  · cases h
  · next x cs hx =>
    rw [hx] at hc
    obtain ⟨h1, h2⟩ := Bool.and_eq_true_iff.1 h
    rcases List.mem_cons.1 hc with rfl | hc
    · exact isIdentRest_of_isIdentStart h1
    · exact List.all_eq_true.1 h2 c hc

/-- a text of such characters has no line feed behind it -/
theorem dropFinalNewline_eq_self {cs : List Char} (h : ∀ c ∈ cs, isIdentRest c = true) :
    dropFinalNewline cs = cs := by
  refine if_neg fun hl => ?_
  have hn := h '\n' (List.mem_of_getLast? hl)
  revert hn
  decide

/-! ## keys -/

theorem escapeChar_ne_nil (c : Char) : escapeChar c ≠ [] := by
  unfold escapeChar
  repeat' split
  all_goals exact List.cons_ne_nil _ _

/-- a literal is longer than its text -/
theorem length_quote (s : String) : s.toList.length + 2 ≤ (quote s).toList.length := by
  have hl : ∀ cs : List Char, cs.length ≤ (cs.flatMap escapeChar).length := by
    intro cs
    induction cs with
    | nil => exact Nat.le_refl 0
    | cons c cs ih =>
      have hc := List.length_pos_iff.2 (escapeChar_ne_nil c)
      rw [List.flatMap_cons, List.length_append, List.length_cons]
      omega
  have hs := hl s.toList
  simp only [quote, String.toList_ofList, quoteChars, List.length_append, List.length_cons,
    List.length_nil]
  omega

theorem quote_ne_self (s : String) : quote s ≠ s := by
  intro h
  have hl := length_quote s
  rw [h] at hl
  omega

theorem key_eq_self_iff : key s = s ↔ isIdentifier s = true := by
  unfold key
  split
  · next h => exact ⟨fun _ => h, fun _ => rfl⟩
  · next h => exact ⟨fun he => absurd he (quote_ne_self s), fun hi => absurd hi h⟩

/-! ## numerals -/

theorem toNat_digitChar : ∀ d < 10, (digitChar d).toNat = 48 + d := by decide

theorem isIdentRest_digitChar : ∀ d < 10, isIdentRest (digitChar d) = true := by decide

/-- the number of the digits, the least significant first -/
def numberOf (cs : List Char) : Nat := cs.foldr (fun c n => (c.toNat - 48) + 10 * n) 0

theorem numberOf_digitsRev {fuel n : Nat} (h : n < fuel) : numberOf (digitsRev fuel n) = n := by
  induction fuel generalizing n with
  | zero => exact absurd h (Nat.not_lt_zero n)
  | succ fuel ih =>
    have hd := toNat_digitChar _ (Nat.mod_lt n (by decide))
    show ((digitChar (n % 10)).toNat - 48) +
      10 * numberOf (if n < 10 then [] else digitsRev fuel (n / 10)) = n
    rw [hd]
    split
    · next hn =>
      show 48 + n % 10 - 48 + 10 * 0 = n
      omega
    · rw [ih (by omega)]
      omega

theorem natText_injective : Function.Injective natText := by
  intro m n h
  have hd : digitsRev (m + 1) m = digitsRev (n + 1) n :=
    List.reverse_injective (String.ofList_injective h)
  rw [← numberOf_digitsRev (Nat.lt_succ_self m), hd, numberOf_digitsRev (Nat.lt_succ_self n)]

theorem isIdentRest_natText (n : Nat) (hc : c ∈ (natText n).toList) : isIdentRest c = true := by
  have hd : ∀ fuel n, ∀ c ∈ digitsRev fuel n, isIdentRest c = true := by
    intro fuel
    induction fuel with
    | zero => exact fun _ _ h => absurd h List.not_mem_nil
    | succ fuel ih =>
      intro n c hc
      rcases List.mem_cons.1 hc with rfl | hc
      · exact isIdentRest_digitChar _ (Nat.mod_lt n (by decide))
      · split at hc
        · cases hc
        · exact ih _ c hc
  rw [natText, String.toList_ofList, natDigits, List.mem_reverse] at hc
  exact hd _ _ c hc

theorem intText_injective : Function.Injective intText := by
  -- no digit is a sign
  have hsign : ∀ m n : Nat, natText m ≠ "-" ++ natText n := by
    intro m n h
    have hm : '-' ∈ (natText m).toList := by
      rw [h]
      simp
    exact absurd (isIdentRest_natText m hm) (by decide)
  intro i j h
  unfold intText at h
  split at h <;> split at h
  · have hn := natText_injective ((String.append_right_inj "-").1 h)
    omega
  · exact absurd h.symm (hsign _ _)
  · exact absurd h (hsign _ _)
  · have hn := natText_injective h
    omega

theorem numberOf_append_zeros (cs : List Char) (k : Nat) :
    numberOf (cs ++ List.replicate k '0') = numberOf cs := by
  have hz : numberOf (List.replicate k '0') = 0 := by
    induction k with
    | zero => rfl
    | succ k ih =>
      show ('0'.toNat - 48) + 10 * numberOf (List.replicate k '0') = 0
      rw [ih]
      decide
  unfold numberOf at hz ⊢
  rw [List.foldr_append, hz]

theorem padded_injective (width : Nat) : Function.Injective (padded width) := by
  intro m n h
  have hr := congrArg List.reverse (String.ofList_injective h)
  rw [List.reverse_append, List.reverse_append, List.reverse_replicate, List.reverse_replicate,
    natDigits, natDigits, List.reverse_reverse, List.reverse_reverse] at hr
  have hn := congrArg numberOf hr
  rwa [numberOf_append_zeros, numberOf_append_zeros, numberOf_digitsRev (Nat.lt_succ_self m),
    numberOf_digitsRev (Nat.lt_succ_self n)] at hn

theorem isIdentRest_padded (width n : Nat) (hc : c ∈ (padded width n).toList) :
    isIdentRest c = true := by
  rw [padded, String.toList_ofList] at hc
  rcases List.mem_append.1 hc with hc | hc
  · rw [List.eq_of_mem_replicate hc]
    decide
  · exact isIdentRest_natText n (by rwa [natText, String.toList_ofList])

theorem isIdentRest_append_natText (hs : ∀ c ∈ s.toList, isIdentRest c = true) (n : Nat) :
    ∀ c ∈ (s ++ natText n).toList, isIdentRest c = true := by
  intro c hc
  rw [String.toList_append] at hc
  rcases List.mem_append.1 hc with hc | hc
  · exact hs c hc
  · exact isIdentRest_natText n hc

theorem isIdentifier_append_natText {cs : List Char} (hc : s.toList = c :: cs)
    (h1 : isIdentStart c = true) (hs : ∀ c ∈ s.toList, isIdentRest c = true) (n : Nat) :
    isIdentifier (s ++ natText n) = true := by
  have ha := isIdentRest_append_natText hs n
  unfold isIdentifier
  rw [dropFinalNewline_eq_self ha]
  rw [String.toList_append, hc, List.cons_append] at ha ⊢
  refine Bool.and_eq_true_iff.2 ⟨h1, List.all_eq_true.2 fun x hx => ?_⟩
  exact ha x (List.mem_cons_of_mem _ hx)

end ZodSchema.Text
