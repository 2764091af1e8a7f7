import ZodSchema.Json.Reader
import ZodSchema.Proofs.Text.CodePoint

/-!
# Strings in JSON

A literal is a string of JSON, and it is read as the text that it was written from.

* `hexFour?_hexEscape`    the digits of an escape are read as its number
* `escapeChar_cases`      how a character of a literal is written
* `stringTail_escapeChar` it is read as this character
* `stringTail_literal`    a whole literal, whatever follows it
-/

namespace ZodSchema.Json

open Text (escapeChar hexDigit)

variable {c : Char} {fuel : Nat}

theorem hexFour?_hexEscape : ∀ n < 32,
    hexFour? (hexDigit (n / 4096 % 16)) (hexDigit (n / 256 % 16)) (hexDigit (n / 16 % 16))
      (hexDigit (n % 16)) = some n := by
  decide +kernel

/-- a character that no rule of strings is about stands for itself -/
theorem stringTail_char (fuel : Nat) (acc cs : List Char) (hlow : 32 ≤ c.toNat) (hq : c ≠ '"')
    (hs : c ≠ '\\') : stringTail (fuel + 1) acc (c :: cs) = stringTail fuel (c :: acc) cs := by
  have hn : ¬ (c.toNat < 32 ∨ c = '\\') := by
    rintro (hlt | he)
    · omega
    · exact hs he
  rw [stringTail.eq_def]
  dsimp only
  split
  · next he => cases he
  · next he => exact absurd (List.cons.inj he).1 hq
  · next he => exact absurd (List.cons.inj he).1 hs
  · next he => exact absurd (List.cons.inj he).1 hs
  · next he =>
    obtain ⟨rfl, rfl⟩ := List.cons.inj he
    rw [if_neg hn]

/-- an escape of one letter -/
theorem stringTail_letter {e : Char} (fuel : Nat) (acc cs : List Char) (he : e ≠ 'u')
    (h : simpleEscape? e = some c) :
    stringTail (fuel + 1) acc ('\\' :: e :: cs) = stringTail fuel (c :: acc) cs := by
  rw [stringTail.eq_def]
  dsimp only
  split
  · next hc => cases hc
  · next hc => exact absurd (List.cons.inj hc).1 (by decide)
  · next hc => exact absurd (List.cons.inj (List.cons.inj hc).2).1 he
  · next hc =>
    obtain ⟨rfl, rfl⟩ := List.cons.inj (List.cons.inj hc).2
    rw [h]
  · next hne hc =>
    obtain ⟨rfl, rfl⟩ := List.cons.inj hc
    exact absurd rfl (hne e cs rfl)

/-- an escape by number, outside the surrogates -/
theorem stringTail_number (fuel : Nat) (acc cs : List Char) (h : c.toNat < 32) :
    stringTail (fuel + 1) acc (Text.hexEscape c.toNat ++ cs) = stringTail fuel (c :: acc) cs := by
  unfold Text.hexEscape
  simp only [List.cons_append, List.nil_append]
  rw [stringTail]
  rw [hexFour?_hexEscape _ h]
  have hm : c ≠ Text.mark := by
    rintro rfl
    exact absurd h (by decide)
  dsimp only
  rw [if_neg (by omega), scalar, Text.CodePoint.keep_ofNat hm]
  rfl

/-- the three ways of writing a character: by a letter, by its number and as it is -/
theorem escapeChar_cases (c : Char) :
    (∃ e, escapeChar c = ['\\', e] ∧ e ≠ 'u' ∧ simpleEscape? e = some c) ∨
      (escapeChar c = Text.hexEscape c.toNat ∧ c.toNat < 32) ∨
      escapeChar c = [c] ∧ 32 ≤ c.toNat ∧ c ≠ '"' ∧ c ≠ '\\' := by
  have letter : ∀ e x, c = x → e ≠ 'u' → simpleEscape? e = some x →
      ∃ e', ['\\', e] = ['\\', e'] ∧ e' ≠ 'u' ∧ simpleEscape? e' = some c :=
    fun e _ hx hu he => ⟨e, rfl, hu, hx ▸ he⟩
  unfold escapeChar
  split
  · next h => exact Or.inl (letter '"' _ h (by decide) rfl)
  split
  · next h => exact Or.inl (letter '\\' _ h (by decide) rfl)
  split
  · next h => exact Or.inl (letter 'n' _ h (by decide) rfl)
  split
  · next h => exact Or.inl (letter 'r' _ h (by decide) rfl)
  split
  · next h => exact Or.inl (letter 't' _ h (by decide) rfl)
  split
  · next h => exact Or.inl (letter 'b' '\x08' (Char.toNat_inj.1 h) (by decide) rfl)
  split
  · next h => exact Or.inl (letter 'f' '\x0c' (Char.toNat_inj.1 h) (by decide) rfl)
  split
  · next h => exact Or.inr (Or.inl ⟨rfl, h⟩)
  · next hq hs _ _ _ _ _ h => exact Or.inr (Or.inr ⟨rfl, Nat.not_lt.1 h, hq, hs⟩)

theorem escapeChar_ordinary (hlow : 32 ≤ c.toNat) (hq : c ≠ '"') (hs : c ≠ '\\') :
    escapeChar c = [c] := by
  have hne : ∀ x : Char, x.toNat < 32 → c ≠ x := by
    rintro x hx rfl
    omega
  unfold escapeChar
  rw [if_neg hq, if_neg hs, if_neg (hne _ (by decide)), if_neg (hne _ (by decide)),
    if_neg (hne _ (by decide)), if_neg (by omega), if_neg (by omega), if_neg (by omega)]

theorem stringTail_escapeChar (fuel : Nat) (acc cs : List Char) (c : Char) :
    stringTail (fuel + 1) acc (escapeChar c ++ cs) = stringTail fuel (c :: acc) cs := by
  rcases escapeChar_cases c with ⟨e, hc, hu, he⟩ | ⟨hc, h⟩ | ⟨hc, h, hq, hs⟩
  · rw [hc]
    exact stringTail_letter fuel acc cs hu he
  · rw [hc]
    exact stringTail_number fuel acc cs h
  · rw [hc]
    exact stringTail_char fuel acc cs h hq hs

/-- **Literals are read back.** -/
theorem stringTail_literal (cs rest : List Char) (acc : List Char) (hf : cs.length < fuel) :
    stringTail fuel acc (cs.flatMap escapeChar ++ '"' :: rest) = some (acc.reverse ++ cs, rest) := by
  induction cs generalizing acc fuel with
  | nil =>
    obtain ⟨n, rfl⟩ := Nat.exists_eq_succ_of_ne_zero (Nat.ne_of_gt hf)
    simp [stringTail]
  | cons c cs ih =>
    obtain ⟨n, rfl⟩ := Nat.exists_eq_succ_of_ne_zero (Nat.ne_of_gt (Nat.zero_lt_of_lt hf))
    rw [List.flatMap_cons, List.append_assoc, stringTail_escapeChar,
      ih (c :: acc) (by simpa using hf), List.reverse_cons, List.append_assoc]
    rfl

end ZodSchema.Json
