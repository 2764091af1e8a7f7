import Mathlib.Data.List.Forall2
import ZodSchema.Text.Lower
import ZodSchema.Proofs.Text.Chars

/-!
# Lower case, part by part

A slash and a dot are their own lower case, and no other character becomes one of them; so a path
keeps its parts, and the empty ones and those of dots stay as they are.

* `toLower_ne`           capitals become small letters
* `lower_of_ascii`       plain texts, character by character
* `Recased`              one text is another, but for characters that are no slashes and no dots
* `recased_lower`        a text and its lower case
* `Recased.splitOnChar`  the parts between slashes
* `Recased.eq_iff`       parts of slashes and dots
-/

namespace ZodSchema.Text

theorem toLower_ne {c x : Char} (hx : x.toNat < 97) (h : c ≠ x) : c.toLower ≠ x := by
  unfold Char.toLower
  split
  · next hu =>
    rintro rfl
    have h1 : 65 ≤ c.val.toNat := UInt32.le_iff_toNat_le.1 hu.1
    have h2 : c.val.toNat ≤ 90 := UInt32.le_iff_toNat_le.1 hu.2
    have hn : (c.val.toNat + 32) % 2 ^ 32 < 97 := hx
    omega
  · exact h

theorem lower_of_ascii {cs : List Char} (h : ∀ c ∈ cs, c.toNat < 128) :
    lower cs = cs.map Char.toLower := by
  have hf : ∀ before, lowerFrom before cs = cs.map Char.toLower := by
    induction cs with
    | nil => exact fun _ => rfl
    | cons c cs ih =>
      intro before
      have hc := h c List.mem_cons_self
      rw [lowerFrom, if_neg (by omega), lowerAlone, if_pos hc,
        ih (fun x hx => h x (List.mem_cons_of_mem _ hx))]
      rfl
  exact hf []

/-! ## characters -/

/-- what makes up the parts of a path that are no names -/
def isMark (c : Char) : Bool := c == '/' || c == '.'

theorem isMark_iff {c : Char} : isMark c = true ↔ c = '/' ∨ c = '.' := by
  simp [isMark]

theorem isMark_toLower {c : Char} (h : isMark c = false) : isMark c.toLower = false := by
  rw [Bool.eq_false_iff, ne_eq, isMark_iff] at h ⊢
  rintro (h' | h')
  · exact toLower_ne (by decide) (fun e => h (Or.inl e)) h'
  · exact toLower_ne (by decide) (fun e => h (Or.inr e)) h'

theorem isMark_ofNat {n : Nat} (h : 97 ≤ n) : isMark (Char.ofNat n) = false := by
  rw [Bool.eq_false_iff, ne_eq, isMark_iff]
  have hn : (Char.ofNat n).toNat = n ∨ (Char.ofNat n).toNat = 0 := by
    by_cases hv : n.isValidChar
    · rw [Char.ofNat, dif_pos hv]
      exact Or.inl rfl
    · rw [Char.ofNat, dif_neg hv]
      exact Or.inr rfl
  have hslash : '/'.toNat = 47 := rfl
  have hdot : '.'.toNat = 46 := rfl
  rintro (he | he) <;>
  · rw [he] at hn
    omega

/-- no character of the table becomes a slash or a dot -/
theorem isMark_lowerChar {c : Char} (h : isMark c = false) : isMark (lowerChar c) = false := by
  have hruns : ∀ r ∈ lowerRuns, 97 ≤ r.first + r.shift := by decide +kernel
  unfold lowerChar
  split
  · next r hr =>
    have hfirst := hruns r (List.mem_of_find?_eq_some hr)
    have hcovers := List.find?_some hr
    simp only [LowerRun.covers, Bool.and_eq_true, decide_eq_true_eq] at hcovers
    exact isMark_ofNat (by omega)
  · exact h

theorem isMark_lowerAlone {c : Char} (h : isMark c = false) :
    ∀ x ∈ lowerAlone c, isMark x = false := by
  unfold lowerAlone
  split
  · exact List.forall_mem_singleton.2 (isMark_toLower h)
  · split
    · exact List.forall_mem_cons.2
        ⟨rfl, List.forall_mem_singleton.2 (isMark_ofNat (by decide))⟩
    · exact List.forall_mem_singleton.2 (isMark_lowerChar h)

theorem lowerAlone_ne_nil (c : Char) : lowerAlone c ≠ [] := by
  unfold lowerAlone
  split
  · exact List.cons_ne_nil _ _
  · split <;> exact List.cons_ne_nil _ _

/-! ## texts -/

/-- slashes and dots stay, and every other character is replaced by some that are neither -/
inductive Recased : List Char → List Char → Prop where
  | nil : Recased [] []
  | mark {c : Char} {cs ds : List Char} (hc : isMark c = true) (h : Recased cs ds) :
      Recased (c :: cs) (c :: ds)
  | other {c : Char} {block cs ds : List Char} (hc : isMark c = false) (hne : block ≠ [])
      (hb : ∀ x ∈ block, isMark x = false) (h : Recased cs ds) : Recased (c :: cs) (block ++ ds)

theorem recased_lowerFrom (before cs : List Char) : Recased cs (lowerFrom before cs) := by
  induction cs generalizing before with
  | nil => exact .nil
  | cons c cs ih =>
    unfold lowerFrom
    cases hc : isMark c with
    | true =>
      have hs : (if c.toNat = 0x3A3 then
          [Char.ofNat (if casedNext before && !casedNext cs then 0x3C2 else 0x3C3)]
          else lowerAlone c) = [c] := by
        rcases isMark_iff.1 hc with rfl | rfl <;> rfl
      rw [hs]
      exact .mark hc (ih _)
    | false =>
      refine .other hc ?_ ?_ (ih _)
      · split
        · exact List.cons_ne_nil _ _
        · exact lowerAlone_ne_nil c
      · split
        · refine List.forall_mem_singleton.2 (isMark_ofNat ?_)
          split <;> decide
        · exact isMark_lowerAlone hc

theorem recased_lower (cs : List Char) : Recased cs (lower cs) := recased_lowerFrom [] cs

namespace Recased

variable {cs ds : List Char}

/-- pieces without slashes go to the first parts of both -/
theorem splitOnChar_append {as bs : List Char} (ha : '/' ∉ as) (hb : '/' ∉ bs)
    (hhead : ∀ {p q}, Recased p q → Recased (as ++ p) (bs ++ q))
    (h : List.Forall₂ Recased (Text.splitOnChar '/' cs) (Text.splitOnChar '/' ds)) :
    List.Forall₂ Recased (Text.splitOnChar '/' (as ++ cs)) (Text.splitOnChar '/' (bs ++ ds)) := by
  obtain ⟨p, ps, hp⟩ := exists_splitOnChar '/' cs
  obtain ⟨q, qs, hq⟩ := exists_splitOnChar '/' ds
  rw [hp, hq, List.forall₂_cons] at h
  rw [splitOnChar_append_of_not_mem ha hp, splitOnChar_append_of_not_mem hb hq]
  exact .cons (hhead h.1) h.2

theorem splitOnChar (h : Recased cs ds) :
    List.Forall₂ Recased (Text.splitOnChar '/' cs) (Text.splitOnChar '/' ds) := by
  induction h with
  | nil => exact .cons .nil .nil
  | @mark c cs ds hc h ih =>
    rcases isMark_iff.1 hc with rfl | rfl
    · have hs : ∀ xs, Text.splitOnChar '/' ('/' :: xs) = [] :: Text.splitOnChar '/' xs :=
        fun xs => Text.splitOnChar_append '/' [] xs
      rw [hs, hs]
      exact .cons .nil ih
    · have hdot : '/' ∉ ['.'] := by decide
      exact splitOnChar_append hdot hdot (fun h => .mark hc h) ih
  | @other c block cs ds hc hne hb h ih =>
    have hslash : ∀ {xs : List Char}, (∀ x ∈ xs, isMark x = false) → '/' ∉ xs := by
      intro xs hxs hm
      cases hxs _ hm
    have hc' : '/' ∉ [c] := hslash (List.forall_mem_singleton.2 hc)
    exact splitOnChar_append hc' (hslash hb) (fun {p q} (h : Recased p q) => .other hc hne hb h) ih

/-- texts of slashes and dots alone are no other texts -/
theorem eq_iff {w : List Char} (hw : ∀ x ∈ w, isMark x = true) (h : Recased cs ds) :
    cs = w ↔ ds = w := by
  induction h generalizing w with
  | nil => exact Iff.rfl
  | mark hc h ih =>
    cases w with
    | nil => simp
    | cons x w => simp [ih fun y hy => hw y (List.mem_cons_of_mem _ hy)]
  | @other c block cs ds hc hne hb h ih =>
    refine iff_of_false ?_ ?_
    · rintro rfl
      rw [hw c List.mem_cons_self] at hc
      cases hc
    · rintro rfl
      obtain ⟨b, bs, rfl⟩ := List.exists_cons_of_ne_nil hne
      have hbm := hb b List.mem_cons_self
      rw [hw b List.mem_cons_self] at hbm
      cases hbm

end Recased

end ZodSchema.Text
