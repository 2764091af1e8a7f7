import Mathlib.Data.List.Basic
import ZodSchema.Proofs.Text.Chars

/-!
# Text with pieces replaced

A text is made of pieces that are replaced and of characters between them.  What is true of the
text with the pieces replaced goes back to one piece, or one character, at a time.

* `replace_append`, `replace_cons`  a piece at the head, and another character there
* `replace_induction`         induction along the pieces
* `replace_eq_self_or_infix`  a text without the new piece was not changed
* `length_replace_le`, `count_replace_le`  what does not grow
* `eq_of_replace_eq`          what becomes the new piece alone was the old one
* `getLast?_replace`          how the text ends
* `prefix_replace_iff`, `cons_prefix_replace_iff`  how it begins, before its first piece
-/

namespace ZodSchema.Text

variable {old new cs : List Char}

theorem replaceFrom_eq_replace (old new : List Char) (skip : Nat) (cs : List Char) :
    replaceFrom old new skip cs = replace old new (cs.drop skip) := by
  induction cs generalizing skip with
  | nil => cases skip <;> rfl
  | cons c cs ih =>
    cases skip with
    | zero => rfl
    | succ skip => exact ih skip

/-- a piece at the head -/
theorem replace_append (ho : old ≠ []) (new rest : List Char) :
    replace old new (old ++ rest) = new ++ replace old new rest := by
  cases old with
  | nil => exact absurd rfl ho
  | cons c old =>
    have hd : dropStart? (c :: old) (c :: (old ++ rest)) = some rest :=
      dropStart?_eq_some_iff.2 rfl
    show replaceFrom (c :: old) new 0 (c :: (old ++ rest)) = _
    rw [replaceFrom, hd]
    dsimp only
    rw [replaceFrom_eq_replace, List.length_cons, Nat.add_sub_cancel, List.drop_left]

theorem replace_cons {c : Char} (h : ¬ old <+: c :: cs) (new : List Char) :
    replace old new (c :: cs) = c :: replace old new cs := by
  have hd : dropStart? old (c :: cs) = none := by
    cases hd : dropStart? old (c :: cs) with
    | none => rfl
    | some rest => exact absurd ⟨rest, (dropStart?_eq_some_iff.1 hd).symm⟩ h
  show replaceFrom old new 0 (c :: cs) = _
  rw [replaceFrom, hd]
  rfl

/-- induction along a text, piece by piece and character by character between the pieces -/
theorem replace_induction {P : List Char → Prop} (ho : old ≠ []) (nil : P [])
    (piece : ∀ rest, P rest → P (old ++ rest))
    (char : ∀ c cs, ¬ old <+: c :: cs → P cs → P (c :: cs)) (cs : List Char) : P cs := by
  induction h : cs.length using Nat.strongRecOn generalizing cs with
  | ind n ih =>
    by_cases hp : old <+: cs
    · obtain ⟨rest, rfl⟩ := hp
      have hpos := List.length_pos_iff.2 ho
      rw [List.length_append] at h
      exact piece rest (ih rest.length (by omega) rest rfl)
    · cases cs with
      | nil => exact nil
      | cons c cs => exact char c cs hp (ih cs.length (by simp [← h]) cs rfl)

section
variable (ho : old ≠ [])
include ho

/-- a text in which something was replaced contains the new piece -/
theorem replace_eq_self_or_infix (new cs : List Char) :
    replace old new cs = cs ∨ new <:+: replace old new cs := by
  induction cs using replace_induction ho with
  | nil => exact Or.inl rfl
  | piece rest _ =>
    rw [replace_append ho]
    exact Or.inr (List.infix_append' [] new _)
  | char c cs hp ih =>
    rw [replace_cons hp]
    exact ih.imp (congrArg (c :: ·)) List.infix_cons

/-- a shorter piece makes no text longer -/
theorem countP_replace_le {p : Char → Bool} (h : new.countP p ≤ old.countP p) (cs : List Char) :
    (replace old new cs).countP p ≤ cs.countP p := by
  induction cs using replace_induction ho with
  | nil => exact Nat.le_refl _
  | piece rest ih =>
    rw [replace_append ho, List.countP_append, List.countP_append]
    exact Nat.add_le_add h ih
  | char c cs hp ih =>
    rw [replace_cons hp, List.countP_cons, List.countP_cons]
    exact Nat.add_le_add_right ih _

theorem length_replace_le (h : new.length ≤ old.length) (cs : List Char) :
    (replace old new cs).length ≤ cs.length := by
  simp only [← List.countP_true] at h ⊢
  exact countP_replace_le ho h cs

/-- no characters come in but those of the new piece -/
theorem count_replace_le {x : Char} (h : x ∉ new) (cs : List Char) :
    (replace old new cs).count x ≤ cs.count x := by
  have hnone : new.countP (· == x) = 0 := List.count_eq_zero.2 h
  exact countP_replace_le ho (hnone ▸ Nat.zero_le _) cs

theorem eq_nil_of_replace (hn : new ≠ []) (h : replace old new cs = []) : cs = [] := by
  induction cs using replace_induction ho with
  | nil => rfl
  | piece rest _ =>
    rw [replace_append ho] at h
    exact absurd (List.append_eq_nil_iff.1 h).1 hn
  | char c cs hp _ =>
    rw [replace_cons hp] at h
    cases h

/-- what becomes the new piece alone was the old one, or the new one already -/
theorem eq_of_replace_eq (hn : new ≠ []) (h : replace old new cs = new) :
    cs = old ∨ cs = new := by
  induction cs using replace_induction ho with
  | nil => exact absurd h.symm hn
  | piece rest _ =>
    rw [replace_append ho] at h
    rw [eq_nil_of_replace ho hn (List.append_right_eq_self.1 h), List.append_nil]
    exact Or.inl rfl
  | char c cs hp _ =>
    rw [replace_cons hp] at h
    rcases replace_eq_self_or_infix ho new cs with hs | hi
    · exact Or.inr (by rw [← h, hs])
    · have hlen := congrArg List.length h
      have hle := hi.length_le
      rw [List.length_cons] at hlen
      omega

/-- a text ends as it did when the new piece ends like the old one -/
theorem getLast?_replace (h : new.getLast? = old.getLast?) (cs : List Char) :
    (replace old new cs).getLast? = cs.getLast? := by
  induction cs using replace_induction ho with
  | nil => rfl
  | piece rest ih => rw [replace_append ho, List.getLast?_append, List.getLast?_append, ih, h]
  | char c cs hp ih => rw [replace_cons hp, List.getLast?_cons, List.getLast?_cons, ih]

end

section
variable {d x y z : Char} {p old' new' : List Char}

/-- pieces start with `d`, so they do not touch what starts a text without it -/
theorem prefix_replace_iff (hp : d ∉ p) (cs : List Char) :
    p <+: replace (d :: old) (d :: new) cs ↔ p <+: cs := by
  induction p generalizing cs with
  | nil => simp
  | cons x p ih =>
    obtain ⟨hx, hp⟩ := not_or.1 (mt List.mem_cons.2 hp)
    by_cases ho : d :: old <+: cs
    · obtain ⟨rest, rfl⟩ := ho
      rw [replace_append (List.cons_ne_nil _ _), List.cons_append, List.cons_append,
        List.cons_prefix_cons, List.cons_prefix_cons]
      exact iff_of_false (fun h => hx h.1.symm) fun h => hx h.1.symm
    · cases cs with
      | nil => rfl
      | cons c cs => rw [replace_cons ho, List.cons_prefix_cons, List.cons_prefix_cons, ih hp]

/-- nor do they touch a start with `d` that goes on in another way than they do -/
theorem cons_prefix_replace_iff (hp : d ∉ x :: p) (ho : x ≠ y) (hn : x ≠ z) (cs : List Char) :
    d :: x :: p <+: replace (d :: y :: old') (d :: z :: new') cs ↔ d :: x :: p <+: cs := by
  by_cases h : d :: y :: old' <+: cs
  · obtain ⟨rest, rfl⟩ := h
    rw [replace_append (List.cons_ne_nil _ _)]
    simp only [List.cons_append, List.cons_prefix_cons]
    exact iff_of_false (fun h => hn h.2.1) fun h => ho h.2.1
  · cases cs with
    | nil => rfl
    | cons c cs =>
      rw [replace_cons h, List.cons_prefix_cons, List.cons_prefix_cons, prefix_replace_iff hp]

end

namespace Str

variable {s : String}

theorem toList_replace (old new s : String) :
    (replace old new s).toList = Text.replace old.toList new.toList s.toList :=
  String.toList_ofList

theorem eq_of_replace_eq {old new : String} (ho : old.toList ≠ []) (hn : new.toList ≠ [])
    (h : replace old new s = new) : s = old ∨ s = new := by
  have ht := congrArg String.toList h
  rw [toList_replace] at ht
  exact (Text.eq_of_replace_eq ho hn ht).imp (String.toList_injective ·)
    (String.toList_injective ·)

end Str

end ZodSchema.Text
