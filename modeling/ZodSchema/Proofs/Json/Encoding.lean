import ZodSchema.Json.Printer
import ZodSchema.Proofs.Text.CodePoint
import ZodSchema.Proofs.Text.Literal

/-!
# The encoding of JSON

What is written keeps the surrogates of the texts in it and adds none.

* `lone?_ascii`     a text of ASCII characters has an encoding
* `lone?_quote`     so has the literal of a text that has one
* `lone?_writeAt_list`, `lone?_writeAt_map`   and what is written of parts that all have one
-/

namespace ZodSchema.Json

open Text

variable {s : String} {n : Nat}

theorem lone?_ascii (h : ∀ c ∈ s.toList, c.toNat < 128) : Str.lone? s = none := by
  refine Str.lone?_of_notMem fun hm => ?_
  have hmark : mark.toNat < 128 := h mark hm
  exact absurd hmark (by decide)

theorem lone?_natText (k : Nat) : Str.lone? (natText k) = none :=
  lone?_ascii fun _ hc => toNat_lt_of_isIdentRest (isIdentRest_natText k hc)

theorem lone?_intText (i : Int) : Str.lone? (intText i) = none := by
  unfold intText
  split
  · exact Str.lone?_append (by decide) (lone?_natText _)
  · exact lone?_natText _

/-! ## literals -/

/-- nothing is announced in an escape -/
theorem keep_escapeChar (c : Char) : keep (escapeChar c) = (keep [c]).flatMap escapeChar := by
  by_cases hc : c = mark
  · rw [hc]
    decide
  · have hk : keep [c] = [c] := keep_eq_self fun hm => hc (List.mem_singleton.1 hm).symm
    rw [hk, List.flatMap_singleton]
    refine keep_eq_self ?_
    have hdigit : ∀ k, hexDigit (k % 16) ≠ mark := by
      intro k
      have hlt : k % 16 < 16 := Nat.mod_lt _ (by decide)
      have hall : ∀ d < 16, hexDigit d ≠ mark := by decide
      exact hall _ hlt
    unfold escapeChar
    split_ifs
    all_goals first
      | decide
      | simp only [hexEscape, List.mem_cons, List.not_mem_nil, or_false, not_or]
        exact ⟨by decide, by decide, (hdigit _).symm, (hdigit _).symm, (hdigit _).symm,
          (hdigit _).symm⟩
      | exact fun hm => hc (List.mem_singleton.1 hm).symm

theorem lone?_quote (h : Str.lone? s = none) : Str.lone? (quote s) = none := by
  obtain ⟨cs, hcs⟩ := Str.lone?_eq_none_iff.1 h
  have hbody : (keep cs).flatMap escapeChar = keep (cs.flatMap escapeChar) := by
    have hone : ∀ c, keep (escapeChar c) = (CodePoint.char c).keep.flatMap escapeChar := by
      intro c
      rw [keep_escapeChar]
      exact congrArg _ (List.append_nil _)
    unfold keep at hone ⊢
    rw [List.flatMap_assoc, List.flatMap_assoc]
    exact congrArg (cs.flatMap ·) (funext fun c => (hone c).symm)
  refine Str.lone?_eq_none_iff.2 ⟨quoteChars cs, ?_⟩
  rw [quote, String.toList_ofList, hcs]
  unfold quoteChars
  rw [hbody]
  simp only [keep, List.flatMap_append, List.flatMap_cons, List.flatMap_nil, List.cons_append]
  rfl

/-! ## parts of a value -/

theorem lone?_indent (n : Nat) : Str.lone? (indent n) = none := by
  refine lone?_ascii fun c hc => ?_
  rw [indent, String.toList_ofList] at hc
  rw [List.eq_of_mem_replicate hc]
  decide

theorem lone?_block {left right : String} {parts : List String} (hl : Str.lone? left = none)
    (hr : Str.lone? right = none) (h : ∀ p ∈ parts, Str.lone? p = none) :
    Str.lone? (block n left right parts) = none := by
  have hbreak : Str.lone? "\n" = none := by decide
  have hjoin : Str.lone? (Str.join ",\n" (parts.map (indent (n + 1) ++ ·))) = none := by
    refine Str.lone?_join (by decide) fun p hp => ?_
    obtain ⟨q, hq, rfl⟩ := List.mem_map.1 hp
    exact Str.lone?_append (lone?_indent _) (h q hq)
  unfold block
  split
  · exact Str.lone?_append hl hr
  · exact Str.lone?_append (Str.lone?_append (Str.lone?_append (Str.lone?_append
      (Str.lone?_append hl hbreak) hjoin) hbreak) (lone?_indent n)) hr

theorem mem_writeItemsAt {vs : List Value} {p : String} (h : p ∈ writeItemsAt n vs) :
    ∃ v ∈ vs, p = writeAt n v := by
  induction vs with
  | nil => cases h
  | cons v vs ih =>
    rcases List.mem_cons.1 h with rfl | h
    · exact ⟨v, List.mem_cons_self, rfl⟩
    · obtain ⟨u, hu, hp⟩ := ih h
      exact ⟨u, List.mem_cons_of_mem _ hu, hp⟩

theorem mem_writeEntriesAt {es : List (Value × Value)} {p : String}
    (h : p ∈ writeEntriesAt n es) : ∃ e ∈ es, p = keyText e.1 ++ ": " ++ writeAt n e.2 := by
  induction es with
  | nil => cases h
  | cons e es ih =>
    rcases List.mem_cons.1 h with rfl | h
    · exact ⟨e, List.mem_cons_self, rfl⟩
    · obtain ⟨x, hx, hp⟩ := ih h
      exact ⟨x, List.mem_cons_of_mem _ hx, hp⟩

theorem lone?_writeAt_list {vs : List Value}
    (h : ∀ v ∈ vs, Str.lone? (writeAt (n + 1) v) = none) :
    Str.lone? (writeAt n (.list vs)) = none := by
  refine lone?_block (by decide) (by decide) fun p hp => ?_
  obtain ⟨v, hv, rfl⟩ := mem_writeItemsAt hp
  exact h v hv

theorem lone?_writeAt_map {es : List (Value × Value)}
    (h : ∀ e ∈ es, Str.lone? (keyText e.1) = none ∧ Str.lone? (writeAt (n + 1) e.2) = none) :
    Str.lone? (writeAt n (.map es)) = none := by
  refine lone?_block (by decide) (by decide) fun p hp => ?_
  obtain ⟨e, he, rfl⟩ := mem_writeEntriesAt hp
  exact Str.lone?_append (Str.lone?_append (h e he).1 (by decide)) (h e he).2

end ZodSchema.Json
