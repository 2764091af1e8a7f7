import Mathlib.Data.List.Infix
import ZodSchema.Annotations.Segment
import ZodSchema.Proofs.Json.Strings
import ZodSchema.Proofs.Text.Replace

/-!
# Escapes of a description

A literal is written in one pass and read in six, one for each kind of escape.  The passes together
read a text from left to right, escaped backslashes aside, which the last one reads.  So a backslash
of the text and a letter behind it are taken for an escape, since the backslash is still written
twice when the escapes of letters are read.

* `Text.replace_pair` ..   replacing a piece of two characters
* `decodeBy`               reading the escapes of a table in one pass
* `replace_decodeBy`       one more replacement is one more entry of the table
* `misread`                a text with the letters behind its backslashes taken for escapes
* `unescape_escape`        what is read of a literal
* `misread_eq_self_iff`    the texts that are read as they were written
-/

namespace ZodSchema

/-! ## pieces of two characters -/

namespace Text

variable {a b c : Char} {new cs : List Char}

theorem replace_pair (a b : Char) (new cs : List Char) :
    replace [a, b] new (a :: b :: cs) = new ++ replace [a, b] new cs :=
  replace_append (List.cons_ne_nil _ _) new cs

theorem replace_cons_of_ne (new cs : List Char) (h : c ≠ a) :
    replace [a, b] new (c :: cs) = c :: replace [a, b] new cs :=
  replace_cons (fun hp => h (List.cons_prefix_cons.1 hp).1.symm) new

theorem replace_cons_of_head? (h : ∀ x ∈ cs.head?, x ≠ b) :
    replace [a, b] new (c :: cs) = c :: replace [a, b] new cs := by
  refine replace_cons (fun hp => ?_) new
  obtain ⟨rest, rfl⟩ := (List.cons_prefix_cons.1 hp).2
  exact h b rfl rfl

end Text

namespace Annotations

variable {table : List (Char × Char)} {c e x : Char} {cs : List Char}

/-! ## escapes of a table -/

/-- the text with the escapes of a table read; any other backslash stands for itself -/
def decodeBy (table : List (Char × Char)) : List Char → List Char
  | [] => []
  | [c] => [c]
  | c :: d :: cs =>
    match if c = '\\' then table.lookup d else none with
    | some x => x :: decodeBy table cs
    | none => c :: decodeBy table (d :: cs)

theorem decodeBy_nil (cs : List Char) : decodeBy [] cs = cs := by
  fun_induction decodeBy [] cs <;> simp_all

theorem decodeBy_cons (h : c ≠ '\\') (cs : List Char) :
    decodeBy table (c :: cs) = c :: decodeBy table cs := by
  cases cs with
  | nil => rfl
  | cons d cs => rw [decodeBy, if_neg h]

theorem decodeBy_escape (h : table.lookup e = some x) (cs : List Char) :
    decodeBy table ('\\' :: e :: cs) = x :: decodeBy table cs := by
  rw [decodeBy, if_pos rfl, h]

theorem decodeBy_slash (h : ∀ e ∈ cs.head?, table.lookup e = none) :
    decodeBy table ('\\' :: cs) = '\\' :: decodeBy table cs := by
  cases cs with
  | nil => rfl
  | cons d cs => rw [decodeBy, if_pos rfl, h d rfl]

section
variable (he : e ≠ '\\') (hkey : ∀ p ∈ table, p.1 ≠ '\\' ∧ p.1 ≠ e)
  (hval : ∀ p ∈ table, p.2 ≠ '\\' ∧ p.2 ≠ e)

theorem mem_of_lookup (h : table.lookup c = some x) : (c, x) ∈ table := by
  obtain ⟨before, after, rfl, -⟩ := List.lookup_eq_some_iff.1 h
  exact List.mem_append_right _ List.mem_cons_self

include hkey in
theorem lookup_concat (x c : Char) :
    (table ++ [(e, x)]).lookup c = if c = e then some x else table.lookup c := by
  rw [List.lookup_append]
  split
  · next h =>
    have hn : table.lookup e = none := List.lookup_eq_none_iff.2 fun p hp => by
      simpa using (hkey p hp).2.symm
    rw [h, hn]
    simp
  · next h =>
    rw [List.lookup_cons, beq_eq_false_iff_ne.2 h]
    exact Option.or_none

include hval in
/-- the letter of a new entry does not come from a table without it -/
theorem head?_decodeBy {d : Char} (hd : d ≠ e) (cs : List Char) :
    ∀ z ∈ (decodeBy table (d :: cs)).head?, z ≠ e := by
  intro z hz
  cases cs with
  | nil => exact Option.some.inj hz ▸ hd
  | cons d' cs =>
    rw [decodeBy] at hz
    split at hz
    · next y hy =>
      obtain rfl := Option.some.inj hz
      split at hy
      · exact (hval _ (mem_of_lookup hy)).2
      · cases hy
    · exact Option.some.inj hz ▸ hd

include he hkey hval in
/-- **One more replacement** reads the escapes of one more entry. -/
theorem replace_decodeBy (x : Char) (cs : List Char) :
    Text.replace ['\\', e] [x] (decodeBy table cs) = decodeBy (table ++ [(e, x)]) cs := by
  fun_induction decodeBy table cs with
  | case1 => rfl
  | case2 c => exact Text.replace_cons_of_head? (by rintro _ ⟨⟩)
  | case3 c d cs y hy ih =>
    split at hy
    · next hc =>
      have hmem := mem_of_lookup hy
      subst hc
      rw [Text.replace_cons_of_ne _ _ (hval _ hmem).1, ih, decodeBy_escape]
      rw [lookup_concat hkey, if_neg (hkey _ hmem).2, hy]
    · cases hy
  | case4 c d cs hn ih =>
    by_cases hc : c = '\\'
    · subst hc
      rw [if_pos rfl] at hn
      by_cases hd : d = e
      · subst hd
        rw [decodeBy_cons he, Text.replace_cons_of_ne _ _ he, decodeBy_cons he] at ih
        rw [decodeBy_cons he, Text.replace_pair, (List.cons.inj ih).2, decodeBy_escape]
        · rfl
        · rw [lookup_concat hkey, if_pos rfl]
      · rw [Text.replace_cons_of_head? (head?_decodeBy hval hd cs), ih, decodeBy_slash]
        rintro _ ⟨⟩
        rw [lookup_concat hkey, if_neg hd, hn]
    · rw [Text.replace_cons_of_ne _ _ hc, ih, decodeBy_cons hc]

end

/-! ## the escapes of a description -/

/-- the escapes that are read before the one of a backslash -/
def letterEscapes : List (Char × Char) :=
  [('"', '"'), ('\'', '\''), ('n', '\n'), ('r', '\r'), ('t', '\t')]

theorem unescape_eq (cs : List Char) :
    unescape cs = Text.replace ['\\', '\\'] ['\\'] (decodeBy letterEscapes cs) := by
  have h1 : Text.replace ['\\', '"'] ['"'] (decodeBy [] cs) = decodeBy [('"', '"')] cs :=
    replace_decodeBy (by decide) (by decide) (by decide) _ cs
  have h2 : Text.replace ['\\', '\''] ['\''] (decodeBy [('"', '"')] cs) =
      decodeBy [('"', '"'), ('\'', '\'')] cs :=
    replace_decodeBy (by decide) (by decide) (by decide) _ cs
  have h3 : Text.replace ['\\', 'n'] ['\n'] (decodeBy [('"', '"'), ('\'', '\'')] cs) =
      decodeBy [('"', '"'), ('\'', '\''), ('n', '\n')] cs :=
    replace_decodeBy (by decide) (by decide) (by decide) _ cs
  have h4 : Text.replace ['\\', 'r'] ['\r']
      (decodeBy [('"', '"'), ('\'', '\''), ('n', '\n')] cs) =
      decodeBy [('"', '"'), ('\'', '\''), ('n', '\n'), ('r', '\r')] cs :=
    replace_decodeBy (by decide) (by decide) (by decide) _ cs
  have h5 : Text.replace ['\\', 't'] ['\t']
      (decodeBy [('"', '"'), ('\'', '\''), ('n', '\n'), ('r', '\r')] cs) =
      decodeBy letterEscapes cs :=
    replace_decodeBy (by decide) (by decide) (by decide) _ cs
  rw [decodeBy_nil] at h1
  unfold unescape unescapes
  rw [List.foldl_cons, h1, List.foldl_cons, h2, List.foldl_cons, h3, List.foldl_cons, h4,
    List.foldl_cons, h5]
  rfl

theorem count_unescape_le {x : Char} (h : ∀ e ∈ unescapes, x ∉ e.2) (cs : List Char) :
    (unescape cs).count x ≤ cs.count x := by
  have ho : ∀ e ∈ unescapes, e.1 ≠ [] := by decide
  unfold unescape
  generalize unescapes = es at h ho
  induction es generalizing cs with
  | nil => exact Nat.le_refl _
  | cons e es ih =>
    obtain ⟨he, hes⟩ := List.forall_mem_cons.1 h
    obtain ⟨hoe, hos⟩ := List.forall_mem_cons.1 ho
    exact (ih _ hes hos).trans (Text.count_replace_le hoe he cs)

theorem letterEscapes_ne_slash (h : letterEscapes.lookup e = some x) : x ≠ '\\' := by
  have hall : ∀ p ∈ letterEscapes, p.2 ≠ '\\' := by decide
  exact hall _ (mem_of_lookup h)

theorem unescape_cons (h : c ≠ '\\') (cs : List Char) : unescape (c :: cs) = c :: unescape cs := by
  rw [unescape_eq, unescape_eq, decodeBy_cons h, Text.replace_cons_of_ne _ _ h]

theorem unescape_letter (h : letterEscapes.lookup e = some x) (cs : List Char) :
    unescape ('\\' :: e :: cs) = x :: unescape cs := by
  rw [unescape_eq, unescape_eq, decodeBy_escape h,
    Text.replace_cons_of_ne _ _ (letterEscapes_ne_slash h)]

theorem unescape_slash (h : ∀ e ∈ cs.head?, letterEscapes.lookup e = none) :
    unescape ('\\' :: '\\' :: cs) = '\\' :: unescape cs := by
  rw [unescape_eq, unescape_eq, decodeBy_slash (by rintro _ ⟨⟩; rfl), decodeBy_slash h,
    Text.replace_pair]
  rfl

/-- the second of two backslashes goes with a letter behind it -/
theorem unescape_slash_letter (h : letterEscapes.lookup e = some x) (cs : List Char) :
    unescape ('\\' :: '\\' :: e :: cs) = '\\' :: x :: unescape cs := by
  have hx := letterEscapes_ne_slash h
  rw [unescape_eq, unescape_eq, decodeBy_slash (by rintro _ ⟨⟩; rfl), decodeBy_escape h,
    Text.replace_cons_of_head? (by rintro _ ⟨⟩; exact hx), Text.replace_cons_of_ne _ _ hx]

/-! ## a literal that is read again -/

/-- a line feed, a carriage return and a tab have escapes of their own; no other control characters -/
def Writable (cs : List Char) : Prop :=
  ∀ c ∈ cs, c.toNat < 32 → c = '\n' ∨ c = '\r' ∨ c = '\t'

instance (cs : List Char) : Decidable (Writable cs) := List.decidableBAll _ _

theorem escapeChar_cases_of_writable (h : c.toNat < 32 → c = '\n' ∨ c = '\r' ∨ c = '\t') :
    c = '\\' ∧ Text.escapeChar c = ['\\', '\\'] ∨
      (∃ e, letterEscapes.lookup e = some c ∧ Text.escapeChar c = ['\\', e]) ∨
      Text.escapeChar c = [c] ∧ 32 ≤ c.toNat ∧ c ≠ '"' ∧ c ≠ '\\' := by
  by_cases hlow : c.toNat < 32
  · rcases h hlow with rfl | rfl | rfl
    · exact Or.inr (Or.inl ⟨'n', rfl, rfl⟩)
    · exact Or.inr (Or.inl ⟨'r', rfl, rfl⟩)
    · exact Or.inr (Or.inl ⟨'t', rfl, rfl⟩)
  · by_cases hq : c = '"'
    · subst hq
      exact Or.inr (Or.inl ⟨'"', rfl, rfl⟩)
    · by_cases hs : c = '\\'
      · subst hs
        exact Or.inl ⟨rfl, rfl⟩
      · have hlow := Nat.not_lt.1 hlow
        exact Or.inr (Or.inr ⟨Json.escapeChar_ordinary hlow hq hs, hlow, hq, hs⟩)

/-- an escape is a backslash and a letter; any other character stands for itself -/
theorem escapeChar_pair_or_self (h : c.toNat < 32 → c = '\n' ∨ c = '\r' ∨ c = '\t') :
    (∃ e, Text.escapeChar c = ['\\', e] ∧ 32 ≤ e.toNat ∧ e ≠ '/' ∧ e ≠ '@') ∨
      Text.escapeChar c = [c] ∧ 32 ≤ c.toNat ∧ c ≠ '"' := by
  rcases escapeChar_cases_of_writable h with ⟨-, he⟩ | ⟨e, hl, he⟩ | ⟨he, hlow, hq, -⟩
  · exact Or.inl ⟨'\\', he, by decide⟩
  · have hall : ∀ p ∈ letterEscapes, 32 ≤ p.1.toNat ∧ p.1 ≠ '/' ∧ p.1 ≠ '@' := by decide
    exact Or.inl ⟨e, he, hall _ (mem_of_lookup hl)⟩
  · exact Or.inr ⟨he, hlow, hq⟩

/-- a character is read as it was written, unless it is a backslash and a letter follows -/
theorem unescape_escapeChar (h : c.toNat < 32 → c = '\n' ∨ c = '\r' ∨ c = '\t')
    (hs : c = '\\' → ∀ e ∈ cs.head?, letterEscapes.lookup e = none) :
    unescape (Text.escapeChar c ++ cs) = c :: unescape cs := by
  rcases escapeChar_cases_of_writable h with ⟨rfl, hc⟩ | ⟨e, he, hc⟩ | ⟨hc, -, -, hne⟩
  · rw [hc]
    exact unescape_slash (hs rfl)
  · rw [hc]
    exact unescape_letter he cs
  · rw [hc]
    exact unescape_cons hne cs

/-- the letters that stand for control characters -/
def controlEscapes : List (Char × Char) := [('n', '\n'), ('r', '\r'), ('t', '\t')]

/-- the text with every letter behind a backslash read as an escape, and the backslash kept -/
def misread : List Char → List Char
  | [] => []
  | [c] => [c]
  | c :: d :: cs =>
    match if c = '\\' then controlEscapes.lookup d else none with
    | some x => c :: x :: misread cs
    | none => c :: misread (d :: cs)

theorem letterEscapes_of_controlEscapes (h : controlEscapes.lookup c = some x) :
    letterEscapes.lookup c = some x ∧ Text.escapeChar c = [c] := by
  have hall : ∀ p ∈ controlEscapes, letterEscapes.lookup p.1 = some p.2 ∧
      Text.escapeChar p.1 = [p.1] := by decide
  exact hall _ (mem_of_lookup h)

/-- of the letters that follow a backslash, an apostrophe does no harm -/
theorem head?_escapeChar (h : c.toNat < 32 → c = '\n' ∨ c = '\r' ∨ c = '\t')
    (hn : controlEscapes.lookup c = none) (hq : c ≠ '\'') (cs : List Char) :
    ∀ e ∈ (Text.escapeChar c ++ cs).head?, letterEscapes.lookup e = none := by
  rcases escapeChar_cases_of_writable h with ⟨rfl, hc⟩ | ⟨e, he, hc⟩ | ⟨hc, -, hm, -⟩
  · rw [hc]
    rintro _ ⟨⟩
    rfl
  · rw [hc]
    rintro _ ⟨⟩
    rfl
  · rw [hc]
    rintro _ ⟨⟩
    simp only [controlEscapes, List.lookup_eq_none_iff, List.mem_cons, forall_eq_or_imp] at hn
    simp only [letterEscapes, List.lookup_eq_none_iff, List.mem_cons, forall_eq_or_imp]
    exact ⟨bne_iff_ne.2 hm, bne_iff_ne.2 hq, hn⟩

/-- **What is read of a literal.** -/
theorem unescape_escape (h : Writable cs) : unescape (cs.flatMap Text.escapeChar) = misread cs := by
  fun_induction misread cs with
  | case1 => rfl
  | case2 c =>
    have hnil : c = '\\' → ∀ e ∈ ([] : List Char).head?, letterEscapes.lookup e = none := by
      rintro - _ ⟨⟩
    rw [List.flatMap_cons]
    exact unescape_escapeChar (h c List.mem_cons_self) hnil
  | case3 c d cs x hx ih =>
    split at hx
    · next hc =>
      obtain ⟨hl, hd⟩ := letterEscapes_of_controlEscapes hx
      subst hc
      rw [← ih fun c hc => h c (List.mem_cons_of_mem _ (List.mem_cons_of_mem _ hc)),
        List.flatMap_cons, List.flatMap_cons, hd]
      exact unescape_slash_letter hl _
    · cases hx
  | case4 c d cs hn ih =>
    obtain ⟨hc, hcs⟩ := List.forall_mem_cons.1 h
    have hd := hcs d List.mem_cons_self
    rw [← ih hcs, List.flatMap_cons]
    by_cases hq : c = '\\' ∧ d = '\''
    · obtain ⟨rfl, rfl⟩ := hq
      have hl : letterEscapes.lookup '\'' = some '\'' := rfl
      show unescape ('\\' :: '\\' :: '\'' :: cs.flatMap Text.escapeChar) =
        '\\' :: unescape ('\'' :: cs.flatMap Text.escapeChar)
      rw [unescape_slash_letter hl, unescape_cons (by decide)]
    · refine unescape_escapeChar hc fun hs => ?_
      rw [if_pos hs] at hn
      rw [List.flatMap_cons]
      exact head?_escapeChar hd hn (fun he => hq ⟨hs, he⟩) _

/-- a backslash and a letter behind it that are an escape of a control character -/
def HasEscape (cs : List Char) : Prop := ∃ p ∈ controlEscapes, ['\\', p.1] <:+: cs

theorem misread_eq_self_iff : misread cs = cs ↔ ¬HasEscape cs := by
  fun_induction misread cs with
  | case1 => exact iff_of_true rfl (by simp [HasEscape])
  | case2 c =>
    refine iff_of_true rfl ?_
    rintro ⟨p, -, hp⟩
    have := hp.length_le
    simp at this
  | case3 c d cs x hx ih =>
    split at hx
    · next hc =>
      have hmem := mem_of_lookup hx
      subst hc
      have hne : ∀ p ∈ controlEscapes, p.2 ≠ p.1 := by decide
      refine iff_of_false (fun he => ?_) (not_not.2 ⟨_, hmem, ⟨[], cs, rfl⟩⟩)
      exact hne _ hmem (List.cons.inj (List.cons.inj he).2).1
    · cases hx
  | case4 c d cs hn ih =>
    rw [List.cons_eq_cons, ih, eq_self, true_and, not_iff_not]
    constructor
    · rintro ⟨p, hp, hi⟩
      exact ⟨p, hp, List.infix_cons hi⟩
    · rintro ⟨p, hp, hi⟩
      refine ⟨p, hp, (List.infix_cons_iff.1 hi).resolve_left fun hpre => ?_⟩
      obtain ⟨hc, hletter⟩ := List.cons_prefix_cons.1 hpre
      obtain ⟨rfl, -⟩ := List.cons_prefix_cons.1 hletter
      rw [if_pos hc.symm, List.lookup_eq_none_iff] at hn
      simpa using hn p hp

end Annotations
end ZodSchema
