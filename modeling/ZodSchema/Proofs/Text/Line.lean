import Mathlib.Data.List.Basic
import ZodSchema.Proofs.Json.Strings
import ZodSchema.Proofs.Text.Chars
import ZodSchema.Proofs.Text.Literal

/-!
# Lines of a program

A comment that two slashes open reaches up to the next line terminator.  Escapes of a literal leave
two of the four line terminators as they are.

* `isTerminator`, `OneLine`   the ends of lines, and texts without them
* `oneLine_quote_iff`         the literals without them
* `opensComment`, `IsCode`    lines that are a comment, and lines that begin with something else
-/

namespace ZodSchema.Text

variable {c : Char} {s t : String}

/-! ## line terminators -/

/-- the separators of lines and paragraphs -/
def isSeparator (c : Char) : Bool := c == '\u2028' || c == '\u2029'

/-- ends a line, and a comment with it -/
def isTerminator (c : Char) : Bool := c == '\n' || c == '\r' || isSeparator c

/-- without line terminators -/
def OneLine (s : String) : Prop := ∀ c ∈ s.toList, isTerminator c = false

instance (s : String) : Decidable (OneLine s) := List.decidableBAll _ _

theorem oneLine_append_iff : OneLine (s ++ t) ↔ OneLine s ∧ OneLine t := by
  unfold OneLine
  rw [String.toList_append, List.forall_mem_append]

theorem OneLine.append (hs : OneLine s) (ht : OneLine t) : OneLine (s ++ t) :=
  oneLine_append_iff.2 ⟨hs, ht⟩

theorem oneLine_join_iff {sep : String} (hsep : OneLine sep) {parts : List String} :
    OneLine (Str.join sep parts) ↔ ∀ p ∈ parts, OneLine p := by
  induction parts with
  | nil => exact iff_of_true (List.forall_mem_nil _) (List.forall_mem_nil _)
  | cons p parts ih =>
    rw [List.forall_mem_cons, ← ih]
    unfold Str.join
    cases parts with
    | nil =>
      rw [String.intercalate_singleton]
      exact (and_iff_left (List.forall_mem_nil _)).symm
    | cons q parts =>
      rw [String.intercalate_cons_of_ne_nil (List.cons_ne_nil _ _), oneLine_append_iff,
        oneLine_append_iff]
      tauto

theorem isTerminator_of_isIdentRest (h : isIdentRest c = true) : isTerminator c = false := by
  have hne : ∀ x, isIdentRest x = false → c ≠ x := by
    rintro x hx rfl
    exact Bool.false_ne_true (hx.symm.trans h)
  unfold isTerminator isSeparator
  simp only [Bool.or_eq_false_iff, beq_eq_false_iff_ne]
  exact ⟨⟨hne _ (by decide), hne _ (by decide)⟩, hne _ (by decide), hne _ (by decide)⟩

theorem oneLine_natText (n : Nat) : OneLine (natText n) :=
  fun _ hc => isTerminator_of_isIdentRest (isIdentRest_natText n hc)

theorem oneLine_padded (width n : Nat) : OneLine (padded width n) :=
  fun _ hc => isTerminator_of_isIdentRest (isIdentRest_padded width n hc)

theorem oneLine_intText (i : Int) : OneLine (intText i) := by
  unfold intText
  split
  · exact OneLine.append (by decide) (oneLine_natText _)
  · exact oneLine_natText _

/-! ## literals -/

theorem isTerminator_hexDigit : ∀ d < 16, isTerminator (hexDigit d) = false := by decide

theorem isTerminator_simpleEscape? {e : Char} (h : Json.simpleEscape? e = some c) :
    isTerminator e = false ∧ isSeparator c = false := by
  unfold Json.simpleEscape? at h
  split_ifs at h with hself
  · obtain rfl := Option.some.inj h
    rcases hself with rfl | rfl | rfl <;> decide
  all_goals
    subst e
    obtain rfl := Option.some.inj h
    decide

/-- line feeds and carriage returns are escaped, separators are not -/
theorem escapeChar_oneLine_iff (c : Char) :
    (∀ x ∈ escapeChar c, isTerminator x = false) ↔ isSeparator c = false := by
  have hlow : ∀ x : Char, isSeparator x = true → 32 ≤ x.toNat := by
    intro x hx
    unfold isSeparator at hx
    simp only [Bool.or_eq_true, beq_iff_eq] at hx
    rcases hx with rfl | rfl <;> decide
  have hslash : isTerminator '\\' = false := by decide
  rcases Json.escapeChar_cases c with ⟨e, hc, -, he⟩ | ⟨hc, h⟩ | ⟨hc, h, -, -⟩
  · obtain ⟨hterm, hsep⟩ := isTerminator_simpleEscape? he
    rw [hc]
    exact iff_of_true (by simp [hslash, hterm]) hsep
  · have hdigit : ∀ n, isTerminator (hexDigit (n % 16)) = false :=
      fun n => isTerminator_hexDigit _ (Nat.mod_lt n (by decide))
    have hu : isTerminator 'u' = false := by decide
    rw [hc, hexEscape]
    refine iff_of_true (by simp [hslash, hu, hdigit]) ?_
    rw [← Bool.not_eq_true]
    exact fun hs => absurd (hlow c hs) (by omega)
  · have hne : ∀ x : Char, x.toNat < 32 → c ≠ x := by
      rintro x hx rfl
      omega
    have hn : (c == '\n') = false := beq_eq_false_iff_ne.2 (hne _ (by decide))
    have hr : (c == '\r') = false := beq_eq_false_iff_ne.2 (hne _ (by decide))
    rw [hc, List.forall_mem_singleton, isTerminator, hn, hr, Bool.false_or, Bool.false_or]

theorem oneLine_quote_iff : OneLine (quote s) ↔ ∀ c ∈ s.toList, isSeparator c = false := by
  have hmark : isTerminator '"' = false := by decide
  unfold OneLine quote quoteChars
  rw [String.toList_ofList, List.forall_mem_append, List.forall_mem_cons]
  simp only [hmark, List.forall_mem_singleton, true_and, and_true, List.mem_flatMap,
    forall_exists_index, and_imp]
  constructor
  · exact fun h c hc => (escapeChar_oneLine_iff c).1 fun x hx => h x c hc hx
  · exact fun h x c hc hx => (escapeChar_oneLine_iff c).2 (h c hc) x hx

/-! ## comments -/

/-- the first character of a line that is not blank -/
def firstMark? (line : String) : Option Char := (trimLeft line.toList).head?

/-- the line is a comment -/
def opensComment (line : String) : Bool :=
  (dropStart? "//".toList (trimLeft line.toList)).isSome

/-- the line begins with something else -/
def IsCode (line : String) : Prop := ∃ c, firstMark? line = some c ∧ c ≠ '/'

instance (line : String) : Decidable (IsCode line) :=
  decidable_of_iff ((firstMark? line).any (· ≠ '/') = true) (by
    rw [Option.any_eq_true]
    simp only [IsCode, decide_eq_true_eq])

theorem trimLeft_append {cs : List Char} (h : trimLeft cs ≠ []) (rest : List Char) :
    trimLeft (cs ++ rest) = trimLeft cs ++ rest := by
  unfold trimLeft at h ⊢
  rw [List.dropWhile_append, if_neg (by simpa using h)]

/-- an indentation does not count -/
theorem trimLeft_append_of_blank {cs : List Char} (h : trimLeft cs = []) (rest : List Char) :
    trimLeft (cs ++ rest) = trimLeft rest := by
  unfold trimLeft at h ⊢
  rw [List.dropWhile_append, if_pos (by simpa using h)]

theorem IsCode.append (h : IsCode s) (t : String) : IsCode (s ++ t) := by
  obtain ⟨c, hc, hne⟩ := h
  unfold firstMark? at hc
  have hcs : trimLeft s.toList ≠ [] := by
    intro he
    rw [he] at hc
    cases hc
  refine ⟨c, ?_, hne⟩
  rw [firstMark?, String.toList_append, trimLeft_append hcs, List.head?_append, hc, Option.some_or]

theorem IsCode.indent (h : IsCode t) (hs : trimLeft s.toList = []) : IsCode (s ++ t) := by
  unfold IsCode firstMark?
  rwa [String.toList_append, trimLeft_append_of_blank hs]

theorem IsCode.opensComment (h : IsCode s) : opensComment s = false := by
  obtain ⟨c, hc, hne⟩ := h
  obtain ⟨rest, hr⟩ := List.head?_eq_some_iff.1 hc
  have hd : dropStart? "//".toList (c :: rest) = none := if_neg (Ne.symm hne)
  rw [Text.opensComment, hr, hd]
  rfl

theorem opensComment_append (h : opensComment s = true) (t : String) :
    opensComment (s ++ t) = true := by
  obtain ⟨rest, hr⟩ := Option.isSome_iff_exists.1 h
  rw [dropStart?_eq_some_iff] at hr
  have hcs : trimLeft s.toList ≠ [] := by
    rw [hr]
    exact List.cons_ne_nil _ _
  refine Option.isSome_iff_exists.2 ⟨rest ++ t.toList, ?_⟩
  rw [dropStart?_eq_some_iff, String.toList_append, trimLeft_append hcs, hr, List.append_assoc]

/-- lines of code have no comments among them -/
theorem filter_opensComment_eq_nil {ls : List String} (h : ∀ l ∈ ls, IsCode l) :
    ls.filter opensComment = [] := by
  rw [List.filter_eq_nil_iff]
  intro l hl
  rw [(h l hl).opensComment]
  exact Bool.false_ne_true

theorem isCode_of_head? (h : s.toList.head? = some c) (hb : isBlank c = false) (hc : c ≠ '/') :
    IsCode s := by
  obtain ⟨rest, hr⟩ := List.head?_eq_some_iff.1 h
  refine ⟨c, ?_, hc⟩
  rw [firstMark?, hr, trimLeft, List.dropWhile_cons_of_neg (by rw [hb]; exact Bool.false_ne_true)]
  rfl

theorem isCode_key (k : String) : IsCode (key k) := by
  unfold key
  split
  · next h =>
    unfold isIdentifier at h
    split at h
    · cases h
    · next c cs hcs =>
      have hc := (Bool.and_eq_true_iff.1 h).1
      have hpre : dropFinalNewline k.toList <+: k.toList := by
        unfold dropFinalNewline
        split
        · exact List.dropLast_prefix _
        · exact List.prefix_rfl
      obtain ⟨rest, hk⟩ := hpre
      refine isCode_of_head? (c := c) ?_ (isBlank_of_isIdentRest (isIdentRest_of_isIdentStart hc)) ?_
      · rw [← hk, hcs]
        rfl
      · rintro rfl
        exact absurd hc (by decide)
  · refine isCode_of_head? (c := '"') ?_ (by decide) (by decide)
    rw [quote, String.toList_ofList]
    rfl

end ZodSchema.Text
