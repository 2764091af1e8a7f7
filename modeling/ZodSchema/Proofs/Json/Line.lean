import ZodSchema.Json.Printer
import ZodSchema.Proofs.Text.Line

/-!
# JSON on one line

A value is written on one line.  Only the texts in it can break this line, and those that hold a
separator of lines or paragraphs do.

* `Value.texts`           the texts in a value
* `oneLine_textWith`      a number is written on one line
* `oneLine_write_iff`     the values that are
-/

namespace ZodSchema

open Text (OneLine isTerminator isSeparator oneLine_append_iff)

/-! ## numbers -/

namespace Double

/-- characters of one line -/
def Inline (cs : List Char) : Prop := ∀ c ∈ cs, isTerminator c = false

theorem inline_natDigits (n : Nat) : Inline (Text.natDigits n) := by
  intro c hc
  refine Text.oneLine_natText n c ?_
  rwa [Text.natText, String.toList_ofList]

theorem inline_zeros (k : Nat) : Inline (List.replicate k '0') := by
  intro c hc
  rw [List.eq_of_mem_replicate hc]
  decide

theorem inline_shortest (m : Nat) (e : Int) : Inline (shortest m e).1 := by
  unfold shortest
  dsimp only
  split
  · next c p _ =>
    intro x hx
    rw [List.mem_reverse] at hx
    exact inline_natDigits c x (List.mem_reverse.1 ((List.dropWhile_sublist _).subset hx))
  · exact fun x hx => by rw [List.mem_singleton.1 hx]; decide

theorem inline_positional {ds : List Char} (h : Inline ds) (x : Int) : Inline (positional ds x) := by
  have hzero : isTerminator '0' = false := by decide
  have hpoint : isTerminator '.' = false := by decide
  unfold positional Inline
  split
  · simp only [List.forall_mem_append, List.forall_mem_cons, List.cons_append]
    exact ⟨hzero, hpoint, inline_zeros _, h⟩
  · dsimp only
    split
    · simp only [List.forall_mem_append, List.forall_mem_cons]
      exact ⟨⟨h, inline_zeros _⟩, hpoint, hzero, List.forall_mem_nil _⟩
    · simp only [List.forall_mem_append, List.forall_mem_cons]
      exact ⟨fun c hc => h c (List.mem_of_mem_take hc), hpoint,
        fun c hc => h c (List.mem_of_mem_drop hc)⟩

theorem oneLine_exponentText (x : Int) : OneLine (exponentText x) := by
  unfold exponentText
  dsimp only
  refine Text.OneLine.append ?_ ?_
  · split <;> decide
  · split
    · exact Text.OneLine.append (by decide) (Text.oneLine_natText _)
    · exact Text.oneLine_natText _

theorem oneLine_magnitude (m : Nat) (e : Int) : OneLine (magnitude m e) := by
  have hds := inline_shortest m e
  unfold magnitude
  split
  · decide
  · dsimp only
    split
    · rw [OneLine, String.toList_ofList]
      exact inline_positional hds _
    · refine Text.OneLine.append (Text.OneLine.append ?_ (by decide)) (oneLine_exponentText _)
      rw [OneLine, String.toList_ofList]
      split
      · exact List.forall_mem_nil _
      · next hd => rwa [hd] at hds
      · next hd =>
        rw [hd] at hds
        obtain ⟨hfirst, hrest⟩ := List.forall_mem_cons.1 hds
        exact List.forall_mem_cons.2 ⟨hfirst, List.forall_mem_cons.2 ⟨by decide, hrest⟩⟩

theorem oneLine_textWith {nan inf : String} (hn : OneLine nan) (hi : OneLine inf) (d : Double) :
    OneLine (d.textWith nan inf) := by
  have hminus : OneLine "-" := by decide
  cases d with
  | nan => exact hn
  | infinite negative =>
    cases negative with
    | false => exact hi
    | true => exact hminus.append hi
  | finite negative m e =>
    cases negative with
    | false => exact oneLine_magnitude m e
    | true => exact hminus.append (oneLine_magnitude m e)

end Double

theorem Clock.oneLine_text (c : Clock) : OneLine c.text := by
  have hpad := fun w n => Text.oneLine_padded w n
  have hcolon : OneLine ":" := by decide
  unfold Clock.text
  refine Text.OneLine.append (Text.OneLine.append
    (((((hpad _ _).append hcolon).append (hpad _ _)).append hcolon).append (hpad _ _)) ?_) ?_
  · split
    · decide
    · exact Text.OneLine.append (by decide) (hpad _ _)
  · cases c.ahead with
    | none => decide
    | some minutes =>
      show OneLine (aheadText minutes)
      unfold aheadText
      refine Text.OneLine.append (Text.OneLine.append (Text.OneLine.append ?_ (hpad _ _)) hcolon)
        (hpad _ _)
      split <;> decide

theorem Moment.oneLine_iso (m : Moment) : OneLine m.iso := by
  have hpad := fun w n => Text.oneLine_padded w n
  have hdash : OneLine "-" := by decide
  unfold Moment.iso Moment.dateText
  refine Text.OneLine.append
    (((((hpad _ _).append hdash).append (hpad _ _)).append hdash).append (hpad _ _)) ?_
  cases m.clock with
  | none => decide
  | some c => exact Text.OneLine.append (by decide) c.oneLine_text

/-! ## values -/

namespace Value

/-- the texts of a key -/
def keyTexts : Value → List String
  | .text s => [s]
  | _ => []

mutual

/-- the texts in a value, keys included -/
def texts : Value → List String
  | .text s => [s]
  | .list vs => textsOfItems vs
  | .set vs => textsOfItems vs
  | .map es => textsOfEntries es
  | _ => []

def textsOfItems : List Value → List String
  | [] => []
  | v :: vs => v.texts ++ textsOfItems vs

def textsOfEntries : List (Value × Value) → List String
  | [] => []
  | (k, v) :: es => k.keyTexts ++ v.texts ++ textsOfEntries es

end

end Value

namespace Json

/-- no text holds a separator of lines or paragraphs -/
def Unseparated (ts : List String) : Prop := ∀ t ∈ ts, ∀ c ∈ t.toList, isSeparator c = false

theorem unseparated_append_iff {ts us : List String} :
    Unseparated (ts ++ us) ↔ Unseparated ts ∧ Unseparated us := List.forall_mem_append

theorem unseparated_nil : Unseparated [] := List.forall_mem_nil _

theorem oneLine_text_iff (s : String) : OneLine (Text.quote s) ↔ Unseparated [s] := by
  rw [Text.oneLine_quote_iff, Unseparated, List.forall_mem_singleton]

theorem oneLine_scalarText_iff (v : Value) : OneLine (scalarText v) ↔ Unseparated v.keyTexts := by
  have hempty : OneLine "" := by decide
  cases v with
  | text s => exact oneLine_text_iff s
  | null => exact iff_of_true (by decide) unseparated_nil
  | bool b => exact iff_of_true (by cases b <;> decide) unseparated_nil
  | int i => exact iff_of_true (Text.oneLine_intText i) unseparated_nil
  | float d =>
    exact iff_of_true (Double.oneLine_textWith (by decide) (by decide) d) unseparated_nil
  | date m =>
    refine iff_of_true (Text.oneLine_quote_iff.2 fun c hc => ?_) unseparated_nil
    exact (Bool.or_eq_false_iff.1 (m.oneLine_iso c hc)).2
  | bytes bs =>
    refine iff_of_true ?_ unseparated_nil
    refine Text.OneLine.append (Text.OneLine.append (by decide) ?_) (by decide)
    rw [Text.oneLine_join_iff (by decide), List.forall_mem_map]
    exact fun b _ => Text.oneLine_natText _
  | list vs => exact iff_of_true hempty unseparated_nil
  | set vs => exact iff_of_true hempty unseparated_nil
  | map es => exact iff_of_true hempty unseparated_nil

theorem oneLine_keyText_iff (k : Value) : OneLine (keyText k) ↔ Unseparated k.keyTexts := by
  have hmark : OneLine "\"" := by decide
  have hs := oneLine_scalarText_iff k
  cases k with
  | text s => exact hs
  | date m => exact hs
  | _ => exact ⟨fun h => hs.1 (oneLine_append_iff.1 (oneLine_append_iff.1 h).1).2,
      fun h => (hmark.append (hs.2 h)).append hmark⟩

/-- brackets and commas keep to the line -/
theorem oneLine_bracket_iff {left right : String} (hl : OneLine left) (hr : OneLine right)
    (parts : List String) : OneLine (left ++ Text.Str.join ", " parts ++ right) ↔
      ∀ p ∈ parts, OneLine p := by
  rw [oneLine_append_iff, oneLine_append_iff, and_iff_left hr, and_iff_right hl,
    Text.oneLine_join_iff (by decide)]

-- along the value: a list or a mapping keeps to its line when all of its parts do
mutual

/-- **JSON.**  A value is written on one line if and only if no text in it holds a separator. -/
theorem oneLine_write_iff : ∀ v : Value, OneLine (write v) ↔ Unseparated v.texts
  | .list vs => (oneLine_bracket_iff (by decide) (by decide) _).trans (oneLine_writeItems_iff vs)
  | .set vs => (oneLine_bracket_iff (by decide) (by decide) _).trans (oneLine_writeItems_iff vs)
  | .map es => (oneLine_bracket_iff (by decide) (by decide) _).trans (oneLine_writeEntries_iff es)
  | .null => oneLine_scalarText_iff .null
  | .bool b => oneLine_scalarText_iff (.bool b)
  | .int i => oneLine_scalarText_iff (.int i)
  | .float d => oneLine_scalarText_iff (.float d)
  | .text s => oneLine_scalarText_iff (.text s)
  | .date m => oneLine_scalarText_iff (.date m)
  | .bytes bs => oneLine_scalarText_iff (.bytes bs)

theorem oneLine_writeItems_iff : ∀ vs : List Value,
    (∀ p ∈ writeItems vs, OneLine p) ↔ Unseparated (Value.textsOfItems vs)
  | [] => iff_of_true (List.forall_mem_nil _) unseparated_nil
  | v :: vs => by
    rw [writeItems, List.forall_mem_cons, oneLine_write_iff v, oneLine_writeItems_iff vs,
      Value.textsOfItems, unseparated_append_iff]

theorem oneLine_writeEntries_iff : ∀ es : List (Value × Value),
    (∀ p ∈ writeEntries es, OneLine p) ↔ Unseparated (Value.textsOfEntries es)
  | [] => iff_of_true (List.forall_mem_nil _) unseparated_nil
  | (k, v) :: es => by
    have hcolon : OneLine ": " := by decide
    rw [writeEntries, List.forall_mem_cons, oneLine_writeEntries_iff es, oneLine_append_iff,
      oneLine_append_iff, and_iff_left hcolon, oneLine_keyText_iff k, oneLine_write_iff v,
      Value.textsOfEntries, unseparated_append_iff, unseparated_append_iff]

end

end Json

end ZodSchema
