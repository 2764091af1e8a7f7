import ZodSchema.Crud.Rules
import ZodSchema.Proofs.Annotations.Directive

/-!
# Rules with integers that are too long

An integer of more than `Text.maxDigits` digits is not read.  In most places such an argument
changes nothing; read as JSON by a rule, it keeps the rules of its model from being read at all.

* `scanRules_plain`      a rule with a plain argument is read as it is written
* `Overlong`             a rule of a model holds such an integer
* `longInteger?_isSome`  the rules of a model are read unless it is so
* `longInteger?_filter`  a filter that makes it so
-/

namespace ZodSchema

namespace Json

/-- a numeral of ones with more digits than are read -/
theorem read_ones {n : Nat} (hn : Text.maxDigits < n) :
    read (String.ofList (List.replicate n '1')) = .error (.longInteger n) := by
  obtain ⟨k, rfl⟩ : ∃ k, n = k + 1 := ⟨n - 1, by omega⟩
  have hw : whole? (List.replicate (k + 1) '1') = some (List.replicate (k + 1) '1', []) := by
    show digits? (List.replicate (k + 1) '1') = _
    unfold digits?
    rw [List.takeWhile_replicate, List.dropWhile_replicate, if_pos (by decide), if_pos (by decide)]
    rfl
  have hv (fuel : Nat) :
      value (fuel + 1) (List.replicate (k + 1) '1') = .error (.longInteger (k + 1)) := by
    show number false (List.replicate (k + 1) '1') = _
    unfold number
    rw [hw]
    show (if Text.maxDigits < (List.replicate (k + 1) '1').length then _ else _) = _
    rw [List.length_replicate, if_pos hn]
  have hs : skip (List.replicate (k + 1) '1') = List.replicate (k + 1) '1' :=
    List.dropWhile_cons_of_neg (by decide)
  unfold read
  simp only [String.toList_ofList, hs, hv]

end Json

namespace Annotations

/-- a character that an argument keeps as it is: no mark, no parenthesis and no white space -/
def isPlain (c : Char) : Bool :=
  !(isQuoteMark c || c == '(' || c == ')' || c == '@' || Text.isBlank c)

theorem closingFrom_plain {arg : List Char} (h : ∀ x ∈ arg, isPlain x = true) :
    closingFrom 1 none (arg ++ [')']) = some arg.length := by
  induction arg with
  | nil => rfl
  | cons x arg ih =>
    have hx := h x List.mem_cons_self
    simp only [isPlain, Bool.not_eq_true', Bool.or_eq_false_iff, beq_eq_false_iff_ne] at hx
    obtain ⟨⟨⟨⟨hq, ho⟩, hc⟩, -⟩, -⟩ := hx
    have hn := ih fun y hy => h y (List.mem_cons_of_mem _ hy)
    rw [List.cons_append, closingFrom]
    simp [hq, ho, hc, hn]

theorem trim_plain {arg : List Char} (h : ∀ x ∈ arg, isPlain x = true) : Text.trim arg = arg := by
  have hb : ∀ x ∈ arg, Text.isBlank x = false := fun x hx => by
    have hx := h x hx
    simp only [isPlain, Bool.not_eq_true', Bool.or_eq_false_iff] at hx
    exact hx.2
  exact Text.trim_eq_self (fun x hx => hb x (List.mem_of_head? hx))
    fun x hx => hb x (List.mem_of_getLast? hx)

/-- a rule with a plain argument is read as it is written -/
theorem scanRules_plain {r : Rule} (hk : IsKey r.key.toList)
    (ha : ∀ x ∈ r.args.toList, isPlain x = true) : scanRules r.text = [r] := by
  have hb : r.Balanced := Rule.balanced_of_closing hk (closing?_call_iff.2 (closingFrom_plain ha))
  have hr : r.read = r := by
    unfold Rule.read Text.Str.trim
    rw [trim_plain ha, String.ofList_toList]
  -- no second rule begins behind the mark
  have hat : '@' ∉ (r.args ++ ")").toList := by
    rw [String.toList_append, List.mem_append, not_or]
    exact ⟨fun h => absurd (ha _ h) (by decide), by decide⟩
  have hnone : scanRules (r.args ++ ")") = [] := scanRulesIn_eq_nil hat
  rw [scanRules_eq_cons hb, hnone, hr]

end Annotations

namespace Crud

open Annotations (scanRules)

variable {m : Model}

/-- an argument that is read as JSON holds an integer of too many digits -/
def Overlong (m : Model) : Prop := ∃ raw ∈ jsonArgs m, ∃ n, Json.read raw = .error (.longInteger n)

theorem longIntegerIn?_eq_some {raw : String} {n : Nat} :
    longIntegerIn? raw = some n ↔ Json.read raw = .error (.longInteger n) := by
  unfold longIntegerIn?
  split
  · next k hk => simp [hk]
  · next h => simpa using h n

theorem longInteger?_isSome : (longInteger? m).isSome = true ↔ Overlong m := by
  unfold longInteger? Overlong
  rw [List.isSome_findSome?, List.any_eq_true]
  simp only [Option.isSome_iff_exists, longIntegerIn?_eq_some]

/-- a filter with an integer of too many digits -/
theorem longInteger?_filter {arg : List Char} {n : Nat}
    (ha : ∀ x ∈ arg, Annotations.isPlain x = true)
    (hn : longIntegerIn? (String.ofList arg) = some n)
    (hd : m.documentation = some ("@crud.list.jsonFilter(" ++ String.ofList arg ++ ")")) :
    longInteger? m = some n := by
  have hs : scanRules ("@crud.list.jsonFilter(" ++ String.ofList arg ++ ")") =
      [⟨"list.jsonFilter", String.ofList arg⟩] := by
    have hk : Annotations.IsKey "list.jsonFilter".toList :=
      ⟨'l', "ist.jsonFilter".toList, rfl, by decide, List.all_eq_true.1 (by decide +kernel)⟩
    refine Annotations.scanRules_plain (r := ⟨"list.jsonFilter", String.ofList arg⟩) hk ?_
    rwa [String.toList_ofList]
  have hj : jsonArgs m = String.ofList arg ::
      m.fields.flatMap fun f =>
        ((docRules f.documentation).filter fun d => d.key == "default").map (·.args) := by
    unfold jsonArgs
    rw [hd]
    show ((scanRules _).filter _).map _ ++ _ = _
    rw [hs]
    rfl
  unfold longInteger?
  rw [hj, List.findSome?_cons, hn]

end Crud

end ZodSchema
