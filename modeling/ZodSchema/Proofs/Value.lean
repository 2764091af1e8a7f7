import Mathlib.Data.Rat.Defs
import ZodSchema.Value

/-!
# Mapping keys

Two values are one mapping key when they stand for the same thing: a text, a number of any kind, a
point in time.

* `Value.key?`       what a value stands for as a mapping key
* `Value.same_iff`   one mapping key; hence `same_comm`, `same_trans` and `same_congr`
* `Value.induction`  a fact about values, from the entries of a mapping to the mapping
-/

namespace ZodSchema

/-- the instant of a point in time that is placed against universal time, all else as it is -/
def Moment.place (m : Moment) : Int ⊕ Moment :=
  match m.instant? with
  | some t => .inl t
  | none => .inr m

theorem Moment.same_iff {m n : Moment} : m.same n = true ↔ m.place = n.place := by
  unfold Moment.same Moment.place
  cases m.instant? <;> cases n.instant? <;> simp

namespace Value

/-- what mapping keys stand for -/
inductive Key where
  | null
  | text (s : String)
  | number (q : Rat)
  | notANumber
  | infinite (negative : Bool)
  | bytes (bs : List UInt8)
  | moment (place : Int ⊕ Moment)

/-- what a value stands for as a mapping key; lists, sets and mappings are no keys -/
def key? : Value → Option Key
  | .null => some .null
  | .text s => some (.text s)
  | .date m => some (.moment m.place)
  | .bytes bs => some (.bytes bs)
  | .float .nan => some .notANumber
  | .float (.infinite n) => some (.infinite n)
  | v => v.ratio?.map fun r => .number (mkRat r.1 r.2)

variable {a b c : Value}

/-! ## numbers -/

theorem ratio?_ne_zero {r : Int × Nat} (h : a.ratio? = some r) : r.2 ≠ 0 := by
  cases a with
  | bool v =>
    cases h
    exact Nat.one_ne_zero
  | int i =>
    cases h
    exact Nat.one_ne_zero
  | float d =>
    cases d with
    | finite s m e =>
      cases h
      exact Nat.pos_iff_ne_zero.1 (Nat.pow_pos (by decide))
    | _ => cases h
  | _ => cases h

/-- a number is the same key as equal numbers, whatever their kind, and as nothing else -/
theorem same_of_ratio? {r : Int × Nat} (ha : a.ratio? = some r) :
    same a b = true ↔ ∃ r', b.ratio? = some r' ∧ r.1 * r'.2 = r'.1 * r.2 := by
  have he : same a b = match b.ratio? with
      | some r' => r.1 * r'.2 == r'.1 * r.2
      | none => false := by
    unfold same
    split
    case h_7 =>
      rw [ha]
      cases b.ratio? <;> rfl
    all_goals cases ha
  rw [he]
  cases b.ratio? <;> simp

theorem key?_number_iff {q : Rat} :
    a.key? = some (.number q) ↔ ∃ r, a.ratio? = some r ∧ mkRat r.1 r.2 = q := by
  cases a with
  | float d => cases d <;> simp [key?, ratio?, Double.toRatio?]
  | _ => simp [key?, ratio?]

theorem same_iff_of_number {r : Int × Nat} (ha : a.ratio? = some r) :
    same a b = true ↔ b.key? = some (.number (mkRat r.1 r.2)) := by
  rw [same_of_ratio? ha, key?_number_iff]
  refine exists_congr fun r' => and_congr_right fun hb => ?_
  rw [Rat.mkRat_eq_iff (ratio?_ne_zero hb) (ratio?_ne_zero ha), eq_comm]

/-! ## one key -/

theorem same_iff_of_none (ha : a.ratio? = none) :
    same a b = true ↔ ∃ k, a.key? = some k ∧ b.key? = some k := by
  cases a with
  | float d =>
    cases d with
    | finite s m e => cases ha
    | _ =>
      cases b with
      | float e => cases e <;> simp [same, key?, ratio?, Double.toRatio?] <;> exact eq_comm
      | _ => simp [same, key?, ratio?, Double.toRatio?]
  | bool v => cases ha
  | int i => cases ha
  | _ =>
    cases b with
    | float e => cases e <;> simp [same, key?, ratio?]
    | _ => simp [same, key?, ratio?, Moment.same_iff] <;> exact eq_comm

theorem same_iff : same a b = true ↔ ∃ k, a.key? = some k ∧ b.key? = some k := by
  cases ha : a.ratio? with
  | some r =>
    have hk : a.key? = some (.number (mkRat r.1 r.2)) := key?_number_iff.2 ⟨r, ha, rfl⟩
    rw [same_iff_of_number ha, hk]
    simp
  | none => exact same_iff_of_none ha

theorem same_comm (a b : Value) : same a b = same b a := by
  rw [Bool.eq_iff_iff, same_iff, same_iff]
  exact exists_congr fun k => and_comm

theorem same_trans (hab : same a b = true) (hbc : same b c = true) : same a c = true := by
  obtain ⟨k, ha, hb⟩ := same_iff.1 hab
  obtain ⟨k', hb', hc⟩ := same_iff.1 hbc
  rw [hb] at hb'
  cases hb'
  exact same_iff.2 ⟨k, ha, hc⟩

/-- one key is the same as any other key or not, whichever value states it -/
theorem same_congr (h : same a b = true) (c : Value) : same a c = same b c := by
  rw [Bool.eq_iff_iff]
  exact ⟨same_trans (same_comm a b ▸ h), same_trans h⟩

/-! ## mappings -/

/-- a fact that holds of a mapping when it holds of the values in it, and of all else -/
theorem induction {P : Value → Prop} (leaf : ∀ v, v.entries? = none → P v)
    (map : ∀ es : Entries, (∀ e ∈ es, P e.2) → P (.map es)) : ∀ v, P v
  | .map es => map es fun e he =>
    have := List.sizeOf_lt_of_mem he
    induction leaf map e.2
  | .null => leaf _ rfl
  | .bool _ => leaf _ rfl
  | .int _ => leaf _ rfl
  | .float _ => leaf _ rfl
  | .text _ => leaf _ rfl
  | .date _ => leaf _ rfl
  | .bytes _ => leaf _ rfl
  | .list _ => leaf _ rfl
  | .set _ => leaf _ rfl
termination_by v => sizeOf v
decreasing_by
  obtain ⟨k, w⟩ := e
  simp only [Prod.mk.sizeOf_spec, Value.map.sizeOf_spec] at this ⊢
  omega

end Value

end ZodSchema
