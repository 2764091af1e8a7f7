import ZodSchema.Number.Shortest
import ZodSchema.Moment

/-!
# Document values

What a schema document or a rule argument holds.

* `Value`       scalars, dates, bytes, lists, sets and mappings with keys in order
* `Value.same`  equality of mapping keys
* `Value.Place` where a value stands in another one
* `Value.put`   the entry of a key, replaced in place or added at the end
* `Value.get?`  the entry of a text key
-/

namespace ZodSchema

inductive Value where
  | null
  | bool (b : Bool)
  | int (i : Int)
  | float (d : Double)
  | text (s : String)
  | date (m : Moment)
  | bytes (bs : List UInt8)
  | list (items : List Value)
  /-- items of which no two are one mapping key -/
  | set (items : List Value)
  | map (entries : List (Value × Value))
  deriving Inhabited

namespace Value

/-- the entries of a mapping -/
abbrev Entries := List (Value × Value)

/-- the keys and the indices that lead to a value -/
abbrev Place := List Value

/-- the number that a value stands for: truth values count as one and zero -/
def ratio? : Value → Option (Int × Nat)
  | .bool b => some (if b then 1 else 0, 1)
  | .int i => some (i, 1)
  | .float d => d.toRatio?
  | _ => none

/-- two scalars are one mapping key: numbers by value whatever their kind, points in time by the
instant, all else by kind -/
def same : Value → Value → Bool
  | .null, .null => true
  | .text a, .text b => a == b
  | .date a, .date b => a.same b
  | .bytes a, .bytes b => a == b
  | .float .nan, .float .nan => true
  | .float (.infinite a), .float (.infinite b) => a == b
  | a, b =>
    match a.ratio?, b.ratio? with
    | some (n, k), some (n', k') => n * k' == n' * k
    | _, _ => false

/-- sets the entry of a key: in its place when the key is present, otherwise at the end -/
def put (k v : Value) : Entries → Entries
  | [] => [(k, v)]
  | (k', v') :: es => if same k' k then (k', v) :: es else (k', v') :: put k v es

/-- the entry of a text key -/
def get? (name : String) : Entries → Option Value
  | [] => none
  | (.text k, v) :: es => if k = name then some v else get? name es
  | _ :: es => get? name es

/-- without the entry of a text key -/
def erase (name : String) : Entries → Entries
  | [] => []
  | (.text k, v) :: es => if k = name then es else (.text k, v) :: erase name es
  | e :: es => e :: erase name es

/-- the entries of a mapping, `none` for any other value -/
def entries? : Value → Option Entries
  | .map es => some es
  | _ => none

theorem get?_put (name other : String) (v : Value) (es : Entries) :
    get? name (put (.text other) v es) = if name = other then some v else get? name es := by
  induction es with
  | nil => simp [put, get?, eq_comm (a := name)]
  | cons e es ih =>
    obtain ⟨k, w⟩ := e
    cases k with
    | text k =>
      -- the entry is replaced, or it is the one that is looked up, or neither
      by_cases hk : k = other
      · by_cases hn : other = name <;> simp [put, get?, same, hk, hn, eq_comm (a := name)]
      · by_cases hn : k = name
        · subst hn
          simp [put, get?, same, hk]
        · simp [put, get?, same, hk, hn, ih]
    | _ => simp [put, get?, same, ratio?, ih]

theorem get?_put_self (name : String) (v : Value) (es : Entries) :
    get? name (put (.text name) v es) = some v := by
  rw [get?_put, if_pos rfl]

end Value

end ZodSchema
