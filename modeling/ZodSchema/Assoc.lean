/-!
# Association lists

Keys in the order of their first entries.

* `Assoc.put`   sets the value of a key, in its place or at the end
* `Assoc.get?`  the value of a key
-/

namespace ZodSchema.Assoc

variable {κ α : Type} [DecidableEq κ]

def put (k : κ) (v : α) : List (κ × α) → List (κ × α)
  | [] => [(k, v)]
  | (k', v') :: es => if k' = k then (k', v) :: es else (k', v') :: put k v es

def get? (k : κ) : List (κ × α) → Option α
  | [] => none
  | (k', v) :: es => if k' = k then some v else get? k es

theorem get?_put_self (k : κ) (v : α) (es : List (κ × α)) : get? k (put k v es) = some v := by
  induction es with
  | nil => simp [put, get?]
  | cons e es ih =>
    by_cases h : e.1 = k
    · simp [put, get?, h]
    · simp [put, get?, h, ih]

theorem get?_put_of_ne {k j : κ} (h : j ≠ k) (v : α) (es : List (κ × α)) :
    get? j (put k v es) = get? j es := by
  induction es with
  | nil => simp [put, get?, Ne.symm h]
  | cons e es ih =>
    by_cases hk : e.1 = k
    · simp [put, get?, hk, Ne.symm h]
    · by_cases hj : e.1 = j
      · simp [put, get?, hj, h]
      · simp [put, get?, hk, hj, ih]

end ZodSchema.Assoc
