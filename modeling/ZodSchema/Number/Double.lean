import ZodSchema.Text.Numeral

/-!
# Double-precision numbers

Exact values `±m · 2^e` of the binary64 format, with rounding to nearest, ties to even.

* `ofRatio`     the double nearest to a ratio
* `ofDecimal`   the double nearest to a decimal numeral
* `toRatio?`    the exact value
* `toInt?`      the exact value, when it is an integer
-/

namespace ZodSchema

/-- a double: `finite s m e` is `±m · 2^e` with `m < 2^53`, and either `2^52 ≤ m` or `e = -1074` -/
inductive Double where
  | nan
  | infinite (negative : Bool)
  | finite (negative : Bool) (mantissa : Nat) (exponent : Int)
  deriving DecidableEq, Repr, Inhabited

namespace Double

/-- `2^e` as a ratio -/
def powTwo (e : Int) : Nat × Nat := (Nat.pow 2 e.toNat, Nat.pow 2 (-e).toNat)

/-- `num / den` rounded to the nearest integer, ties to even -/
def roundDiv (num den : Nat) : Nat :=
  let q := num / den
  let r := num % den
  if 2 * r < den then q else if den < 2 * r then q + 1 else if q % 2 = 0 then q else q + 1

/-- the largest `k` with `2^k ≤ num / den`, for a positive ratio -/
def floorLog (num den : Nat) : Int :=
  let k : Int := (num.log2 : Int) - den.log2
  let p := powTwo k
  if num * p.2 < den * p.1 then k - 1 else k

/-- the double nearest to `±num / den` -/
def ofRatio (negative : Bool) (num den : Nat) : Double :=
  if num = 0 then .finite negative 0 (-1074)
  else
    let e := max (floorLog num den - 52) (-1074)
    let p := powTwo e
    let m := roundDiv (num * p.2) (den * p.1)
    let r : Nat × Int := if m = Nat.pow 2 53 then (Nat.pow 2 52, e + 1) else (m, e)
    if r.2 > 971 then .infinite negative else .finite negative r.1 r.2

/-- the double nearest to `±digits · 10^exponent` -/
def ofDecimal (negative : Bool) (digits : Nat) (exponent : Int) : Double :=
  if digits = 0 then .finite negative 0 (-1074)
  else
    let size := (Text.natDigits digits).length + exponent
    if size > 400 then .infinite negative
    else if size < -400 then .finite negative 0 (-1074)
    else ofRatio negative (digits * Nat.pow 10 exponent.toNat) (Nat.pow 10 (-exponent).toNat)

/-- numerator and denominator of the absolute value of a finite double -/
def ratio (mantissa : Nat) (exponent : Int) : Nat × Nat :=
  (mantissa * (powTwo exponent).1, (powTwo exponent).2)

/-- exact value as a signed numerator and a denominator -/
def toRatio? : Double → Option (Int × Nat)
  | .finite s m e =>
    let r := ratio m e
    some (if s then -(r.1 : Int) else r.1, r.2)
  | _ => none

/-- the integer that a double equals, if any -/
def toInt? (d : Double) : Option Int :=
  match d.toRatio? with
  | some (n, k) => if n % k = 0 then some (n / k) else none
  | none => none

/-- the double nearest to a signed ratio -/
def ofSignedRatio (n : Int) (k : Nat) : Double := ofRatio (decide (n < 0)) n.natAbs k

/-- rounded sum -/
def add (a b : Double) : Double :=
  match a.toRatio?, b.toRatio? with
  | some (n, k), some (n', k') => ofSignedRatio (n * k' + n' * k) (k * k')
  | none, some _ => a
  | some _, none => b
  | none, none => if a = b then a else .nan

/-- rounded product with a natural number, which is rounded first -/
def scale (a : Double) (c : Nat) : Double :=
  match a.toRatio?, (ofRatio false c 1).toRatio? with
  | some (n, k), some (n', k') => ofSignedRatio (n * n') (k * k')
  | _, _ => a

end Double

end ZodSchema
