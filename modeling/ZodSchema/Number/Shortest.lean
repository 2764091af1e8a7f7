import ZodSchema.Number.Double

/-!
# Shortest decimal text of a double

The fewest digits that read back to the same double, and of those the nearest.

* `shortest`   digits and exponent
* `text`       positional from `1e-4` up to `1e16`, otherwise with an exponent
-/

namespace ZodSchema.Double

/-- four times the bounds of the numbers that round to `m · 2^e`, and the number itself, all over
one denominator: `(low, value, high, den)` -/
def bounds (m : Nat) (e : Int) : Nat × Nat × Nat × Nat :=
  let p := powTwo e
  let low := if m = Nat.pow 2 52 ∧ -1074 < e then 4 * m - 1 else 4 * m - 2
  (low * p.1, 4 * m * p.1, (4 * m + 2) * p.1, 4 * p.2)

/-- the exponent of the leading decimal digit of a positive ratio -/
def leading (num den : Nat) : Int :=
  let q := num / den
  if 0 < q then ((Text.natDigits q).length : Int) - 1
  else
    let k := (Text.natDigits (den / num)).length
    if den ≤ num * Nat.pow 10 (k - 1) then -((k : Int) - 1) else -(k : Int)

/-- `c · 10^p` as a ratio -/
def decimalRatio (c : Nat) (p : Int) : Nat × Nat := (c * Nat.pow 10 p.toNat, Nat.pow 10 (-p).toNat)

/-- the candidate of `digits` digits nearest to the value, when one reads back -/
def candidate? (m : Nat) (e : Int) (k : Int) (digits : Nat) : Option (Nat × Int) :=
  let (low, value, high, den) := bounds m e
  let p := k - digits + 1
  let unit := decimalRatio 1 p
  let c := (value * unit.2) / (den * unit.1)
  let inside (c : Nat) : Bool :=
    let r := decimalRatio c p
    if m % 2 = 0 then
      decide (low * r.2 ≤ r.1 * den) && decide (r.1 * den ≤ high * r.2)
    else decide (low * r.2 < r.1 * den) && decide (r.1 * den < high * r.2)
  let down := value * unit.2 - c * unit.1 * den
  let up := (c + 1) * unit.1 * den - value * unit.2
  match inside c, inside (c + 1) with
  | true, true =>
    if down < up then some (c, p)
    else if up < down then some (c + 1, p)
    else if c % 2 = 0 then some (c, p) else some (c + 1, p)
  | true, false => some (c, p)
  | false, true => some (c + 1, p)
  | false, false => none

/-- digits without closing zeros and the exponent of the leading one -/
def shortest (m : Nat) (e : Int) : List Char × Int :=
  let v := ratio m e
  let k := leading v.1 v.2
  match (List.range 17).findSome? fun i => candidate? m e k (i + 1) with
  | some (c, p) =>
    let ds := Text.natDigits c
    ((ds.reverse.dropWhile (· == '0')).reverse, p + ds.length - 1)
  | none => (['0'], 0)

/-- an exponent with a sign and at least two digits -/
def exponentText (x : Int) : String :=
  let t := Text.natText x.natAbs
  (if x < 0 then "-" else "+") ++ (if t.length < 2 then "0" ++ t else t)

/-- digits with a point after the one of exponent zero -/
def positional (ds : List Char) (x : Int) : List Char :=
  if x < 0 then '0' :: '.' :: List.replicate (x.natAbs - 1) '0' ++ ds
  else
    let n := x.toNat + 1
    if ds.length ≤ n then ds ++ List.replicate (n - ds.length) '0' ++ ['.', '0']
    else ds.take n ++ '.' :: ds.drop n

/-- the text of a finite positive double -/
def magnitude (m : Nat) (e : Int) : String :=
  if m = 0 then "0.0"
  else
    let (ds, x) := shortest m e
    if -4 ≤ x ∧ x < 16 then String.ofList (positional ds x)
    else
      let tail := match ds with
        | [] => []
        | [d] => [d]
        | d :: r => d :: '.' :: r
      String.ofList tail ++ "e" ++ exponentText x

/-- the shortest text, with the given names for what is not finite -/
def textWith (nan inf : String) : Double → String
  | .nan => nan
  | .infinite s => if s then "-" ++ inf else inf
  | .finite s m e => if s then "-" ++ magnitude m e else magnitude m e

def text (d : Double) : String := textWith "nan" "inf" d

end ZodSchema.Double
