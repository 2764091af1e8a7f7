import ZodSchema.Text.Numeral

/-!
# Days and points in time

* `totalOf`         the sum of a measure over a list
* `Moment`          a day, or a day with a time of day, which may be placed against universal time
* `Moment.iso`      its text, the parts in falling order
* `Moment.instant?` the universal time, where it is known
* `Moment.same`     two of them are the same day or the same point in time
-/

namespace ZodSchema

open Text (padded)

/-- the sum of a measure over a list -/
def totalOf {α : Type} (measure : α → Nat) : List α → Nat
  | [] => 0
  | x :: xs => measure x + totalOf measure xs

/-- a time of day -/
structure Clock where
  hour : Nat
  minute : Nat
  second : Nat
  /-- millionths of a second -/
  micro : Nat := 0
  /-- minutes ahead of universal time, where they are known -/
  ahead : Option Int := none
  deriving DecidableEq, Repr, Inhabited

/-- a day, or a point in time -/
structure Moment where
  year : Nat
  month : Nat
  day : Nat
  clock : Option Clock := none
  deriving DecidableEq, Repr, Inhabited

namespace Clock

def aheadText (minutes : Int) : String :=
  let n := minutes.natAbs
  (if minutes < 0 then "-" else "+") ++ padded 2 (n / 60) ++ ":" ++ padded 2 (n % 60)

/-- hours, minutes and seconds, a fraction of six digits unless it is zero, and the distance from
universal time -/
def text (c : Clock) : String :=
  padded 2 c.hour ++ ":" ++ padded 2 c.minute ++ ":" ++ padded 2 c.second ++
    (if c.micro = 0 then "" else "." ++ padded 6 c.micro) ++ (c.ahead.map aheadText).getD ""

/-- millionths of a second since midnight -/
def micros (c : Clock) : Int := ((c.hour * 60 + c.minute) * 60 + c.second) * 1000000 + c.micro

end Clock

namespace Moment

def dateText (m : Moment) : String :=
  padded 4 m.year ++ "-" ++ padded 2 m.month ++ "-" ++ padded 2 m.day

def iso (m : Moment) : String := m.dateText ++ (m.clock.map fun c => "T" ++ c.text).getD ""

def isLeap (y : Nat) : Bool := y % 4 = 0 && (y % 100 ≠ 0 || y % 400 = 0)

def daysIn (y m : Nat) : Nat :=
  if m = 2 then (if isLeap y then 29 else 28)
  else if m = 4 ∨ m = 6 ∨ m = 9 ∨ m = 11 then 30 else 31

/-- days of the months of a year before month `m` -/
def daysBefore (y m : Nat) : Nat := totalOf (fun k => daysIn y (k + 1)) (List.range (m - 1))

/-- days since the beginning of the calendar -/
def dayNumber (m : Moment) : Nat :=
  let y := m.year - 1
  365 * y + y / 4 - y / 100 + y / 400 + daysBefore m.year m.month + m.day

/-- millionths of a second in universal time, where a point in time is placed against it -/
def instant? (m : Moment) : Option Int :=
  match m.clock with
  | none => none
  | some c => c.ahead.map fun a => m.dayNumber * 86400000000 + c.micros - a * 60000000

/-- the same day, or the same point in time; what is placed against universal time and what is not
are never the same -/
def same (a b : Moment) : Bool :=
  match a.instant?, b.instant? with
  | some x, some y => x == y
  | none, none => a == b
  | _, _ => false

end Moment

end ZodSchema
