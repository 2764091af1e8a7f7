import ZodSchema.Yaml.Resolve
import ZodSchema.Moment

/-!
# Points in time

* `DateFault`      why a date or a time of day does not exist
* `Stamp.moment`   the day or point in time that is written
-/

namespace ZodSchema.Yaml

/-- why a point in time does not exist -/
inductive DateFault where
  | year (y : Nat)
  | month
  | day
  | hour
  | minute
  | second
  /-- distance from universal time in seconds -/
  | zone (seconds : Int)
  deriving DecidableEq, Repr

/-- a distance in days and seconds, the seconds not negative -/
def distanceText (seconds : Int) : String :=
  let days := Int.fdiv seconds 86400
  let rest := Int.fmod seconds 86400
  let part (name : String) (n : Int) : List String :=
    if n = 0 then [] else [name ++ "=" ++ Text.intText n]
  let parts := part "days" days ++ part "seconds" rest
  "datetime.timedelta(" ++ (if parts = [] then "0" else Text.Str.join ", " parts) ++ ")"

def DateFault.message : DateFault → String
  | year y => "year " ++ Text.natText y ++ " is out of range"
  | month => "month must be in 1..12"
  | day => "day is out of range for month"
  | hour => "hour must be in 0..23"
  | minute => "minute must be in 0..59"
  | second => "second must be in 0..59"
  | zone s =>
    "offset must be a timedelta strictly between -timedelta(hours=24) and timedelta(hours=24), " ++
      "not " ++ distanceText s ++ "."

namespace Stamp

def dateFault? (t : Stamp) : Option DateFault :=
  if t.year = 0 then some (.year 0)
  else if t.month < 1 ∨ 12 < t.month then some .month
  else if t.day < 1 ∨ Moment.daysIn t.year t.month < t.day then some .day
  else none

def timeFault? (h m s : Nat) : Option DateFault :=
  if 23 < h then some .hour else if 59 < m then some .minute else if 59 < s then some .second
  else none

/-- distance from universal time in seconds -/
def zoneSeconds (z : Bool × Nat × Nat) : Int :=
  let n : Int := (z.2.1 * 60 + z.2.2) * 60
  if z.1 then -n else n

def zoneFault? (t : Stamp) : Option DateFault :=
  match t.zone with
  | some z => if 86400 ≤ (zoneSeconds z).natAbs then some (.zone (zoneSeconds z)) else none
  | none => none

/-- the first six digits of a fraction, in millionths -/
def micros (ds : List Char) : Nat :=
  Text.ofDigits 10 (((ds ++ List.replicate 6 '0').take 6).filterMap Text.asciiDigit?)

/-- the day or point in time that is written; the distance from universal time is checked first -/
def moment (t : Stamp) : Except DateFault Moment :=
  match t.time with
  | none =>
    match t.dateFault? with
    | some f => .error f
    | none => .ok ⟨t.year, t.month, t.day, none⟩
  | some (h, m, s) =>
    match (t.zoneFault?.or t.dateFault?).or (timeFault? h m s) with
    | some f => .error f
    | none =>
      .ok ⟨t.year, t.month, t.day,
        some ⟨h, m, s, micros t.fraction, t.zone.map fun z => Int.tdiv (zoneSeconds z) 60⟩⟩

end Stamp

end ZodSchema.Yaml
