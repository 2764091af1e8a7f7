import ZodSchema.Value

/-!
# Documents

A document is a mapping.  One mapping can stand at several places of it, as an anchor and its
aliases do; what is stored there is stored at all of them.

* `Loaded`           a document with the places of the mappings that stand several times
* `Loaded.assign`    an entry stored in the mapping at a place
* `Loaded.mergeAt`   entries merged into the mapping at a place, key by key
-/

namespace ZodSchema.Generation

open Value (Place same put)

abbrev Document := Value.Entries

/-- the value of a key that is a scalar -/
def valueOf? (k : Value) : List (Value × Value) → Option Value
  | [] => none
  | (k', v) :: es => if same k' k then some v else valueOf? k es

/-- the value at a path of keys -/
def at? : List Value → Value → Option Value
  | [], v => some v
  | k :: ks, .map es => (valueOf? k es).bind (at? ks)
  | _ :: _, _ => none

/-- `q` lies at `p` or further in -/
def isUnder : Place → Place → Bool
  | [], _ => true
  | _ :: _, [] => false
  | k :: p, j :: q => same k j && isUnder p q

def samePlace (p q : Place) : Bool := isUnder p q && isUnder q p

/-- stores an entry in the mapping at a place; nothing happens where there is none -/
def putAt (k v : Value) : Place → Value → Value
  | [], .map es => .map (put k v es)
  | j :: p, .map es =>
    match valueOf? j es with
    | some w => .map (put j (putAt k v p w) es)
    | none => .map es
  | .int i :: p, .list vs => .list (vs.modify i.toNat (putAt k v p))
  | _, w => w

mutual

/-- the places of the mappings in a value -/
def mappings : Value → List Place
  | .map es => [] :: entryMappings es
  | .list vs => itemMappings 0 vs
  | _ => []

def entryMappings : List (Value × Value) → List Place
  | [] => []
  | (k, v) :: es => (mappings v).map (k :: ·) ++ entryMappings es

def itemMappings (i : Nat) : List Value → List Place
  | [] => []
  | v :: vs => (mappings v).map (.int i :: ·) ++ itemMappings (i + 1) vs

end

/-- a document as it was read -/
structure Loaded where
  entries : Document
  /-- for each mapping that stands at several places, all of them -/
  twins : List (List Place) := []
  deriving Inhabited

namespace Loaded

/-- all places of the mapping at a place -/
def placesOf (raw : Loaded) (p : Place) : List Place :=
  (raw.twins.find? (·.any (samePlace p))).getD [p]

/-- stores an entry in the mapping at a place, and with it at all its places.  What stood there
before is gone, with the mappings in it; those in the new value stand at all the places too. -/
def assign (p : Place) (k v : Value) (raw : Loaded) : Loaded :=
  let all := raw.placesOf p
  let gone (q : Place) : Bool := all.any fun o => isUnder (o ++ [k]) q
  let left := all.filter (!gone ·)
  { entries := ((left.foldl (fun w q => putAt k v q w) (.map raw.entries)).entries?).getD []
    twins := raw.twins.map (·.filter (!gone ·)) ++
      if left.length ≤ 1 then []
      else (mappings v).map fun r => left.map (· ++ k :: r) }

mutual

/-- stores the entry of a key, or merges it when both values are mappings -/
def mergeEntry (p : Place) (k : Value) : Value → Loaded → Loaded
  | .map es, raw =>
    if ((at? (p ++ [k]) (.map raw.entries)).bind Value.entries?).isSome then
      mergeAt (p ++ [k]) es raw
    else raw.assign p k (.map es)
  | v, raw => raw.assign p k v

/-- merges entries into the mapping at a place -/
def mergeAt (p : Place) : List (Value × Value) → Loaded → Loaded
  | [], raw => raw
  | (k, v) :: es, raw => mergeAt p es (mergeEntry p k v raw)

end

end Loaded

end ZodSchema.Generation
