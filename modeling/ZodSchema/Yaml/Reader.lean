import ZodSchema.Yaml.Node
import ZodSchema.Yaml.Scalar

/-!
# Reading YAML

* `Node.unmerge`   mappings with what their merge keys name put in front
* `Node.value`     the value of a node, with the faults found at each depth
* `Node.twins`     the places of the mappings that stand at several
* `read`           the value of a text; of several faults the one nearest to the root counts
-/

namespace ZodSchema.Yaml

namespace Node

def kind : Node → Kind
  | scalar k _ => k
  | list k _ => k
  | map _ k _ => k
  | back _ => .unknown

/-- an entry that has no value -/
def broken : Node × Node := (scalar .unknown "", missing)

/-- the entries of a mapping -/
def entries? : Node → Option (List (Node × Node))
  | map _ _ es => some es
  | _ => none

/-- what a merge key puts in front: the entries of a mapping, or of several, the last one first -/
def merged : Node → List (Node × Node)
  | map _ _ es => es
  | list _ items =>
    match items.mapM entries? with
    | some ess => ess.reverse.flatten
    | none => [broken]
  | _ => [broken]

/-- the key `=` is plain text -/
def plainKey : Node → Node
  | scalar .standIn t => scalar .text t
  | n => n

/-- an entry that has no value, or as bad a one -/
def isBroken : Node × Node → Bool
  | (scalar .unknown t, _) => t == ""
  | _ => false

/-- entries of merge keys in front, the other entries behind; a merge that cannot be made is found
before any value is read -/
def mergeEntries (es : List (Node × Node)) : List (Node × Node) :=
  let front := (es.filter (·.1.kind == .merge)).flatMap fun e => merged e.2
  front.filter isBroken ++ front.filter (!isBroken ·) ++
    ((es.filter (·.1.kind != .merge)).map fun e => (plainKey e.1, e.2))

mutual

/-- every mapping with what its merge keys name put in front; a mapping that stands for a pair stays
as it is written -/
def unmerge : Node → Node
  | scalar k t => scalar k t
  | back a => back a
  | list k items => list k (if k = .pairs then unmergePairs items else unmergeItems items)
  | map i k es =>
    map i k (if k = .map ∨ k = .set then mergeEntries (unmergeEntries es) else unmergeEntries es)

def unmergeItems : List Node → List Node
  | [] => []
  | n :: ns => unmerge n :: unmergeItems ns

def unmergePairs : List Node → List Node
  | [] => []
  | map i k es :: ns => map i k (unmergeEntries es) :: unmergePairs ns
  | n :: ns => unmerge n :: unmergePairs ns

def unmergeEntries : List (Node × Node) → List (Node × Node)
  | [] => []
  | (k, v) :: es =>
    (unmerge k, if k.kind = .merge then source v else unmerge v) :: unmergeEntries es

/-- what a merge key names: of a mapping the entries count, whatever its kind -/
def source : Node → Node
  | map i k es => map i k (mergeEntries (unmergeEntries es))
  | list k items => list k (sources items)
  | n => n

def sources : List Node → List Node
  | [] => []
  | n :: ns => source n :: sources ns

end

/-- faults, each with its depth -/
abbrev Faults := List (Nat × Fault)

mutual

/-- the text of a scalar; in place of a mapping stands the scalar under its key `=` -/
def scalarText? : Node → Option String
  | scalar _ t => some t
  | map _ _ es => standIn? es
  | _ => none

def standIn? : List (Node × Node) → Option String
  | [] => none
  | (k, v) :: es => if k.kind = .standIn then scalarText? v else standIn? es

end

/-- faults of collections are found one level below them -/
def faultDepth (depth : Nat) (k : Kind) : Nat :=
  if k = .list ∨ k = .map ∨ k = .set ∨ k = .pairs then depth + 1 else depth

/-- the value of a node that stands for a scalar with a text; no point in time can be read of a
mapping -/
def scalarOf (n : Node) (text : String) : Except Fault Value :=
  match n with
  | map _ .stamp _ => .error (.uncaught .type)
  | n => scalarValue n.kind text

/-- the value of a node that stands for a scalar; a collection is no key -/
def keyValue (depth : Nat) (n : Node) : Value × Faults :=
  match n.scalarText?.map (scalarOf n) with
  | some (.ok v) => (v, [])
  | some (.error f) => (.null, [(depth, f)])
  | none => (.null, [(depth, .malformed)])

mutual

/-- the value of a node without merge keys -/
def value (depth : Nat) : Node → Value × Faults
  | scalar k t => keyValue (faultDepth depth k) (scalar k t)
  | back _ => (.null, [(depth, .malformed)])
  | list k items =>
    if k = .list then
      let r := itemValues (depth + 1) items
      (.list r.1, r.2)
    else if k = .pairs then
      let r := pairValues (depth + 1) items
      (.list r.1, r.2)
    else (.null, [(faultDepth depth k, .malformed)])
  | map i k es =>
    if k = .map then
      let r := entryValues (depth + 1) [] es
      (.map r.1, r.2)
    else if k = .set then
      let r := entryValues (depth + 1) [] es
      (.set (r.1.map (·.1)), r.2)
    else keyValue (faultDepth depth k) (map i k es)

/-- each item, a mapping of one entry, as a list of its key and its value -/
def pairValues (depth : Nat) : List Node → List Value × Faults
  | [] => ([], [])
  | map _ _ [(k, v)] :: ns =>
    let kv := value depth k
    let vv := value depth v
    let rs := pairValues depth ns
    (.list [kv.1, vv.1] :: rs.1, kv.2 ++ vv.2 ++ rs.2)
  | _ :: ns =>
    let rs := pairValues depth ns
    (.null :: rs.1, (depth, .malformed) :: rs.2)

def itemValues (depth : Nat) : List Node → List Value × Faults
  | [] => ([], [])
  | n :: ns =>
    let r := value depth n
    let rs := itemValues depth ns
    (r.1 :: rs.1, r.2 ++ rs.2)

/-- entries put in order into those of `acc` -/
def entryValues (depth : Nat) (acc : Value.Entries) : List (Node × Node) → Value.Entries × Faults
  | [] => (acc, [])
  | (k, v) :: es =>
    let kv := keyValue depth k
    let vv := value depth v
    let rs := entryValues depth (Value.put kv.1 vv.1 acc) es
    (rs.1, kv.2 ++ vv.2 ++ rs.2)

end

/-- the first fault of least depth -/
def firstFault : Faults → Option (Nat × Fault)
  | [] => none
  | f :: fs =>
    match firstFault fs with
    | none => some f
    | some g => if g.1 < f.1 then some g else some f

/-- numbers of mappings with the places where they stand -/
abbrev Places := List (Nat × Value.Place)

/-- places that are seen from further out -/
def under (k : Value) (ps : Places) : Places := ps.map fun p => (p.1, k :: p.2)

mutual

/-- the mappings in a node without merge keys -/
def places : Node → Places
  | list k items => if k = .pairs then pairPlaces 0 items else itemPlaces 0 items
  | map i k es => if k = .map then (i, []) :: entryPlaces es else []
  | _ => []

/-- the mappings in items, of which the first one has the index `i` -/
def itemPlaces (i : Nat) : List Node → Places
  | [] => []
  | n :: ns => under (.int i) n.places ++ itemPlaces (i + 1) ns

def pairPlaces (i : Nat) : List Node → Places
  | [] => []
  | map _ _ [(k, v)] :: ns =>
    under (.int i) (under (.int 0) k.places ++ under (.int 1) v.places) ++ pairPlaces (i + 1) ns
  | _ :: ns => pairPlaces (i + 1) ns

/-- the mappings in the entries; of several with one key the last one counts -/
def entryPlaces : List (Node × Node) → Places
  | [] => []
  | (k, v) :: es =>
    let key := (keyValue 0 k).1
    (if es.any fun e => Value.same (keyValue 0 e.1).1 key then [] else under key v.places) ++
      entryPlaces es

end

/-- for each mapping that stands at several places, all of them -/
def twins (n : Node) : List (List Value.Place) :=
  let ps := n.places
  ((ps.map (·.1)).eraseDups.map fun i => (ps.filter (·.1 == i)).map (·.2)).filter fun c =>
    decide (1 < c.length)

end Node

/-- the value of a text, and the places of the mappings that stand in it several times; a text
without a document is null -/
def read (cs : List Char) : Except Fault (Value × List (List Value.Place)) := do
  match ← document (tokens cs) with
  | none => .ok (.null, [])
  | some n =>
    let n := n.unmerge
    let r := n.value 0
    match Node.firstFault r.2 with
    | none => .ok (r.1, n.twins)
    | some f => .error f.2

end ZodSchema.Yaml
