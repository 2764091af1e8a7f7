import ZodSchema.Yaml.Token
import ZodSchema.Yaml.Resolve

/-!
# Nodes

* `Node`       scalars, lists and mappings with their kinds; an alias is the node it stands for, and
  the number of a mapping tells that it is the same one
* `Node.tie`   a collection that holds itself
* `State`      the tokens ahead and the anchors that were met
* `node`       the node at the head
* `document`   the only document of a text
-/

namespace ZodSchema.Yaml

inductive Node where
  | scalar (kind : Kind) (text : String)
  | list (kind : Kind) (items : List Node)
  | map (id : Nat) (kind : Kind) (entries : List (Node × Node))
  /-- an alias of a collection that is still open -/
  | back (name : String)
  deriving Inhabited

namespace Node

mutual

/-- `n` in place of the aliases of an open collection -/
def fill (name : String) (n : Node) : Node → Node
  | scalar k t => scalar k t
  | list k items => list k (fillItems name n items)
  | map i k es => map i k (fillEntries name n es)
  | back a => if a = name then n else back a

def fillItems (name : String) (n : Node) : List Node → List Node
  | [] => []
  | m :: ms => fill name n m :: fillItems name n ms

def fillEntries (name : String) (n : Node) : List (Node × Node) → List (Node × Node)
  | [] => []
  | (k, v) :: es => (fill name n k, fill name n v) :: fillEntries name n es

end

/-- a collection without its content -/
def emptied : Node → Node
  | list k _ => list k []
  | map i k _ => map i k []
  | n => n

/-- a collection in which aliases of its own name stand: there it stands once more, and within that
it is empty -/
def tie (name : String) (n : Node) : Node := fill name (fill name n.emptied n) n

end Node

/-- the tokens ahead, the anchors that were met and the handles of tags; an anchor has no node as
long as its collection is open -/
structure State where
  ahead : List Token
  anchors : List (String × Option Node) := []
  handles : List (String × String) := []
  /-- collections that were open when an alias of theirs was met -/
  loops : List String := []

namespace State

def next (s : State) : State := { s with ahead := s.ahead.tail }

/-- the number of a mapping that begins here, which is that of no other one -/
def number (s : State) : Nat := s.ahead.length

/-- why the text cannot be read on here -/
def fault (s : State) : Fault :=
  match s.ahead with
  | .fault f :: _ => f
  | _ => .malformed

def fail {α : Type} (s : State) : Except Fault α := .error s.fault

/-- the tokens end here -/
def isCut (s : State) : Bool := s.ahead.head? matches some (.fault _)

/-- an anchor of a node that begins -/
def openAnchor (name : Option String) (s : State) : State :=
  match name with
  | none => s
  | some a => { s with anchors := (a, none) :: s.anchors }

/-- the node of an anchor, and what it is to the nodes that were met inside it -/
def closeAnchor (name : Option String) (n : Node) (s : State) : Node × State :=
  match name with
  | none => (n, s)
  | some a =>
    if s.loops.contains a then
      let n := n.tie a
      let filled := s.anchors.map fun e => (e.1, e.2.map (Node.fill a n))
      (n, { s with anchors := (a, some n) :: filled })
    else (n, { s with anchors := (a, some n) :: s.anchors })

end State

/-- the beginning of the tags that every reader knows -/
def coreTag : String := "tag:yaml.org,2002:"

/-- the handles that need no directive -/
def coreHandles : List (String × String) := [("!", "!"), ("!!", coreTag)]

/-- kinds by the names of their tags -/
def kindNames : List (String × Kind) :=
  [("null", .null), ("bool", .bool), ("int", .int), ("float", .float), ("timestamp", .stamp),
    ("str", .text), ("binary", .bytes), ("seq", .list), ("map", .map), ("set", .set),
    ("omap", .pairs), ("pairs", .pairs), ("merge", .merge), ("value", .standIn)]

def kindOfTag (tag : String) : Kind :=
  ((kindNames.find? fun e => coreTag ++ e.1 == tag).map (·.2)).getD .unknown

/-- what stands in front of a node: an anchor, and a tag with its handle written out -/
structure Properties where
  anchor : Option String := none
  tag : Option String := none

/-- a tag with its handle written out -/
def fullTag? (handles : List (String × String)) : Option String → String → Option String
  | none, suffix => some suffix
  | some h, suffix => ((handles.find? (·.1 == h)).map (·.2)).map (· ++ suffix)

/-- an anchor and a tag in either order, each at most once -/
def properties (s : State) : Except Fault (Properties × State) :=
  let tagged (a h : Option String) (suffix : String) (ts : List Token) :=
    (step (fullTag? s.handles h suffix)).map fun t => (⟨a, some t⟩, { s with ahead := ts })
  match s.ahead with
  | .anchor a :: .tag h u :: ts => tagged (some a) h u ts
  | .anchor a :: ts => .ok (⟨some a, none⟩, { s with ahead := ts })
  | .tag h u :: .anchor a :: ts => tagged (some a) h u ts
  | .tag _ _ :: .fault f :: _ => .error f
  | .tag h u :: ts => tagged none h u ts
  | _ => .ok ({}, s)

/-- kind of a scalar: by its tag; without one, by the form of plain text -/
def scalarKind (tag : Option String) (isPlain : Bool) (text : String) : Kind :=
  match tag with
  | none => if isPlain then kindOf text else .text
  | some "!" => kindOf text
  | some t => kindOfTag t

/-- kind of a collection -/
def collectionKind (tag : Option String) (default : Kind) : Kind :=
  match tag with
  | none => default
  | some "!" => default
  | some t => kindOfTag t

/-- a value that is not written -/
def missing : Node := .scalar .null ""

/-- where a node stands: in a flow collection, in a block, or in a block mapping, where the entries
of a list need no indentation of their own -/
inductive Position where
  | flow | block | mapping
  deriving DecidableEq

/-- the tokens in `stops` end an empty node -/
def stopsAt (stops : List Token) (s : State) : Bool :=
  match s.ahead with
  | [] => false
  | t :: _ => stops.contains t

/-- a node of which only the properties are written -/
def bare (p : Properties) (s : State) : Except Fault (Node × State) :=
  if p.anchor.isNone ∧ p.tag.isNone then s.fail
  else .ok (.scalar (scalarKind p.tag true "") "", s)

mutual

/-- the node at the head -/
def node (at_ : Position) : Nat → State → Except Fault (Node × State)
  | 0, s => s.fail
  | fuel + 1, s =>
    match s.ahead with
    | .reference name :: ts =>
      match s.anchors.find? (·.1 == name) with
      | some (_, some n) => .ok (n, { s with ahead := ts })
      | some (_, none) => .ok (.back name, { s with ahead := ts, loops := name :: s.loops })
      | none => .error .malformed
    | _ =>
      match properties s with
      | .error f => .error f
      | .ok (p, s) =>
        if s.isCut then s.fail
        else if (p.anchor.map fun a => s.anchors.any (·.1 == a)).getD false then .error .malformed
        else
          (content at_ p fuel (s.openAnchor p.anchor)).map fun r => r.2.closeAnchor p.anchor r.1

/-- the node behind its properties -/
def content (at_ : Position) (p : Properties) : Nat → State → Except Fault (Node × State)
  | 0, s => s.fail
  | fuel + 1, s =>
    match s.ahead with
    | .scalar text isPlain :: _ => .ok (.scalar (scalarKind p.tag isPlain text) text, s.next)
    | .flowSequence :: _ =>
      (flowItems true fuel s.next).map fun r => (.list (collectionKind p.tag .list) r.1, r.2)
    | .flowMapping :: _ =>
      (flowEntries true fuel s.next).map fun r =>
        (.map s.number (collectionKind p.tag .map) r.1, r.2)
    | t :: _ =>
      if at_ = .mapping ∧ t = .entry then
        (looseItems fuel s).map fun r => (.list (collectionKind p.tag .list) r.1, r.2)
      else if at_ ≠ .flow ∧ t = .blockSequence then
        (blockItems fuel s.next).map fun r => (.list (collectionKind p.tag .list) r.1, r.2)
      else if at_ ≠ .flow ∧ t = .blockMapping then
        (blockEntries fuel s.next).map fun r =>
          (.map s.number (collectionKind p.tag .map) r.1, r.2)
      else bare p s
    | [] => bare p s

/-- the node at the head, or a missing one in front of `stops` -/
def maybe (at_ : Position) (stops : List Token) : Nat → State → Except Fault (Node × State)
  | 0, s => s.fail
  | fuel + 1, s => if stopsAt stops s then .ok (missing, s) else node at_ fuel s

/-- the entries of a block list up to its end -/
def blockItems : Nat → State → Except Fault (List Node × State)
  | 0, s => s.fail
  | fuel + 1, s =>
    match s.ahead with
    | .entry :: _ =>
      match maybe .block [.entry, .blockEnd] fuel s.next with
      | .error f => .error f
      | .ok (n, s) => (blockItems fuel s).map fun r => (n :: r.1, r.2)
    | .blockEnd :: _ => .ok ([], s.next)
    | _ => s.fail

/-- the entries of a list that are not indented below their key -/
def looseItems : Nat → State → Except Fault (List Node × State)
  | 0, s => s.fail
  | fuel + 1, s =>
    match s.ahead with
    | .entry :: _ =>
      match maybe .block [.entry, .key, .value, .blockEnd] fuel s.next with
      | .error f => .error f
      | .ok (n, s) => (looseItems fuel s).map fun r => (n :: r.1, r.2)
    | _ => .ok ([], s)

/-- the value of an entry, if a colon stands here -/
def afterColon (at_ : Position) (stops : List Token) : Nat → State → Except Fault (Node × State)
  | 0, s => s.fail
  | fuel + 1, s =>
    match s.ahead with
    | .value :: _ => maybe at_ stops fuel s.next
    | _ => .ok (missing, s)

/-- the entries of a block mapping up to its end -/
def blockEntries : Nat → State → Except Fault (List (Node × Node) × State)
  | 0, s => s.fail
  | fuel + 1, s =>
    match s.ahead with
    | .key :: _ =>
      match maybe .mapping [.key, .value, .blockEnd] fuel s.next with
      | .error f => .error f
      | .ok (k, s) =>
        match afterColon .mapping [.key, .value, .blockEnd] fuel s with
        | .error f => .error f
        | .ok (v, s) => (blockEntries fuel s).map fun r => ((k, v) :: r.1, r.2)
    | .blockEnd :: _ => .ok ([], s.next)
    | _ => s.fail

/-- the items of a flow list up to its bracket; a comma stands between two of them -/
def flowItems (first : Bool) : Nat → State → Except Fault (List Node × State)
  | 0, s => s.fail
  | fuel + 1, s =>
    match s.ahead with
    | .flowSequenceEnd :: _ => .ok ([], s.next)
    | t :: _ =>
      if !first && t != .comma then s.fail
      else
        let s := if first then s else s.next
        let i := s.number
        match s.ahead with
        | .flowSequenceEnd :: _ => .ok ([], s.next)
        | .key :: _ =>
          match maybe .flow [.value, .comma, .flowSequenceEnd] fuel s.next with
          | .error f => .error f
          | .ok (k, s) =>
            match afterColon .flow [.comma, .flowSequenceEnd] fuel s with
            | .error f => .error f
            | .ok (v, s) =>
              (flowItems false fuel s).map fun r => (.map i .map [(k, v)] :: r.1, r.2)
        | _ =>
          match node .flow fuel s with
          | .error f => .error f
          | .ok (n, s) => (flowItems false fuel s).map fun r => (n :: r.1, r.2)
    | [] => s.fail

/-- the entries of a flow mapping up to its brace -/
def flowEntries (first : Bool) : Nat → State → Except Fault (List (Node × Node) × State)
  | 0, s => s.fail
  | fuel + 1, s =>
    match s.ahead with
    | .flowMappingEnd :: _ => .ok ([], s.next)
    | t :: _ =>
      if !first && t != .comma then s.fail
      else
        let s := if first then s else s.next
        match s.ahead with
        | .flowMappingEnd :: _ => .ok ([], s.next)
        | .key :: _ =>
          match maybe .flow [.value, .comma, .flowMappingEnd] fuel s.next with
          | .error f => .error f
          | .ok (k, s) =>
            match afterColon .flow [.comma, .flowMappingEnd] fuel s with
            | .error f => .error f
            | .ok (v, s) => (flowEntries false fuel s).map fun r => ((k, v) :: r.1, r.2)
        | _ =>
          match node .flow fuel s with
          | .error f => .error f
          | .ok (k, s) => (flowEntries false fuel s).map fun r => ((k, missing) :: r.1, r.2)
    | [] => s.fail

end

/-- handles after the directives of a document, and the tokens behind them; the version must be
1 and is given once, as is every handle -/
def directives? (hasVersion : Bool) (handles : List (String × String)) :
    List Token → Option (List (String × String) × List Token)
  | .directive (.version major) :: ts =>
    if hasVersion ∨ major ≠ 1 then none else directives? true handles ts
  | .directive (.handle h pre) :: ts =>
    if handles.any (·.1 == h) then none else directives? hasVersion ((h, pre) :: handles) ts
  | .directive .reserved :: ts => directives? hasVersion handles ts
  | ts => some (handles ++ coreHandles, ts)

/-- past marks that end a document -/
def skipEnds : List Token → List Token
  | .documentEnd :: ts => skipEnds ts
  | ts => ts

/-- what the first token of an empty document can be -/
def opensNothing : List Token → Bool
  | [] => true
  | .directive _ :: _ => true
  | .documentStart :: _ => true
  | .documentEnd :: _ => true
  | _ => false

/-- the node of a document behind which no other one comes -/
def alone (r : Node × State) : Except Fault (Option Node) :=
  match skipEnds r.2.ahead with
  | [] => .ok (some r.1)
  | ts => State.fail { ahead := ts }

/-- the only document of a text; `none` when there is none at all -/
def document (tokens : List Token) : Except Fault (Option Node) := do
  let fuel := 4 * tokens.length + 8
  match tokens with
  | [] => .ok none
  | .directive _ :: _ | .documentStart :: _ =>
    let (handles, ts) ← step (directives? false [] tokens)
    match ts with
    | .documentStart :: ts =>
      if opensNothing ts then alone (missing, { ahead := ts })
      else alone (← node .block fuel { ahead := ts, handles })
    | ts => State.fail { ahead := ts }
  | _ => alone (← node .block fuel { ahead := tokens, handles := coreHandles })

end ZodSchema.Yaml
