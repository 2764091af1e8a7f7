import ZodSchema.Assoc
import ZodSchema.Generation.Files

/-!
# Entries and layers that are kept

The families ask for the entries and the layers of a model.  What is computed once is kept under the
name of the model; what emission has to say is noted when it happens.

* `Memo`        what is kept
* `Memo.entriesOf`, `Memo.layersOf`   an answer, and what is kept then
* `after`       what is kept after some questions
* `passes`      the questions of the enabled families
-/

namespace ZodSchema.Generation

open Schema Layer

structure Memo where
  entries : List (String × List (Field × Entry)) := []
  layers : List (String × List LayerSchema) := []
  warnings : List String := []

/-- the entries of a model, emitted from its own fields -/
def emitted (c : Config) (d : Datamodel) (m : Model) : List (Field × Entry) :=
  m.emittedFields.map fun f => (f, emit c d f)

/-- what emission has to say about the fields of a model -/
def emissionWarnings (c : Config) (d : Datamodel) (m : Model) : List String :=
  m.emittedFields.flatMap fun f => (emit c d f).warnings

/-- the layers of a model over its entries -/
def layersOver (r : Option Brand.Registry) (m : Model) (es : List (Field × Entry)) :
    List LayerSchema :=
  [⟨m.name, .database, []⟩,
    ⟨m.name, .runtime, es.filterMap fun p => runtimeOverride? m p.1 p.2 r⟩,
    ⟨m.name, .external, es.filterMap fun p => externalOverride? p.1 p.2⟩]

namespace Memo

variable (c : Config) (d : Datamodel) (r : Option Brand.Registry)

def entriesOf (m : Model) (s : Memo) : List (Field × Entry) × Memo :=
  match Assoc.get? m.name s.entries with
  | some es => (es, s)
  | none =>
    (emitted c d m,
      { s with
        entries := Assoc.put m.name (emitted c d m) s.entries
        warnings := s.warnings ++ emissionWarnings c d m })

def layersOf (m : Model) (s : Memo) : List LayerSchema × Memo :=
  match Assoc.get? m.name s.layers with
  | some ls => (ls, s)
  | none =>
    let (es, s) := entriesOf c d m s
    (layersOver r m es, { s with layers := Assoc.put m.name (layersOver r m es) s.layers })

end Memo

/-- a question -/
inductive Ask where
  | entries (m : Model)
  | layers (m : Model)

namespace Ask

def model : Ask → Model
  | entries m => m
  | layers m => m

/-- the model whose layers are asked for -/
def layered? : Ask → Option Model
  | entries _ => none
  | layers m => some m

end Ask

variable (c : Config) (d : Datamodel) (r : Option Brand.Registry)

/-- what is kept after one more question -/
def Memo.ask (s : Memo) : Ask → Memo
  | .entries m => (s.entriesOf c d m).2
  | .layers m => (s.layersOf c d r m).2

def after (asks : List Ask) : Memo := asks.foldl (Memo.ask c d r) {}

/-- the questions of the enabled families, in the order of the families -/
def passes : List Ask :=
  (if c.zodSchemas then d.sortedModels.map .entries else []) ++
  (if c.threeLayers && c.zodSchemas then d.sortedModels.map .layers else []) ++
  (if c.crudSchemas && c.zodSchemas then (Crud.eligible c d).map .entries else [])

end ZodSchema.Generation
