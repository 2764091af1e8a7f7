import ZodSchema.Schema.Base
import ZodSchema.Brand.Registry

/-!
# Layers

Every model has three schemas: values as stored, values for the application, and values for
consumers.  The latter two change some entries of the base schema.

* `runtimeOverride?`, `externalOverride?`   the change of one entry
* `layersOf`                                the three layers of a model
-/

namespace ZodSchema.Layer

open Schema Brand

inductive Kind where
  | database | runtime | external
  deriving DecidableEq, Repr

namespace Kind

def suffix : Kind → String
  | database => "DB"
  | runtime => "Runtime"
  | external => "API"

def description : Kind → String
  | database => "Database layer: values as stored."
  | runtime => "Runtime layer: values parsed for application use."
  | external => "External layer: JSON-serialisable values for API consumers."

end Kind

/-- the changed entry of a key -/
structure Override where
  key : String
  expr : String
  brand : Option String := none
  deriving DecidableEq, Repr

/-- a layer of a model -/
structure LayerSchema where
  model : String
  kind : Kind
  overrides : List Override := []
  deriving DecidableEq, Repr

namespace LayerSchema

def typeName (l : LayerSchema) : String := l.model ++ l.kind.suffix

def schemaName (l : LayerSchema) : String := l.typeName ++ "Schema"

def isIdentity (l : LayerSchema) : Bool := l.overrides.isEmpty

end LayerSchema

/-- the member of the base shape, without its outer `.nullish()` -/
def shapeSource (model : String) (e : Entry) : String :=
  let source := Text.member (Schema.schemaName model ++ ".shape") e.key
  if e.outerNullish then source ++ ".unwrap().unwrap()" else source

/-- `.nullish()` again around a changed expression -/
def rewrap (expr : String) (f : Field) (e : Entry) : String :=
  if e.outerNullish || f.isNullable then expr ++ ".nullish()" else expr

def listWrap (f : Field) (expr : String) : String :=
  if f.isList then "z.array(" ++ expr ++ ")" else expr

/-- large integers are native ones at run time -/
def runtimeTransform? (type : String) : Option String :=
  if type = "BigInt" then some "z.coerce.bigint()" else none

/-- what JSON cannot hold goes out as text -/
def externalTransform? (type : String) : Option String :=
  if type = "BigInt" then
    some "z.union([z.bigint(), z.number(), z.string()]).transform((val) => String(val))"
  else if type = "Decimal" then
    some "z.union([z.string(), z.number()]).transform((val) => String(val))"
  else none

/-- a brand in place of the entry, or a transformed entry -/
def runtimeOverride? (m : Model) (f : Field) (e : Entry) (r : Option Registry) : Option Override :=
  match r.bind (·.fieldBrand? m f) with
  | some b => some ⟨e.key, rewrap (listWrap f ("brands." ++ b)) f e, some b⟩
  | none =>
    (runtimeTransform? f.type).map fun t =>
      ⟨e.key, rewrap (shapeSource m.name e ++ ".pipe(" ++ listWrap f t ++ ")") f e, none⟩

def externalOverride? (f : Field) (e : Entry) : Option Override :=
  (externalTransform? f.type).map fun t => ⟨e.key, rewrap (listWrap f t) f e, none⟩

/-- the layers of a model; models of one name share them -/
def layersOf (c : Config) (d : Datamodel) (r : Option Registry) (m : Model) : List LayerSchema :=
  let m := d.firstOfName m
  let es := entries c d m
  [⟨m.name, .database, []⟩,
    ⟨m.name, .runtime, es.filterMap fun p => runtimeOverride? m p.1 p.2 r⟩,
    ⟨m.name, .external, es.filterMap fun p => externalOverride? p.1 p.2⟩]

end ZodSchema.Layer
