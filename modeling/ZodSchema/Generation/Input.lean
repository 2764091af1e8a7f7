import ZodSchema.Contract.Datamodel
import ZodSchema.Contract.Config
import ZodSchema.Generation.Document

/-!
# The input mapping

A document holds a data model, at the top or under `datamodel`, and settings.

* `applyOverrides`  overriding settings and a provider, written into a document
* `readInput`       data model and settings of a document
-/

namespace ZodSchema.Generation

open Contract

/-- keys under which settings may stand, the first one present counts -/
def configKeys : List String := ["config", "generator_config"]

/-- the key of the settings: the first one present, or the first one of all -/
def configKey (raw : Document) : String :=
  (configKeys.find? fun k => (Value.get? k raw).isSome).getD "config"

/-- overriding settings, merged into those of the document; none there are empty ones -/
def applySettings (raw : Loaded) (overrides : Value.Entries) : Loaded :=
  let key : Value := .text (configKey raw.entries)
  let raw :=
    if ((at? [key] (.map raw.entries)).bind Value.entries?).isSome then raw
    else raw.assign [] key (.map [])
  raw.mergeAt [key] overrides

/-- a provider, stored in the body of the document when that is a mapping -/
def applyProvider (raw : Loaded) (provider : Value) : Loaded :=
  match Value.get? "datamodel" raw.entries with
  | none => raw.assign [] (.text "provider") provider
  | some (.map _) => raw.assign [.text "datamodel"] (.text "provider") provider
  | some _ => raw

/-- overriding settings and a provider, written into a document -/
def applyOverrides (raw : Loaded) (overrides : Value.Entries) (provider : Option Value) : Loaded :=
  let raw := if overrides.isEmpty then raw else applySettings raw overrides
  match provider with
  | none => raw
  | some p => applyProvider raw p

/-- why a document cannot be taken -/
inductive InputError where
  | noDatamodel
  | badDatamodel (issues : List Issue)
  | badConfig (issues : List Issue)
  deriving DecidableEq, Repr

/-- the words of an error; the issues are listed after the two that end in a colon -/
def InputError.message : InputError → String
  | noDatamodel =>
    "Cannot find a datamodel in input. Expected a top-level 'models' list (optionally nested " ++
      "under 'datamodel')."
  | badDatamodel _ => "Datamodel validation failed"
  | badConfig _ => "Config validation failed"

/-- a value that is there and not empty -/
def isPresent : Value → Bool
  | .null => false
  | .bool b => b
  | .int i => i != 0
  | .float d => !(d matches .finite _ 0 _)
  | .text s => s != ""
  | .date _ => true
  | .bytes bs => !bs.isEmpty
  | .list vs => !vs.isEmpty
  | .set vs => !vs.isEmpty
  | .map es => !es.isEmpty

/-- the mapping that holds the models -/
def body? (raw : Document) : Option Document :=
  match Value.get? "datamodel" raw with
  | none => some raw
  | some (.map es) => some es
  | some _ => none

/-- the provider of a body, or that of its data source -/
def providerValue? (body : Document) : Option Value :=
  match (Value.get? "provider" body).filter (!· matches .null) with
  | some v => some v
  | none =>
    match Value.get? "datasource" body with
    | some (.map es) => (Value.get? "provider" es).filter (!· matches .null)
    | _ => none

/-- the entries of the data model, as they are checked -/
def datamodelEntries (raw body : Document) (models : Value) : Document :=
  [(.text "models", models),
    (.text "enums", ((Value.get? "enums" body).filter isPresent).getD (.list []))] ++
  ((providerValue? body).map fun v => (.text "provider", v)).toList ++
  (((Value.get? "source_file" raw).filter isPresent).map fun v => (.text "source_file", v)).toList

/-- the settings of a document, none given being empty ones -/
def configValue (raw : Document) : Value :=
  ((Value.get? (configKey raw) raw).filter isPresent).getD (.map [])

def readInput (raw : Document) : Except InputError (Datamodel × Config) :=
  match body? raw with
  | none => .error .noDatamodel
  | some body =>
    match Value.get? "models" body with
    | none => .error .noDatamodel
    | some models =>
      match datamodelOf (.map (datamodelEntries raw body models)) with
      | .bad is => .error (.badDatamodel is)
      | .ok d =>
        match configOf (configValue raw) with
        | .bad is => .error (.badConfig is)
        | .ok c => .ok (d, c)

end ZodSchema.Generation
