import ZodSchema.Validation.Concern
import ZodSchema.Schema.Entry

/-!
# Validation rules

* `nameConcerns`, `fieldConcerns`, `enumConcerns`, `relationConcerns`   the data model
* `configConcerns`, `brandConcerns`, `crudConcerns`                     the settings with it
* `concerns`   all of them, in this order
* `validate`   the findings
-/

namespace ZodSchema.Validation

/-- names that no constant can bear -/
def reservedWords : List String :=
  ["break", "case", "catch", "class", "const", "continue", "debugger", "default", "delete", "do",
    "else", "enum", "export", "extends", "false", "finally", "for", "function", "if", "import",
    "in", "instanceof", "new", "null", "return", "super", "switch", "this", "throw", "true",
    "try", "typeof", "var", "void", "while", "with", "let", "static", "yield", "await",
    "implements", "interface", "package", "private", "protected", "public", "z"]

/-- a capital followed by letters and digits, possibly with one line feed behind them -/
def isPascalCase (name : String) : Bool :=
  match Text.dropFinalNewline name.toList with
  | c :: cs => c.isUpper && cs.all Char.isAlphanum
  | [] => false

/-- what speaks against a top-level name -/
def nameConcern? (what : Named) (name : String) : Option Concern :=
  if !Text.isIdentifier name then some (.invalidName what name)
  else if reservedWords.contains name then some (.reservedName what name)
  else none

/-- models after those of the names `seen` -/
def modelNameConcerns (seen : List String) : List String → List Concern
  | [] => []
  | m :: ms =>
    (if seen.contains m then [.duplicateModel m] else []) ++
    (match nameConcern? .model m with
      | some c => [c]
      | none => if isPascalCase m then [] else [.notPascalCase m]) ++
    modelNameConcerns (m :: seen) ms

/-- enumerations after those of the names `seen` -/
def enumNameConcerns (seen : List String) : List String → List Concern
  | [] => []
  | e :: es =>
    (if seen.contains e then [.duplicateEnum e] else []) ++
    (nameConcern? .enumeration e).toList ++ enumNameConcerns (e :: seen) es

def nameConcerns (d : Datamodel) : List Concern :=
  modelNameConcerns [] (d.models.map (·.name)) ++ enumNameConcerns [] (d.enums.map (·.name))

/-- fields of a model after those of the names `seen`; `keys` holds the keys so far with the
fields that had them last -/
def modelFieldConcerns (camel : Bool) (model : String) (seen : List String)
    (keys : List (String × String)) : List Field → List Concern
  | [] => []
  | f :: fs =>
    if seen.contains f.name then
      .duplicateField model f.name :: modelFieldConcerns camel model seen keys fs
    else if !f.isEmitted then modelFieldConcerns camel model (f.name :: seen) keys fs
    else
      let key := Schema.fieldKey f camel
      (match keys.find? (·.1 == key) with
        | some (_, g) => [.duplicateKey model g f.name key]
        | none => []) ++
      (if f.kind.value == .scalar && !scalarTypes.contains f.type then
        [.unknownScalar model f.name f.type] else []) ++
      modelFieldConcerns camel model (f.name :: seen) ((key, f.name) :: keys) fs

def fieldConcerns (d : Datamodel) (c : Config) : List Concern :=
  d.models.flatMap fun m => modelFieldConcerns c.camelCase m.name [] [] m.fields

def enumConcerns (d : Datamodel) : List Concern :=
  d.models.flatMap fun m =>
    (m.fields.filter fun f => f.kind.value == .enumeration && (d.enum? f.type).isNone).map
      fun f => .unknownEnum m.name f.name f.type

def relationConcerns (d : Datamodel) : List Concern :=
  d.models.flatMap fun m => (m.fields.filter (·.isRelation)).flatMap fun f =>
    (if (d.model? f.type).isNone then [.unknownTarget m.name f.name f.type] else []) ++
    (f.relationFrom.filter fun k => (m.field? k).isNone).map
      fun k => .unknownRelationField m.name f.name k

def configConcerns (c : Config) : List Concern :=
  (if c.threeLayers && !c.brandRegistry then [.layersWithoutBrands] else []) ++
  (if c.crudSchemas && !c.threeLayers then [.crudWithoutLayers] else [])

/-- the registry that keeps conflicts instead of stopping at them -/
def lenientRegistry (d : Datamodel) : Brand.Registry :=
  match Brand.Registry.ofDatamodel d false with
  | .ok r => r
  | .error _ => {}

def brandConcerns (d : Datamodel) (c : Config) : List Concern :=
  let r := lenientRegistry d
  (r.sorted.filter fun b =>
    !Text.isIdentifier b.name || reservedWords.contains b.name).map .invalidBrand ++
  r.conflicts.map (.brandConflict c.strictBrands)

def crudConcerns (d : Datamodel) (c : Config) : List Concern :=
  if !c.crudSchemas then []
  else
    let known := d.models.map (·.name)
    let unknown (option : String) (names : List String) : List Concern :=
      (names.filter fun n => !known.contains n).map (.unknownCrudModel option)
    unknown "include_models" c.crud.includeModels ++
    unknown "exclude_models" c.crud.excludeModels ++
    (d.models.filter fun m => c.crud.includes m.name && m.idFields.isEmpty).map
      fun m => .crudWithoutId m.name

/-- everything that can be said against a data model under the settings -/
def concerns (d : Datamodel) (c : Config) : List Concern :=
  nameConcerns d ++ fieldConcerns d c ++ enumConcerns d ++ relationConcerns d ++
    configConcerns c ++ brandConcerns d c ++ crudConcerns d c

def validate (d : Datamodel) (c : Config) : Findings := (concerns d c).map Concern.finding

end ZodSchema.Validation
