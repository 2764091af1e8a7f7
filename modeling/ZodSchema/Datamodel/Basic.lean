import ZodSchema.Value

/-!
# Data models

Models, fields and enumerations, and the engine that stores them.

* `Stated`     a choice that remembers whether the input made it
* `Field`      a field of a model
* `Model`      fields in order
* `Datamodel`  models, enumerations and the provider
-/

namespace ZodSchema

/-- a choice, and whether it was made or fell to the default -/
structure Stated (α : Type) where
  value : α
  explicit : Bool
  deriving DecidableEq, Repr

/-- storage engines -/
inductive Provider where
  | postgresql | cockroachdb | mysql | sqlite | sqlserver
  deriving DecidableEq, Repr, Inhabited

namespace Provider

def all : List Provider := [postgresql, cockroachdb, mysql, sqlite, sqlserver]

def name : Provider → String
  | postgresql => "postgresql"
  | cockroachdb => "cockroachdb"
  | mysql => "mysql"
  | sqlite => "sqlite"
  | sqlserver => "sqlserver"

/-- the name of the default in reports -/
def defaultText : Provider → String
  | postgresql => "DatabaseProvider.POSTGRESQL"
  | cockroachdb => "DatabaseProvider.COCKROACHDB"
  | mysql => "DatabaseProvider.MYSQL"
  | sqlite => "DatabaseProvider.SQLITE"
  | sqlserver => "DatabaseProvider.SQLSERVER"

def ofName? (s : String) : Option Provider := all.find? (·.name == s)

end Provider

/-- what the type of a field names -/
inductive FieldKind where
  | scalar | enumeration | object | unsupported
  deriving DecidableEq, Repr, Inhabited

namespace FieldKind

def all : List FieldKind := [scalar, enumeration, object, unsupported]

def name : FieldKind → String
  | scalar => "scalar"
  | enumeration => "enum"
  | object => "object"
  | unsupported => "unsupported"

def defaultText : FieldKind → String
  | scalar => "FieldKind.SCALAR"
  | enumeration => "FieldKind.ENUM"
  | object => "FieldKind.OBJECT"
  | unsupported => "FieldKind.UNSUPPORTED"

def ofName? (s : String) : Option FieldKind := all.find? (·.name == s)

end FieldKind

/-- type names of scalar fields -/
def scalarTypes : List String :=
  ["String", "Boolean", "Int", "BigInt", "Float", "Decimal", "DateTime", "Json", "Bytes"]

structure EnumDef where
  name : String
  values : List String
  documentation : Option String := none
  deriving DecidableEq, Repr, Inhabited

/-- a named generator of default values -/
structure DefaultGenerator where
  name : String
  args : List Value := []
  deriving Inhabited

/-- the default of a field -/
inductive FieldDefault where
  | generator (g : DefaultGenerator)
  | literal (v : Value)
  deriving Inhabited

structure Field where
  name : String
  type : String
  kind : Stated FieldKind := ⟨.scalar, false⟩
  isRequired : Bool := true
  isList : Bool := false
  isId : Bool := false
  isUnique : Bool := false
  isUpdatedAt : Bool := false
  hasDefault : Bool := false
  default : Option FieldDefault := none
  dbName : Option String := none
  documentation : Option String := none
  /-- local fields that hold the foreign key -/
  relationFrom : List String := []
  relationTo : List String := []
  deriving Inhabited

namespace Field

/-- the column name: the stored name unless it is missing or empty -/
def storageName (f : Field) : String :=
  match f.dbName with
  | some n => if n = "" then f.name else n
  | none => f.name

/-- the name of the generator behind the default -/
def defaultGenerator (f : Field) : Option String :=
  match f.default with
  | some (.generator g) => some g.name
  | _ => none

def isNullable (f : Field) : Bool := !f.isRequired

def isRelation (f : Field) : Bool := f.kind.value == .object

/-- takes part in object schemas -/
def isEmitted (f : Field) : Bool := f.kind.value == .scalar || f.kind.value == .enumeration

/-- a default that is present sets the flag -/
def withFlag (f : Field) : Field := if f.default.isSome then { f with hasDefault := true } else f

def kindText (f : Field) : String :=
  if f.kind.explicit then f.kind.value.name else f.kind.value.defaultText

/-- how a field is shown -/
def display (f : Field) : String :=
  "<Field " ++ f.name ++ ": " ++ f.type ++ " (" ++ f.kindText ++ ")>"

end Field

structure Model where
  name : String
  dbName : Option String := none
  documentation : Option String := none
  fields : List Field := []
  deriving Inhabited

namespace Model

/-- the last field of a name -/
def field? (m : Model) (name : String) : Option Field := m.fields.reverse.find? (·.name == name)

def idFields (m : Model) : List Field := m.fields.filter (·.isId)

/-- the fields of the object schema -/
def emittedFields (m : Model) : List Field := m.fields.filter (·.isEmitted)

/-- how a model is shown -/
def display (m : Model) : String :=
  "<Model " ++ m.name ++ " (" ++ Text.natText m.fields.length ++ " fields)>"

/-- the model that the first relation over a field leads to -/
def foreignKeyTarget? (m : Model) (fieldName : String) : Option String :=
  (m.fields.find? fun f => f.isRelation && f.relationFrom.contains fieldName).map (·.type)

end Model

structure Datamodel where
  provider : Stated Provider := ⟨.postgresql, false⟩
  models : List Model
  enums : List EnumDef := []
  sourceFile : Option String := none
  deriving Inhabited

namespace Datamodel

/-- the last model of a name -/
def model? (d : Datamodel) (name : String) : Option Model :=
  d.models.reverse.find? (·.name == name)

/-- the last enumeration of a name -/
def enum? (d : Datamodel) (name : String) : Option EnumDef :=
  d.enums.reverse.find? (·.name == name)

def totalFields (d : Datamodel) : Nat := totalOf (·.fields.length) d.models

def providerText (d : Datamodel) : String :=
  if d.provider.explicit then d.provider.value.name else d.provider.value.defaultText

/-- the models in the order of their names -/
def sortedModels (d : Datamodel) : List Model :=
  d.models.mergeSort fun a b => decide (a.name ≤ b.name)

end Datamodel

end ZodSchema
