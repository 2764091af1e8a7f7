import ZodSchema.Contract.Check
import ZodSchema.Display

/-!
# Checking data models

One rule per part of a data model.

* `fieldOf`, `modelOf`, `enumOf`, `datamodelOf`
-/

namespace ZodSchema.Contract

/-- values that come more than once, in order -/
def duplicates (xs : List String) : List String :=
  Text.Str.sortDedup (xs.filter fun x => decide (1 < xs.count x))

/-- enumeration values are distinct -/
def enumValues (v : Value) : Check (List String) :=
  (someOf (text 0) v).andThen fun xs =>
    if duplicates xs = [] then .ok xs
    else
      .fail (.rejected ("Duplicate enum values detected: " ++ Display.quotedList (duplicates xs)))

def enumOf : Value → Check EnumDef :=
  record "EnumDefinition" ["name", "values", "documentation"] fun es =>
    EnumDef.mk <$> need es "name" (text 1) <*> need es "values" enumValues
      <*> may es "documentation" none text?

def generatorOf : Value → Check DefaultGenerator :=
  record "DefaultFunction" ["name", "args"] fun es =>
    DefaultGenerator.mk <$> need es "name" (text 1) <*> may es "args" [] list

/-- what each other form of a default says to a value of no form -/
def otherForms : List Issue :=
  [⟨[.key "bool"], .notBool⟩, ⟨[.key "int"], .notInt⟩, ⟨[.key "float"], .notNumber⟩,
    ⟨[.key "str"], .notText⟩, ⟨[.key "list[any]"], .notList⟩]

/-- a value that is no generator -/
def notGenerator : Issue := ⟨[.key "DefaultFunction"], .notRecord "DefaultFunction"⟩

/-- a default: nothing, a plain value of any kind, or a generator -/
def defaultOf : Value → Check (Option FieldDefault)
  | .null => .ok none
  | .map es =>
    match (generatorOf (.map es)).under (.key "DefaultFunction") with
    | .ok g => .ok (some (.generator g))
    | .bad is => .bad (is ++ otherForms)
  | .date _ => .bad (notGenerator :: otherForms)
  | .bytes bs =>
    match text 0 (.bytes bs) with
    | .ok s => .ok (some (.literal (.text s)))
    | .bad _ => .bad (notGenerator :: otherForms)
  | .set vs => .ok (some (.literal (.list vs)))
  | v => .ok (some (.literal v))

/-- the kind of a field; `relation` is another word for `object` -/
def kindOf (v : Value) : Check (Stated FieldKind) :=
  match v with
  | .text "relation" => .ok ⟨.object, true⟩
  | v => stated FieldKind.all FieldKind.name v

def fieldKeys : List String :=
  ["name", "type", "kind", "is_required", "is_list", "is_id", "is_unique", "is_updated_at",
    "has_default_value", "default", "db_name", "documentation", "relation_from_fields",
    "relation_to_fields"]

def fieldOf (v : Value) : Check Field :=
  (record "FieldDefinition" fieldKeys (fun es =>
    Field.mk <$> need es "name" (text 1) <*> need es "type" (text 1)
      <*> may es "kind" ⟨.scalar, false⟩ kindOf
      <*> may es "is_required" true bool
      <*> may es "is_list" false bool
      <*> may es "is_id" false bool
      <*> may es "is_unique" false bool
      <*> may es "is_updated_at" false bool
      <*> may es "has_default_value" false bool
      <*> may es "default" none defaultOf
      <*> may es "db_name" none text?
      <*> may es "documentation" none text?
      <*> may es "relation_from_fields" [] texts
      <*> may es "relation_to_fields" [] texts) v).map Field.withFlag

def modelOf : Value → Check Model :=
  record "ModelDefinition" ["name", "db_name", "documentation", "fields"] fun es =>
    Model.mk <$> need es "name" (text 1) <*> may es "db_name" none text?
      <*> may es "documentation" none text? <*> may es "fields" [] (listOf fieldOf)

def providerOf : Value → Check (Stated Provider) := stated Provider.all Provider.name

def datamodelOf : Value → Check Datamodel :=
  record "Datamodel" ["provider", "models", "enums", "source_file"] fun es =>
    Datamodel.mk <$> may es "provider" ⟨.postgresql, false⟩ providerOf
      <*> need es "models" (someOf modelOf)
      <*> may es "enums" [] (listOf enumOf)
      <*> may es "source_file" none text?

end ZodSchema.Contract
