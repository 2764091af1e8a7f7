import ZodSchema.Validation.Finding
import ZodSchema.Brand.Registry

/-!
# Concerns

What can be said against a data model and its settings.

* `Concern`          one constructor for every kind of finding
* `Concern.finding`  its level, code, words and context
-/

namespace ZodSchema.Validation

/-- what bears a top-level name -/
inductive Named where
  | model | enumeration
  deriving DecidableEq, Repr

namespace Named

def capitals : Named → String
  | model => "MODEL"
  | enumeration => "ENUM"

def title : Named → String
  | model => "Model"
  | enumeration => "Enum"

def key : Named → String
  | model => "model"
  | enumeration => "enum"

end Named

inductive Concern where
  | duplicateModel (model : String)
  | invalidName (what : Named) (name : String)
  | reservedName (what : Named) (name : String)
  | notPascalCase (model : String)
  | duplicateEnum (name : String)
  | duplicateField (model field : String)
  | duplicateKey (model first field key : String)
  | unknownScalar (model field type : String)
  | unknownEnum (model field type : String)
  | unknownTarget (model field target : String)
  | unknownRelationField (model field foreignKey : String)
  | invalidBrand (brand : Brand.Branded)
  | brandConflict (strict : Bool) (conflict : Brand.Conflict)
  | unknownCrudModel (option model : String)
  | crudWithoutId (model : String)
  | layersWithoutBrands
  | crudWithoutLayers
  deriving DecidableEq, Repr

namespace Concern

def level : Concern → Level
  | notPascalCase _ | unknownScalar .. | unknownEnum .. | unknownTarget ..
  | unknownRelationField .. | unknownCrudModel .. => .warning
  | brandConflict strict _ => if strict then .error else .warning
  | crudWithoutId _ | layersWithoutBrands | crudWithoutLayers => .info
  | _ => .error

def code : Concern → String
  | duplicateModel _ => "DUPLICATE_MODEL_NAME"
  | invalidName w _ => "INVALID_" ++ w.capitals ++ "_NAME"
  | reservedName w _ => w.capitals ++ "_NAME_RESERVED"
  | notPascalCase _ => "MODEL_NAME_NOT_PASCAL_CASE"
  | duplicateEnum _ => "DUPLICATE_ENUM_NAME"
  | duplicateField .. => "DUPLICATE_FIELD_NAME"
  | duplicateKey .. => "DUPLICATE_FIELD_KEY"
  | unknownScalar .. => "UNKNOWN_SCALAR_TYPE"
  | unknownEnum .. => "UNKNOWN_ENUM_REFERENCE"
  | unknownTarget .. => "UNKNOWN_RELATION_TARGET"
  | unknownRelationField .. => "UNKNOWN_RELATION_FIELD"
  | invalidBrand _ => "INVALID_BRAND_NAME"
  | brandConflict .. => "BRAND_CONFLICT"
  | unknownCrudModel .. => "CRUD_UNKNOWN_MODEL"
  | crudWithoutId _ => "CRUD_MODEL_WITHOUT_ID"
  | layersWithoutBrands => "LAYERS_WITHOUT_BRANDS"
  | crudWithoutLayers => "CRUD_WITHOUT_LAYERS"

def message : Concern → String
  | duplicateModel m => "Model '" ++ m ++ "' is defined more than once."
  | invalidName w n => w.title ++ " name '" ++ n ++ "' is not a valid TypeScript identifier."
  | reservedName w n => w.title ++ " name '" ++ n ++ "' is reserved in generated TypeScript."
  | notPascalCase m =>
    "Model name '" ++ m ++ "' is not PascalCase; generated schema names will look odd."
  | duplicateEnum n => "Enum '" ++ n ++ "' is defined more than once."
  | duplicateField m f => "Field '" ++ m ++ "." ++ f ++ "' is defined more than once."
  | duplicateKey m g f k =>
    "Fields '" ++ g ++ "' and '" ++ f ++ "' of model '" ++ m ++ "' both emit the key '" ++ k ++ "'."
  | unknownScalar m f t =>
    "Field '" ++ m ++ "." ++ f ++ "' has unknown scalar type '" ++ t ++
      "'; it will be emitted as z.unknown()."
  | unknownEnum m f t =>
    "Field '" ++ m ++ "." ++ f ++ "' references unknown enum '" ++ t ++
      "'; it will be emitted as z.unknown()."
  | unknownTarget m f t =>
    "Relation '" ++ m ++ "." ++ f ++ "' points at unknown model '" ++ t ++ "'."
  | unknownRelationField m f k =>
    "Relation '" ++ m ++ "." ++ f ++ "' names foreign-key field '" ++ k ++ "', which '" ++ m ++
      "' does not declare."
  | invalidBrand b => "Brand '" ++ b.name ++ "' cannot be exported as a TypeScript constant."
  | brandConflict _ c => c.describe
  | unknownCrudModel o m => "crud." ++ o ++ " names '" ++ m ++ "', which is not a model."
  | crudWithoutId m =>
    "Model '" ++ m ++ "' has no identifier; its Get/Delete schemas will be empty objects."
  | layersWithoutBrands =>
    "Layer schemas are generated without the brand registry; no brand substitution will happen."
  | crudWithoutLayers =>
    "CRUD schemas are built from the base schemas because layer schemas are disabled."

def context : Concern → List (String × Value)
  | duplicateModel m | notPascalCase m | crudWithoutId m => [("model", .text m)]
  | invalidName w n | reservedName w n => [(w.key, .text n)]
  | duplicateEnum n => [("enum", .text n)]
  | duplicateField m f => [("model", .text m), ("field", .text f)]
  | duplicateKey m _ f k => [("model", .text m), ("field", .text f), ("key", .text k)]
  | unknownScalar m f t => [("model", .text m), ("field", .text f), ("type", .text t)]
  | unknownEnum m f t => [("model", .text m), ("field", .text f), ("enum", .text t)]
  | unknownTarget m f t => [("model", .text m), ("field", .text f), ("target", .text t)]
  | unknownRelationField m f k =>
    [("model", .text m), ("field", .text f), ("foreign_key", .text k)]
  | invalidBrand b => [("brand", .text b.name), ("sites", .list (b.sites.map .text))]
  | brandConflict _ c =>
    [("brand", .text c.brand), ("sites", .list [.text c.keptSite, .text c.rejectedSite])]
  | unknownCrudModel o m => [("model", .text m), ("option", .text o)]
  | layersWithoutBrands | crudWithoutLayers => []

def finding (c : Concern) : Finding := ⟨c.level, c.code, c.message, c.context⟩

end Concern

end ZodSchema.Validation
