import ZodSchema.Contract.Check
import ZodSchema.Datamodel.Config
import ZodSchema.Text.Lower

/-!
# Checking generator settings

* `crudConfigOf`       settings of the CRUD family
* `Config.objection?`  what speaks against a combination of settings
* `configOf`           all settings
-/

namespace ZodSchema

namespace Config

/-- families that need the base schemas -/
def dependants (c : Config) : List String :=
  (if c.threeLayers then ["generate_three_layers"] else []) ++
  (if c.crudSchemas then ["generate_crud_schemas"] else [])

/-- directories are compared without outer slashes and in lower case -/
def dirKey (dir : String) : String := Text.Str.lower (Text.Str.trimSlashes dir)

/-- the first two families with one directory, and the later one's directory -/
def sharedDir? (seen : List (String × Family)) : List (Family × String) →
    Option (Family × Family × String)
  | [] => none
  | (f, dir) :: rest =>
    match seen.find? (·.1 == dirKey dir) with
    | some (_, g) => some (g, f, dir)
    | none => sharedDir? (seen ++ [(dirKey dir, f)]) rest

/-- what speaks against the settings taken together -/
def objection? (c : Config) : Option String :=
  if !c.zodSchemas && !c.dependants.isEmpty then
    some (Text.Str.join ", " c.dependants ++
      " require generate_zod_schemas: the generated files import the base schemas.")
  else
    match sharedDir? [] c.familyDirs with
    | some (g, f, dir) =>
      some ("Families '" ++ g.name ++ "' and '" ++ f.name ++ "' share the output directory '" ++
        dir ++ "'; each family directory is cleared before writing.")
    | none =>
      if Text.Str.endsWith c.enumFileName ".ts" then none
      else some ("enum_file_name must end with '.ts', got '" ++ c.enumFileName ++ "'.")

end Config

namespace Contract

def paginationOf : Value → Check Pagination := member Pagination.all Pagination.name

def pageSizeOf : Value → Check Int := int 1 10000

def crudConfigOf : Value → Check CrudConfig :=
  record "CrudConfig" ["output_dir", "include_models", "exclude_models", "pagination_strategy",
      "max_page_size", "generate_index", "timestamp_field_names"] fun es =>
    let d : CrudConfig := {}
    CrudConfig.mk <$> may es "output_dir" d.outputDir (text 1)
      <*> may es "include_models" d.includeModels texts
      <*> may es "exclude_models" d.excludeModels texts
      <*> may es "pagination_strategy" d.pagination paginationOf
      <*> may es "max_page_size" d.maxPageSize pageSizeOf
      <*> may es "generate_index" d.generateIndex bool
      <*> may es "timestamp_field_names" d.timestampNames texts

def configKeys : List String :=
  ["camel_case", "generate_zod_schemas", "zod_schemas_dir", "enum_file_name",
    "use_default_validators", "generate_brand_registry", "brands_dir", "strict_brands",
    "generate_three_layers", "layers_dir", "generate_crud_schemas", "crud", "write_manifest",
    "concurrent_writes"]

/-- settings that do not contradict each other -/
def agreed (c : Config) : Check Config :=
  match c.objection? with
  | some t => .fail (.rejected t)
  | none => .ok c

def configOf (v : Value) : Check Config :=
  (record "GeneratorConfig" configKeys (fun es =>
    let d : Config := {}
    Config.mk <$> may es "camel_case" d.camelCase bool
      <*> may es "generate_zod_schemas" d.zodSchemas bool
      <*> may es "zod_schemas_dir" d.schemasDir (text 1)
      <*> may es "enum_file_name" d.enumFileName (text 4)
      <*> may es "use_default_validators" d.defaultValidators bool
      <*> may es "generate_brand_registry" d.brandRegistry bool
      <*> may es "brands_dir" d.brandsDir (text 1)
      <*> may es "strict_brands" d.strictBrands bool
      <*> may es "generate_three_layers" d.threeLayers bool
      <*> may es "layers_dir" d.layersDir (text 1)
      <*> may es "generate_crud_schemas" d.crudSchemas bool
      <*> may es "crud" d.crud crudConfigOf
      <*> may es "write_manifest" d.writeManifest bool
      <*> may es "concurrent_writes" d.concurrentWrites bool) v).andThen agreed

end Contract

end ZodSchema
