import ZodSchema.Contract.Datamodel
import ZodSchema.Contract.Config

/-!
# Changing one attribute

A new value is checked by the rule of its attribute and stored; then the rules for the whole
record are checked again.

* `Change`        the record afterwards, with the issues
* `Field.assign`, `Config.assign`, ...   one function per record
-/

namespace ZodSchema

open Contract (Check Issue)

/-- a record after an attempt to change it; there are issues when the change was refused -/
structure Change (α : Type) where
  state : α
  issues : List Issue := []

namespace Change

variable {α β : Type}

/-- an attribute whose value passes `rule` is stored by `set`; a value that fails is not -/
def store (x : α) (attr : String) (v : Value) (rule : Value → Check β) (set : β → α) : Change α :=
  match (rule v).under (.key attr) with
  | .ok b => ⟨set b, []⟩
  | .bad is => ⟨x, is⟩

def unknown (x : α) (attr : String) : Change α := ⟨x, [⟨[.key attr], .noAttribute attr⟩]⟩

end Change

open Change (store unknown)
open Contract

def EnumDef.assign (x : EnumDef) (attr : String) (v : Value) : Change EnumDef :=
  match attr with
  | "name" => store x attr v (text 1) fun b => { x with name := b }
  | "values" => store x attr v enumValues fun b => { x with values := b }
  | "documentation" => store x attr v text? fun b => { x with documentation := b }
  | _ => unknown x attr

def DefaultGenerator.assign (x : DefaultGenerator) (attr : String) (v : Value) :
    Change DefaultGenerator :=
  match attr with
  | "name" => store x attr v (text 1) fun b => { x with name := b }
  | "args" => store x attr v list fun b => { x with args := b }
  | _ => unknown x attr

def Field.assign (x : Field) (attr : String) (v : Value) : Change Field :=
  let put {β : Type} (rule : Value → Check β) (set : β → Field) : Change Field :=
    store x attr v rule fun b => (set b).withFlag
  match attr with
  | "name" => put (text 1) fun b => { x with name := b }
  | "type" => put (text 1) fun b => { x with type := b }
  | "kind" => put kindOf fun b => { x with kind := b }
  | "is_required" => put bool fun b => { x with isRequired := b }
  | "is_list" => put bool fun b => { x with isList := b }
  | "is_id" => put bool fun b => { x with isId := b }
  | "is_unique" => put bool fun b => { x with isUnique := b }
  | "is_updated_at" => put bool fun b => { x with isUpdatedAt := b }
  | "has_default_value" => put bool fun b => { x with hasDefault := b }
  | "default" => put defaultOf fun b => { x with default := b }
  | "db_name" => put text? fun b => { x with dbName := b }
  | "documentation" => put text? fun b => { x with documentation := b }
  | "relation_from_fields" => put texts fun b => { x with relationFrom := b }
  | "relation_to_fields" => put texts fun b => { x with relationTo := b }
  | _ => unknown x attr

def Model.assign (x : Model) (attr : String) (v : Value) : Change Model :=
  match attr with
  | "name" => store x attr v (text 1) fun b => { x with name := b }
  | "db_name" => store x attr v text? fun b => { x with dbName := b }
  | "documentation" => store x attr v text? fun b => { x with documentation := b }
  | "fields" => store x attr v (listOf fieldOf) fun b => { x with fields := b }
  | _ => unknown x attr

def Datamodel.assign (x : Datamodel) (attr : String) (v : Value) : Change Datamodel :=
  match attr with
  | "provider" => store x attr v providerOf fun b => { x with provider := b }
  | "models" => store x attr v (someOf modelOf) fun b => { x with models := b }
  | "enums" => store x attr v (listOf enumOf) fun b => { x with enums := b }
  | "source_file" => store x attr v text? fun b => { x with sourceFile := b }
  | _ => unknown x attr

def CrudConfig.assign (x : CrudConfig) (attr : String) (v : Value) : Change CrudConfig :=
  match attr with
  | "output_dir" => store x attr v (text 1) fun b => { x with outputDir := b }
  | "include_models" => store x attr v texts fun b => { x with includeModels := b }
  | "exclude_models" => store x attr v texts fun b => { x with excludeModels := b }
  | "pagination_strategy" => store x attr v paginationOf fun b => { x with pagination := b }
  | "max_page_size" => store x attr v pageSizeOf fun b => { x with maxPageSize := b }
  | "generate_index" => store x attr v bool fun b => { x with generateIndex := b }
  | "timestamp_field_names" => store x attr v texts fun b => { x with timestampNames := b }
  | _ => unknown x attr

/-- the new settings stay even when they contradict each other -/
def Config.assign (x : Config) (attr : String) (v : Value) : Change Config :=
  let put {β : Type} (rule : Value → Check β) (set : β → Config) : Change Config :=
    let r := store x attr v rule set
    match r.issues, r.state.objection? with
    | [], some t => ⟨r.state, [⟨[], .rejected t⟩]⟩
    | _, _ => r
  match attr with
  | "camel_case" => put bool fun b => { x with camelCase := b }
  | "generate_zod_schemas" => put bool fun b => { x with zodSchemas := b }
  | "zod_schemas_dir" => put (text 1) fun b => { x with schemasDir := b }
  | "enum_file_name" => put (text 4) fun b => { x with enumFileName := b }
  | "use_default_validators" => put bool fun b => { x with defaultValidators := b }
  | "generate_brand_registry" => put bool fun b => { x with brandRegistry := b }
  | "brands_dir" => put (text 1) fun b => { x with brandsDir := b }
  | "strict_brands" => put bool fun b => { x with strictBrands := b }
  | "generate_three_layers" => put bool fun b => { x with threeLayers := b }
  | "layers_dir" => put (text 1) fun b => { x with layersDir := b }
  | "generate_crud_schemas" => put bool fun b => { x with crudSchemas := b }
  | "crud" => put crudConfigOf fun b => { x with crud := b }
  | "write_manifest" => put bool fun b => { x with writeManifest := b }
  | "concurrent_writes" => put bool fun b => { x with concurrentWrites := b }
  | _ => unknown x attr

def GeneratedFile.assign (x : GeneratedFile) (attr : String) (v : Value) : Change GeneratedFile :=
  match attr with
  | "family" => store x attr v (text 0) fun b => { x with family := b }
  | "relative_path" => store x attr v (text 1) fun b => { x with path := b }
  | "content" => store x attr v (text 0) fun b => { x with content := b }
  | _ => unknown x attr

def Contract.fileOf : Value → Check GeneratedFile :=
  record "GeneratedFile" ["family", "relative_path", "content"] fun es =>
    GeneratedFile.mk <$> need es "family" (text 0) <*> need es "relative_path" (text 1)
      <*> need es "content" (text 0)

end ZodSchema
