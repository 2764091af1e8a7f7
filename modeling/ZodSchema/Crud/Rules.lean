import ZodSchema.Crud.Args
import ZodSchema.Assoc
import ZodSchema.Display
import ZodSchema.Annotations.Directive
import ZodSchema.Datamodel.Config
import ZodSchema.Text.Lower

/-!
# CRUD rules

What the directives of a model and of its fields ask of the CRUD schemas.

* `ModelRules.apply`  one directive of a model
* `fieldRules?`       the directives of a field
* `rulesOf`           all rules of a model
* `longInteger?`      an integer in the arguments that is too long to be read
-/

namespace ZodSchema.Crud

open Annotations (Rule scanRules)

structure CreateRules where
  omitted : List String := []
  defaults : Value.Entries := []
  refine : Option String := none
  deriving Inhabited

structure UpdateRules where
  omitted : List String := []
  immutable : List String := []
  refine : Option String := none
  deriving Inhabited

structure ListRules where
  filters : List String := []
  customFilters : List String := []
  customTypes : List (String × String) := []
  jsonFilters : List Value := []
  orderBy : List String := []
  defaultOrder : Option String := none
  maxPageSize : Option Int := none
  pagination : Option Pagination := none
  deriving Inhabited

/-- some filter is declared -/
def ListRules.hasWhere (r : ListRules) : Bool :=
  !(r.filters.isEmpty && r.customFilters.isEmpty && r.customTypes.isEmpty && r.jsonFilters.isEmpty)

structure FieldRules where
  /-- the default, when there is one -/
  default : Option Value := none
  omitFrom : List String := []
  deriving Inhabited

structure ModelRules where
  create : CreateRules := {}
  update : UpdateRules := {}
  list : ListRules := {}
  enums : List (String × List String) := []
  orgScoped : Bool := false
  fields : List (String × FieldRules) := []
  deriving Inhabited

/-- text of a key that may be no text -/
def entryText (e : Value × Value) : String × String := (Display.plain e.1, Display.plain e.2)

/-- values of an enumeration: a JSON list, or items in any quotes -/
def enumValues (raw : String) : List String :=
  match Json.read? raw with
  | some (.list vs) => vs.map Display.plain
  | _ => arrayArg raw

namespace ModelRules

/-- takes up one directive of the model; an argument that cannot be read changes nothing, save
that a page size is forgotten -/
def apply (r : ModelRules) (d : Rule) : ModelRules :=
  let raw := d.args
  match d.key with
  | "create.omit" => { r with create.omitted := r.create.omitted ++ arrayArg raw }
  | "create.defaults" =>
    match jsonObject? raw with
    | some es =>
      { r with
        create.defaults := es.foldl (fun acc e => Value.put e.1 e.2 acc) r.create.defaults }
    | none => r
  | "create.refine" => { r with create.refine := some (stringArg raw) }
  | "update.omit" => { r with update.omitted := r.update.omitted ++ arrayArg raw }
  | "update.immutable" => { r with update.immutable := r.update.immutable ++ arrayArg raw }
  | "update.refine" => { r with update.refine := some (stringArg raw) }
  | "list.filters" => { r with list.filters := r.list.filters ++ arrayArg raw }
  | "list.customFilters" => { r with list.customFilters := r.list.customFilters ++ arrayArg raw }
  | "list.customFilterTypes" =>
    match jsonObject? raw with
    | some es =>
      { r with list.customTypes :=
          (es.map entryText).foldl (fun acc e => Assoc.put e.1 e.2 acc) r.list.customTypes }
    | none => r
  | "list.jsonFilter" =>
    match jsonArg? raw with
    | some v => { r with list.jsonFilters := r.list.jsonFilters ++ [v] }
    | none => r
  | "list.orderBy" => { r with list.orderBy := r.list.orderBy ++ arrayArg raw }
  | "list.defaultOrder" => { r with list.defaultOrder := some (stringArg raw) }
  | "list.maxPageSize" => { r with list.maxPageSize := intArg? raw }
  | "list.pagination" =>
    match Pagination.ofName? (stringArg raw) with
    | some p => { r with list.pagination := some p }
    | none => r
  | "orgScoped" => { r with orgScoped := Text.Str.lower (stringArg raw) == "true" }
  | key =>
    match Text.dropStart? "enum.".toList key.toList with
    | some name => { r with enums := Assoc.put (String.ofList name) (enumValues raw) r.enums }
    | none => r

/-- the rules of a field, empty ones when it states none -/
def field (r : ModelRules) (name : String) : FieldRules := (Assoc.get? name r.fields).getD {}

end ModelRules

/-- takes up one directive of a field -/
def FieldRules.apply (r : FieldRules) (d : Rule) : FieldRules :=
  if d.key = "default" then
    match Json.read? d.args with
    | some v => { r with default := some v }
    | none => r
  else if d.key = "omit" then { r with omitFrom := r.omitFrom ++ arrayArg d.args }
  else r

/-- a directive that a field takes up -/
def countsForField (d : Rule) : Bool :=
  (d.key == "default" && (Json.read? d.args).isSome) || d.key == "omit"

def fieldRules? (ds : List Rule) : Option FieldRules :=
  if ds.any countsForField then some (ds.foldl FieldRules.apply {}) else none

def docRules (doc : Option String) : List Rule := (doc.map scanRules).getD []

/-- all rules of a model and its fields -/
def rulesOf (m : Model) : ModelRules :=
  let r := (docRules m.documentation).foldl ModelRules.apply {}
  m.fields.foldl (fun r f =>
    match fieldRules? (docRules f.documentation) with
    | some fr => { r with fields := Assoc.put f.name fr r.fields }
    | none => r) r

/-- keys of a model's directives whose argument is read as JSON -/
def readsJson (key : String) : Bool :=
  ["create.defaults", "list.customFilterTypes", "list.jsonFilter"].contains key ||
    Text.Str.startsWith key "enum."

/-- the arguments that are read as JSON, those of the model before those of its fields -/
def jsonArgs (m : Model) : List String :=
  ((docRules m.documentation).filter fun d => readsJson d.key).map (·.args) ++
    m.fields.flatMap fun f =>
      ((docRules f.documentation).filter fun d => d.key == "default").map (·.args)

/-- the number of digits of an integer that is too long, the first one in the rules of a model;
other arguments that cannot be read change nothing, but no schemas come of a model with this -/
def longInteger? (m : Model) : Option Nat := (jsonArgs m).findSome? longIntegerIn?

end ZodSchema.Crud
