import ZodSchema.Crud.Block
import ZodSchema.Crud.Rules
import ZodSchema.Layer.Basic
import ZodSchema.Text.Words

/-!
# Building CRUD blocks

The blocks of a model from its entries and its rules.  Rules name fields by their names, their
keys or their stored names; a name that no entry has is reported.

* `Context`    what the blocks of a model are built from
* `crudSet`    the blocks, with warnings
-/

namespace ZodSchema.Crud

open Schema Brand

structure Context where
  config : Config
  model : Model
  entries : List (Field × Entry)
  source : String
  form : CreateForm
  registry : Option Registry
  rules : ModelRules

/-- the blocks of a model -/
structure CrudSet where
  model : String
  source : String
  options : List OptionSet
  create : CreateBlock
  update : UpdateBlock
  list : ListBlock
  get : IdentifierBlock
  delete : IdentifierBlock
  usesBrands : Bool

namespace CrudSet

/-- the statements of an operation -/
def stmts (s : CrudSet) : Operation → List TypeScript.Stmt
  | .create => s.create.stmts
  | .update => s.update.stmts
  | .list => s.list.stmts
  | .get => s.get.stmts
  | .delete => s.delete.stmts

end CrudSet

/-- a value and what is to be reported about it -/
structure Reported (α : Type) where
  value : α
  warnings : List String := []

namespace Context

/-! ## look-up -/

/-- a name by which rules may speak of an entry -/
def answersTo (name : String) (p : Field × Entry) : Bool :=
  name == p.1.name || name == p.2.key || name == p.1.storageName

def entry? (x : Context) (name : String) : Option (Field × Entry) :=
  x.entries.find? (answersTo name)

def unknownWarning (x : Context) (directive name : String) : String :=
  "Unknown field '" ++ name ++ "' in @crud." ++ directive ++ " on model '" ++ x.model.name ++
    "'; ignoring it."

/-- keys of the entries that the names speak of, each once, and a warning for every other name -/
def resolve (x : Context) (directive : String) (names : List String) : Reported (List String) :=
  { value := (names.filterMap fun n => (x.entry? n).map (·.2.key)).eraseDups
    warnings := (names.filter fun n => (x.entry? n).isNone).map (x.unknownWarning directive) }

def ids (x : Context) : List (Field × Entry) := x.entries.filter (·.1.isId)

def idKeys (x : Context) : List String := x.ids.map (·.2.key)

/-- a time stamp by its key or its stored name -/
def isTimestamp (x : Context) (p : Field × Entry) : Bool :=
  x.config.crud.timestampNames.contains p.2.key ||
    x.config.crud.timestampNames.contains p.1.storageName

def shape (x : Context) (key : String) : String := shapeMember x.source key

def fieldRules (x : Context) (f : Field) : FieldRules := x.rules.field f.name

/-! ## create -/

/-- left to the store or left out by a rule -/
def omitsOnCreate (x : Context) (omitKeys : List String) (p : Field × Entry) : Bool :=
  let f := p.1
  (x.fieldRules f).omitFrom.contains "create" ||
    omitKeys.contains p.2.key ||
    f.isRelation ||
    (f.isId && f.hasDefault) ||
    f.isUpdatedAt ||
    f.defaultGenerator == some "now" ||
    (f.hasDefault && x.isTimestamp p)

/-- the defaults of the model's rules by key; the last one of a key counts -/
def createDefaults (x : Context) : Reported (List (String × Value)) :=
  { value := x.rules.create.defaults.filterMap fun e =>
      (x.entry? (Display.plain e.1)).map fun p => (p.2.key, e.2)
    warnings := (x.rules.create.defaults.filter fun e =>
      (x.entry? (Display.plain e.1)).isNone).map fun e =>
        x.unknownWarning "create.defaults" (Display.plain e.1) }

/-- the default of an entry: that of its own field comes first -/
def createDefault? (x : Context) (defaults : List (String × Value)) (p : Field × Entry) :
    Option Value :=
  match (x.fieldRules p.1).default with
  | some v => some v
  | none => Assoc.get? p.2.key defaults.reverse

def createBlock (x : Context) : Reported CreateBlock :=
  let dropped := x.resolve "create.omit" x.rules.create.omitted
  let defaults := x.createDefaults
  let kept := x.entries.filter fun p => !x.omitsOnCreate dropped.value p
  { value :=
      { model := x.model.name
        source := x.source
        form := x.form
        omitted := (x.entries.filter (x.omitsOnCreate dropped.value)).map (·.2.key)
        members := kept.map fun p =>
          { key := p.2.key
            default := x.createDefault? defaults.value p
            target := x.model.foreignKeyTarget? p.1.name }
        refine := x.rules.create.refine }
    warnings := dropped.warnings ++ defaults.warnings }

/-! ## update -/

def defaultUpdateMessage : String := "At least one field must be provided for update"

/-- the brand of an identifier, or its member of the source -/
def idExpr (x : Context) (p : Field × Entry) : String :=
  match x.registry.bind (·.fieldBrand? x.model p.1) with
  | some b => "brands." ++ b
  | none => x.shape p.2.key

def usesBrands (x : Context) : Bool :=
  x.ids.any fun p => (x.registry.bind (·.fieldBrand? x.model p.1)).isSome

def updateBlock (x : Context) : Reported UpdateBlock :=
  let dropped := x.resolve "update.omit" x.rules.update.omitted
  let immutable := x.resolve "update.immutable" x.rules.update.immutable
  let all := (x.entries.filter x.isTimestamp).map (·.2.key) ++ dropped.value ++ immutable.value ++
    (x.entries.filter fun p => (x.fieldRules p.1).omitFrom.contains "update").map (·.2.key)
  let message := match x.rules.update.refine with
    | some m => if m = "" then defaultUpdateMessage else m
    | none => defaultUpdateMessage
  { value :=
      { model := x.model.name
        source := x.source
        omitted := (all.filter fun k => !x.idKeys.contains k).eraseDups
        ids := x.ids.map fun p => (p.2.key, x.idExpr p)
        message := message }
    warnings := dropped.warnings ++ immutable.warnings }

/-! ## list -/

/-- the items of a filter type that enumerates its values -/
def enumShape? (shape : String) : Option (List Char) :=
  match Text.dropStart? "enum(".toList (Text.trimLeft shape.toList) with
  | some rest =>
    match Text.trimLeft rest with
    | '[' :: rest =>
      match (Text.trimRight rest).reverse with
      | ')' :: rest =>
        match Text.trimLeft rest with
        | ']' :: inner => some inner.reverse
        | _ => none
      | _ => none
    | _ => none
  | none => none

def rangeSuffixes : List String := ["_gte", "_lte", "_gt", "_lt"]

/-- the check of a filter: by its declared type, otherwise by the ending of its name -/
def customFilter (x : Context) (name : String) : String :=
  match Assoc.get? name x.rules.list.customTypes with
  | some shape =>
    if (enumShape? shape).isSome then
      "z.enum(" ++ Text.Str.pascalCase name ++ "Options).optional()"
    else shape
  | none =>
    if Text.Str.endsWith name "_contains" then
      "z.string().optional().describe(" ++
        Text.quote ("Filter by " ++ Text.Str.dropLast 9 name ++ " containing text") ++ ")"
    else if rangeSuffixes.any (Text.Str.endsWith name ·) then
      "z.string().optional().describe(\"ISO date string for filtering\")"
    else "z.string().optional()"

/-- declared filters, then those that have a type only -/
def customNames (x : Context) : List String :=
  let r := x.rules.list
  r.customFilters ++ (r.customTypes.map (·.1)).filter fun n => !r.customFilters.contains n

def whereBlock (x : Context) : Reported WhereBlock :=
  let filters := x.resolve "list.filters" x.rules.list.filters
  { value :=
      { model := x.model.name
        source := x.source
        filters := filters.value
        custom := x.customNames.map fun n => (n, x.customFilter n)
        jsonFilters := x.rules.list.jsonFilters }
    warnings := filters.warnings }

/-- ascending and descending order of every sort field -/
def sortOptions (orderBy : List String) : List String :=
  orderBy.flatMap fun f => [f ++ "_asc", f ++ "_desc"]

def sort (x : Context) : Reported (Option SortOptions) :=
  let r := x.rules.list
  if r.orderBy.isEmpty then ⟨none, []⟩
  else
    let options := sortOptions r.orderBy
    match r.defaultOrder with
    | none => ⟨some ⟨options, none⟩, []⟩
    | some o =>
      if options.contains o then ⟨some ⟨options, some o⟩, []⟩
      else
        ⟨some ⟨options, none⟩,
          if o = "" then []
          else ["@crud.list.defaultOrder '" ++ o ++ "' on model '" ++ x.model.name ++
            "' is not a declared sort option; ignoring it."]⟩

/-- the page size of the rules, unless it is missing or zero -/
def maxSize (x : Context) : Int :=
  match x.rules.list.maxPageSize with
  | some n => if n = 0 then x.config.crud.maxPageSize else n
  | none => x.config.crud.maxPageSize

def listBlock (x : Context) : Reported ListBlock :=
  let filter : Reported (Option WhereBlock) :=
    if x.rules.list.hasWhere then ⟨some x.whereBlock.value, x.whereBlock.warnings⟩ else ⟨none, []⟩
  let sort := x.sort
  { value :=
      { model := x.model.name
        source := x.source
        filter := filter.value
        pagination := x.rules.list.pagination.getD x.config.crud.pagination
        maxSize := x.maxSize
        cursorKey := match x.idKeys with
          | [k] => some k
          | _ => none
        sort := sort.value
        orgScoped := x.rules.orgScoped }
    warnings := filter.warnings ++ sort.warnings }

/-! ## get, delete and options -/

def identifierBlock (x : Context) (op : Operation) : IdentifierBlock :=
  ⟨op, x.model.name, Schema.schemaName x.model.name, x.idKeys⟩

/-- the name of an option set, without a closing `Enum` -/
def optionBase (name : String) : String :=
  if Text.Str.endsWith name "Enum" then Text.Str.dropLast 4 name else name

/-- takes up the option set of a filter type that enumerates its values -/
def addFilterOptions (x : Context) (acc : Reported (List (String × List String)))
    (t : String × String) : Reported (List (String × List String)) :=
  match enumShape? t.2 with
  | none => acc
  | some inner =>
    let base := Text.Str.pascalCase t.1
    let values := (quotedItemsFrom 0 inner).map String.ofList
    match Assoc.get? base acc.value with
    | some old =>
      if old = values then acc
      else
        { acc with warnings := acc.warnings ++
            ["Option set '" ++ base ++ "Options' on model '" ++ x.model.name ++
              "' is declared twice with different values; keeping the first."] }
    | none => { acc with value := acc.value ++ [(base, values)] }

def optionSets (x : Context) : Reported (List OptionSet) :=
  let declared := x.rules.enums.foldl (fun acc e => Assoc.put (optionBase e.1) e.2 acc) []
  let r := x.rules.list.customTypes.foldl x.addFilterOptions ⟨declared, []⟩
  ⟨r.value.map fun e => ⟨e.1, e.2⟩, r.warnings⟩

/-! ## the set -/

def crudSet (x : Context) : Reported CrudSet :=
  let options := x.optionSets
  let create := x.createBlock
  let update := x.updateBlock
  let list := x.listBlock
  { value :=
      { model := x.model.name
        source := x.source
        options := options.value
        create := create.value
        update := update.value
        list := list.value
        get := x.identifierBlock .get
        delete := x.identifierBlock .delete
        usesBrands := x.usesBrands }
    warnings := options.warnings ++ create.warnings ++ update.warnings ++ list.warnings }

end Context

end ZodSchema.Crud
