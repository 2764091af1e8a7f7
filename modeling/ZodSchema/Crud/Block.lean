import ZodSchema.TypeScript.Module
import ZodSchema.Json.Printer
import ZodSchema.Datamodel.Config

/-!
# CRUD blocks

The five schemas of a model as values, and the statements they are written as.

* `CreateBlock`, `UpdateBlock`, `ListBlock`, `IdentifierBlock`, `OptionSet`
* `...stmts`   the statements of each
-/

namespace ZodSchema.Crud

open TypeScript Text

inductive Operation where
  | create | update | list | get | delete
  deriving DecidableEq, Repr

namespace Operation

def all : List Operation := [create, update, list, get, delete]

def name : Operation → String
  | create => "Create"
  | update => "Update"
  | list => "List"
  | get => "Get"
  | delete => "Delete"

end Operation

/-- name of the arguments of an operation, given by its name -/
def argsName (operation model : String) : String :=
  operation ++ model ++ (if operation = "List" then "s" else "") ++ "Args"

/-- `ListUsersArgsSchema` -/
def argsSchemaName (operation model : String) : String := argsName operation model ++ "Schema"

/-- the type of a schema's values -/
def inferAlias (type : String) : Stmt := .typeDef type ("z.infer<typeof " ++ type ++ "Schema>")

/-- a constant whose lines end in a semicolon -/
def closedConst (name first : String) (rest : List String) : Stmt :=
  match rest.getLast? with
  | some last => .const name first (rest.dropLast ++ [last ++ ";"])
  | none => .const name (first ++ ";") []

/-- the member of a shape -/
def shapeMember (source key : String) : String := Text.member (source ++ ".shape") key

/-- call of `name` with an object literal of lines, or nothing without lines -/
def objectCall (name : String) (lines : List String) : List String :=
  if lines.isEmpty then []
  else ("  ." ++ name ++ "(\x7b") :: lines.map ("    " ++ ·) ++ ["  \x7d)"]

def trueEntry (key : String) : String := Text.key key ++ ": true,"

/-! ## create -/

/-- a default of an entry -/
def defaultText : Value → String
  | .null => ".nullable().default(null)"
  | .text s => if s = "now()" then ".default(() => new Date())" else ".default(" ++ quote s ++ ")"
  | v => ".default(" ++ Json.write v ++ ")"

/-- an entry that creation asks for -/
structure CreateMember where
  key : String
  default : Option Value := none
  /-- the model that a foreign key leads to -/
  target : Option String := none
  deriving Inhabited

/-- the schema is derived from its source, or spelled out -/
inductive CreateForm where
  | composed | rebuilt
  deriving DecidableEq, Repr, Inhabited

structure CreateBlock where
  model : String
  source : String
  form : CreateForm
  omitted : List String
  members : List CreateMember
  refine : Option String
  deriving Inhabited

namespace CreateBlock

def schema (b : CreateBlock) : String := argsSchemaName "Create" b.model

def memberLine (b : CreateBlock) (m : CreateMember) : String :=
  Text.key m.key ++ ": " ++ shapeMember b.source m.key ++ (m.default.map defaultText).getD "" ++ ","

/-- a check to be filled in by hand -/
def refineLines (message : String) : List String :=
  ["  .refine(", "    (data) => \x7b", "      // " ++ message,
    "      return true; // TODO: implement this check", "    \x7d,",
    "    \x7b message: " ++ quote message ++ " \x7d,", "  )"]

def composedLines (b : CreateBlock) : List String :=
  objectCall "omit" (b.omitted.map trueEntry) ++
    objectCall "extend" ((b.members.filter (·.default.isSome)).map b.memberLine)

def rebuiltLines (b : CreateBlock) : List String :=
  ["  .object(\x7b"] ++
    b.members.flatMap (fun m =>
      (m.target.map fun t => "    // Foreign key to " ++ t).toList ++ ["    " ++ b.memberLine m]) ++
    ["  \x7d)"]

def doc (b : CreateBlock) : List String :=
  ("Arguments for creating a " ++ b.model ++ ".") ::
    (if b.omitted.isEmpty then [] else ["Omits: " ++ Str.join ", " b.omitted ++ "."])

def stmts (b : CreateBlock) : List Stmt :=
  let refine := (b.refine.map fun m => if m = "" then [] else refineLines m).getD []
  let const := match b.form with
    | .composed => closedConst b.schema b.source (b.composedLines ++ refine)
    | .rebuilt => closedConst b.schema "z" (b.rebuiltLines ++ refine)
  [.doc b.doc, const, inferAlias (argsName "Create" b.model)]

end CreateBlock

/-! ## update -/

structure UpdateBlock where
  model : String
  source : String
  omitted : List String
  /-- identifier keys with their expressions -/
  ids : List (String × String)
  message : String
  deriving Inhabited

namespace UpdateBlock

def schema (b : UpdateBlock) : String := argsSchemaName "Update" b.model

/-- an identifier in the pattern that sets the identifiers apart -/
def patternItem (index : Nat) (key : String) : String :=
  if Text.key key = key then key else quote key ++ ": _id" ++ natText index

def patternFrom (index : Nat) : List String → List String
  | [] => []
  | k :: ks => patternItem index k :: patternFrom (index + 1) ks

/-- something besides the identifiers is given -/
def predicate (b : UpdateBlock) : String :=
  if b.ids.isEmpty then "(data) => Object.keys(data).length > 0"
  else "(\x7b " ++ Str.join ", " (patternFrom 0 (b.ids.map (·.1))) ++
    ", ...updateData \x7d) => Object.keys(updateData).length > 0"

def stmts (b : UpdateBlock) : List Stmt :=
  [.doc ["Arguments for updating a " ++ b.model ++ ".",
      "Every field is optional but at least one must be provided."],
    .const b.schema b.source
      (objectCall "omit" (b.omitted.map trueEntry) ++ ["  .partial()"] ++
        objectCall "extend" (b.ids.map fun i => Text.key i.1 ++ ": " ++ i.2 ++ ",") ++
        ["  .refine(", "    " ++ b.predicate ++ ",",
          "    \x7b message: " ++ quote b.message ++ " \x7d,", "  );"]),
    inferAlias (argsName "Update" b.model)]

end UpdateBlock

/-! ## list -/

/-- the filters of a list schema -/
structure WhereBlock where
  model : String
  source : String
  /-- keys that are compared with a value -/
  filters : List String
  /-- further filters with their expressions -/
  custom : List (String × String)
  jsonFilters : List Value
  deriving Inhabited

namespace WhereBlock

def schema (b : WhereBlock) : String := "List" ++ b.model ++ "sWhereArgsSchema"

def stmts (b : WhereBlock) : List Stmt :=
  [.const b.schema "z"
    (["  .object(\x7b"] ++
      b.filters.map (fun k =>
        "    " ++ Text.key k ++ ": " ++ shapeMember b.source k ++ ".optional(),") ++
      b.custom.map (fun f => "    " ++ Text.key f.1 ++ ": " ++ f.2 ++ ",") ++
      (if b.jsonFilters.isEmpty then []
        else "    // JSON path filters" ::
          b.jsonFilters.map fun v => "    // TODO: JSON filter " ++ Json.write v) ++
      ["  \x7d)", "  .optional();"])]

end WhereBlock

/-- sort options with the default, when it is one of them -/
structure SortOptions where
  options : List String
  default : Option String
  deriving Inhabited

structure ListBlock where
  model : String
  source : String
  filter : Option WhereBlock
  pagination : Pagination
  maxSize : Int
  /-- the only identifier key -/
  cursorKey : Option String
  sort : Option SortOptions
  orgScoped : Bool
  deriving Inhabited

namespace ListBlock

def schema (b : ListBlock) : String := argsSchemaName "List" b.model

def sizeCheck (b : ListBlock) : String :=
  "z.number().int().positive().max(" ++ intText b.maxSize ++ ").optional(),"

def offsetLines (b : ListBlock) : List String :=
  if b.pagination = .cursor then []
  else ["  // Offset pagination", "  offset: z.number().int().nonnegative().optional(),",
    "  limit: " ++ b.sizeCheck]

def cursorLines (b : ListBlock) : List String :=
  if b.pagination = .offset then []
  else
    let cursor := match b.cursorKey with
      | some k => shapeMember b.source k ++ ".optional()"
      | none => "z.string().optional()"
    ["  // Cursor pagination", "  cursor: " ++ cursor ++ ",", "  take: " ++ b.sizeCheck]

def sortLines (b : ListBlock) : List String :=
  "  // Sorting" ::
    match b.sort with
    | some s =>
      ["  orderBy: z.enum(" ++ quoteAll s.options ++ ")" ++
        (match s.default with
          | some d => ".default(" ++ quote d ++ "),"
          | none => ".optional(),")]
    | none =>
      ["  sortBy: z.string().optional(),", "  sortOrder: z.enum([\"asc\", \"desc\"]).optional(),"]

def filterLines (b : ListBlock) : List String :=
  "  // Filtering" ::
    match b.filter with
    | some w => ["  where: " ++ w.schema ++ ","]
    | none => ["  filters: " ++ b.source ++ ".partial().optional(),"]

def stmts (b : ListBlock) : List Stmt :=
  (match b.filter with
    | some w => w.stmts ++ [.blank]
    | none => []) ++
  [.doc ["Arguments for listing " ++ b.model ++ "s: pagination, sorting, filters."],
    .const b.schema "z.object(\x7b"
      (b.offsetLines ++ b.cursorLines ++ b.sortLines ++ b.filterLines ++
        (if b.orgScoped then
          ["  // Organization scoped: callers filter by the current organization."] else []) ++
        ["\x7d);"]),
    inferAlias (argsName "List" b.model)]

end ListBlock

/-! ## get and delete -/

structure IdentifierBlock where
  operation : Operation
  model : String
  /-- the base schema -/
  base : String
  keys : List String
  deriving Repr

namespace IdentifierBlock

def verb (b : IdentifierBlock) : String :=
  if b.operation = .get then "fetching" else "deleting"

def stmts (b : IdentifierBlock) : List Stmt :=
  let name := argsSchemaName b.operation.name b.model
  [.doc ["Arguments for " ++ b.verb ++ " a single " ++ b.model ++ "."],
    if b.keys.isEmpty then .const name "z.object(\x7b\x7d);" []
    else .const name (b.base ++ ".pick(\x7b")
      (b.keys.map (fun k => "  " ++ trueEntry k) ++ ["\x7d);"]),
    inferAlias (argsName b.operation.name b.model)]

end IdentifierBlock

/-! ## option sets -/

/-- a constant list of values and the type of its members -/
structure OptionSet where
  name : String
  values : List String
  deriving DecidableEq, Repr

def OptionSet.constant (o : OptionSet) : String := o.name ++ "Options"

def OptionSet.stmts (o : OptionSet) : List Stmt :=
  [.const o.constant (quoteAll o.values ++ " as const;") [],
    .typeDef o.name ("(typeof " ++ o.constant ++ ")[number]")]

end ZodSchema.Crud
