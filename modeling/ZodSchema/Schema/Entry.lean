import ZodSchema.Zod.Expr
import ZodSchema.Zod.Primitive
import ZodSchema.Datamodel.Config
import ZodSchema.Annotations.Prose
import ZodSchema.TypeScript.Doc
import ZodSchema.Text.Words

/-!
# Object entries

The entry of a field in the object schema of its model.

* `Entry`     key, expression and what the entry needs
* `emit`      the entry of a field
-/

namespace ZodSchema.Schema

open Zod TypeScript

structure Entry where
  key : String
  expr : Expr
  doc : List String := []
  imports : Imports := []
  /-- `.nullish()` is the outermost wrapper -/
  outerNullish : Bool := false
  warnings : List String := []
  deriving DecidableEq, Repr

/-- the comment and the line of an entry -/
def Entry.render (e : Entry) (indent : String) : List String :=
  docBlock e.doc indent ++ [indent ++ Text.key e.key ++ ": " ++ e.expr.render ++ ","]

/-- object key of a field: its stored name, in camel case if wanted -/
def fieldKey (f : Field) (camel : Bool) : String :=
  if camel then Text.Str.camelCase f.storageName else f.storageName

/-- the module of the enumerations, as seen from a base file -/
def enumModule (c : Config) : String := "./" ++ c.enumStem

/-! ## scalars -/

/-- checks that follow from the type and the default of a field, unless they are stated -/
def defaultValidators (f : Field) (a : Option Annotations) : List String :=
  let stated (names : List String) : Bool := a.any (·.hasValidator names)
  let generated (names : List String) : Bool := f.defaultGenerator.any (names.contains ·)
  if f.type = "String" then
    if generated ["cuid", "cuid2"] && !stated ["cuid", "cuid2"] then [".cuid2()"]
    else if generated ["uuid"] && !stated ["uuid"] then [".uuid()"]
    else []
  else if f.type = "Int" && !stated ["int"] then [".int()"]
  else []

/-- primitive, members and brand of a scalar field -/
def scalarExpr (c : Config) (d : Datamodel) (f : Field) (a : Option Annotations) : Expr :=
  let validators := (a.map (·.validators)).getD []
  let brand := (a.map (·.brandMarker)).getD ""
  match a.bind topLevelBase? with
  | some base => { opening := base, members := chainable validators.tail, brand := brand }
  | none =>
    { opening := baseExpression d.provider.value f.type
      members := (if c.defaultValidators then defaultValidators f a else []) ++ chainable validators
      brand := brand }

/-! ## enumerations and external types -/

def unknownExpr : Expr := { opening := "z.unknown()" }

/-- module and type of an import reference at the head -/
def importRefAt? (cs : List Char) : Option (String × String) :=
  match Text.dropStart? "import(".toList cs with
  | some rest =>
    match Annotations.quotedAt? rest with
    | some (path, rest) =>
      match Text.dropStart? ").".toList rest with
      | some rest =>
        match rest.takeWhile Text.isWord with
        | [] => none
        | name => some (String.ofList path, String.ofList name)
      | none => none
    | none => none
  | none => none

/-- module and schema of the first import reference in a member of an external type -/
def importRef? (member : String) : Option (String × String) :=
  (Annotations.firstAlong importRefAt? member.toList).map fun r => (r.1, r.2 ++ "Schema")

/-- the members of an external type that are not `null` -/
def overrideMembers (override : String) : List String :=
  ((Text.Str.splitOn '|' override).map Text.Str.trim).filter (· ≠ "null")

/-- modules and schemas that an external type names -/
def overrideRefs (override : String) : List (String × String) :=
  (overrideMembers override).filterMap importRef?

/-- text values are read as JSON before they are checked -/
def jsonPreprocess : String :=
  "(val) => \x7b if (typeof val === \"string\") \x7b try \x7b return JSON.parse(val); \x7d " ++
  "catch \x7b return val; \x7d \x7d return val; \x7d"

def overrideExpr (schemas : List String) : Expr :=
  let target := match schemas with
    | [s] => s
    | ss => "z.union([" ++ Text.Str.join ", " ss ++ "])"
  { opening := "z.preprocess(" ++ jsonPreprocess ++ ", " ++ target ++ ")" }

/-- an expression with its imports and warnings -/
structure Draft where
  expr : Expr
  imports : Imports := []
  warnings : List String := []

def overrideDraft (override : String) : Draft :=
  match overrideRefs override with
  | [] =>
    { expr := unknownExpr
      warnings := ["External type override '" ++ override ++
        "' names no importable schema; emitting z.unknown()."] }
  | refs =>
    { expr := overrideExpr (refs.map (·.2)).eraseDups
      imports := Imports.merge (refs.map fun r => [(r.1, [r.2])]) }

def enumDraft (c : Config) (d : Datamodel) (f : Field) : Draft :=
  if (d.enum? f.type).isSome then
    { expr := { opening := "z.nativeEnum(" ++ f.type ++ ")" }
      imports := [(enumModule c, [f.type])] }
  else
    { expr := unknownExpr
      warnings := ["Field '" ++ f.name ++ "' references unknown enum '" ++ f.type ++
        "'; emitting z.unknown()."] }

/-! ## the entry -/

/-- the draft of a field, and whether its members come from the annotation's chain -/
def draft (c : Config) (d : Datamodel) (f : Field) (a : Option Annotations) : Draft × Bool :=
  match a.bind (·.typeOverride) with
  | some o => (overrideDraft o, false)
  | none =>
    match f.kind.value with
    | .enumeration => (enumDraft c d f, false)
    | .scalar => ({ expr := scalarExpr c d f a }, true)
    | _ => ({ expr := unknownExpr }, false)

/-- the last member of the chain of a field that is no list says that the value may be missing -/
def chainEndsNullish (f : Field) (a : Option Annotations) : Bool :=
  match a with
  | some a =>
    a.declaresNullability && !f.isList &&
      (a.validators.getLast?.map asNullish == some nullish)
  | none => false

/-- the entry of a field: a nullable field ends in `.nullish()` unless its chain has said so -/
def emit (c : Config) (d : Datamodel) (f : Field) : Entry :=
  let a := Annotations.of? f.documentation
  let (dr, chained) := draft c d f a
  let declared := chained && a.any (·.declaresNullability)
  let wrap := f.isNullable && !declared
  { key := fieldKey f c.camelCase
    expr := { dr.expr with
      list := f.isList
      nullish := wrap
      description := a.bind (·.description) }
    doc := (f.documentation.map Annotations.prose).getD []
    imports := dr.imports
    outerNullish := wrap || (chained && chainEndsNullish f a)
    warnings := dr.warnings }

end ZodSchema.Schema
