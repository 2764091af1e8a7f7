import ZodSchema.Schema.Entry
import ZodSchema.TypeScript.Module

/-!
# Base schemas

One file per model, one for the enumerations, and an index.

* `entries`     the entries of a model, with their fields
* `modelFile`, `enumFile?`, `indexFile`, `baseFiles`
* `entryWarnings`  what emission had to say, once per model name
-/

namespace ZodSchema

/-- the first model of the same name -/
def Datamodel.firstOfName (d : Datamodel) (m : Model) : Model :=
  (d.models.find? (·.name == m.name)).getD m

namespace Schema

open TypeScript

/-- `UserSchema` -/
def schemaName (model : String) : String := model ++ "Schema"

/-- the fields of a model's schema with their entries; models of one name share them -/
def entries (c : Config) (d : Datamodel) (m : Model) : List (Field × Entry) :=
  (d.firstOfName m).emittedFields.map fun f => (f, emit c d f)

/-- file names end in `.ts` -/
def tsPath (dir module : String) : String := dir ++ "/" ++ module ++ ".ts"

def modelFile (c : Config) (d : Datamodel) (m : Model) : SourceFile :=
  let es := (entries c d m).map (·.2)
  { family := Family.schemas.name
    path := tsPath c.schemasDir m.name
    stmts := header ++ [zodImport, .imports (Imports.merge (es.map (·.imports))), .blank,
      .doc ((m.documentation.map Annotations.prose).getD []),
      .const (schemaName m.name) "z.object(\x7b"
        (es.flatMap (·.render "  ") ++ ["\x7d);"]),
      .blank] }

/-- the constant of an enumeration and the type of its values -/
def enumStmts (e : EnumDef) : List Stmt :=
  [.doc ((e.documentation.map Annotations.prose).getD []),
    .const e.name "\x7b"
      (e.values.map (fun v => "  " ++ Text.key v ++ ": " ++ Text.quote v ++ ",") ++
        ["\x7d as const;"]),
    .typeDef e.name ("(typeof " ++ e.name ++ ")[keyof typeof " ++ e.name ++ "]"),
    .blank]

/-- the file of the enumerations, when there are any -/
def enumFile? (c : Config) (d : Datamodel) : Option SourceFile :=
  if d.enums.isEmpty then none
  else some
    { family := Family.schemas.name
      path := c.schemasDir ++ "/" ++ c.enumFileName
      stmts := header ++ .blank :: d.enums.flatMap enumStmts }

/-- the modules of the family -/
def modules (c : Config) (d : Datamodel) : List String :=
  d.models.map (·.name) ++ (if d.enums.isEmpty then [] else [c.enumStem])

def baseIndex (c : Config) (d : Datamodel) : SourceFile :=
  indexFile Family.schemas.name c.schemasDir (modules c d)

def baseFiles (c : Config) (d : Datamodel) : List SourceFile :=
  d.sortedModels.map (modelFile c d) ++ (enumFile? c d).toList ++ [baseIndex c d]

/-- warnings of emission, once for each name, in the order of the models given -/
def warningsOf (c : Config) (d : Datamodel) (models : List Model) : List String :=
  (models.map (·.name)).eraseDups.flatMap fun n =>
    match d.models.find? (·.name == n) with
    | some m => (entries c d m).flatMap (·.2.warnings)
    | none => []

def entryWarnings (c : Config) (d : Datamodel) : List String := warningsOf c d d.sortedModels

end Schema

end ZodSchema
