import ZodSchema.Datamodel.Basic
import ZodSchema.Text.Chars

/-!
# Generator settings and generated files

* `CrudConfig`, `Config`   settings and their defaults
* `Config.familyDirs`      the directories of the enabled families
* `GeneratedFile`          a file awaiting export
-/

namespace ZodSchema

/-- paging members of list schemas -/
inductive Pagination where
  | offset | cursor | both
  deriving DecidableEq, Repr, Inhabited

namespace Pagination

def all : List Pagination := [offset, cursor, both]

def name : Pagination → String
  | offset => "offset"
  | cursor => "cursor"
  | both => "both"

def ofName? (s : String) : Option Pagination := all.find? (·.name == s)

end Pagination

structure CrudConfig where
  outputDir : String := "crud"
  includeModels : List String := []
  excludeModels : List String := []
  pagination : Pagination := .offset
  maxPageSize : Int := 100
  generateIndex : Bool := true
  timestampNames : List String := ["created_at", "createdAt", "updated_at", "updatedAt"]
  deriving DecidableEq, Repr, Inhabited

/-- the list of models to include decides when it is not empty, the other list otherwise -/
def CrudConfig.includes (c : CrudConfig) (model : String) : Bool :=
  if c.includeModels.isEmpty then !c.excludeModels.contains model
  else c.includeModels.contains model

/-- families of generated files -/
inductive Family where
  | schemas | brands | layers | crud
  deriving DecidableEq, Repr, Inhabited

def Family.name : Family → String
  | schemas => "schemas"
  | brands => "brands"
  | layers => "layers"
  | crud => "crud"

structure Config where
  camelCase : Bool := false
  zodSchemas : Bool := true
  schemasDir : String := "schemas"
  enumFileName : String := "enums.ts"
  defaultValidators : Bool := true
  brandRegistry : Bool := false
  brandsDir : String := "brands"
  strictBrands : Bool := true
  threeLayers : Bool := false
  layersDir : String := "layers"
  crudSchemas : Bool := false
  crud : CrudConfig := {}
  writeManifest : Bool := false
  concurrentWrites : Bool := true
  deriving DecidableEq, Repr, Inhabited

namespace Config

/-- enabled families with their directories -/
def familyDirs (c : Config) : List (Family × String) :=
  (if c.zodSchemas then [(.schemas, c.schemasDir)] else []) ++
  (if c.brandRegistry then [(.brands, c.brandsDir)] else []) ++
  (if c.threeLayers then [(.layers, c.layersDir)] else []) ++
  (if c.crudSchemas then [(.crud, c.crud.outputDir)] else [])

/-- the enum file without its ending -/
def enumStem (c : Config) : String := Text.Str.dropLast 3 c.enumFileName

end Config

structure GeneratedFile where
  family : String
  path : String
  content : String
  deriving DecidableEq, Repr, Inhabited

/-- line feeds and one more, none in an empty file -/
def GeneratedFile.lineCount (f : GeneratedFile) : Nat :=
  if f.content = "" then 0 else Text.countChar '\n' f.content.toList + 1

end ZodSchema
