import ZodSchema.Crud.Build
import ZodSchema.Text.Path

/-!
# CRUD files

* `contextOf`   the sources of a model's blocks, with or without layers
* `crudFiles`   a file per eligible model, and an index if wanted
-/

namespace ZodSchema.Crud

open TypeScript Schema

/-- what the generation of the family is based on -/
structure Base where
  config : Config
  datamodel : Datamodel
  /-- the layers are there to derive from -/
  layered : Bool
  registry : Option Brand.Registry

/-- models that the settings include, in the order of their names -/
def eligible (c : Config) (d : Datamodel) : List Model :=
  (d.models.filter fun m => c.crud.includes m.name).mergeSort fun a b => decide (a.name ≤ b.name)

def contextOf (b : Base) (m : Model) : Context :=
  { config := b.config
    model := m
    entries := entries b.config b.datamodel m
    source := if b.layered then m.name ++ "RuntimeSchema" else Schema.schemaName m.name
    form := if b.layered then .composed else .rebuilt
    registry := b.registry
    rules := rulesOf m }

def setOf (b : Base) (m : Model) : Reported CrudSet := (contextOf b m).crudSet

/-- the schemas that the blocks refer to, by module -/
def sourceImports (workDir : Text.Parts) (b : Base) (s : CrudSet) : Imports :=
  let rel (dir : String) := Text.relativeModule workDir b.config.crud.outputDir dir
  let base : Imports := [(rel b.config.schemasDir, [Schema.schemaName s.model])]
  if b.layered then Assoc.put (rel b.config.layersDir) [s.source] base else base

def crudFile (workDir : Text.Parts) (b : Base) (m : Model) : SourceFile :=
  let s := (setOf b m).value
  let dir := b.config.crud.outputDir
  let brands := Text.quote (Text.relativeModule workDir dir b.config.brandsDir)
  { family := Family.crud.name
    path := dir ++ "/" ++ m.name ++ ".schema.ts"
    stmts := header ++ [zodImport] ++
      (if s.usesBrands then [.importAll "brands" brands] else []) ++
      [.imports (sourceImports workDir b s), .blank] ++
      (if s.options.isEmpty then [] else s.options.flatMap OptionSet.stmts ++ [.blank]) ++
      Operation.all.flatMap fun op => s.stmts op ++ [.blank] }

def crudIndex (b : Base) (models : List Model) : SourceFile :=
  indexFile Family.crud.name b.config.crud.outputDir (models.map fun m => m.name ++ ".schema")

def crudFiles (workDir : Text.Parts) (b : Base) : List SourceFile :=
  let models := eligible b.config b.datamodel
  models.map (crudFile workDir b) ++
    (if b.config.crud.generateIndex then [crudIndex b models] else [])

/-- warnings of the family's files -/
def crudWarnings (b : Base) : List String :=
  (eligible b.config b.datamodel).flatMap fun m => (setOf b m).warnings

end ZodSchema.Crud
