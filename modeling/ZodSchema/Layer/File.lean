import ZodSchema.Layer.Basic
import ZodSchema.Text.Path
import ZodSchema.Text.Lower

/-!
# Layer files

* `layerStmts`     the statements of one layer
* `conversions`    functions from layer to layer
* `layerFiles`     a file per model, the shared transforms and an index
-/

namespace ZodSchema.Layer

open TypeScript Schema

def layerStmts (l : LayerSchema) : List Stmt :=
  let base := Schema.schemaName l.model
  [.doc [l.kind.description],
    if l.isIdentity then .const l.schemaName (base ++ ";") []
    else .const l.schemaName (base ++ ".extend(\x7b")
      (l.overrides.map (fun o => "  " ++ Text.key o.key ++ ": " ++ o.expr ++ ",") ++ ["\x7d);"]),
    .typeDef l.typeName ("z.infer<typeof " ++ l.schemaName ++ ">")]

def layerText (l : LayerSchema) : List String := (layerStmts l).flatMap Stmt.lines

/-- `userprofile.schemas` -/
def moduleName (model : String) : String := Text.Str.lower model ++ ".schemas"

def conversions (model : String) : List Stmt :=
  let first := Text.Str.lowerFirst model
  let db := model ++ "DB"
  let runtime := model ++ "Runtime"
  let api := model ++ "API"
  [.doc ["Database representation to runtime values."],
    .func (first ++ "DBToRuntime") db runtime (runtime ++ "Schema.parse(data)"), .blank,
    .doc ["Runtime values to the external representation."],
    .func (first ++ "RuntimeToAPI") runtime api (api ++ "Schema.parse(data)"), .blank,
    .doc ["Database representation straight to the external one."],
    .func (first ++ "DBToAPI") db api
      (first ++ "RuntimeToAPI(" ++ first ++ "DBToRuntime(data))"), .blank]

def usesBrands (ls : List LayerSchema) : Bool :=
  ls.any fun l => l.overrides.any fun o => o.brand.any (· ≠ "")

def layerFile (workDir : Text.Parts) (c : Config) (d : Datamodel) (r : Option Brand.Registry)
    (m : Model) : SourceFile :=
  let ls := layersOf c d r m
  let literal (dir : String) := "\"" ++ Text.relativeModule workDir c.layersDir dir ++ "\""
  { family := Family.layers.name
    path := tsPath c.layersDir (moduleName m.name)
    stmts := header ++
      [zodImport, .importNames [Schema.schemaName m.name] (literal c.schemasDir)] ++
      (if usesBrands ls then [.importAll "brands" (literal c.brandsDir)] else []) ++ [.blank] ++
      ls.flatMap (fun l => layerStmts l ++ [.blank]) ++ conversions m.name }

def transformModule : String := "transform-utils"

/-- transforms that no model owns -/
def transformFile (c : Config) : SourceFile :=
  { family := Family.layers.name
    path := tsPath c.layersDir transformModule
    stmts := header ++ [zodImport, .blank,
      .doc ["Storage boolean (0/1) to boolean."],
      .const "sqliteBoolean" "z.number().transform((val) => val === 1).pipe(z.boolean());" [],
      .blank,
      .doc ["Storage timestamp string to Date."],
      .const "sqliteDateTime" "z.string().transform((val) => new Date(val)).pipe(z.date());" [],
      .blank,
      .doc ["Date to ISO-8601 string for external consumers."],
      .const "apiDateTime" "z.date().transform((val) => val.toISOString()).pipe(z.iso.datetime());"
        [],
      .blank] }

def layerIndex (c : Config) (d : Datamodel) : SourceFile :=
  indexFile Family.layers.name c.layersDir
    (d.models.map (fun m => moduleName m.name) ++ [transformModule])

def layerFiles (workDir : Text.Parts) (c : Config) (d : Datamodel) (r : Option Brand.Registry) :
    List SourceFile :=
  d.sortedModels.map (layerFile workDir c d r) ++ [transformFile c, layerIndex c d]

end ZodSchema.Layer
