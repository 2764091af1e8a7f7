import ZodSchema.Schema.Base
import ZodSchema.Brand.Registry
import ZodSchema.Layer.File
import ZodSchema.Crud.File

/-!
# Generated families

* `Generated`      files in the order schemas, brands, layers, crud, with warnings
* `sourceFiles`    the files of all enabled families, as statements
* `generate`       the same as texts
* `Obstacle`       why nothing is generated
-/

namespace ZodSchema.Generation

open TypeScript

/-- files and warnings -/
structure Generated (α : Type) where
  files : List α
  warnings : List String

/-- what the CRUD family is based on -/
def crudBase (c : Config) (d : Datamodel) (r : Option Brand.Registry) : Crud.Base :=
  ⟨c, d, c.threeLayers, r⟩

/-- the registry when brands are generated -/
def activeRegistry (c : Config) (r : Brand.Registry) : Option Brand.Registry :=
  if c.brandRegistry then some r else none

/-- the files of the enabled families, given the registry -/
def familyFiles (workDir : Text.Parts) (d : Datamodel) (c : Config) (r : Brand.Registry) :
    List SourceFile :=
  let active := activeRegistry c r
  (if c.zodSchemas then Schema.baseFiles c d else []) ++
  (if c.brandRegistry then Brand.brandFiles c r else []) ++
  (if c.threeLayers && c.zodSchemas then Layer.layerFiles workDir c d active else []) ++
  (if c.crudSchemas && c.zodSchemas then Crud.crudFiles workDir (crudBase c d active) else [])

def familyWarnings (d : Datamodel) (c : Config) (r : Brand.Registry) : List String :=
  (if c.zodSchemas then Schema.entryWarnings c d else []) ++
  (if c.crudSchemas && c.zodSchemas then
    Crud.crudWarnings (crudBase c d (activeRegistry c r)) else []) ++
  r.conflicts.map (·.describe)

/-- why nothing is generated -/
inductive Obstacle where
  /-- two declarations of a brand disagree -/
  | conflict (c : Brand.Conflict)
  /-- a rule holds an integer of more digits than are read -/
  | longInteger (digits : Nat)
  deriving DecidableEq, Repr

/-- an integer that is too long in the rules of a model that gets CRUD schemas -/
def longInteger? (d : Datamodel) (c : Config) : Option Nat :=
  if c.crudSchemas && c.zodSchemas then (Crud.eligible c d).findSome? Crud.longInteger? else none

/-- the files of all enabled families; a strict registry stops at a conflict of brands -/
def sourceFiles (workDir : Text.Parts) (d : Datamodel) (c : Config) :
    Except Obstacle (Generated SourceFile) :=
  match Brand.Registry.ofDatamodel d c.strictBrands with
  | .error e => .error (.conflict e)
  | .ok r =>
    match longInteger? d c with
    | some n => .error (.longInteger n)
    | none => .ok ⟨familyFiles workDir d c r, familyWarnings d c r⟩

def generate (workDir : Text.Parts) (d : Datamodel) (c : Config) :
    Except Obstacle (Generated GeneratedFile) :=
  (sourceFiles workDir d c).map fun g => ⟨g.files.map SourceFile.file, g.warnings⟩

end ZodSchema.Generation
