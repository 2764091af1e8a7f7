import ZodSchema.Run.Report
import ZodSchema.Export.Run
import ZodSchema.Generation.Load
import ZodSchema.Generation.Files
import ZodSchema.Validation.Rules

/-!
# Runs

A run reads a schema file, checks it, generates all files in memory and writes them.  Nothing is
written unless every stage before has passed.

* `validateStage`, `generateStage`, `writeStage`   the stages
* `Abort`          why a run breaks off without a report
* `run`            a run on a data model, whose files are written in a given manner
* `runFile`        a run on a schema file, whose settings tell the manner
-/

namespace ZodSchema.Run

open Text Files Generation
open Export (Manner)

structure Options where
  failOnWarnings : Bool := false
  clean : Bool := true
  dryRun : Bool := false

/-- why a run breaks off without a report -/
inductive Abort where
  /-- no file can have the path of the schema file or of the output -/
  | path (f : Files.Fault)
  /-- a scalar of the schema file is not what its tag says -/
  | uncaught (e : Yaml.Uncaught)
  /-- a rule holds an integer of more digits than are read -/
  | longInteger (digits : Nat)
  /-- a file that was generated, or the manifest, has no encoding -/
  | unencodable (lone : Lone)
  deriving DecidableEq, Repr

namespace Abort

def kind : Abort → String
  | path f => f.kind
  | uncaught e => e.kind
  | longInteger _ => "ValueError"
  | unencodable l => (Fault.unencodable l).kind

def message : Abort → String
  | path f => f.message
  | uncaught e => e.message
  | longInteger n => tooLongText (some n)
  | unencodable l => l.message

/-- the errors of a schema file that no report tells -/
def ofLoad? : LoadError → Option Abort
  | .unreachable f => some (path f)
  | .uncaught e => some (uncaught e)
  | _ => none

end Abort

/-- where a run takes place, and where it writes to -/
structure Setting where
  workDir : Parts
  output : Parts

/-- checks the data model; the flag tells whether the run goes on -/
def validateStage (o : Options) (d : Datamodel) (c : Config) (r : Report) : Report × Bool :=
  let fs := Validation.validate d c
  let errors := fs.errors.map (·.text)
  let warnings := fs.warnings.map (·.text)
  let count := natText warnings.length ++ " warning(s)"
  let detail :=
    if !errors.isEmpty then natText errors.length ++ " error(s)"
    else if !warnings.isEmpty then count
    else "all checks passed"
  let stopped := o.failOnWarnings && !warnings.isEmpty
  let proceed := errors.isEmpty && !stopped
  let extra :=
    if errors.isEmpty && stopped then [count ++ " treated as errors (--fail-on-warnings)."] else []
  (({ r with
      validationErrors := r.validationErrors ++ errors ++ extra
      validationWarnings := r.validationWarnings ++ warnings }).addStep .validate proceed detail,
    proceed)

/-- the names of the families that have a file, in order -/
def familyList (files : List GeneratedFile) : String :=
  let names := Str.sortDedup (files.map (·.family))
  if names.isEmpty then "none" else Str.join ", " names

/-- lines of all files -/
def lineTotal (files : List GeneratedFile) : Nat :=
  totalOf (fun f => TypeScript.countLines f.content) files

/-- bytes of all files; the first one without an encoding breaks the run off -/
def byteTotal : List GeneratedFile → Except Abort Nat
  | [] => .ok 0
  | f :: files =>
    match Str.lone? f.content with
    | some l => .error (.unencodable l)
    | none => (byteTotal files).map ((Str.bytes f.content).size + ·)

/-- what is generated, and the errors in place of it -/
def generated (workDir : Parts) (d : Datamodel) (c : Config) :
    Except Abort (Generated GeneratedFile × List String) :=
  match generate workDir d c with
  | .ok g => .ok (g, [])
  | .error (.conflict e) => .ok (⟨[], []⟩, [e.describe])
  | .error (.longInteger n) => .error (.longInteger n)

/-- generates the files -/
def generateStage (workDir : Parts) (d : Datamodel) (c : Config) (r : Report) :
    Except Abort Report := do
  let (g, errors) ← generated workDir d c
  let bytes ← byteTotal g.files
  .ok <| { r with
      generationErrors := r.generationErrors ++ errors
      generationWarnings := r.generationWarnings ++ g.warnings
      files := g.files
      totalFiles := g.files.length
      totalLines := lineTotal g.files
      totalBytes := bytes }.addStep .generate
    (r.generationErrors ++ errors).isEmpty
    (natText g.files.length ++ " files, ~" ++ grouped (lineTotal g.files) ++
      " lines, families: " ++ familyList g.files)

/-- writes the files -/
def writeStage (w : Manner) (o : Options) (output : Parts) (c : Config) (r : Report)
    (fs : FileSystem) : Except Abort (Report × FileSystem) :=
  let (log, fs) := Export.run w ⟨c, output, o.clean, true⟩ r.files ({}, fs)
  let m := log.manifest c
  match log.broken with
  | some l => .error (.unencodable l)
  | none =>
    .ok (({ r with
        totalFiles := m.totalFiles
        totalBytes := m.totalBytes
        totalLines := m.totalLines
        exportErrors := r.exportErrors ++ log.errors
        manifest := some m }).addStep .write log.success
          (natText m.totalFiles ++ " files, " ++ grouped m.totalBytes ++ " bytes"), fs)

/-- the stages from a checked input on -/
def runStages (w : Manner) (o : Options) (s : Setting) (d : Datamodel) (c : Config) (r : Report)
    (fs : FileSystem) : Except Abort (Report × FileSystem) :=
  let r := { r with provider := d.providerText, totalModels := d.models.length }
  let (r, proceed) := validateStage o d c r
  if !proceed then .ok (r, fs)
  else
    match generateStage s.workDir d c r with
    | .error e => .error e
    | .ok r =>
      if !r.generationErrors.isEmpty || o.dryRun then .ok (r, fs)
      else writeStage w o s.output c r fs

/-- a report before the first stage -/
def opened (o : Options) (s : Setting) (source : String) : Except Abort Report :=
  if hasBadName s.output then .error (.path (nameFault s.output))
  else .ok { dryRun := o.dryRun, sourceFile := source, output := s.output }

/-- a run on a data model -/
def run (w : Manner) (o : Options) (s : Setting) (d : Datamodel) (c : Config) (fs : FileSystem) :
    Except Abort (Report × FileSystem) := do
  let r ← opened o s (d.sourceFile.getD "")
  runStages w o s d c r fs

/-- a run that ends before there is a data model -/
def inputFailure (stage : Stage) (message : String) (r : Report) : Report :=
  ({ r with inputErrors := r.inputErrors ++ [message] }).addStep stage false
    ((Str.lines message).headD "")

/-- the path of the file as its source, unless the document names one -/
def withSource (path : Parts) (raw : Document) : Document :=
  if (Value.get? "source_file" raw).isSome then raw
  else Value.put (.text "source_file") (.text (Path.text path)) raw

/-- a run on a schema file, overriding settings and provider; `w` is the manner that goes with the
settings -/
def runFile (w : Config → Manner) (o : Options) (s : Setting) (path : Parts)
    (overrides : Value.Entries) (provider : Option Value) (fs : FileSystem) :
    Except Abort (Report × FileSystem) := do
  let r ← opened o s (Path.text path)
  match load fs path with
  | .error e =>
    match Abort.ofLoad? e with
    | some a => .error a
    | none => .ok (inputFailure .load e.message r, fs)
  | .ok raw =>
    let r := r.addStep .load true ("from " ++ Path.fileName path)
    match readInput (withSource path (applyOverrides raw overrides provider).entries) with
    | .error e => .ok (inputFailure .parse e.message r, fs)
    | .ok (d, c) =>
      runStages (w c) o s d c
        (r.addStep .parse true (natText d.models.length ++ " models parsed")) fs

end ZodSchema.Run
