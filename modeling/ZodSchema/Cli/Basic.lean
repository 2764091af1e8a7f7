import ZodSchema.Cli.Args
import ZodSchema.Run.Basic

/-!
# The command line

* `Result`      exit code and output of a command, and how it ends
* `Abort`       why a command breaks off without a result
* `validateOnly`   checks a schema file and reports
* `run`         a command: 0 success, 1 validation, 2 generation or usage, 3 export, 4 input
* `places`      what a command looks at
-/

namespace ZodSchema.Cli

open Text Files Generation
open Run (Times Setting rule)
open Export (Manner)

/-- the exit code of a command and the lines that it prints, given how long it took -/
structure Result where
  exitCode : Nat
  stdout : Times → List String := fun _ => []
  stderr : List String := []

/-- how a command ends once it prints its lines, which are to have an encoding -/
def Result.ending (t : Times) (r : Result) : Except Lone Nat :=
  match (r.stdout t).findSome? Str.lone? with
  | some l => .error l
  | none => .ok r.exitCode

/-- why a command breaks off without a result -/
inductive Abort where
  | run (why : Run.Abort)
  /-- two hyphens stand where a path is expected -/
  | noPath
  deriving DecidableEq, Repr

def Abort.message : Abort → String
  | run why => why.message
  | noPath => "a path is expected"

def exitInput : Nat := 4

def exitValidation : Nat := 1

def exitUsage : Nat := 2

def versionLine : String := "zodgen " ++ Export.generatorVersion

def usageLine : String := "usage: zodgen [-h] [--version] -s FILE [-o DIR] [options]"

/-- what each switch does -/
def purpose : Switch → String
  | .help => "show this help message and exit"
  | .version => "show the version and exit"
  | .schema => "path to the datamodel file (JSON or YAML)"
  | .output => "output root; each family is written to its own directory under it"
  | .provider => "override the datamodel's database provider"
  | .brands => "generate the brand registry"
  | .layers => "generate Database/Runtime/External layer schemas"
  | .crud => "generate Create/Update/List/Get/Delete schemas"
  | .camelCase => "emit field keys in camelCase"
  | .noDefaultValidators => "do not infer cuid/uuid/int validators from field defaults"
  | .pagination => "default pagination fields on List schemas"
  | .maxPageSize => "upper bound for limit/take on List schemas"
  | .manifest => "write zodgen-manifest.json at the output root"
  | .validateOnly => "only validate the datamodel; do not generate"
  | .dryRun => "render everything and print the report, but write nothing"
  | .noStrict => "keep the first declaration on brand conflicts instead of failing"
  | .failOnWarnings => "treat validation warnings as errors"
  | .verbose => "list more; may be repeated"
  | .quiet => "suppress all log output"

def helpLines : List String :=
  [usageLine, "", "zodgen — Zod schema generator.", ""] ++
    Switch.all.map fun s => "  " ++ Run.padRight 26 (Str.join ", " s.spellings) ++ purpose s

/-- a failure of input, on the error channel -/
def inputFailure (message : String) : Result :=
  { exitCode := exitInput, stderr := ["✗ " ++ message] }

/-- the report of a validation -/
def validationLines (path : Parts) (d : Datamodel) (fs : Validation.Findings) (withInfo : Bool)
    (t : Times) : List String :=
  ["", rule '=' 50, "  Datamodel Validation Report", rule '=' 50,
    "  File:     " ++ Path.fileName path,
    "  Provider: " ++ d.providerText,
    "  Models:   " ++ natText d.models.length,
    "  Enums:    " ++ natText d.enums.length,
    "  Time:     " ++ Run.secondsText t.total,
    "  Valid:    " ++ (if fs.isValid then "Yes" else "No")] ++
  (if fs.isEmpty then [] else ["", fs.report withInfo]) ++
  (if fs.isValid && fs.warnings.isEmpty then ["", "  ✅ All validations passed!"] else []) ++
  [rule '=' 50, ""]

/-- checks a schema file and reports -/
def validateOnly (a : Args) (path : Parts) (fs : FileSystem) : Except Abort Result :=
  match load fs path with
  | .error e =>
    match Run.Abort.ofLoad? e with
    | some why => .error (.run why)
    | none => .ok (inputFailure e.message)
  | .ok raw =>
    match readInput (applyOverrides raw a.overrides a.providerValue).entries with
    | .error e => .ok (inputFailure e.message)
    | .ok (d, c) =>
      let found := Validation.validate d c
      let failed := !found.isValid || (a.failOnWarnings && !found.warnings.isEmpty)
      .ok
        { exitCode := if failed then exitValidation else 0
          stdout := validationLines path d found (a.verbose ≥ 1) }

/-- a dry run that is to say more lists the files -/
def fileLines (a : Args) (r : Run.Report) : List String :=
  if a.dryRun && a.verbose ≥ 1 then
    r.files.map fun f => "  " ++ f.path ++ "  (" ++ natText f.lineCount ++ " lines)"
  else []

/-- a run on the schema file that the arguments name -/
def generate (turns : List Turn) (a : Args) (s : Setting) (path : Parts) (fs : FileSystem) :
    Except Abort (Result × FileSystem) :=
  let o : Run.Options := { failOnWarnings := a.failOnWarnings, dryRun := a.dryRun }
  match Run.runFile (Manner.of · turns) o s path a.overrides a.providerValue fs with
  | .error e => .error (.run e)
  | .ok (r, fs) =>
    .ok ({ exitCode := r.exitCode, stdout := fun t => r.summary t :: fileLines a r }, fs)

/-- a path as an argument names it, without dots -/
def pathOf (workDir : Parts) (arg : String) : Parts := Path.normalize (Path.absolute workDir arg)

/-- the path of an operand, which must be one that a file can have -/
def operandPath (workDir : Parts) : Operand String → Except Abort Parts
  | .empty => .error .noPath
  | .one arg =>
    let route := Path.absolute workDir arg
    if hasBadName route then .error (.run (.path (routeFault [] route)))
    else .ok (pathOf workDir arg)

/-- a file stands at a path -/
def isFile (fs : FileSystem) (path : Parts) : Except Abort Bool :=
  match fs.locate path with
  | .error f => .error (.run (.path f))
  | .ok p => .ok (p.bind fs.get? matches some (.file _))

/-- does what the arguments ask for -/
def runArgs (turns : List Turn) (a : Args) (workDir : Parts) (fs : FileSystem) :
    Except Abort (Result × FileSystem) := do
  let path ← operandPath workDir (a.schema.getD .empty)
  if !(← isFile fs path) then .ok (inputFailure (LoadError.message (.missing path)), fs)
  else if a.validateOnly then .ok (← validateOnly a path fs, fs)
  else
    match a.output with
    | none => .ok ({ exitCode := exitInput, stderr := [usageLine] }, fs)
    | some out => generate turns a ⟨workDir, ← operandPath workDir out⟩ path fs

/-- a command; `turns` are those of files that are written concurrently -/
def run (turns : List Turn) (argv : List String) (workDir : Parts) (fs : FileSystem) :
    Except Abort (Result × FileSystem) :=
  match Args.parse argv with
  | .error .help => .ok ({ exitCode := 0, stdout := fun _ => helpLines }, fs)
  | .error .version => .ok ({ exitCode := 0, stdout := fun _ => [versionLine] }, fs)
  | .error (.error e) =>
    .ok ({ exitCode := exitUsage, stderr := [usageLine, "zodgen: error: " ++ e.message] }, fs)
  | .ok a => runArgs turns a workDir fs

/-- what a command looks at -/
structure Places where
  /-- paths by themselves -/
  single : List Parts := []
  /-- directories with all below them -/
  whole : List Parts := []

/-- the family directories that the schema file names -/
def familyPlaces (a : Args) (path out : Parts) (fs : FileSystem) : List Parts :=
  match load fs path with
  | .error _ => []
  | .ok raw =>
    match readInput (applyOverrides raw a.overrides a.providerValue).entries with
    | .error _ => []
    | .ok (_, c) => c.familyDirs.map fun e => Path.normalize (Path.absolute out e.2)

/-- what a command looks at, as far as `fs` tells: the family directories are known once the
schema file is -/
def places (argv : List String) (workDir : Parts) (fs : FileSystem) : Places :=
  match Args.parse argv with
  | .error _ => {}
  | .ok a =>
    match operandPath workDir (a.schema.getD .empty) with
    | .error _ => {}
    | .ok path =>
      match a.output.map (operandPath workDir) with
      | some (.ok out) =>
        { single := [path, out, out ++ [Export.manifestName]]
          whole := familyPlaces a path out fs }
      | _ => { single := [path] }

end ZodSchema.Cli
