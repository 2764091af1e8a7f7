import ZodSchema.Export.Basic

/-!
# Run reports

* `Report`            what a run did and what went wrong
* `Report.exitCode`   the stage that failed first: input 4, validation 1, generation 2, export 3
* `Report.summary`    the report as text
-/

namespace ZodSchema.Run

open Text

inductive Stage where
  | load | parse | validate | generate | write
  deriving DecidableEq, Repr

def Stage.title : Stage → String
  | load => "Load Datamodel"
  | parse => "Parse Datamodel"
  | validate => "Validate Datamodel"
  | generate => "Code Generation"
  | write => "Export to Filesystem"

/-- how a stage went -/
structure Step where
  stage : Stage
  ok : Bool
  detail : String
  deriving DecidableEq, Repr

structure Report where
  dryRun : Bool := false
  sourceFile : String := ""
  output : Parts := []
  provider : String := ""
  totalModels : Nat := 0
  totalFiles : Nat := 0
  totalBytes : Nat := 0
  totalLines : Nat := 0
  steps : List Step := []
  inputErrors : List String := []
  validationErrors : List String := []
  validationWarnings : List String := []
  generationErrors : List String := []
  generationWarnings : List String := []
  exportErrors : List String := []
  files : List GeneratedFile := []
  manifest : Option Export.Manifest := none

/-- milliseconds of a run and of its steps -/
structure Times where
  total : Nat := 0
  steps : List Nat := []

/-- text in a column of `width`, at its left end -/
def padRight (width : Nat) (s : String) : String :=
  s ++ String.ofList (List.replicate (width - s.toList.length) ' ')

/-- text in a column of `width`, at its right end -/
def padLeft (width : Nat) (s : String) : String :=
  String.ofList (List.replicate (width - s.toList.length) ' ') ++ s

/-- seconds with three decimals -/
def secondsText (ms : Nat) : String := natText (ms / 1000) ++ "." ++ padded 3 (ms % 1000) ++ "s"

/-- `n` times the same character -/
def rule (c : Char) (n : Nat) : String := String.ofList (List.replicate n c)

namespace Report

def addStep (stage : Stage) (ok : Bool) (detail : String) (r : Report) : Report :=
  { r with steps := r.steps ++ [⟨stage, ok, detail⟩] }

/-- the stage that failed first, 0 when none did -/
def exitCode (r : Report) : Nat :=
  if !r.inputErrors.isEmpty then 4
  else if !r.validationErrors.isEmpty then 1
  else if !r.generationErrors.isEmpty then 2
  else if !r.exportErrors.isEmpty then 3
  else 0

def success (r : Report) : Bool := r.exitCode == 0

def statusText (r : Report) : String :=
  (if r.success then "✅ SUCCESS" else "❌ FAILED") ++ (if r.dryRun then " (dry run)" else "")

def stepLine (s : Step) (ms : Nat) : String :=
  "    " ++ (if s.ok then "✓" else "✗") ++ " " ++ padRight 28 s.stage.title ++ " " ++
    padLeft 8 (secondsText ms) ++ "  " ++ s.detail

/-- a part of the summary, left out when it has no items -/
def section_ (title icon : String) (items : List String) : List String :=
  if items.isEmpty then []
  else
    [rule '─' 60, "  " ++ title ++ " (" ++ natText items.length ++ "):"] ++
      items.map fun i => "    " ++ icon ++ " " ++ i

def stepLines (t : Times) (r : Report) : List String :=
  if r.steps.isEmpty then []
  else
    "  Pipeline Steps:" ::
      (r.steps.zip (t.steps ++ List.replicate r.steps.length 0)).map fun p => stepLine p.1 p.2

def summaryLines (t : Times) (r : Report) : List String :=
  [rule '=' 60,
    "  zodgen — Generation Report",
    rule '=' 60,
    "  Status:           " ++ r.statusText,
    "  Source:           " ++ (if r.sourceFile = "" then "<in-memory>" else r.sourceFile),
    "  Output:           " ++ Path.text r.output,
    "  Provider:         " ++ r.provider,
    "  Models processed: " ++ natText r.totalModels,
    "  Files generated:  " ++ natText r.totalFiles,
    "  Total lines:      " ++ grouped r.totalLines,
    "  Total bytes:      " ++ grouped r.totalBytes,
    "  Total time:       " ++ secondsText t.total,
    rule '─' 60] ++
  r.stepLines t ++
  section_ "Input Errors" "✗" r.inputErrors ++
  section_ "Validation Errors" "✗" r.validationErrors ++
  section_ "Validation Warnings" "⚠" r.validationWarnings ++
  section_ "Generation Errors" "✗" r.generationErrors ++
  section_ "Generation Warnings" "⚠" r.generationWarnings ++
  section_ "Export Errors" "✗" r.exportErrors ++
  [rule '=' 60]

/-- the report as text -/
def summary (t : Times) (r : Report) : String := Str.unlines (r.summaryLines t)

end Report

end ZodSchema.Run
