import ZodSchema.Display

/-!
# Findings

What a check has to say, and how it is reported.

* `Finding`   level, code, message and context
* `Findings`  findings in order, with their summary and report
-/

namespace ZodSchema.Validation

inductive Level where
  | error | warning | info
  deriving DecidableEq, Repr, Inhabited

namespace Level

def name : Level → String
  | error => "error"
  | warning => "warning"
  | info => "info"

def capitals : Level → String
  | error => "ERROR"
  | warning => "WARNING"
  | info => "INFO"

def sign : Level → String
  | error => "✗"
  | warning => "⚠"
  | info => "ℹ"

end Level

structure Finding where
  level : Level
  code : String
  message : String
  context : List (String × Value) := []
  deriving Inhabited

/-- `[ERROR] CODE: message` -/
def Finding.text (f : Finding) : String :=
  "[" ++ f.level.capitals ++ "] " ++ f.code ++ ": " ++ f.message

/-- findings in the order in which they were made -/
abbrev Findings := List Finding

namespace Findings

def errors (fs : Findings) : Findings := fs.filter (·.level == .error)

def warnings (fs : Findings) : Findings := fs.filter (·.level == .warning)

def isValid (fs : Findings) : Bool := fs.errors.isEmpty

/-- the codes in order, each once -/
def codes (fs : Findings) : List String := Text.Str.sortDedup (fs.map (·.code))

def summary (fs : Findings) : String :=
  "Validation: " ++ Text.natText fs.errors.length ++ " error(s), " ++
    Text.natText fs.warnings.length ++ " warning(s), " ++ Text.natText fs.length ++
    " total item(s)."

/-- how the outcome of a check is shown -/
def display (fs : Findings) : String := "<ValidationResult " ++ fs.summary ++ ">"

/-- the lines of a finding and its context -/
def findingLines (f : Finding) : List String :=
  ("  " ++ f.level.sign ++ " [" ++ f.code ++ "] " ++ f.message) ::
    f.context.map fun e => "       " ++ e.1 ++ ": " ++ Display.plain e.2

/-- the summary and the findings, remarks only when wanted -/
def report (fs : Findings) (withInfo : Bool) : String :=
  Text.Str.unlines (fs.summary :: "" ::
    (fs.filter fun f => withInfo || f.level != .info).flatMap findingLines)

end Findings

end ZodSchema.Validation
