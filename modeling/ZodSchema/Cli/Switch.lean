import ZodSchema.Text.Chars

/-!
# Switches of the command line

* `Switch`             the switches, in the order in which they are listed
* `Switch.spellings`   how a switch is written
* `matching`           the spellings that an abbreviation may stand for
-/

namespace ZodSchema.Cli

inductive Switch where
  | help | version | schema | output | provider | brands | layers | crud | camelCase
  | noDefaultValidators | pagination | maxPageSize | manifest | validateOnly | dryRun | noStrict
  | failOnWarnings | verbose | quiet
  deriving DecidableEq, Repr

namespace Switch

def all : List Switch :=
  [help, version, schema, output, provider, brands, layers, crud, camelCase, noDefaultValidators,
    pagination, maxPageSize, manifest, validateOnly, dryRun, noStrict, failOnWarnings, verbose,
    quiet]

/-- the short spelling, if there is one -/
def letter? : Switch → Option Char
  | help => some 'h'
  | schema => some 's'
  | output => some 'o'
  | verbose => some 'v'
  | quiet => some 'q'
  | _ => none

def word : Switch → String
  | help => "help"
  | version => "version"
  | schema => "schema"
  | output => "output"
  | provider => "provider"
  | brands => "brands"
  | layers => "layers"
  | crud => "crud"
  | camelCase => "camel-case"
  | noDefaultValidators => "no-default-validators"
  | pagination => "pagination"
  | maxPageSize => "max-page-size"
  | manifest => "manifest"
  | validateOnly => "validate-only"
  | dryRun => "dry-run"
  | noStrict => "no-strict"
  | failOnWarnings => "fail-on-warnings"
  | verbose => "verbose"
  | quiet => "quiet"

def long (s : Switch) : String := "--" ++ s.word

def spellings (s : Switch) : List String :=
  (s.letter?.map fun c => String.ofList ['-', c]).toList ++ [s.long]

/-- all spellings, as messages write them -/
def title (s : Switch) : String := Text.Str.join "/" s.spellings

/-- a value belongs to the switch -/
def takesValue : Switch → Bool
  | schema => true
  | output => true
  | provider => true
  | pagination => true
  | maxPageSize => true
  | _ => false

def ofLong? (s : String) : Option Switch := all.find? (·.long == s)

def ofLetter? (c : Char) : Option Switch := all.find? (·.letter? == some c)

/-- the switches whose long spelling starts so -/
def matching (start : String) : List Switch := all.filter fun s => Text.Str.startsWith s.long start

end Switch

end ZodSchema.Cli
