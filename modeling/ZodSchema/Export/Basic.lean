import ZodSchema.Export.Manifest
import ZodSchema.Files.Write

/-!
# The passes of an export

An export makes the output directory, clears the directory of every enabled family, writes the
files and lists them in a manifest.  A failure costs one file, one family or the manifest, and is
noted.

* `Settings.of?`   how and where to export
* `targetOf?`      the place of a file, strictly below the output directory
* `clearFamilies`, `writeFiles`, `writeManifest`   the passes, the files written one by one
-/

namespace ZodSchema.Export

open Files Text

/-- how and where to export -/
structure Settings where
  config : Config
  root : Parts
  clean : Bool := true
  atomic : Bool := true

/-- settings for an output directory, which must be a path that a directory can have -/
def Settings.of? (c : Config) (root : Parts) (clean atomic : Bool) : Except Fault Settings :=
  if hasBadName root then .error (nameFault root) else .ok ⟨c, root, clean, atomic⟩

/-- why a file is not written -/
inductive Refusal where
  | escapes (path : String)
  | fault (f : Fault)
  deriving DecidableEq, Repr

def Refusal.describe : Refusal → String
  | escapes p => "ValueError: path escapes the output directory: " ++ p
  | fault f => f.describe

/-- what goes wrong in an export -/
inductive Failure where
  | noOutput (f : Fault)
  | notCleared (dir : Parts) (f : Fault) (family : Family)
  | notWritten (path : String) (why : Refusal)
  deriving DecidableEq, Repr

def Failure.message : Failure → String
  | noOutput f => "Fatal export error: " ++ f.describe
  | notCleared dir f family =>
    "Could not clear " ++ Path.text dir ++ ": " ++ f.describe ++ "; skipping the " ++
      family.name ++ " family."
  | notWritten path why => "Failed to write " ++ path ++ ": " ++ why.describe

/-- what exports have noted so far -/
structure Log where
  records : List Record := []
  failures : List Failure := []
  warnings : List String := []
  /-- why the export broke off at the manifest -/
  broken : Option Lone := none

namespace Log

def fail (f : Failure) (l : Log) : Log := { l with failures := l.failures ++ [f] }

def errors (l : Log) : List String := l.failures.map Failure.message

def success (l : Log) : Bool := l.failures.isEmpty

/-- the manifest is not there: a warning, unless it has no encoding -/
def noManifest (f : Fault) (l : Log) : Log :=
  match f with
  | .unencodable lone => { l with broken := some lone }
  | f => { l with warnings := l.warnings ++ ["Could not write manifest: " ++ f.message] }

def manifest (c : Config) (l : Log) : Manifest := Manifest.of c l.records

end Log

/-- the place of a file -/
def targetOf? (root : Parts) (path : String) : Except Refusal Parts :=
  let route := Path.absolute root path
  let target := Path.normalize route
  if hasBadName route then .error (.fault (routeFault [] route))
  else if FileSystem.isBelow root target then .ok target
  else .error (.escapes path)

/-- enabled families with their directories, in the order of the families' names -/
def sortedDirs (c : Config) : List (Family × String) :=
  c.familyDirs.mergeSort fun a b => decide (a.1.name ≤ b.1.name)

/-- clears the directories of families; also the families whose directory stays as it is -/
def clearFamilies (s : Settings) :
    List (Family × String) → Log × FileSystem → List Family × Log × FileSystem
  | [], (l, fs) => ([], l, fs)
  | (family, dir) :: rest, (l, fs) =>
    let path := Path.absolute s.root dir
    match fs.clear FileSystem.keptNames path with
    | .ok fs => clearFamilies s rest (l, fs)
    | .error e =>
      let r := clearFamilies s rest (l.fail (.notCleared path e family), fs)
      (family :: r.1, r.2)

/-- writes one file and notes how it went -/
def writeFile (s : Settings) (st : Log × FileSystem) (f : GeneratedFile) : Log × FileSystem :=
  match targetOf? s.root f.path with
  | .error why => (st.1.fail (.notWritten f.path why), st.2)
  | .ok target =>
    match Files.write s.atomic target f.content st.2 with
    | (fs, none) => ({ st.1 with records := st.1.records ++ [Record.of f] }, fs)
    | (fs, some e) => (st.1.fail (.notWritten f.path (.fault e)), fs)

def writeFiles (s : Settings) (files : List GeneratedFile) (st : Log × FileSystem) :
    Log × FileSystem :=
  files.foldl (writeFile s) st

def manifestName : String := "zodgen-manifest.json"

/-- writes the manifest, where the settings ask for it -/
def writeManifest (s : Settings) (st : Log × FileSystem) : Log × FileSystem :=
  if s.config.writeManifest then
    match Files.write s.atomic (s.root ++ [manifestName]) (st.1.manifest s.config).json st.2 with
    | (fs, none) => (st.1, fs)
    | (fs, some e) => (st.1.noManifest e, fs)
  else st

/-- the files of families that are not among the given ones -/
def without (families : List Family) (files : List GeneratedFile) : List GeneratedFile :=
  files.filter fun f => !(families.map Family.name).contains f.family

end ZodSchema.Export
