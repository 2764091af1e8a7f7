import ZodSchema.Generation.Input
import ZodSchema.Files.Tree
import ZodSchema.Text.Utf8
import ZodSchema.Json.Reader
import ZodSchema.Yaml.Reader

/-!
# Schema files

* `Format`      the format of a file, by the ending of its name
* `LoadError`   why a file gives no document
* `load`        the document of a file
-/

namespace ZodSchema.Generation

open Text Files

inductive Format where
  | json | yaml
  deriving DecidableEq, Repr

namespace Format

/-- a file is JSON when its name ends so, in any case, and YAML otherwise -/
def ofName (name : String) : Format :=
  if Str.lower (Path.extension name) = ".json" then json else yaml

def name : Format → String
  | json => "JSON"
  | yaml => "YAML"

/-- what the format calls a table of names -/
def tableName : Format → String
  | json => "JSON object"
  | yaml => "YAML mapping"

end Format

/-- why a file gives no document -/
inductive LoadError where
  /-- the path can belong to no file -/
  | unreachable (fault : Files.Fault)
  | missing (path : Parts)
  | notFile (path : Parts)
  | notText (fault : Utf8.Fault)
  | malformed (format : Format) (path : Parts)
  /-- an integer of more digits than are read -/
  | longInteger (digits : Nat)
  /-- a scalar that does not stand for what it is said to be -/
  | badScalar (fault : Yaml.Fault)
  /-- the same, and nobody expects it -/
  | uncaught (why : Yaml.Uncaught)
  | notMapping (format : Format) (typeName : String)
  deriving DecidableEq, Repr

/-- the words of an error; the particulars follow the malformed ones after a colon -/
def LoadError.message : LoadError → String
  | unreachable f => f.message
  | missing p => "Datamodel file not found: " ++ Path.text p
  | notFile p => "Datamodel path is not a file: " ++ Path.text p
  | notText f => f.message
  | malformed f p => "Invalid " ++ f.name ++ " in " ++ Path.text p
  | longInteger n => tooLongText (some n)
  | badScalar f => f.message
  | uncaught e => e.message
  | notMapping f t => "Expected a " ++ f.tableName ++ " at top level, got " ++ t ++ "."

/-- the name of a value's type in messages -/
def typeName : Value → String
  | .null => "NoneType"
  | .bool _ => "bool"
  | .int _ => "int"
  | .float _ => "float"
  | .text _ => "str"
  | .date m => if m.clock.isSome then "datetime" else "date"
  | .bytes _ => "bytes"
  | .list _ => "list"
  | .set _ => "set"
  | .map _ => "dict"

/-- the value of a text, and the places of the mappings that stand in it several times -/
def parse (format : Format) (path : Parts) (cs : List Char) :
    Except LoadError (Value × List (List Value.Place)) :=
  match format with
  | .json =>
    match Json.read (String.ofList cs) with
    | .ok v => .ok (v, [])
    | .error .malformed => .error (.malformed .json path)
    | .error (.longInteger n) => .error (.longInteger n)
  | .yaml =>
    match Yaml.read cs with
    | .ok r => .ok r
    | .error .malformed => .error (.malformed .yaml path)
    | .error (.uncaught e) => .error (.uncaught e)
    | .error f => .error (.badScalar f)

/-- the document in the bytes of a file -/
def readDocument (path : Parts) (bytes : ByteArray) : Except LoadError Loaded :=
  let format := Format.ofName (Path.fileName path)
  match Utf8.decode bytes with
  | .error f => .error (.notText f)
  | .ok cs =>
    match parse format path (unifyBreaks (keep cs)) with
    | .error e => .error e
    | .ok (.map es, twins) => .ok ⟨es, twins⟩
    | .ok (v, _) => .error (.notMapping format (typeName v))

/-- the document of a file -/
def load (fs : FileSystem) (path : Parts) : Except LoadError Loaded :=
  match fs.locate path with
  | .error f => .error (.unreachable f)
  | .ok p =>
    match p.bind fs.get? with
    | none => .error (.missing path)
    | some .dir => .error (.notFile path)
    | some (.file bytes) => readDocument path bytes

end ZodSchema.Generation
