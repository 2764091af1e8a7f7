import ZodSchema.Json.Printer
import ZodSchema.Digest.Sha256
import ZodSchema.Datamodel.Config
import ZodSchema.TypeScript.Doc

/-!
# Manifests

* `Record`           a file that was written: path, family, size, lines, digest
* `Manifest.of`      the records of an export in the order of their paths, with totals
* `Manifest.json`    the manifest as JSON
-/

namespace ZodSchema.Export

/-- a file that was written -/
structure Record where
  path : String
  family : String
  size : Nat
  lineCount : Nat
  digest : String
  deriving DecidableEq, Repr

/-- the record of a file -/
def Record.of (f : GeneratedFile) : Record :=
  ⟨f.path, f.family, (Text.Str.bytes f.content).size, TypeScript.countLines f.content,
    Digest.sha256Hex f.content⟩

/-- all files that were written -/
structure Manifest where
  version : String
  families : List String
  files : List Record
  deriving DecidableEq, Repr

/-- version of the generator -/
def generatorVersion : String := "1.0.0"

namespace Manifest

/-- records in the order of their paths, those of one path as they came -/
def of (c : Config) (rs : List Record) : Manifest :=
  { version := generatorVersion
    families := Text.Str.sortDedup (c.familyDirs.map (·.1.name))
    files := rs.mergeSort fun a b => decide (a.path ≤ b.path) }

def totalFiles (m : Manifest) : Nat := m.files.length

def totalBytes (m : Manifest) : Nat := totalOf (·.size) m.files

def totalLines (m : Manifest) : Nat := totalOf (·.lineCount) m.files

def recordValue (r : Record) : Value :=
  .map [(.text "relative_path", .text r.path), (.text "family", .text r.family),
    (.text "size_bytes", .int r.size), (.text "line_count", .int r.lineCount),
    (.text "sha256", .text r.digest)]

def value (m : Manifest) : Value :=
  .map [(.text "generator_version", .text m.version),
    (.text "families", .list (m.families.map .text)),
    (.text "total_files", .int m.totalFiles), (.text "total_bytes", .int m.totalBytes),
    (.text "total_lines", .int m.totalLines), (.text "files", .list (m.files.map recordValue))]

def json (m : Manifest) : String := Json.writeIndent m.value ++ "\n"

end Manifest

end ZodSchema.Export
