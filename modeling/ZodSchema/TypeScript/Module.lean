import ZodSchema.TypeScript.Doc
import ZodSchema.Datamodel.Config

/-!
# Source files

A source file is a list of statements; its text is their lines.

* `Stmt`        a statement
* `SourceFile`  statements at a path
* `SourceFile.file`   the file with its text
-/

namespace ZodSchema.TypeScript

open Text

/-- a top-level statement or a line between statements -/
inductive Stmt where
  /-- a comment line -/
  | note (text : String)
  /-- an empty line -/
  | blank
  /-- names from modules, in the order of the modules -/
  | imports (table : Imports)
  /-- names from one module, given as a literal -/
  | importNames (names : List String) (literal : String)
  /-- a whole module, given as a literal, under one name -/
  | importAll (name literal : String)
  | doc (lines : List String)
  /-- `export const name = first`, and the lines of the value after the first -/
  | const (name first : String) (rest : List String)
  | typeDef (name type : String)
  /-- a function of one parameter -/
  | func (name param result : String) (body : String)
  | reexport (module : String)
  deriving DecidableEq, Repr

namespace Stmt

def lines : Stmt → List String
  | note t => [t]
  | blank => [""]
  | imports table => if table.isEmpty then [] else [importBlock table]
  | importNames names literal =>
    ["import \x7b " ++ Str.join ", " names ++ " \x7d from " ++ literal ++ ";"]
  | importAll name literal => ["import * as " ++ name ++ " from " ++ literal ++ ";"]
  | doc ls => docBlock ls ""
  | const name first rest => ("export const " ++ name ++ " = " ++ first) :: rest
  | typeDef name type => ["export type " ++ name ++ " = " ++ type ++ ";"]
  | func name param result body =>
    ["export function " ++ name ++ "(data: " ++ param ++ "): " ++ result ++ " \x7b",
      "  return " ++ body ++ ";", "\x7d"]
  | reexport module => [reexportLine module]

/-- names that a statement brings into the space of values -/
def values : Stmt → List String
  | imports table => table.flatMap (·.2)
  | importNames names _ => names
  | importAll name _ => [name]
  | const name _ _ => [name]
  | func name _ _ _ => [name]
  | _ => []

/-- names that a statement brings into the space of types -/
def types : Stmt → List String
  | imports table => table.flatMap (·.2)
  | importNames names _ => names
  | importAll name _ => [name]
  | typeDef name _ => [name]
  | _ => []

end Stmt

/-- the line that marks a file as generated -/
def generatedHeader : String := "// Generated by zodgen. Do not edit by hand."

/-- the first lines of every file -/
def header : List Stmt := [.note generatedHeader]

/-- the import of the schema library -/
def zodImport : Stmt := .importNames ["z"] "\"zod/v4\""

structure SourceFile where
  family : String
  path : String
  stmts : List Stmt
  deriving DecidableEq, Repr

def textOf (stmts : List Stmt) : String := Str.unlines (stmts.flatMap Stmt.lines)

def SourceFile.file (s : SourceFile) : GeneratedFile := ⟨s.family, s.path, textOf s.stmts⟩

/-- an index that re-exports modules, in order, each once -/
def indexFile (family dir : String) (modules : List String) : SourceFile :=
  ⟨family, dir ++ "/index.ts",
    header ++ (if modules.isEmpty then [.blank] else (Str.sortDedup modules).map .reexport) ++
      [.blank]⟩

end ZodSchema.TypeScript
