import ZodSchema.Text.Literal

/-!
# Comments and imports

* `docBlock`       the lines of a documentation comment
* `importBlock`    import lines of names by module
* `barrel`         re-exports of modules
-/

namespace ZodSchema.TypeScript

open Text

/-- the end of a comment, broken up so that it ends none -/
def breakTerminator (line : String) : String := Str.replace "*/" "*\\/" line

/-- a documentation comment around the lines; nothing when there are none -/
def docBlock (lines : List String) (indent : String) : List String :=
  if lines.isEmpty then []
  else
    (indent ++ "/**") ::
      lines.map (fun l => Str.trimRight (indent ++ " * " ++ breakTerminator l)) ++
      [indent ++ " */"]

/-- names to import, by module -/
abbrev Imports := List (String × List String)

namespace Imports

/-- adds names to a module -/
def add (module : String) (names : List String) : Imports → Imports
  | [] => [(module, names.eraseDups)]
  | (m, ns) :: rest =>
    if m = module then (m, ns ++ (names.eraseDups.filter fun n => !ns.contains n)) :: rest
    else (m, ns) :: add module names rest

/-- all names of several import tables -/
def merge (tables : List Imports) : Imports :=
  tables.flatten.foldl (fun acc e => acc.add e.1 e.2) []

/-- modules in order, each with its names in order -/
def sorted (imports : Imports) : Imports :=
  (Str.sortDedup (imports.map (·.1))).map fun m =>
    (m, Str.sortDedup ((imports.filter (·.1 == m)).flatMap (·.2)))

end Imports

/-- the import line of a module, for its effect alone when no name is wanted -/
def importLine (module : String) (names : List String) : String :=
  if names.isEmpty then "import " ++ quote module ++ ";"
  else "import \x7b " ++ Str.join ", " names ++ " \x7d from " ++ quote module ++ ";"

/-- one line per module, in order -/
def importBlock (imports : Imports) : String :=
  Str.unlines (imports.sorted.map fun e => importLine e.1 e.2)

/-- `export * from './x';` -/
def reexportLine (module : String) : String := "export * from './" ++ module ++ "';"

/-- a re-export for every module, in order, each once -/
def barrel (modules : List String) : String :=
  Str.unlines ((Str.sortDedup modules).map reexportLine) ++ "\n"

/-- number of lines of a text -/
def countLines (content : String) : Nat :=
  let cs := content.toList
  if cs = [] then 0 else countChar '\n' cs + (if cs.getLast? = some '\n' then 0 else 1)

end ZodSchema.TypeScript
