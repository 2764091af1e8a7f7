import ZodSchema.Files.Write

/-!
# Writing to a path with double dots

A route is a path as it is written.  A write goes through every directory on it, so that one left
by a double dot is made too if it is missing.

* `makeDirsAlong`  a directory and all on the way to it
* `writeAlong`     a file at the end of a route
-/

namespace ZodSchema.Files

open Text FileSystem

/-- `makeDirsAlong` for the rest of `full`, whose beginning `done` leads to `cur`; once one
directory was missing, `made`, each further one is made by itself -/
def makeDirsAlongFrom (full : Parts) :
    Bool → Parts → Parts → List String → FileSystem → FileSystem × Option Fault
  | _, _, _, [], fs => (fs, none)
  | made, done, cur, part :: rest, fs =>
    let next := cur ++ [part]
    let named := if made then done ++ [part] else full
    if part = ".." then makeDirsAlongFrom full made (done ++ [part]) cur.dropLast rest fs
    else if isLongName part then (fs, some (.nameTooLong named))
    else
      match fs.get? next with
      | some .dir => makeDirsAlongFrom full made (done ++ [part]) next rest fs
      | some (.file _) =>
        (fs, some (if made || rest = [] then .fileExists named else .notDirectory full))
      | none => makeDirsAlongFrom full true (done ++ [part]) next rest (fs.put next .dir)

/-- makes the directory at the end of a route and every missing one on the way -/
def makeDirsAlong (route : Parts) (fs : FileSystem) : FileSystem × Option Fault :=
  if hasBadName route then (fs, some (nameFault route))
  else if isLongPath route then (fs, some (.nameTooLong route))
  else makeDirsAlongFrom route false [] [] route fs

/-- the fault of a write at the end of `route`; a temporary file is named by its place -/
def Fault.along (atomic : Bool) (route : Parts) : Fault → Fault
  | .isDirectoryAt t _ => .isDirectoryAt t route
  | .gone t _ => .gone t route
  | .isDirectory _ => .isDirectory route
  | .nameTooLong p => .nameTooLong (if atomic then p else route)
  | f => f

/-- writes a text to the file at the end of a route; a double dot there is no name that a file can
get -/
def writeAlong (atomic : Bool) (route : Parts) (text : String) (fs : FileSystem) :
    FileSystem × Option Fault :=
  match makeDirsAlong route.dropLast fs with
  | (fs, some e) => (fs, some e)
  | (fs, none) =>
    if let some e := textFault? text then (fs, some e)
    else if hasBadName route then
      (fs, some (nameFault (if atomic then tempPath route 0 else route)))
    else if Path.fileName route = ".." then
      let temp := freshTemp (Path.normalize route.dropLast ++ [".."]) fs
      (fs, some (if atomic then .busy temp route else .isDirectory route))
    else
      let done := write atomic (Path.normalize route) text fs
      (done.1, done.2.map (Fault.along atomic route))

end ZodSchema.Files
