import ZodSchema.Files.Tree
import ZodSchema.Text.Numeral

/-!
# Writing a file

A text is written to a file beside its target, which is then moved over it, in four steps that other
writers may run between.

* `Progress.step`   the next step of a write
* `writeAtomic`     the four steps in a row
* `writePlain`      the text put straight into the target
-/

namespace ZodSchema.Files

open Text FileSystem

/-- a hidden name beside `name` -/
def tempName (name : String) (n : Nat) : String := "." ++ name ++ "." ++ padded 8 n ++ ".tmp"

/-- the `n`-th path for a temporary file beside `target` -/
def tempPath (target : Parts) (n : Nat) : Parts :=
  target.dropLast ++ [tempName (Path.fileName target) n]

/-- a path beside `target` at which nothing stands -/
def freshTemp (target : Parts) (fs : FileSystem) : Parts :=
  tempPath target
    (((List.range (fs.entries.length + 1)).find? fun n => (fs.get? (tempPath target n)).isNone).getD 0)

/-- why no file can be opened at a path whose directory exists, whatever stands there -/
def pathFault? (p : Parts) : Option Fault :=
  if hasBadName p then some (nameFault p)
  else if isLongPath p ∨ isLongName (Path.fileName p) then some (.nameTooLong p)
  else none

/-- why a text cannot be written -/
def textFault? (text : String) : Option Fault := (Str.lone? text).map .unencodable

/-- the parents of a target, for a text that can be written -/
def prepare (target : Parts) (text : String) (fs : FileSystem) : FileSystem × Option Fault :=
  let r := fs.makeDirs target.dropLast
  (r.1, r.2.or (textFault? text))

/-- the bytes of a text in the file at `t`, as long as that is the empty one that was opened -/
def fill (t : Parts) (text : String) (fs : FileSystem) : FileSystem :=
  match fs.get? t with
  | some (.file opened) => if opened.isEmpty then fs.put t (.file (Str.bytes text)) else fs
  | _ => fs

/-- how far a write has come -/
inductive Progress where
  | begun
  | parents
  | temp (path : Parts)
  | filled (path : Parts)
  | finished
  | failed (fault : Fault)
  deriving DecidableEq, Repr

/-- the next step of writing `text` to `target`: parents, temporary file, content, move.  What is
moved is what stands at the path of the temporary file; it is gone after a move that fails. -/
def Progress.step (target : Parts) (text : String) (fs : FileSystem) :
    Progress → FileSystem × Progress
  | .begun =>
    match prepare target text fs with
    | (fs, none) => (fs, .parents)
    | (fs, some e) => (fs, .failed e)
  | .parents =>
    -- the names of temporary files are all of one length, so that the first tells for all
    match pathFault? (tempPath target 0) with
    | some e => (fs, .failed e)
    | none =>
      let t := freshTemp target fs
      (fs.put t (.file ByteArray.empty), .temp t)
  | .temp t => (fill t text fs, .filled t)
  | .filled t =>
    match fs.get? t with
    | none => (fs, .failed (.gone t target))
    | some e =>
      if fs.isDir target then (fs.erase t, .failed (.isDirectoryAt t target))
      else ((fs.erase t).put target e, .finished)
  | .finished => (fs, .finished)
  | .failed e => (fs, .failed e)

/-- `n` steps of a write -/
def Progress.steps (target : Parts) (text : String) :
    Nat → FileSystem × Progress → FileSystem × Progress
  | 0, s => s
  | n + 1, s => steps target text n (s.2.step target text s.1)

/-- the fault of a write, if it failed -/
def Progress.fault? : Progress → Option Fault
  | .failed e => some e
  | _ => none

/-- writes a file by way of a temporary one -/
def writeAtomic (target : Parts) (text : String) (fs : FileSystem) : FileSystem × Option Fault :=
  let s := Progress.steps target text 4 (fs, .begun)
  (s.1, s.2.fault?)

/-- writes straight into the target -/
def writePlain (target : Parts) (text : String) (fs : FileSystem) : FileSystem × Option Fault :=
  match prepare target text fs with
  | (fs, some e) => (fs, some e)
  | (fs, none) =>
    match pathFault? target with
    | some e => (fs, some e)
    | none =>
      if fs.isDir target then (fs, some (.isDirectory target))
      else (fs.put target (.file (Str.bytes text)), none)

def write (atomic : Bool) (target : Parts) (text : String) (fs : FileSystem) :
    FileSystem × Option Fault :=
  if atomic then writeAtomic target text fs else writePlain target text fs

end ZodSchema.Files
