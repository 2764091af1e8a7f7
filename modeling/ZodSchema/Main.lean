import ZodSchema.Cli.Basic

/-!
# The program

Reads from the disk what the command looks at, runs the command on that, and brings the disk to
what it left.
-/

namespace ZodSchema.Disk

open Text Files

/-- the path as the system knows it -/
def place (p : Parts) : String := Str.genuine (Path.text p)

/-- content of a file that was not read; it is no text, so any new content differs -/
def unread : ByteArray := ⟨#[0xFF]⟩

/-- what stands at a path -/
def look (p : Parts) : IO (Option Entry) := do
  let path := (← IO.currentDir) / place p
  if ← path.isDir then return some .dir
  if ← path.pathExists then return some (.file (← IO.FS.readBinFile path))
  return none

/-- a path and its parents, as far as they are there -/
def lookAlong (p : Parts) : IO (List (Parts × Entry)) :=
  (List.range p.length).filterMapM fun n => do
    let q := p.take (n + 1)
    return (← look q).map fun e => (q, e)

/-- all below a directory; a link counts as a file -/
partial def lookBelow (p : Parts) : IO (List (Parts × Entry)) := do
  let path := (← IO.currentDir) / place p
  if !(← path.isDir) then return []
  let found ← (← path.readDir).toList.mapM fun d => do
    let q := p ++ [Str.keep d.fileName]
    if (← d.path.symlinkMetadata).type == .dir then
      return (q, Entry.dir) :: (← lookBelow q)
    else return [(q, Entry.file unread)]
  return found.flatten

def snapshot (p : Cli.Places) : IO FileSystem := do
  let along ← (p.single ++ p.whole).mapM lookAlong
  let below ← p.whole.mapM lookBelow
  return ⟨along.flatten ++ below.flatten⟩

/-- both are files of the same bytes -/
def sameFile : Option Entry → ByteArray → Bool
  | some (.file a), b => a.data == b.data
  | _, _ => false

/-- writes a file beside its target and moves it there -/
def writeFile (p : Parts) (content : ByteArray) (old : FileSystem) : IO Unit := do
  let temp := place (freshTemp p old)
  IO.FS.writeBinFile temp content
  IO.FS.rename temp (place p)

/-- brings the disk from `old` to `new` -/
def update (old new : FileSystem) : IO Unit := do
  let isFile (fs : FileSystem) (p : Parts) : Bool := fs.get? p matches some (.file _)
  let paths (fs : FileSystem) : List Parts :=
    (fs.entries.map (·.1)).eraseDups.mergeSort fun a b => decide (a.length ≤ b.length)
  for p in paths old do
    if isFile old p && !isFile new p then IO.FS.removeFile (place p)
  for p in (paths old).reverse do
    if old.isDir p && !new.isDir p then IO.FS.removeDir (place p)
  for p in paths new do
    if new.isDir p && !old.isDir p then IO.FS.createDirAll (place p)
  for p in paths new do
    match new.get? p with
    | some (.file c) => if !sameFile (old.get? p) c then writeFile p c old
    | _ => pure ()

/-- a line on the error channel, a surrogate by its escape -/
def shown (line : String) : String :=
  String.ofList ((Str.codePoints line).flatMap fun
    | .char c => [c]
    | .surrogate n => hexEscape (CodePoint.surrogate n).toNat)

end ZodSchema.Disk

open ZodSchema in
def main (args : List String) : IO UInt32 := do
  let args := args.map Text.Str.keep
  let workDir := Text.Path.parts (Text.Str.keep (← IO.currentDir).toString)
  let first ← Disk.snapshot (Cli.places args workDir {})
  let old ← Disk.snapshot (Cli.places args workDir first)
  let start ← IO.monoMsNow
  match Cli.run [] args workDir old with
  | .error e =>
    IO.eprintln (Disk.shown e.message)
    return 1
  | .ok (result, new) =>
    Disk.update old new
    let times : Run.Times := { total := (← IO.monoMsNow) - start }
    for line in (result.stdout times).takeWhile (Text.Str.lone? · |>.isNone) do
      IO.println (Text.Str.genuine line)
    for line in result.stderr do IO.eprintln (Disk.shown line)
    match result.ending times with
    | .ok code => return code.toUInt32
    | .error l =>
      IO.eprintln l.message
      return 1
