import ZodSchema.Files.Write

/-!
# Writes that take turns

Several files are written at a time, each in its own steps.  Whose turn it is, and which free name
a temporary file gets, is open.

* `Progress.turn`   the next step of a write, with a word for the name of its temporary file
* `Pool`            files, and how far each write has come
* `Pool.run`        the turns one after another, and then the rest of every write
-/

namespace ZodSchema.Files

open Text FileSystem

/-- a file to be written -/
structure Job where
  target : Parts
  text : String

/-- the path of a temporary file beside `target` that is told from others by `word` -/
def wordPath (target : Parts) (word : String) : Parts :=
  target.dropLast ++ ["." ++ Path.fileName target ++ "." ++ word ++ ".tmp"]

/-- the characters of the words in temporary names -/
def wordChars : String := "abcdefghijklmnopqrstuvwxyz0123456789_"

/-- a word that tells temporary files apart -/
def isTempWord (word : String) : Bool :=
  word.toList.length == 8 && word.toList.all wordChars.toList.contains

/-- a free path for a temporary file, with `word` in its name if there can be such a one -/
def pickTemp (word : String) (target : Parts) (fs : FileSystem) : Parts :=
  if isTempWord word && (fs.get? (wordPath target word)).isNone then wordPath target word
  else freshTemp target fs

/-- the next step of a write, with `word` in the name of its temporary file -/
def Progress.turn (word : String) (j : Job) (fs : FileSystem) : Progress → FileSystem × Progress
  | .parents =>
    match pathFault? (tempPath j.target 0) with
    | some e => (fs, .failed e)
    | none =>
      let t := pickTemp word j.target fs
      (fs.put t (.file ByteArray.empty), .temp t)
  | pr => pr.step j.target j.text fs

/-- whose step is next, and the word for its temporary file -/
structure Turn where
  target : Parts
  word : String := ""

/-- the files, and how far the write to each target has come -/
structure Pool where
  files : FileSystem
  progress : Parts → Progress := fun _ => .begun

namespace Pool

/-- the next step of the write to a target; nobody else's -/
def turn (jobs : List Job) (pool : Pool) (t : Turn) : Pool :=
  match jobs.find? (·.target = t.target) with
  | none => pool
  | some j =>
    let r := (pool.progress j.target).turn t.word j pool.files
    ⟨r.1, fun p => if p = j.target then r.2 else pool.progress p⟩

def play (jobs : List Job) (turns : List Turn) (pool : Pool) : Pool :=
  turns.foldl (turn jobs) pool

/-- every write from its beginning to its end -/
def rest (jobs : List Job) : List Turn := jobs.flatMap fun j => List.replicate 4 ⟨j.target, ""⟩

/-- all writes: the given turns first, then what is left of each -/
def run (jobs : List Job) (turns : List Turn) (fs : FileSystem) : Pool :=
  play jobs (turns ++ rest jobs) ⟨fs, fun _ => .begun⟩

end Pool

end ZodSchema.Files
