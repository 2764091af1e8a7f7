import ZodSchema.Files.Pool

/-!
# Plain writes that take turns

Several files are put straight into their targets at a time.  A target is empty from the step that
opens it up to the step that fills it.

* `Progress.plainTurn`   the next step of such a write
* `Pool.plainRun`        the turns one after another, and then the rest of every write
-/

namespace ZodSchema.Files

open Text FileSystem

/-- the next step of a write straight into its target: parents, an empty file, content; the file
that is open is the target itself -/
def Progress.plainTurn (j : Job) (fs : FileSystem) : Progress → FileSystem × Progress
  | .parents =>
    match pathFault? j.target with
    | some e => (fs, .failed e)
    | none =>
      if fs.isDir j.target then (fs, .failed (.isDirectory j.target))
      else (fs.put j.target (.file ByteArray.empty), .temp j.target)
  | .temp _ | .filled _ => (fs.put j.target (.file (Str.bytes j.text)), .finished)
  | pr => pr.step j.target j.text fs

namespace Pool

/-- the next step of the plain write to a target; nobody else's -/
def plainTurn (jobs : List Job) (pool : Pool) (t : Turn) : Pool :=
  match jobs.find? (·.target = t.target) with
  | none => pool
  | some j =>
    let r := (pool.progress j.target).plainTurn j pool.files
    ⟨r.1, fun p => if p = j.target then r.2 else pool.progress p⟩

/-- all plain writes: the given turns first, then what is left of each -/
def plainRun (jobs : List Job) (turns : List Turn) (fs : FileSystem) : Pool :=
  (turns ++ rest jobs).foldl (plainTurn jobs) ⟨fs, fun _ => .begun⟩

end Pool

end ZodSchema.Files
