import ZodSchema.Export.Basic
import ZodSchema.Files.Plain

/-!
# Exporting generated files

Files are written one after another, or in turns when there are several.  In turns, they are noted
in their order once all writes have ended.

* `jobsOf`              the files that have a place
* `poolOf`              the writes in turns, by way of temporary files or straight into the targets
* `writeConcurrently`   the writing pass in turns
* `Manner`              how the files are written
* `run`                 an export; what it notes is added to what earlier ones noted
-/

namespace ZodSchema.Export

open Files Text

/-! ## in turns -/

/-- the write of a file -/
def jobOf? (root : Parts) (f : GeneratedFile) : Option Job :=
  (targetOf? root f.path).toOption.map fun target => ⟨target, f.content⟩

def jobsOf (root : Parts) (files : List GeneratedFile) : List Job := files.filterMap (jobOf? root)

/-- the writes of files in turns, once all have ended -/
def poolOf (s : Settings) (turns : List Turn) (files : List GeneratedFile) (fs : FileSystem) :
    Pool :=
  if s.atomic then Pool.run (jobsOf s.root files) turns fs
  else Pool.plainRun (jobsOf s.root files) turns fs

/-- notes how the write of a file went -/
def noteOutcome (s : Settings) (pool : Pool) (l : Log) (f : GeneratedFile) : Log :=
  match targetOf? s.root f.path with
  | .error why => l.fail (.notWritten f.path why)
  | .ok target =>
    match (pool.progress target).fault? with
    | none => { l with records := l.records ++ [Record.of f] }
    | some e => l.fail (.notWritten f.path (.fault e))

/-- writes the files in turns -/
def writeConcurrently (s : Settings) (turns : List Turn) (files : List GeneratedFile)
    (st : Log × FileSystem) : Log × FileSystem :=
  let pool := poolOf s turns files st.2
  (files.foldl (noteOutcome s pool) st.1, pool.files)

/-! ## exports -/

/-- how the files of an export are written -/
inductive Manner where
  | oneByOne
  | inTurns (turns : List Turn)

namespace Manner

/-- how the settings want files to be written; whose turn it is they leave open -/
def of (c : Config) (turns : List Turn) : Manner :=
  if c.concurrentWrites then inTurns turns else oneByOne

/-- the turns, if there are several files to take them -/
def turns? : Manner → List GeneratedFile → Option (List Turn)
  | oneByOne, _ => none
  | inTurns turns, files => if 1 < files.length then some turns else none

/-- the writing pass -/
def write (w : Manner) (s : Settings) (files : List GeneratedFile) (st : Log × FileSystem) :
    Log × FileSystem :=
  match w.turns? files with
  | none => writeFiles s files st
  | some turns => writeConcurrently s turns files st

end Manner

/-- an export -/
def run (w : Manner) (s : Settings) (files : List GeneratedFile) (st : Log × FileSystem) :
    Log × FileSystem :=
  match st.2.makeDirs s.root with
  | (fs, some e) => (st.1.fail (.noOutput e), fs)
  | (fs, none) =>
    let (failed, st) :=
      if s.clean then clearFamilies s (sortedDirs s.config) (st.1, fs) else ([], st.1, fs)
    writeManifest s (w.write s (without failed files) st)

end ZodSchema.Export
