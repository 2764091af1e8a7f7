import ZodSchema.Text.Path
import ZodSchema.Display

/-!
# Files and directories

* `FileSystem`            directories and files by path; the root is always a directory
* `get?`, `put`, `erase`  what stands at a path
* `locate`                the place that a path with double dots leads to
* `makeDirs`              a directory with its missing parents
* `clear`                 a directory without its content
* `get?_put`, `get?_erase`  what an operation leaves at every path
-/

namespace ZodSchema.Files

open Text

/-- what stands at a path -/
inductive Entry where
  | dir
  | file (content : ByteArray)

/-- entries by path from the root; the first one of a path counts -/
structure FileSystem where
  entries : List (Parts × Entry) := []

/-- why an operation fails -/
inductive Fault where
  | fileExists (path : Parts)
  | notDirectory (path : Parts)
  | isDirectory (path : Parts)
  | isDirectoryAt (temp path : Parts)
  | busy (temp path : Parts)
  | nameTooLong (path : Parts)
  | nulCharacter
  /-- a move finds nothing to move -/
  | gone (temp path : Parts)
  /-- a content that has no encoding -/
  | unencodable (lone : Lone)
  deriving DecidableEq, Repr

namespace Fault

/-- the kind of a fault -/
def kind : Fault → String
  | fileExists _ => "FileExistsError"
  | notDirectory _ => "NotADirectoryError"
  | isDirectory _ => "IsADirectoryError"
  | isDirectoryAt _ _ => "IsADirectoryError"
  | busy _ _ => "OSError"
  | nameTooLong _ => "OSError"
  | nulCharacter => "ValueError"
  | gone _ _ => "FileNotFoundError"
  | unencodable _ => "UnicodeEncodeError"

def message : Fault → String
  | fileExists p => "[Errno 17] File exists: " ++ Display.quoted (Path.text p)
  | notDirectory p => "[Errno 20] Not a directory: " ++ Display.quoted (Path.text p)
  | isDirectory p => "[Errno 21] Is a directory: " ++ Display.quoted (Path.text p)
  | isDirectoryAt t p =>
    "[Errno 21] Is a directory: " ++ Display.quoted (Path.text t) ++ " -> " ++
      Display.quoted (Path.text p)
  | busy t p =>
    "[Errno 16] Device or resource busy: " ++ Display.quoted (Path.text t) ++ " -> " ++
      Display.quoted (Path.text p)
  | nameTooLong p => "[Errno 36] File name too long: " ++ Display.quoted (Path.text p)
  | nulCharacter => "embedded null byte"
  | gone t p =>
    "[Errno 2] No such file or directory: " ++ Display.quoted (Path.text t) ++ " -> " ++
      Display.quoted (Path.text p)
  | unencodable l => l.message

/-- kind and message -/
def describe (f : Fault) : String := f.kind ++ ": " ++ f.message

end Fault

/-- longest name of a file or a directory, in bytes -/
def longestName : Nat := 255

/-- longest path, in bytes -/
def longestPath : Nat := 4095

def isLongName (name : String) : Bool := longestName < Str.nameSize name

def isLongPath (p : Parts) : Bool := longestPath < Str.nameSize (Path.text p)

/-- a path that no file can have, whatever stands there -/
def hasBadName (p : Parts) : Bool := p.any fun name => !Str.canName name

/-- why no file can have a path with a bad name -/
def nameFault (p : Parts) : Fault :=
  match Str.unnamed? (Path.text p) with
  | some lone => .unencodable lone
  | none => .nulCharacter

/-- the same for a path with double dots, which is followed from `cur` to the first bad name -/
def routeFault (cur : Parts) : Parts → Fault
  | [] => nameFault cur
  | part :: rest =>
    if part = ".." then routeFault cur.dropLast rest
    else if Str.canName part then routeFault (cur ++ [part]) rest
    else nameFault (cur ++ [part])

namespace FileSystem

def lookup (p : Parts) : List (Parts × Entry) → Option Entry
  | [] => none
  | (q, e) :: es => if q = p then some e else lookup p es

/-- what stands at a path -/
def get? (fs : FileSystem) (p : Parts) : Option Entry :=
  if p = [] then some .dir else lookup p fs.entries

/-- without the paths in `gone` -/
def eraseAll (gone : Parts → Bool) (fs : FileSystem) : FileSystem :=
  ⟨fs.entries.filter fun e => !gone e.1⟩

def erase (p : Parts) (fs : FileSystem) : FileSystem := fs.eraseAll (· == p)

def put (p : Parts) (e : Entry) (fs : FileSystem) : FileSystem := ⟨(p, e) :: (fs.erase p).entries⟩

/-- `p` is `dir` or lies below it -/
def isWithin (dir p : Parts) : Bool := dir.isPrefixOf p

/-- `p` lies below `dir` -/
def isBelow (dir p : Parts) : Bool := dir.isPrefixOf p && p.length > dir.length

/-- without a path and all below it -/
def eraseTree (p : Parts) (fs : FileSystem) : FileSystem := fs.eraseAll (isWithin p)

def isDir (fs : FileSystem) (p : Parts) : Bool := fs.get? p matches some .dir

/-- the place that `rest` leads to from `cur`: every step starts in a directory, and there a name
of `path` that is too long comes to light -/
def locateFrom (fs : FileSystem) (path : Parts) :
    Parts → List String → Except Fault (Option Parts)
  | cur, [] => .ok (some cur)
  | cur, part :: rest =>
    if !fs.isDir cur then .ok none
    else if part = ".." then locateFrom fs path cur.dropLast rest
    else if isLongName part then .error (.nameTooLong path)
    else if (fs.get? (cur ++ [part])).isSome then locateFrom fs path (cur ++ [part]) rest
    else .ok none

/-- the place of a path, double dots followed, if something stands there -/
def locate (fs : FileSystem) (path : Parts) : Except Fault (Option Parts) :=
  if hasBadName path then .ok none
  else if isLongPath path then .error (.nameTooLong path)
  else locateFrom fs path [] path

/-- `makeDirs` below `cur`, for the directory `full`; once one directory was missing, `made`, each
further one is made by itself -/
def makeDirsFrom (full : Parts) :
    Bool → Parts → List String → FileSystem → FileSystem × Option Fault
  | _, _, [], fs => (fs, none)
  | made, cur, part :: rest, fs =>
    let next := cur ++ [part]
    if isLongName part then (fs, some (.nameTooLong (if made then next else full)))
    else
      match fs.get? next with
      | some .dir => makeDirsFrom full made next rest fs
      | some (.file _) => (fs, some (if rest = [] then .fileExists full else .notDirectory full))
      | none => makeDirsFrom full true next rest (fs.put next .dir)

/-- makes a directory and its missing parents; nothing is made when a file is in the way -/
def makeDirs (dir : Parts) (fs : FileSystem) : FileSystem × Option Fault :=
  if hasBadName dir then (fs, some (nameFault dir))
  else if isLongPath dir then (fs, some (.nameTooLong dir))
  else makeDirsFrom dir false [] dir fs

/-- names that stay when a directory is cleared -/
def keptNames : List String := [".git", ".gitignore", ".gitkeep"]

/-- `p` goes when `dir` is cleared -/
def isCleared (keep : List String) (dir p : Parts) : Bool :=
  isBelow dir p && !keep.contains (p.getD dir.length "")

/-- removes the content of a directory, except what is named in `keep`; a missing directory is
left alone -/
def clear (keep : List String) (path : Parts) (fs : FileSystem) : Except Fault FileSystem :=
  match fs.locate path with
  | .error f => .error f
  | .ok none => .ok fs
  | .ok (some p) =>
    if fs.isDir p then .ok (fs.eraseAll (isCleared keep p)) else .error (.notDirectory path)

/-- all entries below a directory, in the order of their paths -/
def below (dir : Parts) (fs : FileSystem) : List (Parts × Entry) :=
  (fs.entries.filter fun e => isBelow dir e.1).mergeSort fun a b => Path.upTo a.1 b.1

/-! ## what an operation leaves -/

theorem lookup_filter (gone : Parts → Bool) (p : Parts) (es : List (Parts × Entry)) :
    lookup p (es.filter fun e => !gone e.1) = if gone p then none else lookup p es := by
  induction es with
  | nil => simp [lookup]
  | cons e es ih =>
    obtain ⟨q, e⟩ := e
    by_cases hq : gone q
    · by_cases hp : q = p
      · subst hp; simp [hq, ih]
      · simp [hq, ih, lookup, hp]
    · by_cases hp : q = p
      · subst hp; simp [hq, lookup]
      · simp [hq, lookup, hp, ih]

theorem get?_eraseAll (gone : Parts → Bool) (fs : FileSystem) (p : Parts) :
    (fs.eraseAll gone).get? p = if p ≠ [] ∧ gone p then none else fs.get? p := by
  by_cases hp : p = []
  · simp [get?, hp]
  · simp [get?, eraseAll, hp, lookup_filter]

theorem get?_erase (fs : FileSystem) (q p : Parts) :
    (fs.erase q).get? p = if p ≠ [] ∧ p = q then none else fs.get? p := by
  simp [erase, get?_eraseAll]

theorem get?_put (fs : FileSystem) (q : Parts) (e : Entry) (p : Parts) :
    (fs.put q e).get? p = if p ≠ [] ∧ p = q then some e else fs.get? p := by
  by_cases hp : p = []
  · simp [get?, hp]
  · by_cases hq : p = q
    · subst hq; simp [get?, hp, put, lookup]
    · have : (fs.erase q).get? p = fs.get? p := by simp [get?_erase, hq]
      simpa [get?, hp, put, lookup, Ne.symm hq, hq] using this

end FileSystem

end ZodSchema.Files
