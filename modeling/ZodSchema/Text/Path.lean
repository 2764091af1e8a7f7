import ZodSchema.Text.Chars

/-!
# Slash-separated paths

* `Path.parts`      the parts of a path text
* `Path.absolute`   the parts of a path text from the root, double dots kept
* `Path.normalize`  parts without dots, a double dot taking back the part before it
* `Path.extension`  the ending of a file name
* `relativeParts`   the way from one directory to another
* `relativeModule`  the same as an import specifier
-/

namespace ZodSchema.Text

/-- parts of a path, root first -/
abbrev Parts := List String

namespace Path

/-- the parts between slashes that are not empty -/
def parts (s : String) : Parts := (Str.splitOn '/' s).filter (· ≠ "")

/-- the parts of `s` from the root, read in `dir` unless a slash opens it; double dots are kept -/
def absolute (dir : Parts) (s : String) : Parts :=
  let ps := (parts s).filter (· ≠ ".")
  if Str.startsWith s "/" then ps else dir ++ ps

/-- the text of a path from the root -/
def text (p : Parts) : String := "/" ++ Str.join "/" p

/-- the last part, empty for the root -/
def fileName (p : Parts) : String := p.getLast?.getD ""

/-- the ending of a file name from its last dot on; a dot at either end of the name opens none -/
def extension (name : String) : String :=
  let r := name.toList.reverse
  let tail := r.takeWhile (· ≠ '.')
  if tail.isEmpty || (r.drop (tail.length + 1)).isEmpty then ""
  else String.ofList ('.' :: tail.reverse)

/-- the order of paths, part by part; a directory comes before what is in it -/
def upTo : Parts → Parts → Bool
  | [], _ => true
  | _ :: _, [] => false
  | a :: as, b :: bs => if a = b then upTo as bs else decide (a ≤ b)

/-- one part more: a dot stays, a double dot goes up and stops at the root -/
def step (stack : Parts) (part : String) : Parts :=
  if part = "" ∨ part = "." then stack
  else if part = ".." then stack.dropLast
  else stack ++ [part]

/-- the directory that `rel` names from `base` -/
def resolve (base rel : Parts) : Parts := rel.foldl step base

def normalize (p : Parts) : Parts := resolve [] p

/-- without the common beginning of both -/
def dropCommon : Parts → Parts → Parts × Parts
  | a :: as, b :: bs => if a = b then dropCommon as bs else (a :: as, b :: bs)
  | as, bs => (as, bs)

end Path

/-- the way from directory `start` to `target`, both from the root -/
def relativeParts (start target : Parts) : Parts :=
  let r := Path.dropCommon start target
  r.1.map (fun _ => "..") ++ r.2

/-- `target` as imported from a file in `start`; both are read from the working directory -/
def relativeModule (workDir : Parts) (start target : String) : String :=
  let abs (s : String) := Path.resolve workDir (Path.parts s)
  let rel := relativeParts (abs start) (abs target)
  let text := if rel = [] then "." else Str.join "/" rel
  if Str.startsWith text "." then text else "./" ++ text

end ZodSchema.Text
