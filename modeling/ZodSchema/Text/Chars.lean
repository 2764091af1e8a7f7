import ZodSchema.Text.Class

/-!
# Operations on character lists

Cutting, searching and replacing.  Every operation on `String` is the one on the list of its
characters.

* `trim`         without blanks at both ends
* `splitLines`   the lines, without their ends
* `breakOn?`     the text before and after the first occurrence of a pattern
* `replace`      every occurrence, left to right, without overlaps
-/

namespace ZodSchema.Text

/-! ## ends -/

def trimLeft (cs : List Char) : List Char := cs.dropWhile isBlank

def trimRight (cs : List Char) : List Char := (cs.reverse.dropWhile isBlank).reverse

def trim (cs : List Char) : List Char := trimRight (trimLeft cs)

/-- without the characters of class `p` at both ends -/
def trimBy (p : Char → Bool) (cs : List Char) : List Char :=
  ((cs.dropWhile p).reverse.dropWhile p).reverse

/-- `some rest` when `cs = pat ++ rest` -/
def dropStart? : List Char → List Char → Option (List Char)
  | [], cs => some cs
  | _ :: _, [] => none
  | p :: ps, c :: cs => if p = c then dropStart? ps cs else none

theorem dropStart?_eq_some_iff {pat cs rest : List Char} :
    dropStart? pat cs = some rest ↔ cs = pat ++ rest := by
  induction pat generalizing cs with
  | nil => simp [dropStart?, eq_comm]
  | cons p ps ih =>
    cases cs with
    | nil => simp [dropStart?]
    | cons c cs =>
      by_cases h : p = c
      · simp [dropStart?, h, ih]
      · simp [dropStart?, h, Ne.symm h]

/-- without one line feed at the end, which the patterns for a whole text pass over -/
def dropFinalNewline (cs : List Char) : List Char :=
  if cs.getLast? = some '\n' then cs.dropLast else cs

/-! ## lines -/

/-- `splitLines` with the characters of the open line, newest first -/
def splitLinesFrom : List Char → List Char → List (List Char)
  | [], [] => []
  | acc, [] => [acc.reverse]
  | acc, '\r' :: '\n' :: cs => acc.reverse :: splitLinesFrom [] cs
  | acc, c :: cs =>
    if isLineBreak c then acc.reverse :: splitLinesFrom [] cs else splitLinesFrom (c :: acc) cs

/-- the lines without their ends; a line break at the very end opens no further line -/
def splitLines (cs : List Char) : List (List Char) := splitLinesFrom [] cs

/-- the parts between the occurrences of `sep` -/
def splitOnChar (sep : Char) : List Char → List (List Char)
  | [] => [[]]
  | c :: cs =>
    match splitOnChar sep cs with
    | [] => [[c]]
    | p :: ps => if c = sep then [] :: p :: ps else (c :: p) :: ps

/-! ## search -/

/-- the text before and after the first occurrence of `pat` -/
def breakOn? (pat : List Char) : List Char → Option (List Char × List Char)
  | [] => if pat = [] then some ([], []) else none
  | c :: cs =>
    match dropStart? pat (c :: cs) with
    | some rest => some ([], rest)
    | none => (breakOn? pat cs).map fun r => (c :: r.1, r.2)

theorem breakOn?_eq_some {pat cs a b : List Char} (h : breakOn? pat cs = some (a, b)) :
    cs = a ++ pat ++ b := by
  induction cs generalizing a b with
  | nil =>
    simp only [breakOn?] at h
    split at h
    · simp_all
    · simp at h
  | cons c cs ih =>
    simp only [breakOn?] at h
    split at h
    · next rest hr =>
      obtain ⟨rfl, rfl⟩ := Prod.mk.inj (Option.some.inj h)
      simpa using dropStart?_eq_some_iff.1 hr
    · obtain ⟨⟨a', b'⟩, hr, he⟩ := Option.map_eq_some_iff.1 h
      obtain ⟨rfl, rfl⟩ := Prod.mk.inj he
      simp [ih hr]

/-- `replace` while `skip` characters of the last occurrence are still to be passed -/
def replaceFrom (old new : List Char) : Nat → List Char → List Char
  | _, [] => []
  | skip + 1, _ :: cs => replaceFrom old new skip cs
  | 0, c :: cs =>
    match dropStart? old (c :: cs) with
    | some _ => new ++ replaceFrom old new (old.length - 1) cs
    | none => c :: replaceFrom old new 0 cs

/-- every occurrence of the nonempty `old`, left to right, without overlaps -/
def replace (old new cs : List Char) : List Char := replaceFrom old new 0 cs

/-- number of occurrences of a character -/
def countChar (c : Char) (cs : List Char) : Nat := cs.countP (· == c)

end ZodSchema.Text

/-! ## the same on strings -/

namespace ZodSchema.Text.Str

def trim (s : String) : String := String.ofList (Text.trim s.toList)
def trimRight (s : String) : String := String.ofList (Text.trimRight s.toList)
def lines (s : String) : List String := (splitLines s.toList).map String.ofList
def splitOn (sep : Char) (s : String) : List String :=
  (splitOnChar sep s.toList).map String.ofList
def replace (old new s : String) : String :=
  String.ofList (Text.replace old.toList new.toList s.toList)

/-- without the slashes at both ends -/
def trimSlashes (s : String) : String := String.ofList (trimBy (· == '/') s.toList)

def startsWith (s pat : String) : Bool := (dropStart? pat.toList s.toList).isSome
def endsWith (s pat : String) : Bool :=
  (dropStart? pat.toList.reverse s.toList.reverse).isSome

/-- without the last `n` characters -/
def dropLast (n : Nat) (s : String) : String :=
  String.ofList (s.toList.take (s.toList.length - n))

/-- the strings one after the other, with `sep` between them -/
def join (sep : String) (parts : List String) : String := sep.intercalate parts

/-- lines joined by line feeds -/
def unlines (parts : List String) : String := join "\n" parts

/-- in the order of code points, each once -/
def sortDedup (xs : List String) : List String :=
  (xs.mergeSort (fun a b => decide (a ≤ b))).eraseDups

end ZodSchema.Text.Str
