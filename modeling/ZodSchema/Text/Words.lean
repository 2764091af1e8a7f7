import ZodSchema.Text.Lower
import ZodSchema.Text.Chars

/-!
# Words of a name

The words of an identifier in any casing style.  Only the letters `A` to `Z`, `a` to `z` and the
digits count; every other character ends a word.

* `words`       the words in lower case
* `pascalCase`  every word capitalised
* `camelCase`   every word but the first capitalised
-/

namespace ZodSchema.Text

/-- length of the word at the head of a list, zero when the list starts with no word.
A capital joins the small letters after it; a run of capitals leaves its last one to the small
letter that follows; digits stay together. -/
def wordLength : List Char → Nat
  | [] => 0
  | c :: cs =>
    if c.isUpper then
      match cs with
      | [] => 1
      | d :: _ =>
        if d.isLower then 1 + (cs.takeWhile Char.isLower).length
        else
          let run := (c :: cs).takeWhile Char.isUpper
          match cs.dropWhile Char.isUpper with
          | e :: _ => if e.isLower then run.length - 1 else run.length
          | [] => run.length
    else if c.isLower then ((c :: cs).takeWhile Char.isLower).length
    else if c.isDigit then ((c :: cs).takeWhile Char.isDigit).length
    else 0

/-- `words` with the characters of the open word, newest first, and how many of its
characters are still to come -/
def wordsFrom : Nat → List Char → List Char → List (List Char)
  | _, acc, [] => if acc = [] then [] else [acc.reverse]
  | k + 1, acc, c :: cs => wordsFrom k (c.toLower :: acc) cs
  | 0, acc, c :: cs =>
    let done := if acc = [] then [] else [acc.reverse]
    match wordLength (c :: cs) with
    | 0 => done ++ wordsFrom 0 [] cs
    | k + 1 => done ++ wordsFrom k [c.toLower] cs

def words (cs : List Char) : List (List Char) := wordsFrom 0 [] cs

def capitalize : List Char → List Char
  | [] => []
  | c :: cs => c.toUpper :: cs.map Char.toLower

def pascalCase (cs : List Char) : List Char := (words cs).flatMap capitalize

def camelCase (cs : List Char) : List Char :=
  match words cs with
  | [] => []
  | w :: ws => w ++ ws.flatMap capitalize

namespace Str

def pascalCase (s : String) : String := String.ofList (Text.pascalCase s.toList)
def camelCase (s : String) : String := String.ofList (Text.camelCase s.toList)

end Str

end ZodSchema.Text
