import ZodSchema.Json.Reader
import ZodSchema.Annotations.Chain

/-!
# Rule arguments

* `arrayArg`   the items of a list, each in double quotes, in single quotes or bare
* `stringArg`  a text, with or without quotes around it
* `intArg?`    an integer
* `jsonArg?`   a JSON value that is not `null`
* `longIntegerIn?`   an integer in a JSON text that is too long to be read
-/

namespace ZodSchema.Crud

/-- may stand in a bare item -/
def isBare (c : Char) : Bool :=
  !(c == ',' || c == '[' || c == ']' || Text.isBlank c || c == '"' || c == '\'')

/-- the text up to the next mark `q`, when there is one -/
def upTo? (q : Char) (cs : List Char) : Option (List Char) :=
  if cs.contains q then some (cs.takeWhile (· != q)) else none

/-- the quoted item at the head, without its marks -/
def quotedItem? : List Char → Option (List Char)
  | c :: cs => if c = '"' ∨ c = '\'' then upTo? c cs else none
  | [] => none

/-- items of a list; `skip` characters of the last item are still to be passed -/
def itemsFrom : Nat → List Char → List (List Char)
  | _, [] => []
  | skip + 1, _ :: cs => itemsFrom skip cs
  | 0, c :: cs =>
    match quotedItem? (c :: cs) with
    | some item => item :: itemsFrom (item.length + 1) cs
    | none =>
      if isBare c then
        (c :: cs).takeWhile isBare :: itemsFrom (cs.takeWhile isBare).length cs
      else itemsFrom 0 cs

/-- the nonempty items of a list -/
def arrayArg (raw : String) : List String :=
  ((itemsFrom 0 raw.toList).filter (· ≠ [])).map String.ofList

/-- quoted items only; `skip` characters of the last item are still to be passed -/
def quotedItemsFrom : Nat → List Char → List (List Char)
  | _, [] => []
  | skip + 1, _ :: cs => quotedItemsFrom skip cs
  | 0, c :: cs =>
    match quotedItem? (c :: cs) with
    | some item => item :: quotedItemsFrom (item.length + 1) cs
    | none => quotedItemsFrom 0 cs

/-- a text between equal quote marks -/
def unquote? : List Char → Option (List Char)
  | q :: rest =>
    if (q = '"' ∨ q = '\'') ∧ rest.getLast? = some q then some rest.dropLast else none
  | [] => none

def stringArg (raw : String) : String :=
  let cs := Text.trim raw.toList
  String.ofList ((unquote? cs).getD cs)

def intArg? (raw : String) : Option Int := Text.readInt? (stringArg raw).toList

/-- a value that is there; invalid text counts as `null` -/
def jsonArg? (raw : String) : Option Value :=
  match Json.read? raw with
  | some .null => none
  | v => v

/-- the number of digits of an integer that is too long, where it is what keeps a text from being
read -/
def longIntegerIn? (raw : String) : Option Nat :=
  match Json.read raw with
  | .error (.longInteger n) => some n
  | _ => none

/-- a JSON object -/
def jsonObject? (raw : String) : Option Value.Entries := (jsonArg? raw).bind Value.entries?

end ZodSchema.Crud
