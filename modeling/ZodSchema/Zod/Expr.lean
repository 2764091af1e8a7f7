import ZodSchema.Text.Literal
import ZodSchema.Annotations.Basic

/-!
# Schema expressions

* `Expr`            an opening and the members that are called on it, in order
* `asNullish`       the member with `.nullable()` widened
* `chainable`       the members of an annotation that follow an opening
* `topLevelBase?`   the opening that the first member stands for
-/

namespace ZodSchema.Zod

open Annotations (isTopLevel callArgs?)

def nullish : String := ".nullish()"

/-- a schema expression: its opening, members, brand, and then whether it is a list, may be
missing, and how it is described -/
structure Expr where
  opening : String
  members : List String := []
  brand : String := ""
  list : Bool := false
  nullish : Bool := false
  description : Option String := none
  deriving DecidableEq, Repr

namespace Expr

/-- opening, members and brand -/
def core (e : Expr) : String := e.opening ++ String.join e.members ++ e.brand

/-- everything but the description -/
def body (e : Expr) : String :=
  e.core ++ (if e.list then ".array()" else "") ++ (if e.nullish then Zod.nullish else "")

def describe (e : Expr) : String :=
  match e.description with
  | some d => ".describe(" ++ Text.quote d ++ ")"
  | none => ""

def render (e : Expr) : String := e.body ++ e.describe

end Expr

/-- `.nullable()` becomes `.nullish()`, wherever it stands -/
def asNullish (member : String) : String := Text.Str.replace ".nullable()" nullish member

/-- members that follow an opening -/
def chainable (validators : List String) : List String :=
  (validators.filter fun v => !isTopLevel v).map asNullish

/-- name and arguments of a call member -/
def callParts? (member : String) : Option (String × String) :=
  match member.toList with
  | '.' :: cs =>
    match cs.takeWhile Text.isWord with
    | [] => none
    | name =>
      (callArgs? (Text.dropFinalNewline (cs.dropWhile Text.isWord))).map fun args =>
        (String.ofList name, String.ofList args)
  | _ => none

/-- `z.email()` for an annotation whose first member is `.email()` -/
def topLevelBase? (a : Annotations) : Option String :=
  match a.validators with
  | v :: _ =>
    if isTopLevel v then
      (callParts? v).map fun p => "z." ++ p.1 ++ "(" ++ p.2 ++ ")"
    else none
  | [] => none

end ZodSchema.Zod
