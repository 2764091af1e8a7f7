import ZodSchema.Annotations.Segment
import ZodSchema.Annotations.Directive

/-!
# Annotations

What the documentation of a model or a field states.

* `Annotations`      a validator chain, an external type and rules
* `Annotations.of?`  the annotation of a documentation text, when it has a directive
-/

namespace ZodSchema

open Annotations (Segment Rule)

/-- `validators` are the chain members in source order, without type selector, brand and
description -/
structure Annotations where
  chain : String := ""
  segments : List Segment := []
  typeSelector : Option String := none
  validators : List String := []
  brand : Option String := none
  description : Option String := none
  customErrors : List (String × String) := []
  typeOverride : Option String := none
  rules : List Rule := []
  deriving DecidableEq, Repr

namespace Annotations

/-- opening segments that are validators and not type selectors -/
def topLevelFirst : List String :=
  ["email", "url", "uuid", "cuid", "cuid2", "ulid", "emoji", "base64", "ipv4", "ipv6",
    "datetime", "date"]

def typeSelectors : List String :=
  ["string", "number", "boolean", "date", "bigint", "array", "object"]

/-- validators that stand for a whole primitive -/
def topLevelNames : List String :=
  ["string", "number", "boolean", "bigint", "date", "enum", "cuid", "cuid2", "uuid", "email",
    "url", "datetime", "ulid", "emoji", "base64", "ipv4", "ipv6"]

/-- members that say a value may be missing -/
def nullabilityMembers : List String := [".nullable()", ".nullish()", ".optional()"]

/-- the member calls a function that stands for a whole primitive -/
def isTopLevel (validator : String) : Bool :=
  topLevelNames.any fun n => Text.Str.startsWith validator ("." ++ n ++ "(")

/-- `.brand("Name")`, or nothing -/
def brandMarker (a : Annotations) : String :=
  match a.brand with
  | some b => if b = "" then "" else ".brand(\"" ++ b ++ "\")"
  | none => ""

/-- all members, the brand last -/
def validatorChain (a : Annotations) : String := String.join a.validators ++ a.brandMarker

def firstIsTopLevel (a : Annotations) : Bool := a.validators.head?.any isTopLevel

def declaresNullability (a : Annotations) : Bool :=
  a.validators.any fun v => v == ".nullable()" || v == ".nullish()"

/-- a member is the call of one of the names without arguments -/
def hasValidator (a : Annotations) (names : List String) : Bool :=
  a.validators.any fun v => names.any fun n => v == call n ""

/-- argument texts of the rules of one key -/
def ruleValues (a : Annotations) (key : String) : List String :=
  (a.rules.filter (·.key == key)).map (·.args)

/-! ## reading -/

/-- the text of a chain behind `@zod.` up to the end of its line, when there is any -/
def chainAt? (cs : List Char) : Option (List Char) :=
  match Text.dropStart? "@zod.".toList cs with
  | some rest =>
    match rest.takeWhile (· != '\n') with
    | [] => none
    | t => some t
  | none => none

/-- the same behind three slashes -/
def slashChainAt? (cs : List Char) : Option (List Char) :=
  match Text.dropStart? "///".toList cs with
  | some rest => chainAt? (Text.trimLeft rest)
  | none => none

/-- the first result along the suffixes of a text -/
def firstAlong {α : Type} (f : List Char → Option α) : List Char → Option α
  | [] => f []
  | c :: cs =>
    match f (c :: cs) with
    | some r => some r
    | none => firstAlong f cs

/-- the chain of a documentation text: one behind slashes comes before any other -/
def chain? (doc : String) : Option (List Char) :=
  (match firstAlong slashChainAt? doc.toList with
    | some t => some t
    | none => firstAlong chainAt? doc.toList).map Text.trim

/-- an association list with one more entry, which replaces one of its key -/
def setError (name msg : String) (es : List (String × String)) : List (String × String) :=
  es.filter (·.1 != name) ++ [(name, msg)]

/-- takes up one part of the chain -/
def addPart (a : Annotations) (part : List Char) : Annotations :=
  let seg := Segment.read part
  let a := { a with segments := a.segments ++ [seg] }
  let keep (v : String) : Annotations := { a with validators := a.validators ++ [v] }
  match seg with
  | .verbatim raw => keep ("." ++ raw)
  | .named raw name args =>
    if name = "brand" then
      match brandName? (args.getD "") with
      | some b => { a with brand := some b }
      | none => keep ("." ++ raw)
    else if name = "describe" then
      match description? (args.getD "") with
      | some d => { a with description := some d }
      | none => keep ("." ++ raw)
    else
      let a := match customError? args with
        | some m => { a with customErrors := setError name m a.customErrors }
        | none => a
      { a with validators := a.validators ++ [callMember name args] }

/-- takes up the first part, which may select the type -/
def addFirst (a : Annotations) (part : List Char) : Annotations :=
  let name := String.ofList part
  if !topLevelFirst.contains name && typeSelectors.contains name then
    { a with typeSelector := some name, segments := [.named name name none] }
  else a.addPart part

def addParts (a : Annotations) : List (List Char) → Annotations
  | [] => a
  | p :: ps => ps.foldl addPart (a.addFirst p)

/-- the annotation of a documentation text, `none` when it has no directive -/
def of? (doc : Option String) : Option Annotations :=
  match doc with
  | none => none
  | some doc =>
    let chain := chain? doc
    let override := typeOverride? doc
    let rules := scanRules doc
    if chain.isNone && override.isNone && rules.isEmpty then none
    else
      let text := chain.getD []
      some (addParts
        { chain := String.ofList text, typeOverride := override, rules := rules }
        (splitChain text))

end Annotations

end ZodSchema
