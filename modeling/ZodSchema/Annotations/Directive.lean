import ZodSchema.Annotations.Paren

/-!
# Directives in documentation

`@crud.key(args)` states a rule and `@kyselyType(...)` names an external type.

* `ruleAt?`       the key of a rule that starts at the head
* `scanRules`     all balanced rules, in order
* `typeOverride?` the text of the first type directive
-/

namespace ZodSchema.Annotations

/-- a rule directive as written: its key and its argument text -/
structure Rule where
  key : String
  args : String
  deriving DecidableEq, Repr

def ruleMark : List Char := "@crud.".toList

def isKeyStart (c : Char) : Bool := c.isAlpha || c == '_'

def isKeyRest (c : Char) : Bool := Text.isWord c || c == '.'

/-- the key of a rule that starts at the head, and the text from its parenthesis on -/
def ruleAt? (cs : List Char) : Option (List Char × List Char) :=
  match Text.dropStart? ruleMark cs with
  | some (c :: rest) =>
    match isKeyStart c, rest.dropWhile isKeyRest with
    | true, '(' :: tail => some (c :: rest.takeWhile isKeyRest, '(' :: tail)
    | _, _ => none
  | _ => none

/-- the rule that starts at the head, when its parentheses close -/
def balancedRuleAt? (cs : List Char) : Option Rule :=
  match ruleAt? cs with
  | some (key, rest) =>
    (enclosed? rest).map fun r => ⟨String.ofList key, String.ofList (Text.trim r.1)⟩
  | none => none

def scanRulesIn : List Char → List Rule
  | [] => []
  | c :: cs => (balancedRuleAt? (c :: cs)).toList ++ scanRulesIn cs

/-- every balanced rule, also one inside the arguments of another -/
def scanRules (doc : String) : List Rule := scanRulesIn doc.toList

def typeMark : List Char := "@kyselyType".toList

/-- text before the first type directive, inside and after its parentheses -/
def typeParts? (cs : List Char) : Option (List Char × List Char × List Char) :=
  match Text.breakOn? (typeMark ++ ['(']) cs with
  | some (before, rest) => (enclosed? ('(' :: rest)).map fun r => (before, r.1, r.2)
  | none => none

/-- the trimmed text of the first type directive, unless it is empty or never closes -/
def typeOverride? (doc : String) : Option String :=
  match typeParts? doc.toList with
  | some (_, inner, _) =>
    let t := Text.trim inner
    if t = [] then none else some (String.ofList t)
  | none => none

end ZodSchema.Annotations
