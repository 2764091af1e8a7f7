import ZodSchema.Cli.Switch
import ZodSchema.Datamodel.Config
import ZodSchema.Text.Numeral
import ZodSchema.Display
import ZodSchema.Value

/-!
# Arguments of the command line

* `Args`             what the arguments ask for
* `Args.parse`       the arguments read, or why they are not
* `Args.overrides`   the settings that the switches given override
-/

namespace ZodSchema.Cli

open Text

/-- what stands as the value of a switch; two hyphens alone stand for no value -/
inductive Operand (α : Type) where
  | empty
  | one (a : α)
  deriving DecidableEq, Repr

/-- the operand as a value of a document: where there is no value, an empty list -/
def Operand.value {α : Type} (f : α → Value) : Operand α → Value
  | empty => .list []
  | one a => f a

/-- what the arguments ask for -/
structure Args where
  schema : Option (Operand String) := none
  output : Option (Operand String) := none
  provider : Option (Operand Provider) := none
  brands : Bool := false
  layers : Bool := false
  crud : Bool := false
  camelCase : Bool := false
  noDefaultValidators : Bool := false
  pagination : Option (Operand Pagination) := none
  maxPageSize : Option (Operand Int) := none
  manifest : Bool := false
  validateOnly : Bool := false
  dryRun : Bool := false
  noStrict : Bool := false
  failOnWarnings : Bool := false
  verbose : Nat := 0
  quiet : Bool := false
  deriving DecidableEq, Repr

/-- why arguments are refused -/
inductive UsageError where
  | ambiguous (arg : String) (choices : List Switch)
  | noValue (s : Switch)
  | ignoredValue (s : Switch) (value : String)
  | badChoice (s : Switch) (value : String) (choices : List String)
  | badInteger (s : Switch) (value : String)
  | excluded (s other : Switch)
  | noSchema
  | unrecognized (args : List String)
  deriving DecidableEq, Repr

namespace UsageError

/-- a complaint about one switch -/
def about (s : Switch) (text : String) : String := "argument " ++ s.title ++ ": " ++ text

def message : UsageError → String
  | ambiguous arg ss =>
    "ambiguous option: " ++ arg ++ " could match " ++ Str.join ", " (ss.map Switch.long)
  | noValue s => about s "expected one argument"
  | ignoredValue s v => about s ("ignored explicit argument " ++ Display.quoted v)
  | badChoice s v cs =>
    about s ("invalid choice: " ++ Display.quoted v ++ " (choose from " ++
      Str.join ", " (cs.map Display.quoted) ++ ")")
  | badInteger s v => about s ("invalid int value: " ++ Display.quoted v)
  | excluded s other => about s ("not allowed with argument " ++ other.title)
  | noSchema => "the following arguments are required: " ++ Switch.schema.title
  | unrecognized as => "unrecognized arguments: " ++ Str.join " " as

end UsageError

/-- why reading the arguments ends early -/
inductive Stop where
  | help
  | version
  | error (e : UsageError)
  deriving DecidableEq, Repr

/-- how a switch is spelled: by its letter or by its word -/
inductive Spelling where
  | letter | word
  deriving DecidableEq, Repr

/-- one argument: a value, a switch with what is written right behind it, or neither -/
inductive Word where
  | value (text : String)
  | switch (s : Switch) (by_ : Spelling) (rest : Option (List Char))
  | unknown (text : String)
  deriving DecidableEq, Repr

/-- digits behind a hyphen, with a point or without -/
def isNegativeNumber (cs : List Char) : Bool :=
  let isDigit (c : Char) := (decimalValue? c).isSome
  match dropFinalNewline cs with
  | '-' :: ds =>
    match breakOn? ['.'] ds with
    | none => !ds.isEmpty && ds.all isDigit
    | some (whole, fraction) => whole.all isDigit && !fraction.isEmpty && fraction.all isDigit
  | _ => false

/-- an argument that starts with a hyphen but is no spelling of a switch -/
def unmatched (arg : String) : Word :=
  if isNegativeNumber arg.toList || arg.toList.contains ' ' then .value arg else .unknown arg

/-- the switch of a full spelling -/
def spelled? (spelling : List Char) : Option (Switch × Spelling) :=
  match spelling with
  | ['-', c] => (Switch.ofLetter? c).map (·, .letter)
  | cs => (Switch.ofLong? (String.ofList cs)).map (·, .word)

/-- an argument that starts with two hyphens and is an unambiguous beginning of a spelling, up to
an equals sign -/
def abbreviated (arg : String) : Except UsageError Word :=
  let (name, rest) : List Char × Option (List Char) :=
    match breakOn? ['='] arg.toList with
    | some (n, v) => (n, some v)
    | none => (arg.toList, none)
  match Switch.matching (String.ofList name) with
  | [] => .ok (unmatched arg)
  | [s] => .ok (.switch s .word rest)
  | ss => .error (.ambiguous arg ss)

/-- an argument that starts with a hyphen: a full spelling, one with a value behind an equals sign,
an abbreviation, or a letter with something right behind it -/
def hyphenWord (arg : String) : Except UsageError Word :=
  match spelled? arg.toList with
  | some (s, b) => .ok (.switch s b none)
  | none =>
    match (breakOn? ['='] arg.toList).bind fun p => (spelled? p.1).map fun q => (q, p.2) with
    | some ((s, b), v) => .ok (.switch s b (some v))
    | none =>
      match arg.toList with
      | '-' :: '-' :: _ => abbreviated arg
      | '-' :: c :: rest =>
        match Switch.ofLetter? c with
        | some s => .ok (.switch s .letter (some rest))
        | none => .ok (unmatched arg)
      | _ => .ok (.value arg)

def word (arg : String) : Except UsageError Word :=
  if Str.startsWith arg "-" then hyphenWord arg else .ok (.value arg)

/-- the arguments one by one; two hyphens alone, and all behind them, are no switches -/
def words : List String → Except UsageError (List Word)
  | [] => .ok []
  | arg :: args =>
    if arg = "--" then .ok (.unknown arg :: args.map .unknown)
    else do
      let w ← word arg
      let ws ← words args
      pure (w :: ws)

/-- a switch with its value -/
abbrev Given := Switch × Operand String

/-- a value as it is written -/
def operand (text : String) : Operand String := if text = "--" then .empty else .one text

/-- what an argument that opens with a switch comes to -/
structure Group where
  given : List Given := []
  /-- the last switch, which has no value yet -/
  last : Option Switch := none

/-- the switches in one argument: behind the letter of one that takes no value, each character is
the letter of another one -/
def group (s : Switch) (b : Spelling) : Option (List Char) → Except UsageError Group
  | none => .ok { last := some s }
  | some [] =>
    if s.takesValue then .ok { given := [(s, operand "")] } else .error (.ignoredValue s "")
  | some (c :: cs) =>
    let rest := String.ofList (c :: cs)
    if s.takesValue then .ok { given := [(s, operand rest)] }
    else if b = .word then .error (.ignoredValue s rest)
    else
      match Switch.ofLetter? c with
      | none => .error (.ignoredValue s rest)
      | some t =>
        (group t .letter (if cs = [] then none else some cs)).map fun g =>
          { g with given := (s, .empty) :: g.given }
termination_by rest => (rest.map (·.length + 1)).getD 0
decreasing_by
  cases cs <;> simp

namespace Args

/-- the value of a switch among names -/
def choose {α : Type} (s : Switch) (v : Operand String) (all : List α) (name : α → String) :
    Except Stop (Operand α) :=
  match v with
  | .empty => .ok .empty
  | .one text =>
    match all.find? (name · == text) with
    | some a => .ok (.one a)
    | none => .error (.error (.badChoice s text (all.map name)))

/-- the value of a switch that takes an integer -/
def number (s : Switch) : Operand String → Except Stop (Operand Int)
  | .empty => .ok .empty
  | .one text =>
    match readInt? text.toList with
    | some n => .ok (.one n)
    | none => .error (.error (.badInteger s text))

/-- the arguments after one switch more -/
def give (a : Args) (g : Given) : Except Stop Args :=
  match g.1 with
  | .help => .error .help
  | .version => .error .version
  | .schema => .ok { a with schema := some g.2 }
  | .output => .ok { a with output := some g.2 }
  | .provider => (choose .provider g.2 Provider.all Provider.name).map fun p =>
      { a with provider := some p }
  | .brands => .ok { a with brands := true }
  | .layers => .ok { a with layers := true }
  | .crud => .ok { a with crud := true }
  | .camelCase => .ok { a with camelCase := true }
  | .noDefaultValidators => .ok { a with noDefaultValidators := true }
  | .pagination => (choose .pagination g.2 Pagination.all Pagination.name).map fun p =>
      { a with pagination := some p }
  | .maxPageSize => (number .maxPageSize g.2).map fun n => { a with maxPageSize := some n }
  | .manifest => .ok { a with manifest := true }
  | .validateOnly => .ok { a with validateOnly := true }
  | .dryRun => .ok { a with dryRun := true }
  | .noStrict => .ok { a with noStrict := true }
  | .failOnWarnings => .ok { a with failOnWarnings := true }
  | .verbose =>
    if a.quiet then .error (.error (.excluded .verbose .quiet))
    else .ok { a with verbose := a.verbose + 1 }
  | .quiet =>
    if a.verbose ≠ 0 then .error (.error (.excluded .quiet .verbose))
    else .ok { a with quiet := true }

def giveAll (a : Args) (gs : List Given) : Except Stop Args := gs.foldlM give a

/-- reads words in order; the result holds the arguments that are no part of any switch -/
def readWords (a : Args) (extras : List String) : List Word → Except Stop (Args × List String)
  | [] => .ok (a, extras)
  | .value t :: ws => readWords a (extras ++ [t]) ws
  | .unknown t :: ws => readWords a (extras ++ [t]) ws
  | .switch s b rest :: ws =>
    match group s b rest with
    | .error e => .error (.error e)
    | .ok g =>
      match g.last with
      | none => do
        let a ← a.giveAll g.given
        readWords a extras ws
      | some t =>
        if t.takesValue then
          match ws with
          | .value v :: ws => do
            let a ← a.giveAll (g.given ++ [(t, operand v)])
            readWords a extras ws
          | _ => .error (.error (.noValue t))
        else do
          let a ← a.giveAll (g.given ++ [(t, .empty)])
          readWords a extras ws

/-- the arguments of a command line -/
def parse (argv : List String) : Except Stop Args :=
  match words argv with
  | .error e => .error (.error e)
  | .ok ws => do
    let (a, extras) ← readWords {} [] ws
    if a.schema.isNone then .error (.error .noSchema)
    else if extras.isEmpty then .ok a
    else .error (.error (.unrecognized extras))

/-- the provider that overrides that of the document -/
def providerValue (a : Args) : Option Value := a.provider.map (·.value fun p => .text p.name)

/-- the settings that the switches given override -/
def overrides (a : Args) : Value.Entries :=
  let flag (given : Bool) (name : String) (v : Bool) : Value.Entries :=
    if given then [(.text name, .bool v)] else []
  let crud : Value.Entries :=
    (a.pagination.map fun p => (.text "pagination_strategy", p.value (.text ·.name))).toList ++
    (a.maxPageSize.map fun n => (.text "max_page_size", n.value .int)).toList
  flag a.brands "generate_brand_registry" true ++
  flag a.layers "generate_three_layers" true ++
  flag a.crud "generate_crud_schemas" true ++
  flag a.camelCase "camel_case" true ++
  flag a.noDefaultValidators "use_default_validators" false ++
  flag a.manifest "write_manifest" true ++
  flag a.noStrict "strict_brands" false ++
  (if crud.isEmpty then [] else [(.text "crud", .map crud)])

end Args

end ZodSchema.Cli
