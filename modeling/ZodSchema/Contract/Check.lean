import ZodSchema.Contract.Issue
import ZodSchema.Json.Reader
import ZodSchema.Datamodel.Basic
import ZodSchema.Text.Utf8

/-!
# Checking input values

* `Check`     a checked value or every issue found, in order
* `Record`    the entries of a mapping under check
* `text`, `bool`, `int`, `listOf`, `member`   rules for values
-/

namespace ZodSchema.Contract

/-- a checked value, or the issues -/
inductive Check (α : Type) where
  | ok (a : α)
  | bad (issues : List Issue)

namespace Check

variable {α β : Type}

def map (f : α → β) : Check α → Check β
  | ok a => ok (f a)
  | bad is => bad is

/-- both parts are checked, and the issues of both are kept -/
def seq (f : Check (α → β)) (x : Check α) : Check β :=
  match f, x with
  | ok f, ok a => ok (f a)
  | ok _, bad js => bad js
  | bad is, ok _ => bad is
  | bad is, bad js => bad (is ++ js)

instance : Applicative Check where
  pure := ok
  map := map
  seq f x := seq f (x ())

def fail (c : Cause) : Check α := bad [⟨[], c⟩]

/-- the result seen from one step further out -/
def under (s : Step) : Check α → Check α
  | ok a => ok a
  | bad is => bad (is.map (Issue.under s))

/-- a further rule for a value that passed -/
def andThen (x : Check α) (f : α → Check β) : Check β :=
  match x with
  | ok a => f a
  | bad is => bad is

/-- every item, each at its index from `i` on -/
def items (f : Value → Check α) (i : Nat) : List Value → Check (List α)
  | [] => ok []
  | v :: vs => seq (map List.cons (under (.index i) (f v))) (items f (i + 1) vs)

end Check

/-! ## rules for values -/

/-- bytes as the text that they spell; bytes that spell none stay -/
def spelled : Value → Value
  | .bytes bs =>
    match Text.Utf8.decodeFrom 0 bs with
    | .ok cs => .text (String.ofList (Text.keep cs))
    | .error _ => .bytes bs
  | v => v

/-- a rule for a text that must have an encoding -/
def encoded {α : Type} (s : String) (rule : Check α) : Check α :=
  if (Text.Str.lone? s).isSome then .fail .unreadableText else rule

/-- a text of at least `least` characters; only where there is a least number, it must have an
encoding -/
def text (least : Nat) (v : Value) : Check String :=
  match spelled v with
  | .text s =>
    if least = 0 then .ok s
    else
      encoded s (if (Text.Str.codePoints s).length < least then .fail (.textTooShort least)
        else .ok s)
  | .bytes _ => .fail .unreadableText
  | _ => .fail .notText

/-- a text or nothing -/
def text? : Value → Check (Option String)
  | .null => .ok none
  | v => (text 0 v).map some

/-- spellings of truth values; capitals count as small letters -/
def readBool? (s : String) : Option Bool :=
  let t := s.toList.map Char.toLower
  if ["0", "off", "f", "false", "n", "no"].any (·.toList == t) then some false
  else if ["1", "on", "t", "true", "y", "yes"].any (·.toList == t) then some true
  else none

/-- integers that a machine word holds -/
def fitsWord (i : Int) : Bool :=
  decide (-9223372036854775808 ≤ i) && decide (i < 9223372036854775808)

/-- integers that count as such when they come as a number with a point; the least one that a
machine word holds is none of them -/
def fitsPointed (i : Int) : Bool :=
  decide (-9223372036854775808 < i) && decide (i < 9223372036854775808)

def boolOfInt (i : Int) : Check Bool :=
  if i = 0 then .ok false
  else if i = 1 then .ok true
  else if fitsWord i then .fail .unreadableBool else .fail .notBool

def bool (v : Value) : Check Bool :=
  match spelled v with
  | .bool b => .ok b
  | .int i => boolOfInt i
  | .float d =>
    match d.toInt? with
    | some i => if fitsPointed i then boolOfInt i else .fail .notBool
    | none => .fail .notBool
  | .text s =>
    encoded s
      (match readBool? s with
      | some b => .ok b
      | none => .fail .unreadableBool)
  | .bytes _ => .fail .unreadableBool
  | _ => .fail .notBool

/-- the numeral behind leading zeros; underscores among the zeros go with them, and the last
character passed, `last`, stays where no digit follows -/
def afterZeros (last : Char) : List Char → Option (List Char)
  | [] => some [last]
  | c :: cs =>
    if c = '0' ∨ c = '_' then afterZeros c cs
    else if c.isDigit ∨ c = '-' then some (c :: cs)
    else if c = '.' then some (last :: c :: cs)
    else none

/-- a numeral without leading zeros -/
def dropZeros : List Char → Option (List Char)
  | [] => none
  | c :: cs => if c = '0' then afterZeros c cs else if c.isDigit then some (c :: cs) else none

/-- digits without a fraction of zeros -/
def dropZeroFraction (cs : List Char) : List Char :=
  let whole := cs.takeWhile (· != '.')
  match cs.dropWhile (· != '.') with
  | '.' :: z :: zs => if (z :: zs).all (· == '0') then whole else cs
  | _ => cs

/-- two underscores in a row -/
def hasGap : List Char → Bool
  | '_' :: '_' :: _ => true
  | _ :: cs => hasGap cs
  | [] => false

/-- a numeral without the underscores in it, when they stand alone between other characters -/
def dropUnderscores (cs : List Char) : List Char :=
  if cs.head? = some '_' ∨ cs.getLast? = some '_' ∨ hasGap cs then cs
  else cs.filter (· != '_')

/-- an integer in digits, none of them a zero in front; a minus counts towards its length -/
def plainInt (negative : Bool) (cs : List Char) : Except Cause Int :=
  let ds := cs.takeWhile Char.isDigit
  if ds = [] ∨ (ds.head? = some '0' ∧ 1 < cs.length) then .error .unreadableInt
  else if Text.maxDigits < ds.length + negative.toNat then .error .intTooLong
  else if ds.length = cs.length then .ok (Text.signed negative (Json.digitsValue ds))
  else .error .unreadableInt

/-- an integer in a text: blanks around, a sign, leading zeros, which a minus may follow, digits
with single underscores between them and a fraction of zeros -/
def readInt (s : String) : Except Cause Int :=
  let cs := Text.trimBy Text.isMargin s.toList
  let (negative, cs) := Text.signOf cs
  match (dropZeros cs).map (dropUnderscores ∘ dropZeroFraction) with
  | none => .error .unreadableInt
  | some ('-' :: ds) => if negative then .error .unreadableInt else plainInt true ds
  | some ds => plainInt negative ds

def anyInt (v : Value) : Check Int :=
  match spelled v with
  | .bool b => .ok (if b then 1 else 0)
  | .int i => .ok i
  | .float d =>
    match d with
    | .finite .. =>
      match d.toInt? with
      | some i => if fitsPointed i then .ok i else .fail .intTooLong
      | none => .fail .fractional
    | _ => .fail .notFinite
  | .text s =>
    encoded s
      (match readInt s with
      | .ok i => .ok i
      | .error c => .fail c)
  | .bytes _ => .fail .unreadableInt
  | _ => .fail .notInt

/-- an integer between two bounds -/
def int (least most : Int) (v : Value) : Check Int :=
  (anyInt v).andThen fun i =>
    if i < least then .fail (.below least) else if most < i then .fail (.above most) else .ok i

def list : Value → Check (List Value)
  | .list vs => .ok vs
  | .set vs => .ok vs
  | _ => .fail .notList

/-- a list of checked items -/
def listOf {α : Type} (f : Value → Check α) (v : Value) : Check (List α) :=
  (list v).andThen (Check.items f 0)

/-- a list of at least one item -/
def someOf {α : Type} (f : Value → Check α) (v : Value) : Check (List α) :=
  (listOf f v).andThen fun xs =>
    if xs.isEmpty then .fail (.listTooShort 1 0) else .ok xs

def texts : Value → Check (List String) := listOf (text 0)

/-- a member of a closed set of names -/
def member {α : Type} (all : List α) (name : α → String) (v : Value) : Check α :=
  match spelled v with
  | .text s =>
    encoded s
      (match all.find? (name · == s) with
      | some a => .ok a
      | none => .fail (.notMember (all.map name)))
  | _ => .fail (.notMember (all.map name))

/-- a member that the input states -/
def stated {α : Type} (all : List α) (name : α → String) (v : Value) : Check (Stated α) :=
  (member all name v).map (⟨·, true⟩)

/-! ## records -/

/-- an entry that must be there -/
def need {α : Type} (es : Value.Entries) (name : String) (rule : Value → Check α) : Check α :=
  match Value.get? name es with
  | some v => (rule v).under (.key name)
  | none => Check.bad [⟨[.key name], .missing⟩]

/-- an entry that has a default -/
def may {α : Type} (es : Value.Entries) (name : String) (dflt : α) (rule : Value → Check α) :
    Check α :=
  match Value.get? name es with
  | some v => (rule v).under (.key name)
  | none => .ok dflt

/-- issues of the entries that a record does not know -/
def extras (known : List String) : Value.Entries → List Issue
  | [] => []
  | (.text k, _) :: es =>
    if known.contains k then extras known es else ⟨[.key k], .extra⟩ :: extras known es
  | _ :: es => ⟨[], .invalidKey⟩ :: extras known es

/-- a key that is a text without an encoding -/
def isUnreadable : Value → Bool
  | .text k => (Text.Str.lone? k).isSome
  | _ => false

/-- a mapping with known entries only; a key that cannot be read is the only issue then -/
def record {α : Type} (name : String) (known : List String) (build : Value.Entries → Check α) :
    Value → Check α
  | .map es =>
    if es.any fun e => isUnreadable e.1 then .fail .unreadableText
    else
      match build es, extras known es with
      | .ok a, [] => .ok a
      | .ok _, js => .bad js
      | .bad is, js => .bad (is ++ js)
  | _ => .fail (.notRecord name)

end ZodSchema.Contract
