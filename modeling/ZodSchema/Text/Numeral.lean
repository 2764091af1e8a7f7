import ZodSchema.Text.Class

/-!
# Numerals

* `natText`, `intText`  decimal numerals
* `padded`              a numeral with zeros in front
* `readNat?`            a nonempty run of digits
* `readInt`             an integer as a person writes it: blanks around, a sign, single
                        underscores between digits, digits of any script
* `IntFault`            why a text is no integer; a numeral may have `maxDigits` digits
* `grouped`             a numeral with a comma before every third digit
-/

namespace ZodSchema.Text

def digitChar (d : Nat) : Char := Char.ofNat (48 + d)

/-- decimal digits, the least significant first; `fuel` bounds their number -/
def digitsRev : Nat → Nat → List Char
  | 0, _ => []
  | fuel + 1, n => digitChar (n % 10) :: (if n < 10 then [] else digitsRev fuel (n / 10))

def natDigits (n : Nat) : List Char := (digitsRev (n + 1) n).reverse

def natText (n : Nat) : String := String.ofList (natDigits n)

/-- a numeral of at least `width` digits -/
def padded (width n : Nat) : String :=
  String.ofList (List.replicate (width - (natDigits n).length) '0' ++ natDigits n)

def intText (i : Int) : String := if i < 0 then "-" ++ natText i.natAbs else natText i.natAbs

/-- value of a digit list in base `base` -/
def ofDigits (base : Nat) (ds : List Nat) : Nat := ds.foldl (fun a d => a * base + d) 0

/-- digits with single underscores between them, by the digit reader `val` -/
def readDigits (val : Char → Option Nat) : List Char → Option (List Nat)
  | [] => none
  | [c] => (val c).map ([·])
  | c :: '_' :: cs => do
    let d ← val c
    let ds ← readDigits val cs
    pure (d :: ds)
  | c :: cs => do
    let d ← val c
    let ds ← readDigits val cs
    pure (d :: ds)

/-- a nonempty run of the digits `0` to `9` -/
def readNat? (cs : List Char) : Option Nat :=
  if cs = [] then none else (cs.mapM asciiDigit?).map (ofDigits 10)

/-- a sign, and what follows it; the flag tells of a minus -/
def signOf : List Char → Bool × List Char
  | '-' :: cs => (true, cs)
  | '+' :: cs => (false, cs)
  | cs => (false, cs)

def signed (negative : Bool) (n : Nat) : Int := if negative then -(n : Int) else n

/-- blank beside a number: white space, the four separators below the space aside -/
def isMargin (c : Char) : Bool := isBlank c && !(0x1C ≤ c.toNat && c.toNat ≤ 0x1F)

/-- integers of more digits than this are neither read nor shown -/
def maxDigits : Nat := 4300

/-- what is said of an integer that is too long, with its digits where they are known -/
def tooLongText (digits : Option Nat) : String :=
  "Exceeds the limit (" ++ natText maxDigits ++ " digits) for integer string conversion" ++
    (match digits with
      | some n => ": value has " ++ natText n ++ " digits"
      | none => "") ++
    "; use sys.set_int_max_str_digits() to increase the limit"

/-- why a text is no integer -/
inductive IntFault where
  | malformed
  /-- the numeral has more than `maxDigits` digits -/
  | tooLong (digits : Nat)
  deriving DecidableEq, Repr

/-- an integer between blanks, digits of any script; the length of the numeral is judged before
what comes behind it -/
def readInt (cs : List Char) : Except IntFault Int :=
  let (negative, cs) := signOf (cs.dropWhile isMargin)
  let run := cs.takeWhile fun c => c == '_' || (decimalValue? c).isSome
  match readDigits decimalValue? run with
  | none => .error .malformed
  | some ds =>
    if maxDigits < ds.length then .error (.tooLong ds.length)
    else if (cs.drop run.length).all isMargin then .ok (signed negative (ofDigits 10 ds))
    else .error .malformed

def readInt? (cs : List Char) : Option Int := (readInt cs).toOption

/-- commas from the right, before every third digit -/
def groupRev : List Char → List Char
  | a :: b :: c :: d :: cs => a :: b :: c :: ',' :: groupRev (d :: cs)
  | cs => cs

def grouped (n : Nat) : String := String.ofList (groupRev (natDigits n).reverse).reverse

end ZodSchema.Text
