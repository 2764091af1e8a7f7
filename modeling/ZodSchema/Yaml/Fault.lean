import ZodSchema.Yaml.Date
import ZodSchema.Display

/-!
# Faults of texts

* `Uncaught`        an error that is none of a value, and that nobody expects
* `Fault`           why a text gives no value
* `Fault.message`   the words of a fault in a single scalar
-/

namespace ZodSchema.Yaml

/-- errors of scalars that are not what their tag says; other than errors of values, they are
caught nowhere on the way out -/
inductive Uncaught where
  /-- no truth value is written so -/
  | key (word : String)
  /-- a number of which nothing is written -/
  | index
  /-- no point in time is written so -/
  | member
  /-- a mapping in place of a point in time -/
  | type
  /-- a number of too many groups -/
  | overflow
  deriving DecidableEq, Repr

namespace Uncaught

def kind : Uncaught → String
  | key _ => "KeyError"
  | index => "IndexError"
  | member => "AttributeError"
  | type => "TypeError"
  | overflow => "OverflowError"

def message : Uncaught → String
  | key w => Display.quoted w
  | index => "string index out of range"
  | member => "'NoneType' object has no attribute 'groupdict'"
  | type => "expected string or bytes-like object, got 'list'"
  | overflow => "int too large to convert to float"

end Uncaught

/-- why a text gives no value -/
inductive Fault where
  /-- the text breaks a rule of the format -/
  | malformed
  /-- an escape names a number that is no character's -/
  | badCode
  | badInteger (base : Nat) (text : String)
  /-- an integer of more digits than are read -/
  | longInteger (digits : Nat)
  | badNumber (text : String)
  | badDate (why : DateFault)
  | uncaught (why : Uncaught)
  deriving DecidableEq, Repr

/-- longest display of a text that is no integer -/
def shownLength : Nat := 200

/-- the message of a fault in a single scalar -/
def Fault.message : Fault → String
  | malformed => ""
  | badCode => "chr() arg not in range(0x110000)"
  | badInteger b t =>
    "invalid literal for int() with base " ++ Text.natText b ++ ": " ++
      String.ofList ((Display.quoted t).toList.take shownLength)
  | longInteger n => Text.tooLongText (some n)
  | badNumber t => "could not convert string to float: " ++ Display.quoted t
  | badDate f => f.message
  | uncaught e => e.message

/-- a step that cannot be taken breaks a rule of the format -/
def step {α : Type} : Option α → Except Fault α
  | some a => .ok a
  | none => .error .malformed

end ZodSchema.Yaml
