import ZodSchema.Text.Numeral
import ZodSchema.Text.Chars

/-!
# Input issues

What can be wrong with a part of the input, and the words for it.

* `Step`    one step of a location
* `Cause`   what is wrong, with its code and message
* `Issue`   a cause at a location
-/

namespace ZodSchema.Contract

/-- an entry of a mapping or an item of a list -/
inductive Step where
  | key (name : String)
  | index (i : Nat)
  deriving DecidableEq, Repr

inductive Cause where
  | missing
  | extra
  | invalidKey
  | notText
  | unreadableText
  | textTooShort (least : Nat)
  | notList
  | listTooShort (least actual : Nat)
  | notRecord (record : String)
  | notMember (members : List String)
  | notBool
  | unreadableBool
  | notInt
  | unreadableInt
  | intTooLong
  | fractional
  | notFinite
  | below (least : Int)
  | above (most : Int)
  | notNumber
  | rejected (text : String)
  | noAttribute (name : String)
  deriving DecidableEq, Repr

structure Issue where
  loc : List Step
  cause : Cause
  deriving DecidableEq, Repr

/-- the issue seen from one step further out -/
def Issue.under (s : Step) (i : Issue) : Issue := { i with loc := s :: i.loc }

namespace Cause

def code : Cause → String
  | missing => "missing"
  | extra => "extra_forbidden"
  | invalidKey => "invalid_key"
  | notText => "string_type"
  | unreadableText => "string_unicode"
  | textTooShort _ => "string_too_short"
  | notList => "list_type"
  | listTooShort _ _ => "too_short"
  | notRecord _ => "model_type"
  | notMember _ => "enum"
  | notBool => "bool_type"
  | unreadableBool => "bool_parsing"
  | notInt => "int_type"
  | unreadableInt => "int_parsing"
  | intTooLong => "int_parsing_size"
  | fractional => "int_from_float"
  | notFinite => "finite_number"
  | below _ => "greater_than_equal"
  | above _ => "less_than_equal"
  | notNumber => "float_type"
  | rejected _ => "value_error"
  | noAttribute _ => "no_such_attribute"

/-- `1 item`, `2 items` -/
def counted (n : Nat) (noun : String) : String :=
  Text.natText n ++ " " ++ noun ++ (if n = 1 then "" else "s")

/-- members in single quotes, the last one after `or` -/
def oneOf : List String → String
  | [] => ""
  | [a] => "'" ++ a ++ "'"
  | [a, b] => "'" ++ a ++ "' or '" ++ b ++ "'"
  | a :: rest => "'" ++ a ++ "', " ++ oneOf rest

def message : Cause → String
  | missing => "Field required"
  | extra => "Extra inputs are not permitted"
  | invalidKey => "Keys should be strings"
  | notText => "Input should be a valid string"
  | unreadableText =>
    "Input should be a valid string, unable to parse raw data as a unicode string"
  | textTooShort n => "String should have at least " ++ counted n "character"
  | notList => "Input should be a valid list"
  | listTooShort n k =>
    "List should have at least " ++ counted n "item" ++ " after validation, not " ++ Text.natText k
  | notRecord r => "Input should be a valid dictionary or instance of " ++ r
  | notMember ms => "Input should be " ++ oneOf ms
  | notBool => "Input should be a valid boolean"
  | unreadableBool => "Input should be a valid boolean, unable to interpret input"
  | notInt => "Input should be a valid integer"
  | unreadableInt => "Input should be a valid integer, unable to parse string as an integer"
  | intTooLong => "Unable to parse input string as an integer, exceeded maximum size"
  | fractional => "Input should be a valid integer, got a number with a fractional part"
  | notFinite => "Input should be a finite number"
  | below n => "Input should be greater than or equal to " ++ Text.intText n
  | above n => "Input should be less than or equal to " ++ Text.intText n
  | notNumber => "Input should be a valid number"
  | rejected t => "Value error, " ++ t
  | noAttribute n => "Object has no attribute '" ++ n ++ "'"

end Cause

end ZodSchema.Contract
