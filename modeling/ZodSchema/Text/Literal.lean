import ZodSchema.Text.Chars

/-!
# String literals

Double-quoted literals with the escapes of JSON, and the two places where a name may stand
without quotes.

* `quote`        the literal of a text
* `isIdentifier` a name that needs no quotes
* `key`, `member` an object key, a property access
-/

namespace ZodSchema.Text

def hexDigit (n : Nat) : Char := if n < 10 then Char.ofNat (48 + n) else Char.ofNat (87 + n)

/-- `\u` and four hexadecimal digits -/
def hexEscape (n : Nat) : List Char :=
  ['\\', 'u', hexDigit (n / 4096 % 16), hexDigit (n / 256 % 16), hexDigit (n / 16 % 16),
    hexDigit (n % 16)]

/-- a character inside a literal -/
def escapeChar (c : Char) : List Char :=
  if c = '"' then ['\\', '"']
  else if c = '\\' then ['\\', '\\']
  else if c = '\n' then ['\\', 'n']
  else if c = '\r' then ['\\', 'r']
  else if c = '\t' then ['\\', 't']
  else if c.toNat = 8 then ['\\', 'b']
  else if c.toNat = 12 then ['\\', 'f']
  else if c.toNat < 32 then hexEscape c.toNat
  else [c]

def quoteChars (cs : List Char) : List Char := '"' :: cs.flatMap escapeChar ++ ['"']

/-- the literal of a text -/
def quote (s : String) : String := String.ofList (quoteChars s.toList)

/-- an identifier, possibly with one line feed behind it -/
def isIdentifier (s : String) : Bool :=
  match dropFinalNewline s.toList with
  | [] => false
  | c :: cs => isIdentStart c && cs.all isIdentRest

/-- object key: bare when it is an identifier -/
def key (name : String) : String := if isIdentifier name then name else quote name

/-- property access: with a dot when the name is an identifier -/
def member (target name : String) : String :=
  if isIdentifier name then target ++ "." ++ name else target ++ "[" ++ quote name ++ "]"

/-- array literal of string literals -/
def quoteAll (items : List String) : String := "[" ++ Str.join ", " (items.map quote) ++ "]"

end ZodSchema.Text
