import ZodSchema.Value
import ZodSchema.Text.Literal

/-!
# Writing JSON

* `write`        on one line, `", "` and `": "` between the parts
* `writeIndent`  one item a line, two spaces a level
-/

namespace ZodSchema.Json

/-- shortest text of a number -/
def numberText (d : Double) : String := d.textWith "NaN" "Infinity"

def scalarText : Value → String
  | .null => "null"
  | .bool b => if b then "true" else "false"
  | .int i => Text.intText i
  | .float d => numberText d
  | .text s => Text.quote s
  | .date m => Text.quote m.iso
  | .bytes bs => "[" ++ Text.Str.join ", " (bs.map fun b => Text.natText b.toNat) ++ "]"
  | _ => ""

/-- keys are text; other scalars are written as text -/
def keyText : Value → String
  | .text s => Text.quote s
  | .date m => Text.quote m.iso
  | v => "\"" ++ scalarText v ++ "\""

mutual

def write : Value → String
  | .list vs => "[" ++ Text.Str.join ", " (writeItems vs) ++ "]"
  | .set vs => "[" ++ Text.Str.join ", " (writeItems vs) ++ "]"
  | .map es => "\x7b" ++ Text.Str.join ", " (writeEntries es) ++ "\x7d"
  | v => scalarText v

def writeItems : List Value → List String
  | [] => []
  | v :: vs => write v :: writeItems vs

def writeEntries : List (Value × Value) → List String
  | [] => []
  | (k, v) :: es => (keyText k ++ ": " ++ write v) :: writeEntries es

end

/-- a line of `n` levels -/
def indent (n : Nat) : String := String.ofList (List.replicate (2 * n) ' ')

/-- parts on lines of their own between two brackets, or the empty pair -/
def block (n : Nat) (left right : String) (parts : List String) : String :=
  if parts.isEmpty then left ++ right
  else
    left ++ "\n" ++ Text.Str.join ",\n" (parts.map (indent (n + 1) ++ ·)) ++ "\n" ++ indent n ++
      right

mutual

def writeAt (n : Nat) : Value → String
  | .list vs => block n "[" "]" (writeItemsAt (n + 1) vs)
  | .set vs => block n "[" "]" (writeItemsAt (n + 1) vs)
  | .map es => block n "\x7b" "\x7d" (writeEntriesAt (n + 1) es)
  | v => scalarText v

def writeItemsAt (n : Nat) : List Value → List String
  | [] => []
  | v :: vs => writeAt n v :: writeItemsAt n vs

def writeEntriesAt (n : Nat) : List (Value × Value) → List String
  | [] => []
  | (k, v) :: es => (keyText k ++ ": " ++ writeAt n v) :: writeEntriesAt n es

end

def writeIndent (v : Value) : String := writeAt 0 v

end ZodSchema.Json
