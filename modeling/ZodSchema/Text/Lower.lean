import ZodSchema.Text.CaseTable

/-!
# Lower case

Full lower-casing of the Unicode standard: the dotted capital I becomes two characters, and a
capital sigma at the end of a word becomes the final form.

* `lower`       the whole text
* `lowerFirst`  the first character only
-/

namespace ZodSchema.Text

/-- simple lower case, by the table -/
def lowerChar (c : Char) : Char :=
  match lowerRuns.find? (·.covers c.toNat) with
  | some r => Char.ofNat (Int.toNat (c.toNat + r.shift))
  | none => c

/-- lower case without regard to the neighbours -/
def lowerAlone (c : Char) : List Char :=
  if c.toNat < 128 then [c.toLower]
  else if c.toNat = 0x130 then ['i', Char.ofNat 0x307] else [lowerChar c]

/-- the first character that is not case-ignorable is cased -/
def casedNext (cs : List Char) : Bool :=
  match cs.dropWhile fun c => inRanges caseIgnorableRanges c.toNat with
  | [] => false
  | c :: _ => inRanges casedRanges c.toNat

/-- `lower` after the characters `before`, newest first -/
def lowerFrom (before : List Char) : List Char → List Char
  | [] => []
  | c :: cs =>
    (if c.toNat = 0x3A3 then
      [Char.ofNat (if casedNext before && !casedNext cs then 0x3C2 else 0x3C3)]
    else lowerAlone c) ++ lowerFrom (c :: before) cs

def lower (cs : List Char) : List Char := lowerFrom [] cs

/-- the first character in lower case, the others as they are -/
def lowerFirst : List Char → List Char
  | [] => []
  | c :: cs => lower [c] ++ cs

namespace Str

def lower (s : String) : String := String.ofList (Text.lower s.toList)
def lowerFirst (s : String) : String := String.ofList (Text.lowerFirst s.toList)

end Str

end ZodSchema.Text
