import Mathlib.Data.List.Basic
import ZodSchema.Generation.Load
import ZodSchema.Proofs.Json.Strings

/-!
# Schema files of plain text

* `decodeFrom_ascii`     the bytes of plain characters
* `stringTail_plain`     strings of plain characters in JSON
* `fields_next`, `fields_last`   one entry of an object
* `read_itemText`        a file with one model
* `load_json`            the document of a JSON file
-/

namespace ZodSchema

namespace Text

/-- the bytes of characters below 128 -/
def asciiBytes (cs : List Char) : ByteArray := ⟨(cs.map fun c => UInt8.ofNat c.toNat).toArray⟩

theorem width_ascii {c : Char} (h : c.toNat < 128) : Utf8.width (UInt8.ofNat c.toNat) = 1 := by
  have hlt : UInt8.ofNat c.toNat < 0x80 := by
    rw [UInt8.lt_iff_toNat_lt, UInt8.toNat_ofNat']
    show c.toNat % 256 < 128
    omega
  exact if_pos hlt

theorem decodeFrom_ascii (i : Nat) {cs : List Char} (h : ∀ c ∈ cs, c.toNat < 128) :
    Utf8.decodeFrom i (cs.map fun c => UInt8.ofNat c.toNat) = .ok cs := by
  induction cs generalizing i with
  | nil => rfl
  | cons c cs ih =>
    have hc := h c List.mem_cons_self
    have hstep : ∀ (b : UInt8) (bs : List UInt8), Utf8.width b = 1 →
        Utf8.decodeFrom i (b :: bs) =
          (Utf8.decodeFrom (i + 1) bs).map (Char.ofNat b.toNat :: ·) := by
      intro b bs hb
      rw [Utf8.decodeFrom.eq_def]
      dsimp only
      split
      · rfl
      · next he => omega
      · next hne he => exact absurd hb hne
      · next hne => exact absurd hb (by simp_all)
    rw [List.map_cons, hstep _ _ (width_ascii hc), ih _ fun x hx => h x (List.mem_cons_of_mem _ hx),
      UInt8.toNat_ofNat', Nat.mod_eq_of_lt (by omega)]
    show Except.ok (Char.ofNat c.toNat :: cs) = _
    rw [Char.ofNat_toNat]

theorem decode_asciiBytes {cs : List Char} (h : ∀ c ∈ cs, c.toNat < 128) :
    Utf8.decode (asciiBytes cs) = .ok cs :=
  decodeFrom_ascii 0 h

theorem unifyBreaks_eq_self {cs : List Char} (h : '\r' ∉ cs) : unifyBreaks cs = cs := by
  induction cs with
  | nil => rfl
  | cons c cs ih =>
    have hc : c ≠ '\r' := fun e => h (e ▸ List.mem_cons_self)
    have hcs : '\r' ∉ cs := fun hm => h (List.mem_cons_of_mem _ hm)
    rw [unifyBreaks.eq_def]
    split
    · next he => cases he
    · next he => exact absurd (List.cons.inj he).1 hc
    · next he => exact absurd (List.cons.inj he).1 hc
    · next he =>
      obtain ⟨rfl, rfl⟩ := List.cons.inj he
      rw [ih hcs]

end Text

namespace Json

variable {cs rest : List Char}

/-- a character that stands for itself in a string, in one byte -/
def isPlain (c : Char) : Bool := 32 ≤ c.toNat && c.toNat < 128 && c != '"' && c != '\\'

def Plain (s : String) : Prop := ∀ c ∈ s.toList, isPlain c = true

instance : DecidablePred Plain := fun s =>
  decidable_of_iff (s.toList.all isPlain = true) List.all_eq_true

theorem Plain.append {s t : String} (hs : Plain s) (ht : Plain t) : Plain (s ++ t) := by
  intro c hc
  rw [String.toList_append] at hc
  exact (List.mem_append.1 hc).elim (hs c) (ht c)

/-- a text in quotes, before the rest of a document -/
def quoted (s : String) (rest : List Char) : List Char := '"' :: (s.toList ++ '"' :: rest)

theorem flatMap_escapeChar {cs : List Char} (h : ∀ c ∈ cs, isPlain c = true) :
    cs.flatMap Text.escapeChar = cs := by
  have hc : ∀ c ∈ cs, Text.escapeChar c = [c] := by
    intro c hc
    obtain ⟨⟨⟨h1, -⟩, h2⟩, h3⟩ : ((32 ≤ c.toNat ∧ c.toNat < 128) ∧ c ≠ '"') ∧ c ≠ '\\' := by
      simpa [isPlain] using h c hc
    exact escapeChar_ordinary h1 h2 h3
  rw [List.flatMap_congr hc, List.flatMap_singleton']

variable {s key : String} {rest left cs : List Char} {fuel : Nat} {es : Value.Entries} {v : Value}

theorem stringTail_plain (h : Plain s) (rest : List Char) :
    stringTail ((s.toList ++ '"' :: rest).length + 1) [] (s.toList ++ '"' :: rest) =
      some (s.toList, rest) := by
  have hl : s.toList.length < (s.toList ++ '"' :: rest).length + 1 := by
    rw [List.length_append, List.length_cons]
    omega
  have ht := stringTail_literal s.toList rest [] hl
  rwa [flatMap_escapeChar h] at ht

theorem value_quoted (h : Plain s) (fuel : Nat) (rest : List Char) :
    value (fuel + 1) (quoted s rest) = .ok (.text s, rest) := by
  unfold quoted
  rw [value.eq_def]
  show (step (stringTail ((s.toList ++ '"' :: rest).length + 1) [] (s.toList ++ '"' :: rest))).map
    _ = _
  rw [stringTail_plain h]
  show Except.ok (Value.text (String.ofList s.toList), rest) = _
  rw [String.ofList_toList]

theorem skip_cons {c : Char} (h : isSpace c = false) (cs : List Char) : skip (c :: cs) = c :: cs :=
  List.dropWhile_cons_of_neg (by rw [h]; exact Bool.false_ne_true)

theorem skip_quoted (s : String) (rest : List Char) : skip (quoted s rest) = quoted s rest :=
  skip_cons (by decide) _

theorem fields_next (hk : Plain key) (hs : skip cs = cs) (next : String)
    (hv : value fuel cs = .ok (v, ',' :: quoted next rest)) :
    fields (fuel + 1) es (quoted key (':' :: cs)) =
      fields fuel (Value.put (.text key) v es) (quoted next rest) := by
  rw [quoted, fields, stringTail_plain hk]
  simp only [skip_cons (c := ':') (by decide), hs, hv, skip_cons (c := ',') (by decide),
    skip_quoted, String.ofList_toList]

theorem fields_last (hk : Plain key) (hs : skip cs = cs)
    (hv : value fuel cs = .ok (v, '}' :: left)) :
    fields (fuel + 1) es (quoted key (':' :: cs)) = .ok (Value.put (.text key) v es, left) := by
  rw [quoted, fields, stringTail_plain hk]
  simp only [skip_cons (c := ':') (by decide), hs, hv, skip_cons (c := '}') (by decide),
    String.ofList_toList]

theorem value_object (h : fields fuel [] (quoted key cs) = .ok (es, left)) :
    value (fuel + 1) ('{' :: quoted key cs) = .ok (.map es, left) := by
  rw [value, skip_quoted]
  show (fields fuel [] (quoted key cs)).map _ = _
  rw [h]
  rfl

theorem value_single (h : value fuel ('{' :: cs) = .ok (v, ']' :: left)) :
    value (fuel + 2) ('[' :: '{' :: cs) = .ok (.list [v], left) := by
  rw [value, skip_cons (by decide)]
  show (items (fuel + 1) ('{' :: cs)).map _ = _
  rw [items, h]
  simp only [skip_cons (c := ']') (by decide)]
  rfl

theorem value_true (fuel : Nat) (rest : List Char) :
    value (fuel + 1) ("true".toList ++ rest) = .ok (.bool true, rest) := rfl

/-! ## the file of one model -/

/-- a model `Item` with a documentation and the number `id` as its key, alone in a file -/
def itemText (doc : String) : List Char :=
  '{' :: quoted "models" (':' :: '[' ::
    '{' :: quoted "name" (':' :: quoted "Item" (',' ::
      quoted "documentation" (':' :: quoted doc (',' :: quoted "fields" (':' :: '[' ::
        '{' :: quoted "name" (':' :: quoted "id" (',' ::
          quoted "type" (':' :: quoted "Int" (',' ::
            quoted "is_id" (':' :: ("true".toList ++ ['}', ']', '}', ']', '}']))))))))))))

/-- the entries of that file -/
def itemDocument (doc : String) : Value.Entries :=
  [(.text "models", .list [.map [(.text "name", .text "Item"), (.text "documentation", .text doc),
    (.text "fields", .list [.map [(.text "name", .text "id"), (.text "type", .text "Int"),
      (.text "is_id", .bool true)]])]])]

theorem value_itemText {doc : String} (h : Plain doc) (fuel : Nat) :
    value (fuel + 15) (itemText doc) = .ok (.map (itemDocument doc), []) := by
  refine value_object (fields_last (by decide) (skip_cons (by decide) _) (value_single ?_))
  refine value_object ?_
  rw [fields_next (by decide) (skip_quoted _ _) _ (value_quoted (by decide) _ _),
    fields_next (by decide) (skip_quoted _ _) _ (value_quoted h _ _)]
  refine fields_last (by decide) (skip_cons (by decide) _) (value_single ?_)
  refine value_object ?_
  rw [fields_next (by decide) (skip_quoted _ _) _ (value_quoted (by decide) _ _),
    fields_next (by decide) (skip_quoted _ _) _ (value_quoted (by decide) _ _)]
  exact fields_last (by decide) (skip_cons (by decide) _) (value_true _ _)

theorem read_itemText {doc : String} (h : Plain doc) :
    read (String.ofList (itemText doc)) = .ok (.map (itemDocument doc)) := by
  have hs : skip (itemText doc) = itemText doc := skip_cons (by decide) _
  obtain ⟨fuel, hf⟩ : ∃ fuel, 2 * (itemText doc).length + 2 = fuel + 15 := by
    refine ⟨2 * (itemText doc).length + 2 - 15, ?_⟩
    simp [itemText, quoted]
    omega
  unfold read
  simp only [String.toList_ofList, hs, hf, value_itemText h]
  rfl

/-- each of its characters is one byte, and none ends a line -/
theorem mem_itemText {doc : String} (h : Plain doc) {c : Char} (hc : c ∈ itemText doc) :
    c.toNat < 128 ∧ c ≠ '\r' := by
  let fits (c : Char) : Bool := c.toNat < 128 && c != '\r'
  have hdoc : doc.toList.all fits = true := by
    refine List.all_eq_true.2 fun x hx => ?_
    have hp : ((32 ≤ x.toNat ∧ x.toNat < 128) ∧ x ≠ '"') ∧ x ≠ '\\' := by
      simpa [isPlain] using h x hx
    have hne : x ≠ '\r' := by
      rintro rfl
      exact absurd hp.1.1.1 (by decide)
    simp [fits, hp.1.1.2, hne]
  have hall : (itemText doc).all fits = true := by
    simp only [itemText, quoted, List.all_cons, List.all_append, hdoc]
    decide
  simpa [fits] using List.all_eq_true.1 hall c hc

end Json

namespace Generation

open Text Files

/-- the document of a JSON file of characters below 128 -/
theorem load_json {fs : FileSystem} {path p : Parts} {cs : List Char} {es : Value.Entries}
    (hl : fs.locate path = .ok (some p)) (hf : fs.get? p = some (.file (asciiBytes cs)))
    (hn : Format.ofName (Path.fileName path) = .json) (hc : ∀ c ∈ cs, c.toNat < 128 ∧ c ≠ '\r')
    (hj : Json.read (String.ofList cs) = .ok (.map es)) :
    load fs path = .ok ⟨es, []⟩ := by
  have hr : '\r' ∉ cs := fun hm => (hc _ hm).2 rfl
  have hk : keep cs = cs := keep_eq_self fun hm => absurd (hc _ hm).1 (by decide)
  have hp : parse .json path cs = .ok (.map es, []) := by
    unfold parse
    rw [hj]
  have hd : readDocument path (asciiBytes cs) = .ok ⟨es, []⟩ := by
    unfold readDocument
    rw [hn, decode_asciiBytes fun c hm => (hc c hm).1]
    dsimp only
    rw [hk, unifyBreaks_eq_self hr, hp]
  unfold load
  simp only [hl, Option.bind_some, hf]
  exact hd

end Generation

end ZodSchema
