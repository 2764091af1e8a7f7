import Mathlib.Data.List.Basic
import ZodSchema.Proofs.Text.CodePoint
import ZodSchema.TypeScript.Doc

/-!
# Lines of bytes

The lines of a file are counted in its bytes: a line feed is one byte, and no other character has
that byte in its encoding.

* `byteLines`          number of lines of bytes
* `byteLines_bytes`    the lines of a text are those of its encoding
-/

namespace ZodSchema.Text

variable {c : Char} {cs : List Char}

/-- line feed -/
def lineFeed : UInt8 := 10

/-- number of lines of bytes; the last one need not end -/
def byteLines (bytes : ByteArray) : Nat :=
  let bs := bytes.data.toList
  if bs = [] then 0 else bs.count lineFeed + (if bs.getLast? = some lineFeed then 0 else 1)

theorem toList_toUTF8 (s : String) :
    s.toUTF8.data.toList = s.toList.flatMap String.utf8EncodeChar := by
  conv =>
    lhs
    rw [← String.ofList_toList (s := s)]
  rw [String.toUTF8_eq_toByteArray]
  exact List.toList_data_toByteArray

theorem utf8EncodeChar_lineFeed : String.utf8EncodeChar '\n' = [lineFeed] := by decide

/-- no other character has a line feed in its encoding -/
theorem eq_of_lineFeed_mem (h : lineFeed ∈ String.utf8EncodeChar c) : c = '\n' := by
  have hbyte : ∀ n, lineFeed = UInt8.ofNat n → n % 256 = 10 := fun n hn =>
    (congrArg UInt8.toNat hn).symm
  have hchar : c.val.toNat = 10 → c = '\n' := fun hn => Char.toNat_inj.1 hn
  unfold String.utf8EncodeChar at h
  dsimp only at h
  split_ifs at h
  all_goals simp only [List.mem_cons, List.not_mem_nil, or_false] at h
  · have := hbyte _ h
    exact hchar (by omega)
  -- the bytes of all other characters are 128 and above
  · rcases h with h | h <;> have hb := hbyte _ h <;> omega
  · rcases h with h | h | h <;> have hb := hbyte _ h <;> omega
  · rcases h with h | h | h | h <;> have hb := hbyte _ h <;> omega

theorem count_lineFeed (cs : List Char) :
    (cs.flatMap String.utf8EncodeChar).count lineFeed = countChar '\n' cs := by
  unfold countChar
  induction cs with
  | nil => rfl
  | cons c cs ih =>
    rw [List.flatMap_cons, List.count_append, List.countP_cons, ih, Nat.add_comm]
    by_cases hc : c = '\n'
    · rw [hc, utf8EncodeChar_lineFeed]
      rfl
    · rw [List.count_eq_zero.2 fun h => hc (eq_of_lineFeed_mem h), if_neg (by simpa using hc)]

theorem getLast?_lineFeed (cs : List Char) :
    (cs.flatMap String.utf8EncodeChar).getLast? = some lineFeed ↔ cs.getLast? = some '\n' := by
  rcases List.eq_nil_or_concat cs with rfl | ⟨ds, c, rfl⟩
  · exact iff_of_false (fun h => by cases h) fun h => by cases h
  · have hne : (String.utf8EncodeChar c).getLast? ≠ none := by
      rw [Ne, List.getLast?_eq_none_iff]
      exact String.utf8EncodeChar_ne_nil
    obtain ⟨b, hb⟩ := Option.ne_none_iff_exists'.1 hne
    rw [List.concat_eq_append, List.flatMap_append, List.flatMap_singleton, List.getLast?_append, hb,
      Option.some_or, List.getLast?_concat, ← hb]
    constructor
    · intro h
      rw [eq_of_lineFeed_mem (List.mem_of_getLast? h)]
    · intro h
      rw [Option.some.inj h, utf8EncodeChar_lineFeed]
      rfl

theorem byteLines_toUTF8 (s : String) : byteLines s.toUTF8 = TypeScript.countLines s := by
  have hnil : s.toList.flatMap String.utf8EncodeChar = [] ↔ s.toList = [] := by
    rw [List.flatMap_eq_nil_iff]
    constructor
    · intro h
      by_contra hne
      obtain ⟨c, hc⟩ := List.exists_mem_of_ne_nil _ hne
      exact String.utf8EncodeChar_ne_nil (h c hc)
    · intro h
      rw [h]
      exact List.forall_mem_nil _
  unfold byteLines TypeScript.countLines
  simp only [toList_toUTF8, hnil, count_lineFeed, getLast?_lineFeed]

/-- a character is kept twice or once -/
theorem keep_char_cases (c : Char) :
    (CodePoint.char c).keep = [mark, mark] ∧ c = mark ∨ (CodePoint.char c).keep = [c] := by
  by_cases h : c = mark
  · exact Or.inl ⟨if_pos h, h⟩
  · exact Or.inr (CodePoint.keep_char h)

theorem countChar_keep (cs : List Char) : countChar '\n' (keep cs) = countChar '\n' cs := by
  unfold countChar
  induction cs with
  | nil => rfl
  | cons c cs ih =>
    have hk : keep (c :: cs) = (CodePoint.char c).keep ++ keep cs := List.flatMap_cons
    rw [hk, List.countP_append, ih, List.countP_cons]
    rcases keep_char_cases c with ⟨h, rfl⟩ | h <;> rw [h]
    · exact Nat.add_comm _ _
    · rw [List.countP_singleton, Nat.add_comm]

theorem getLast?_keep (cs : List Char) : (keep cs).getLast? = cs.getLast? := by
  rcases List.eq_nil_or_concat cs with rfl | ⟨ds, c, rfl⟩
  · rfl
  · rw [List.concat_eq_append, keep, List.flatMap_append, List.flatMap_singleton,
      List.getLast?_concat]
    rcases keep_char_cases c with ⟨h, rfl⟩ | h <;> rw [h, List.getLast?_append] <;> rfl

theorem countLines_keep (s : String) :
    TypeScript.countLines (Str.keep s) = TypeScript.countLines s := by
  have hnil : keep s.toList = [] ↔ s.toList = [] := by
    rw [← List.getLast?_eq_none_iff, getLast?_keep, List.getLast?_eq_none_iff]
  unfold TypeScript.countLines Str.keep
  simp only [String.toList_ofList, countChar_keep, getLast?_keep, hnil]

/-- the lines of a text are those of its encoding -/
theorem byteLines_bytes {s : String} (h : Str.lone? s = none) :
    byteLines (Str.bytes s) = TypeScript.countLines s := by
  rw [Str.bytes, byteLines_toUTF8, ← countLines_keep, Str.keep_genuine h]

end ZodSchema.Text
