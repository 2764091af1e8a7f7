import ZodSchema.Text.CodePoint

/-!
# Code points and how they are kept

What is kept is read back, and a text without surrogates is the kept form of its genuine
characters.

* `keep_ofNat`               a character that announces nothing is kept as it is
* `codePoints_keep`          genuine characters are read back
* `codePoints_eq_map`        so are those of a text in which nothing is announced
* `keep_genuine`             a text without surrogates is kept as its characters are
* `lone?_eq_none_iff`        these texts, which may be joined and taken apart
-/

namespace ZodSchema.Text

variable {c : Char} {cs : List Char} {s : String}

namespace CodePoint

theorem ofNat_toNat (c : Char) : ofNat c.toNat = char c := by
  have h : ¬ (0xD800 ≤ c.toNat ∧ c.toNat < 0xE000) := by
    have := c.valid
    unfold UInt32.isValidChar Nat.isValidChar at this
    show ¬ (0xD800 ≤ c.val.toNat ∧ c.val.toNat < 0xE000)
    omega
  rw [ofNat, if_neg h, Char.ofNat_toNat]

theorem keep_char (h : c ≠ mark) : (char c).keep = [c] := if_neg h

theorem keep_ofNat (h : c ≠ mark) : (ofNat c.toNat).keep = [c] := by
  rw [ofNat_toNat, keep_char h]

end CodePoint

/-! ## reading back -/

theorem codePoints_cons (h : c ≠ mark) (cs : List Char) :
    codePoints (c :: cs) = .char c :: codePoints cs := by
  cases cs with
  | nil => exact if_neg h
  | cons d ds =>
    rw [codePoints]
    exact if_neg h

theorem codePoints_mark (c : Char) (cs : List Char) :
    codePoints (mark :: c :: cs) = CodePoint.behindMark c :: codePoints cs := by
  rw [codePoints]
  exact if_pos rfl

theorem codePoints_keep_append (p : List Char) (cs : List Char) :
    codePoints (keep p ++ cs) = p.map .char ++ codePoints cs := by
  induction p with
  | nil => rfl
  | cons c p ih =>
    have hk : keep (c :: p) = (CodePoint.char c).keep ++ keep p := List.flatMap_cons
    rw [hk, List.append_assoc, List.map_cons, List.cons_append, ← ih]
    by_cases h : c = mark
    · rw [h]
      exact codePoints_mark mark _
    · rw [CodePoint.keep_char h]
      exact codePoints_cons h _

/-- genuine characters are read back -/
theorem codePoints_keep (cs : List Char) : codePoints (keep cs) = cs.map .char := by
  have h := codePoints_keep_append cs []
  rwa [List.append_nil, show codePoints [] = [] from rfl, List.append_nil] at h

/-- nothing is announced -/
theorem keep_eq_self (h : mark ∉ cs) : keep cs = cs := by
  induction cs with
  | nil => rfl
  | cons c cs ih =>
    have hc : mark ≠ c := fun hc => h (hc ▸ List.mem_cons_self)
    have hcs : mark ∉ cs := fun hcs => h (List.mem_cons_of_mem _ hcs)
    show (CodePoint.char c).keep ++ keep cs = _
    rw [CodePoint.keep_char (Ne.symm hc), ih hcs]
    rfl

theorem codePoints_eq_map (h : mark ∉ cs) : codePoints cs = cs.map .char := by
  rw [← codePoints_keep, keep_eq_self h]

/-- the characters of a text in which every code point is one -/
theorem keep_filterMap (h : ∀ p ∈ codePoints cs, p.char?.isSome = true) :
    keep ((codePoints cs).filterMap CodePoint.char?) = cs := by
  induction cs using codePoints.induct with
  | case1 => rfl
  | case2 => exact absurd (h (.surrogate 0) (List.mem_singleton_self _)) (by decide)
  | case3 c hc =>
    rw [codePoints_cons hc]
    show (CodePoint.char c).keep ++ [] = _
    rw [CodePoint.keep_char hc]
    rfl
  | case4 d cs ih =>
    rw [codePoints_mark, List.forall_mem_cons] at h
    have hd : d = mark := Decidable.byContradiction fun hd => by
      have hs := h.1
      rw [CodePoint.behindMark, if_neg hd] at hs
      cases hs
    rw [codePoints_mark, hd]
    show [mark, mark] ++ keep ((codePoints cs).filterMap CodePoint.char?) = _
    rw [ih h.2]
    rfl
  | case5 c d cs hc ih =>
    rw [codePoints_cons hc] at h ⊢
    show (CodePoint.char c).keep ++ keep ((codePoints (d :: cs)).filterMap CodePoint.char?) = _
    rw [CodePoint.keep_char hc, ih (List.forall_mem_cons.1 h).2]
    rfl

/-- a text is taken apart at characters that announce nothing -/
theorem splitOnChar_keep {sep : Char} (hsep : sep ≠ mark) (cs : List Char) :
    splitOnChar sep (keep cs) = (splitOnChar sep cs).map keep := by
  induction cs with
  | nil => rfl
  | cons c cs ih =>
    have hk : keep (c :: cs) = (CodePoint.char c).keep ++ keep cs := List.flatMap_cons
    rw [hk, splitOnChar]
    by_cases hc : c = mark
    · subst hc
      simp only [CodePoint.keep, if_true, List.cons_append, List.nil_append, splitOnChar, ih,
        if_neg (Ne.symm hsep)]
      cases splitOnChar sep cs with
      | nil => rfl
      | cons p ps => rfl
    · simp only [CodePoint.keep_char hc, List.cons_append, List.nil_append, splitOnChar, ih]
      cases splitOnChar sep cs with
      | nil => simp [keep, CodePoint.keep, hc]
      | cons p ps =>
        by_cases hs : c = sep
        · simp [hs, keep]
        · simp [hs, keep, CodePoint.keep, hc]

/-! ## texts without surrogates -/

theorem loneFrom?_map (stands : Fin 2048 → Bool) (i : Nat) (cs : List Char) :
    loneFrom? stands i (cs.map .char) = none := by
  induction cs generalizing i with
  | nil => rfl
  | cons c cs ih => exact ih (i + 1)

theorem loneFrom?_eq_none {i : Nat} {ps : List CodePoint}
    (h : loneFrom? (fun _ => false) i ps = none) : ∀ p ∈ ps, p.char?.isSome = true := by
  induction ps generalizing i with
  | nil => exact List.forall_mem_nil _
  | cons p ps ih =>
    cases p with
    | char c => exact List.forall_mem_cons.2 ⟨rfl, ih h⟩
    | surrogate n => cases h

namespace Str

theorem lone?_of_notMem (h : mark ∉ s.toList) : lone? s = none := by
  rw [lone?, codePoints, codePoints_eq_map h]
  exact loneFrom?_map _ _ _

theorem unnamed?_of_notMem (h : mark ∉ s.toList) : unnamed? s = none := by
  rw [unnamed?, codePoints, codePoints_eq_map h]
  exact loneFrom?_map _ _ _

theorem genuine_of_notMem (h : mark ∉ s.toList) : genuine s = s := by
  have hc : (s.toList.map CodePoint.char).filterMap CodePoint.char? = s.toList := by
    rw [List.filterMap_map]
    exact List.filterMap_some
  rw [genuine, codePoints, codePoints_eq_map h, hc, String.ofList_toList]

theorem bytes_of_notMem (h : mark ∉ s.toList) : bytes s = s.toUTF8 := by
  rw [bytes, genuine_of_notMem h]

theorem nameSize_of_notMem (h : mark ∉ s.toList) : nameSize s = s.utf8ByteSize := by
  have hcount : (codePoints s).countP (·.char?.isNone) = 0 := by
    rw [codePoints, codePoints_eq_map h, List.countP_map]
    exact List.countP_eq_zero.2 fun c _ => Bool.false_ne_true
  rw [nameSize, bytes_of_notMem h, hcount]
  rfl

/-- a text that has an encoding is kept as its genuine characters are -/
theorem keep_genuine (h : lone? s = none) : keep (genuine s) = s := by
  rw [keep, genuine, String.toList_ofList, codePoints, keep_filterMap (loneFrom?_eq_none h),
    String.ofList_toList]

theorem lone?_eq_none_iff : lone? s = none ↔ ∃ cs, s.toList = Text.keep cs := by
  constructor
  · intro h
    refine ⟨(genuine s).toList, ?_⟩
    conv => lhs; rw [← keep_genuine h]
    exact String.toList_ofList
  · rintro ⟨cs, hs⟩
    rw [lone?, codePoints, hs, codePoints_keep]
    exact loneFrom?_map _ _ _

theorem lone?_append {t : String} (hs : lone? s = none) (ht : lone? t = none) :
    lone? (s ++ t) = none := by
  obtain ⟨cs, hcs⟩ := lone?_eq_none_iff.1 hs
  obtain ⟨ds, hds⟩ := lone?_eq_none_iff.1 ht
  refine lone?_eq_none_iff.2 ⟨cs ++ ds, ?_⟩
  rw [String.toList_append, hcs, hds]
  exact List.flatMap_append.symm

/-- the encoding of a text is made of those of its parts -/
theorem bytes_append {t : String} (hs : lone? s = none) (ht : lone? t = none) :
    bytes (s ++ t) = bytes s ++ bytes t := by
  obtain ⟨cs, hcs⟩ := lone?_eq_none_iff.1 hs
  obtain ⟨ds, hds⟩ := lone?_eq_none_iff.1 ht
  have hgenuine : genuine (s ++ t) = genuine s ++ genuine t := by
    unfold genuine codePoints
    rw [String.toList_append, hcs, hds, codePoints_keep_append, codePoints_keep, codePoints_keep,
      List.filterMap_append, String.ofList_append]
  unfold bytes
  rw [hgenuine]
  exact String.toByteArray_append ..

/-- only the empty text has an empty encoding -/
theorem size_bytes_pos (h : lone? s = none) (hne : s ≠ "") : 0 < (bytes s).size := by
  refine Nat.pos_of_ne_zero fun h0 => hne ?_
  have hgenuine : genuine s = "" := String.utf8ByteSize_eq_zero_iff.1 h0
  rw [← keep_genuine h, hgenuine]
  rfl

theorem lone?_join {sep : String} {ps : List String} (hsep : lone? sep = none)
    (h : ∀ p ∈ ps, lone? p = none) : lone? (join sep ps) = none := by
  induction ps with
  | nil => rfl
  | cons p ps ih =>
    obtain ⟨hp, hps⟩ := List.forall_mem_cons.1 h
    cases ps with
    | nil => exact hp
    | cons q qs =>
      rw [join, String.intercalate_cons_cons]
      exact lone?_append (lone?_append hp hsep) (ih hps)

theorem lone?_of_mem_splitOn {sep : Char} (hsep : sep ≠ mark) (h : lone? s = none) {p : String}
    (hp : p ∈ splitOn sep s) : lone? p = none := by
  obtain ⟨cs, hcs⟩ := lone?_eq_none_iff.1 h
  rw [splitOn, hcs, splitOnChar_keep hsep, List.map_map] at hp
  obtain ⟨ds, -, rfl⟩ := List.mem_map.1 hp
  exact lone?_eq_none_iff.2 ⟨ds, String.toList_ofList⟩

end Str

end ZodSchema.Text
