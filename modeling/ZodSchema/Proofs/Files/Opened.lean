import ZodSchema.Proofs.Files.Frame

/-!
# Directories on the way

`makeDirs dir` goes from the root towards `dir` and stops where a name is too long or a file is in
the way.  Where it stops depends on the files alone, not on which directories are there already.

* `opened`           the directories on the way that are there afterwards
* `get?_makeDirs`    what `makeDirs` leaves at every path
* `opened_congr`     they depend on the files in the way only
* `Fault.Alike`      faults that tell apart only a temporary name or a part of a too long path
* `alike_makeDirs`   so does the fault, up to `Fault.Alike`
-/

namespace ZodSchema.Files

open Text

/-! ## faults that come to the same -/

section
variable {way way' : Parts} {f g h : Fault}

/-- The same fault, except for the name of a temporary file and for how much of the way to a file
is told where a name on it is too long: the directories made on the way decide on that. -/
inductive Fault.Alike (way : Parts) : Fault → Fault → Prop where
  | refl (f : Fault) : Alike way f f
  | longName {p q : Parts} (hp : p <+: way) (hq : q <+: way) :
      Alike way (.nameTooLong p) (.nameTooLong q)
  | temp (t t' p : Parts) : Alike way (.isDirectoryAt t p) (.isDirectoryAt t' p)

theorem Fault.Alike.symm (h : Fault.Alike way f g) : Fault.Alike way g f := by
  cases h with
  | refl => exact .refl _
  | longName hp hq => exact .longName hq hp
  | temp t t' p => exact .temp t' t p

theorem Fault.Alike.trans (h₁ : Fault.Alike way f g) (h₂ : Fault.Alike way g h) :
    Fault.Alike way f h := by
  cases h₁ with
  | refl => exact h₂
  | longName hp hq =>
    cases h₂ with
    | refl => exact .longName hp hq
    | longName _ hr => exact .longName hp hr
  | temp t t' p =>
    cases h₂ with
    | refl => exact .temp t t' p
    | temp _ t'' _ => exact .temp t t'' p

theorem Fault.Alike.mono (h : Fault.Alike way f g) (hw : way <+: way') : Fault.Alike way' f g := by
  cases h with
  | refl => exact .refl _
  | longName hp hq => exact .longName (hp.trans hw) (hq.trans hw)
  | temp t t' p => exact .temp t t' p

end

section
variable {way : Parts} {f g : Option Fault}

/-- faults, or both times none, that come to the same -/
abbrev AlikeFaults (way : Parts) : Option Fault → Option Fault → Prop :=
  Option.Rel (Fault.Alike way)

theorem AlikeFaults.refl (way : Parts) (f : Option Fault) : AlikeFaults way f f := by
  cases f with
  | none => exact .none
  | some f => exact .some (.refl f)

theorem AlikeFaults.eq_none_iff (h : AlikeFaults way f g) : f = none ↔ g = none := by
  cases h with
  | some _ => exact iff_of_false (Option.some_ne_none _) (Option.some_ne_none _)
  | none => exact Iff.rfl

end

namespace FileSystem

variable {dir p q cur rest full : Parts} {part : String} {fs fs' : FileSystem}

/-! ## files in the way -/

/-- a file stands at `p` -/
def isFile (fs : FileSystem) (p : Parts) : Bool := fs.get? p matches some (.file _)

theorem isFile_congr (h : fs.get? p = fs'.get? p) : fs.isFile p = fs'.isFile p := by
  unfold isFile
  rw [h]

theorem isFile_of_dir (h : fs.get? p = some .dir) : fs.isFile p = false := by
  unfold isFile
  rw [h]

theorem get?_of_isFile_eq_false (h : fs.isFile p = false) :
    fs.get? p = none ∨ fs.get? p = some .dir := by
  unfold isFile at h
  cases hp : fs.get? p with
  | none => exact Or.inl rfl
  | some e =>
    cases e with
    | dir => exact Or.inr rfl
    | file c =>
      rw [hp] at h
      cases h

/-- a directory where no file stood is in nobody's way -/
theorem isFile_of_put_dir (hq : fs.isFile q = false)
    (h : ∀ p, fs'.get? p = if p = q then some .dir else fs.get? p) (p : Parts) :
    fs'.isFile p = fs.isFile p := by
  by_cases hp : p = q
  · rw [hp, hq]
    exact isFile_of_dir (by rw [h, if_pos rfl])
  · exact isFile_congr (by rw [h, if_neg hp])

/-! ## one name of the way -/

theorem makeDirsFrom_long (full : Parts) (made : Bool) (cur rest : Parts) (fs : FileSystem)
    (h : isLongName part = true) : makeDirsFrom full made cur (part :: rest) fs =
      (fs, some (.nameTooLong (if made then cur ++ [part] else full))) := by
  unfold makeDirsFrom
  rw [if_pos h]

theorem makeDirsFrom_file (full : Parts) (made : Bool) (cur rest : Parts) (fs : FileSystem)
    (h : isLongName part = false) (hf : fs.isFile (cur ++ [part]) = true) :
    makeDirsFrom full made cur (part :: rest) fs =
      (fs, some (if rest = [] then .fileExists full else .notDirectory full)) := by
  unfold isFile at hf
  unfold makeDirsFrom
  dsimp only
  rw [if_neg (by simp [h])]
  split at hf
  · next c hc => rw [hc]
  · cases hf

/-- a name that is no file leads on, from a file system with a directory there -/
theorem makeDirsFrom_pass (full : Parts) (made : Bool) (cur rest : Parts) (fs : FileSystem)
    (h : isLongName part = false) (hf : fs.isFile (cur ++ [part]) = false) :
    ∃ made' fs', (∀ p, fs'.get? p = if p = cur ++ [part] then some .dir else fs.get? p) ∧
      makeDirsFrom full made cur (part :: rest) fs =
        makeDirsFrom full made' (cur ++ [part]) rest fs' := by
  have hs : ¬ isLongName part = true := by rw [h]; decide
  cases hg : fs.get? (cur ++ [part]) with
  | none =>
    refine ⟨true, fs.put (cur ++ [part]) .dir, fun p => ?_, by rw [makeDirsFrom, if_neg hs, hg]⟩
    rw [get?_put]
    by_cases hp : p = cur ++ [part]
    · rw [if_pos ⟨hp ▸ List.append_ne_nil_of_right_ne_nil _ (List.cons_ne_nil _ _), hp⟩, if_pos hp]
    · rw [if_neg fun he => hp he.2, if_neg hp]
  | some e =>
    cases e with
    | dir =>
      refine ⟨made, fs, fun p => ?_, by rw [makeDirsFrom, if_neg hs, hg]⟩
      split
      · next hp => rw [hp, hg]
      · rfl
    | file c =>
      unfold isFile at hf
      rw [hg] at hf
      cases hf

/-! ## where the way leads -/

/-- the directories that `makeDirsFrom` comes through below `cur` -/
def openedFrom (fs : FileSystem) : Parts → List String → List Parts
  | _, [] => []
  | cur, part :: rest =>
    if isLongName part || fs.isFile (cur ++ [part]) then []
    else (cur ++ [part]) :: openedFrom fs (cur ++ [part]) rest

/-- the directories on the way to `dir` that are there after `makeDirs` -/
def opened (dir : Parts) (fs : FileSystem) : List Parts :=
  if hasBadName dir || isLongPath dir then [] else openedFrom fs [] dir

theorem openedFrom_stop (rest : Parts) (h : isLongName part || fs.isFile (cur ++ [part])) :
    openedFrom fs cur (part :: rest) = [] := by
  unfold openedFrom
  rw [if_pos h]

theorem openedFrom_pass (rest : Parts) (h : isLongName part = false)
    (hf : fs.isFile (cur ++ [part]) = false) : openedFrom fs cur (part :: rest) =
      (cur ++ [part]) :: openedFrom fs (cur ++ [part]) rest := by
  rw [openedFrom, h, hf]
  rfl

theorem of_mem_openedFrom (h : p ∈ openedFrom fs cur rest) :
    p <+: cur ++ rest ∧ cur.length < p.length ∧ fs.isFile p = false := by
  induction rest generalizing cur with
  | nil => cases h
  | cons part rest ih =>
    by_cases hs : (isLongName part || fs.isFile (cur ++ [part])) = true
    · rw [openedFrom_stop rest hs] at h
      cases h
    · obtain ⟨hl, hf⟩ := Bool.or_eq_false_iff.1 (Bool.eq_false_iff.2 hs)
      rw [openedFrom_pass rest hl hf] at h
      rw [List.append_cons]
      rcases List.mem_cons.1 h with rfl | h
      · exact ⟨List.prefix_append .., by simp, hf⟩
      · obtain ⟨h1, h2, h3⟩ := ih h
        rw [List.length_append, List.length_singleton] at h2
        exact ⟨h1, by omega, h3⟩

theorem openedFrom_congr (h : ∀ q, q <+: cur ++ rest → fs.isFile q = fs'.isFile q) :
    openedFrom fs cur rest = openedFrom fs' cur rest := by
  induction rest generalizing cur with
  | nil => rfl
  | cons part rest ih =>
    rw [List.append_cons] at h
    have hnext := h (cur ++ [part]) (List.prefix_append ..)
    unfold openedFrom
    rw [hnext, ih h]

/-- what `makeDirsFrom` leaves at every path -/
theorem get?_makeDirsFrom (full : Parts) (made : Bool) (cur rest : Parts) (fs : FileSystem)
    (p : Parts) : (makeDirsFrom full made cur rest fs).1.get? p =
      if p ∈ openedFrom fs cur rest then some .dir else fs.get? p := by
  induction rest generalizing made cur fs with
  | nil => rfl
  | cons part rest ih =>
    cases hl : isLongName part with
    | true =>
      rw [makeDirsFrom_long full made cur rest fs hl, openedFrom_stop rest (by simp [hl])]
      rfl
    | false =>
      cases hf : fs.isFile (cur ++ [part]) with
      | true =>
        rw [makeDirsFrom_file full made cur rest fs hl hf, openedFrom_stop rest (by simp [hf])]
        rfl
      | false =>
        obtain ⟨made', fs', hg, he⟩ := makeDirsFrom_pass full made cur rest fs hl hf
        rw [he, ih, openedFrom_pass rest hl hf, hg,
          openedFrom_congr fun q _ => isFile_of_put_dir hf hg q]
        by_cases hp : p = cur ++ [part]
        · rw [if_pos hp, ite_self, hp, if_pos List.mem_cons_self]
        · rw [if_neg hp]
          simp only [List.mem_cons, hp, false_or]

/-- what `makeDirs` leaves at every path -/
theorem get?_makeDirs (dir : Parts) (fs : FileSystem) (p : Parts) :
    (fs.makeDirs dir).1.get? p = if p ∈ opened dir fs then some .dir else fs.get? p := by
  unfold makeDirs opened
  by_cases hn : hasBadName dir = true
  · simp [hn]
  · by_cases hl : isLongPath dir = true
    · simp [hn, hl]
    · simp only [hn, hl, Bool.or_self, Bool.false_eq_true, if_false]
      exact get?_makeDirsFrom dir false [] dir fs p

theorem of_mem_opened (h : p ∈ opened dir fs) :
    p <+: dir ∧ p ≠ [] ∧ fs.isFile p = false := by
  unfold opened at h
  split at h
  · cases h
  · obtain ⟨h1, h2, h3⟩ := of_mem_openedFrom h
    exact ⟨h1, List.ne_nil_of_length_pos h2, h3⟩

/-- the files in the way decide how far the way is open -/
theorem opened_congr (h : ∀ q, q <+: dir → fs.isFile q = fs'.isFile q) :
    opened dir fs = opened dir fs' := by
  have hc : openedFrom fs [] dir = openedFrom fs' [] dir := openedFrom_congr h
  unfold opened
  rw [hc]

theorem get?_makeDirs_off_way (h : ¬ p <+: dir) :
    (fs.makeDirs dir).1.get? p = fs.get? p := by
  rw [get?_makeDirs, if_neg fun hp => h (of_mem_opened hp).1]

/-! ## the fault -/

/-- which directories are there decides at most on how much of the path a fault tells -/
theorem alike_makeDirsFrom (made made' : Bool) (hfull : full = cur ++ rest)
    (h : ∀ q, q <+: full → fs.isFile q = fs'.isFile q) :
    AlikeFaults full (makeDirsFrom full made cur rest fs).2
      (makeDirsFrom full made' cur rest fs').2 := by
  induction rest generalizing made made' cur fs fs' with
  | nil => exact .none
  | cons part rest ih =>
    rw [List.append_cons] at hfull
    have hnext : cur ++ [part] <+: full := hfull ▸ List.prefix_append ..
    cases hl : isLongName part with
    | true =>
      -- the path that is told ends with the long name, or it is the whole path
      have htold : ∀ b : Bool, (if b then cur ++ [part] else full) <+: full := by
        intro b
        cases b with
        | true => exact hnext
        | false => exact List.prefix_refl full
      rw [makeDirsFrom_long full made cur rest fs hl, makeDirsFrom_long full made' cur rest fs' hl]
      exact .some (.longName (htold made) (htold made'))
    | false =>
      have hfiles := h _ hnext
      cases hf : fs.isFile (cur ++ [part]) with
      | true =>
        rw [makeDirsFrom_file full made cur rest fs hl hf,
          makeDirsFrom_file full made' cur rest fs' hl (hfiles ▸ hf)]
        exact AlikeFaults.refl ..
      | false =>
        have hf' : fs'.isFile (cur ++ [part]) = false := hfiles ▸ hf
        obtain ⟨m, fs₁, hg, he⟩ := makeDirsFrom_pass full made cur rest fs hl hf
        obtain ⟨m', fs₁', hg', he'⟩ := makeDirsFrom_pass full made' cur rest fs' hl hf'
        rw [he, he']
        refine ih m m' hfull fun q hq => ?_
        rw [isFile_of_put_dir hf hg, isFile_of_put_dir hf' hg', h q hq]

/-- the fault depends on the files in the way, up to how much of the path it tells -/
theorem alike_makeDirs (h : ∀ q, q <+: dir → fs.isFile q = fs'.isFile q) :
    AlikeFaults dir (fs.makeDirs dir).2 (fs'.makeDirs dir).2 := by
  unfold makeDirs
  split
  · exact AlikeFaults.refl ..
  · split
    · exact AlikeFaults.refl ..
    · exact alike_makeDirsFrom false false rfl h

end FileSystem

end ZodSchema.Files
