import ZodSchema.Files.Write

/-!
# What operations on files leave alone

`Kept root fs fs' p` says that `p` is in `fs'` as it was in `fs`, or is a directory on the way to
`root` that was missing.  Everything that happens strictly below `root` keeps all other paths.

* `kept_makeDirs`       making a directory keeps every path
* `Progress.kept_step`, `Progress.kept_steps`   a write, step by step
* `kept_write`          a write below `root` keeps every path that is not below `root`
* `locate_eq_normalize` a place that is found is the normal form of the path
-/

namespace ZodSchema.Text.Path

/-- parts that are names, as in a path without dots -/
def Resolved (p : Parts) : Prop := ∀ x ∈ p, x ≠ "" ∧ x ≠ "." ∧ x ≠ ".."

theorem resolved_dropLast {p : Parts} (h : Resolved p) : Resolved p.dropLast :=
  fun x hx => h x (List.dropLast_subset p hx)

theorem resolved_resolve {base : Parts} (rel : Parts) (h : Resolved base) :
    Resolved (resolve base rel) := by
  induction rel generalizing base with
  | nil => exact h
  | cons x rel ih =>
    show Resolved (resolve (step base x) rel)
    apply ih
    unfold step
    split
    · exact h
    · split
      · exact resolved_dropLast h
      · next h1 h2 =>
        intro y hy
        rcases List.mem_append.1 hy with hy | hy
        · exact h y hy
        · rw [List.mem_singleton.1 hy]
          exact ⟨fun e => h1 (Or.inl e), fun e => h1 (Or.inr e), h2⟩

/-- a normal form has names only -/
theorem resolved_normalize (p : Parts) : Resolved (normalize p) :=
  resolved_resolve p (by simp [Resolved])

end ZodSchema.Text.Path

namespace ZodSchema.Files

open Text

namespace FileSystem

variable {root dir p q target : Parts} {fs fs' fs'' : FileSystem}

theorem isWithin_iff : isWithin dir p = true ↔ dir <+: p := by simp [isWithin]

theorem isBelow_iff : isBelow dir p = true ↔ dir <+: p ∧ dir.length < p.length := by
  simp [isBelow]

theorem ne_nil_of_isBelow (h : isBelow dir p = true) : p ≠ [] := by
  rintro rfl
  simpa using (isBelow_iff.1 h).2

theorem isBelow_of_isWithin (h1 : isWithin root dir = true) (h2 : isBelow dir p = true) :
    isBelow root p = true := by
  rw [isWithin_iff] at h1
  rw [isBelow_iff] at h2 ⊢
  exact ⟨h1.trans h2.1, Nat.lt_of_le_of_lt h1.length_le h2.2⟩

/-- what is not below `root` and on the way to a place below it is on the way to `root` -/
theorem prefix_of_not_isBelow (ht : root <+: target) (hp : p <+: target)
    (hb : ¬ isBelow root p = true) : p <+: root := by
  rcases Nat.lt_or_ge root.length p.length with h | h
  · exact absurd (isBelow_iff.2 ⟨List.prefix_of_prefix_length_le ht hp (by omega), h⟩) hb
  · exact List.prefix_of_prefix_length_le hp ht h

theorem prefix_dropLast_of_isBelow (h : isBelow root target = true) :
    root <+: target.dropLast := by
  obtain ⟨h1, h2⟩ := isBelow_iff.1 h
  exact List.prefix_of_prefix_length_le h1 (List.dropLast_prefix target)
    (by rw [List.length_dropLast]; omega)

/-! ## kept paths -/

/-- `p` is as it was, or it is a directory on the way to `root` that was missing -/
def Kept (root : Parts) (fs fs' : FileSystem) (p : Parts) : Prop :=
  fs'.get? p = fs.get? p ∨ (p <+: root ∧ fs.get? p = none ∧ fs'.get? p = some .dir)

theorem Kept.refl (root : Parts) (fs : FileSystem) (p : Parts) : Kept root fs fs p := Or.inl rfl

theorem Kept.trans (h1 : Kept root fs fs' p) (h2 : Kept root fs' fs'' p) :
    Kept root fs fs'' p := by
  rcases h1 with h1 | ⟨hp, h0, h1⟩
  · unfold Kept
    rw [← h1]
    exact h2
  · rcases h2 with h2 | ⟨_, h2, _⟩
    · exact Or.inr ⟨hp, h0, h2.trans h1⟩
    · rw [h1] at h2
      cases h2

/-- a path that is not on the way to `root` is as it was -/
theorem Kept.get?_eq (h : Kept root fs fs' p) (hp : ¬ p <+: root) : fs'.get? p = fs.get? p := by
  rcases h with h | ⟨h, _⟩
  · exact h
  · exact absurd h hp

theorem kept_put (h : p ≠ q) (e : Entry) : Kept root fs (fs.put q e) p :=
  Or.inl (by rw [get?_put, if_neg (fun hq => h hq.2)])

theorem kept_erase (h : p ≠ q) : Kept root fs (fs.erase q) p :=
  Or.inl (by rw [get?_erase, if_neg (fun hq => h hq.2)])

theorem kept_makeDirsFrom (full : Parts) (made : Bool) (cur rest : Parts) (fs : FileSystem)
    (p : Parts) : Kept (cur ++ rest) fs (makeDirsFrom full made cur rest fs).1 p := by
  induction rest generalizing made cur fs with
  | nil => exact Kept.refl ..
  | cons part rest ih =>
    have happ : cur ++ part :: rest = cur ++ [part] ++ rest := by simp
    unfold makeDirsFrom
    rw [happ]
    dsimp only
    split
    · exact Kept.refl ..
    · split
      · exact ih ..
      · exact Kept.refl ..
      · next hnone =>
        -- the directory that is made is on the way to the last one, all other paths stay
        refine Kept.trans ?_ (ih true (cur ++ [part]) (fs.put (cur ++ [part]) .dir))
        by_cases hp : p = cur ++ [part]
        · subst hp
          exact Or.inr ⟨List.prefix_append .., hnone, by rw [get?_put, if_pos (by simp)]⟩
        · exact kept_put hp _

theorem kept_makeDirs (dir : Parts) (fs : FileSystem) (p : Parts) :
    Kept dir fs (fs.makeDirs dir).1 p := by
  unfold makeDirs
  split
  · exact Kept.refl ..
  · split
    · exact Kept.refl ..
    · exact kept_makeDirsFrom dir false [] dir fs p

/-- directories made within `root` keep what is not below it -/
theorem kept_makeDirs_within (hd : root <+: dir) (hp : ¬ isBelow root p = true) :
    Kept root fs (fs.makeDirs dir).1 p := by
  rcases kept_makeDirs dir fs p with h | ⟨h, h0, h1⟩
  · exact Or.inl h
  · exact Or.inr ⟨prefix_of_not_isBelow hd h hp, h0, h1⟩

/-! ## clearing -/

theorem isBelow_of_isCleared {keep : List String} (h : isCleared keep q p = true) :
    isBelow q p = true := by
  unfold isCleared at h
  exact (Bool.and_eq_true_iff.1 h).1

/-! ## places -/

theorem locateFrom_eq_resolve {path cur rest : Parts} (hr : ∀ x ∈ rest, x ≠ "" ∧ x ≠ ".")
    (h : locateFrom fs path cur rest = .ok (some q)) : q = Path.resolve cur rest := by
  induction rest generalizing cur with
  | nil => exact (Option.some.inj (Except.ok.inj h)).symm
  | cons x rest ih =>
    have hx := hr x List.mem_cons_self
    have ih' := fun c => @ih c (fun y hy => hr y (List.mem_cons_of_mem _ hy))
    show q = Path.resolve (Path.step cur x) rest
    unfold locateFrom at h
    unfold Path.step
    rw [if_neg (not_or.2 hx)]
    split at h
    · cases h
    · split at h
      · next hdots => rw [if_pos hdots]; exact ih' _ h
      · next hdots =>
        rw [if_neg hdots]
        split at h
        · cases h
        · split at h
          · exact ih' _ h
          · cases h

/-- the place that is found for a path is its normal form -/
theorem locate_eq_normalize {path : Parts} (hr : ∀ x ∈ path, x ≠ "" ∧ x ≠ ".")
    (h : fs.locate path = .ok (some q)) : q = Path.normalize path := by
  unfold locate at h
  split at h
  · cases h
  · split at h
    · cases h
    · exact locateFrom_eq_resolve hr h

end FileSystem

/-! ## writes -/

open FileSystem

section
variable {root target p : Parts} {fs : FileSystem}

/-- the temporary file of a write, if it has one, is below `root` -/
def Progress.Inside (root : Parts) : Progress → Prop
  | .temp t => isBelow root t = true
  | .filled t => isBelow root t = true
  | _ => True

/-- what lies beside a target below `root` is below `root` -/
theorem isBelow_beside (ht : isBelow root target = true) (name : String) :
    isBelow root (target.dropLast ++ [name]) = true := by
  have h := prefix_dropLast_of_isBelow ht
  refine isBelow_iff.2 ⟨h.trans (List.prefix_append ..), ?_⟩
  have := h.length_le
  rw [List.length_append, List.length_singleton]
  omega

theorem isBelow_freshTemp (ht : isBelow root target = true) (fs : FileSystem) :
    isBelow root (freshTemp target fs) = true :=
  isBelow_beside ht _

theorem ne_of_isBelow {q : Parts} (hp : ¬ isBelow root p = true) (hq : isBelow root q = true) :
    p ≠ q := by
  rintro rfl
  exact hp hq

theorem kept_fill {t : Parts} (h : p ≠ t) (text : String) : Kept root fs (fill t text fs) p := by
  unfold fill
  split
  · split
    · exact kept_put h _
    · exact Kept.refl ..
  · exact Kept.refl ..

/-- a step of a write below `root` keeps what is not below `root` -/
theorem Progress.kept_step (ht : isBelow root target = true) (text : String)
    (fs : FileSystem) {pr : Progress} (hi : pr.Inside root) :
    (pr.step target text fs).2.Inside root ∧
      ∀ p, ¬ isBelow root p = true → Kept root fs (pr.step target text fs).1 p := by
  have hd := prefix_dropLast_of_isBelow ht
  cases pr with
  | begun =>
    have hk : ∀ p, ¬ isBelow root p = true → Kept root fs (prepare target text fs).1 p :=
      fun p hp => kept_makeDirs_within hd hp
    unfold Progress.step
    dsimp only
    split <;> next hm => rw [hm] at hk; exact ⟨trivial, hk⟩
  | parents =>
    have hf := isBelow_freshTemp ht fs
    unfold Progress.step
    dsimp only
    split
    · exact ⟨trivial, fun p _ => Kept.refl ..⟩
    · exact ⟨hf, fun p hp => kept_put (ne_of_isBelow hp hf) _⟩
  | temp t => exact ⟨hi, fun p hp => kept_fill (ne_of_isBelow hp hi) text⟩
  | filled t =>
    have he : ∀ p, ¬ isBelow root p = true → Kept root fs (fs.erase t) p :=
      fun p hp => kept_erase (ne_of_isBelow hp hi)
    unfold Progress.step
    dsimp only
    split
    · exact ⟨trivial, fun p _ => Kept.refl ..⟩
    split
    · exact ⟨trivial, he⟩
    · exact ⟨trivial, fun p hp => (he p hp).trans (kept_put (ne_of_isBelow hp ht) _)⟩
  | finished => exact ⟨trivial, fun p _ => Kept.refl ..⟩
  | failed e => exact ⟨trivial, fun p _ => Kept.refl ..⟩

theorem Progress.kept_steps (ht : isBelow root target = true) (text : String) (n : Nat)
    (s : FileSystem × Progress) (hi : s.2.Inside root) (hp : ¬ isBelow root p = true) :
    Kept root s.1 (Progress.steps target text n s).1 p := by
  induction n generalizing s with
  | zero => exact Kept.refl ..
  | succ n ih =>
    obtain ⟨h1, h2⟩ := Progress.kept_step ht text s.1 hi
    exact (h2 p hp).trans (ih _ h1)

theorem kept_writePlain (ht : isBelow root target = true) (text : String)
    (fs : FileSystem) (hp : ¬ isBelow root p = true) :
    Kept root fs (writePlain target text fs).1 p := by
  have hk : Kept root fs (prepare target text fs).1 p :=
    kept_makeDirs_within (prefix_dropLast_of_isBelow ht) hp
  unfold writePlain
  split
  · next hm => rw [hm] at hk; exact hk
  · next hm =>
    rw [hm] at hk
    split
    · exact hk
    · split
      · exact hk
      · exact hk.trans (kept_put (ne_of_isBelow hp ht) _)

/-- a write below `root` keeps what is not below `root` -/
theorem kept_write (atomic : Bool) (ht : isBelow root target = true) (text : String)
    (fs : FileSystem) (hp : ¬ isBelow root p = true) :
    Kept root fs (write atomic target text fs).1 p := by
  unfold write
  split
  · exact Progress.kept_steps ht text 4 (fs, .begun) trivial hp
  · exact kept_writePlain ht text fs hp

end

end ZodSchema.Files
