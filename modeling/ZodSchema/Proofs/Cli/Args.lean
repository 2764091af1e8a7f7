import ZodSchema.Cli.Args

/-!
# More arguments at the end of a command line

* `words_append`       the words of two lists of arguments, one after the other
* `readWords_append`   they are read one after the other, unless a value comes next
* `parse_append_two`   what the arguments ask for with some more
-/

namespace ZodSchema.Cli

variable {argv more : List String}

/-- behind two hyphens alone, no argument is a switch -/
theorem words_append (argv more : List String) :
    words (argv ++ more) =
      if "--" ∈ argv then (words argv).map (· ++ more.map .unknown)
      else (words argv).bind fun ws => (words more).map (ws ++ ·) := by
  induction argv with
  | nil =>
    rw [if_neg List.not_mem_nil, List.nil_append]
    show words more = (words more).map ([] ++ ·)
    cases words more <;> rfl
  | cons arg argv ih =>
    by_cases ha : arg = "--"
    · rw [List.cons_append, words, words, if_pos ha, if_pos ha, if_pos (ha ▸ List.mem_cons_self),
        List.map_append]
      rfl
    · have hm : "--" ∈ arg :: argv ↔ "--" ∈ argv := by
        rw [List.mem_cons, or_iff_right (Ne.symm ha)]
      rw [List.cons_append, words, words, if_neg ha, if_neg ha, ih]
      simp only [hm]
      cases word arg with
      | error e => split <;> rfl
      | ok w =>
        split
        · cases words argv <;> rfl
        · cases words argv with
          | error e => rfl
          | ok ws => cases words more <;> rfl

/-- the same end of reading arguments, but for what is wrong with them -/
inductive Stop.Alike : Stop → Stop → Prop where
  | same (s : Stop) : Stop.Alike s s
  | refused (e e' : UsageError) : Stop.Alike (.error e) (.error e')

namespace Args

variable {ws' : List Word}

/-- words are read one after the other, unless a value comes next -/
theorem readWords_append (a : Args) (extras : List String) (ws : List Word)
    (hv : ∀ v, ws'.head? ≠ some (.value v)) :
    readWords a extras (ws ++ ws') =
      readWords a extras ws >>= fun p => readWords p.1 p.2 ws' := by
  fun_induction readWords a extras ws with
  | case1 a extras => rfl
  | case2 a extras t ws ih => exact ih
  | case3 a extras t ws ih => exact ih
  | case4 a extras s b rest ws e hg =>
    rw [List.cons_append, readWords, hg]
    rfl
  | case5 a extras s b rest ws g hg hl ih =>
    rw [List.cons_append, readWords, hg]
    simp only [hl, ih, bind_assoc]
  | case6 a extras s b rest g hg t hl ht v ws ih =>
    rw [List.cons_append, List.cons_append, readWords, hg]
    simp only [hl, ht, if_true, ih, bind_assoc]
  | case7 a extras s b rest ws g hg t hl ht hn =>
    -- the switch still waits for its value, and none comes
    rw [List.cons_append, readWords, hg]
    simp only [hl, ht, if_true]
    split
    · next v ws₂ he =>
      cases ws with
      | nil => exact absurd (congrArg List.head? he) (hv v)
      | cons w ws => exact (hn v ws (by rw [(List.cons.inj he).1])).elim
    · rfl
  | case8 a extras s b rest ws g hg t hl ht ih =>
    rw [List.cons_append, readWords, hg]
    simp only [hl, ht, ih, bind_assoc]
    rfl

theorem readWords_unknown (a : Args) (extras more : List String) :
    readWords a extras (more.map .unknown) = .ok (a, extras ++ more) := by
  induction more generalizing extras with
  | nil => rw [List.append_nil]; rfl
  | cons t more ih =>
    show readWords a (extras ++ [t]) (more.map .unknown) = _
    rw [ih, List.append_assoc, List.singleton_append]

/-- a schema file is named, and every argument is part of a switch -/
def accept (p : Args × List String) : Except Stop Args :=
  if p.1.schema.isNone then .error (.error .noSchema)
  else if p.2.isEmpty then .ok p.1
  else .error (.error (.unrecognized p.2))

theorem parse_eq (argv : List String) :
    parse argv =
      match words argv with
      | .error e => .error (.error e)
      | .ok ws => readWords {} [] ws >>= accept := rfl

/-- arguments that only set something -/
structure Sets (more : List String) (f : Args → Args) : Prop where
  ne_nil : more ≠ []
  words : ∃ ws, words more = .ok ws ∧ (∀ v, ws.head? ≠ some (.value v)) ∧
    ∀ a extras, readWords a extras ws = .ok (f a, extras)
  schema : ∀ a, (f a).schema = a.schema

namespace Sets

variable {f : Args → Args}

theorem parse_of_error {e : UsageError} (_h : Sets more f) (hw : Cli.words argv = .error e) :
    parse (argv ++ more) = .error (.error e) := by
  have ha : Cli.words (argv ++ more) = .error e := by
    rw [words_append, hw]
    split <;> rfl
  rw [parse_eq, ha]

/-- what comes of more arguments, in terms of those before -/
theorem parse_of_ok {ws : List Word} (h : Sets more f) (hw : Cli.words argv = .ok ws) :
    parse (argv ++ more) = readWords {} [] ws >>= fun p =>
      if "--" ∈ argv then accept (p.1, p.2 ++ more) else accept (f p.1, p.2) := by
  obtain ⟨ws', hw', hv, hr⟩ := h.words
  by_cases hm : "--" ∈ argv
  · have ha : Cli.words (argv ++ more) = .ok (ws ++ more.map .unknown) := by
      rw [words_append, if_pos hm, hw]
      rfl
    have hu : ∀ v, (more.map Word.unknown).head? ≠ some (.value v) := by
      intro v
      cases more <;> simp
    rw [parse_eq, ha]
    simp only [if_pos hm, readWords_append _ _ _ hu, readWords_unknown, bind_assoc]
    rfl
  · have ha : Cli.words (argv ++ more) = .ok (ws ++ ws') := by
      rw [words_append, if_neg hm, hw, hw']
      rfl
    rw [parse_eq, ha]
    simp only [if_neg hm, readWords_append _ _ _ hv, hr, bind_assoc]
    rfl

end Sets

theorem accept_of_ne_nil {p : Args × List String} (h : p.2 ≠ []) :
    ∃ e, accept p = .error (.error e) := by
  unfold accept
  split
  · exact ⟨_, rfl⟩
  · rw [if_neg (by simpa using h)]
    exact ⟨_, rfl⟩

/-- With two kinds of arguments that only set something, reading a command line ends early alike or
both are set. -/
theorem parse_append_two {more₁ more₂ : List String} {f₁ f₂ : Args → Args} (h₁ : Sets more₁ f₁)
    (h₂ : Sets more₂ f₂) (argv : List String) :
    (∃ s₁ s₂, parse (argv ++ more₁) = .error s₁ ∧ parse (argv ++ more₂) = .error s₂ ∧
      Stop.Alike s₁ s₂) ∨
    ∃ a, parse (argv ++ more₁) = .ok (f₁ a) ∧ parse (argv ++ more₂) = .ok (f₂ a) := by
  cases hw : Cli.words argv with
  | error e => exact Or.inl ⟨_, _, h₁.parse_of_error hw, h₂.parse_of_error hw, .same _⟩
  | ok ws =>
    rw [h₁.parse_of_ok hw, h₂.parse_of_ok hw]
    cases readWords {} [] ws with
    | error s => exact Or.inl ⟨s, s, rfl, rfl, .same s⟩
    | ok p =>
      obtain ⟨a, extras⟩ := p
      dsimp only [bind, Except.bind]
      by_cases hm : "--" ∈ argv
      · rw [if_pos hm, if_pos hm]
        obtain ⟨e₁, he₁⟩ := accept_of_ne_nil (p := (a, extras ++ more₁))
          (List.append_ne_nil_of_right_ne_nil _ h₁.ne_nil)
        obtain ⟨e₂, he₂⟩ := accept_of_ne_nil (p := (a, extras ++ more₂))
          (List.append_ne_nil_of_right_ne_nil _ h₂.ne_nil)
        exact Or.inl ⟨_, _, he₁, he₂, .refused e₁ e₂⟩
      · rw [if_neg hm, if_neg hm]
        unfold accept
        rw [h₁.schema, h₂.schema]
        split
        · exact Or.inl ⟨_, _, rfl, rfl, .same _⟩
        · split
          · exact Or.inr ⟨a, rfl, rfl⟩
          · exact Or.inl ⟨_, _, rfl, rfl, .same _⟩

/-! ## switches in full -/

theorem word_long (s : Switch) : word s.long = .ok (.switch s .word none) := by
  have hw : Text.Str.startsWith s.long "-" = true := by cases s <;> decide +kernel
  have hs : spelled? s.long.toList = some (s, .word) := by cases s <;> decide +kernel
  unfold word hyphenWord
  rw [if_pos hw, hs]

theorem words_long (s : Switch) (args : List String) :
    words (s.long :: args) = (words args).map (.switch s .word none :: ·) := by
  have hne : s.long ≠ "--" := by cases s <;> decide
  rw [words, if_neg hne, word_long]
  cases words args <;> rfl

theorem readWords_flag {s : Switch} (hs : s.takesValue = false) (a : Args) (extras : List String)
    (ws : List Word) :
    readWords a extras (.switch s .word none :: ws) =
      give a (s, .empty) >>= fun a => readWords a extras ws := by
  rw [readWords, group]
  simp [hs, giveAll]

theorem readWords_given {s : Switch} (hs : s.takesValue = true) (a : Args) (extras : List String)
    (v : String) (ws : List Word) :
    readWords a extras (.switch s .word none :: .value v :: ws) =
      give a (s, operand v) >>= fun a => readWords a extras ws := by
  rw [readWords, group]
  simp [hs, giveAll]

theorem sets_validateOnly : Sets ["--validate-only"] fun a => { a with validateOnly := true } := by
  refine ⟨by decide, ⟨[.switch .validateOnly .word none], ?_, by simp, fun a extras => ?_⟩,
    fun _ => rfl⟩
  · show words [Switch.validateOnly.long] = _
    rw [words_long]
    rfl
  · rw [readWords_flag rfl]
    rfl

theorem sets_dryRun {dir : String} (hd : Text.Str.startsWith dir "-" = false) :
    Sets ["--dry-run", "--output", dir] fun a =>
      { a with dryRun := true, output := some (.one dir) } := by
  have hne : dir ≠ "--" := by
    rintro rfl
    revert hd
    decide +kernel
  have hv : words [dir] = .ok [.value dir] := by
    have hw : word dir = .ok (.value dir) := by
      unfold word
      rw [hd]
      rfl
    rw [words, if_neg hne, hw]
    rfl
  refine ⟨by simp, ⟨[.switch .dryRun .word none, .switch .output .word none, .value dir], ?_,
    by simp, fun a extras => ?_⟩, fun _ => rfl⟩
  · show words (Switch.dryRun.long :: Switch.output.long :: [dir]) = _
    rw [words_long, words_long, hv]
    rfl
  · rw [readWords_flag rfl]
    show readWords _ extras [.switch .output .word none, .value dir] = _
    rw [readWords_given rfl]
    unfold operand
    rw [if_neg hne]
    rfl

end Args

end ZodSchema.Cli
