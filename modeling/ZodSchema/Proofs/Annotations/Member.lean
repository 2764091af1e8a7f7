import ZodSchema.Proofs.Annotations.Chain
import ZodSchema.Proofs.Annotations.Segment

/-!
# Validators are segments

A validator, written out, is a segment again.  It stands for itself, and it is closed when the
segment was that it comes from.  Only regular expressions are written anew, and there the message
may have had other quote marks.

* `exists_of_regexArgs?`   the arguments that are a regular expression with a message
* `memberArgs`             the arguments of the validator of a call
* `Closes.memberArgs`      they close where the arguments of the call do
* `Stable`                 a part that stands for itself
* `stable_of_validator?`   the validator of a closed part is stable
-/

namespace ZodSchema.Annotations

open ChainState

variable {cs lit m args w : List Char} {msg : Option (List Char)} {name : String}

/-! ## regular expressions as arguments -/

/-- a regular expression between slashes, with its flags -/
def IsLiteral (lit : List Char) : Prop :=
  ∃ body flags, lit = '/' :: (body ++ '/' :: flags) ∧ body ≠ [] ∧ (∀ c ∈ body, c ≠ '/') ∧
    ∀ c ∈ flags, isRegexFlag c = true

theorem isOrdinary_of_isBlank {c : Char} (h : Text.isBlank c = true) : isOrdinary c = true :=
  isOrdinary_of (by decide) h

theorem exists_trimLeft (cs : List Char) :
    ∃ gap, (∀ c ∈ gap, isOrdinary c = true) ∧ cs = gap ++ Text.trimLeft cs :=
  ⟨cs.takeWhile Text.isBlank, fun _ hc => isOrdinary_of_isBlank (List.mem_takeWhile_imp hc),
    List.takeWhile_append_dropWhile.symm⟩

/-- nothing stands behind a message, not even a line feed -/
theorem exists_of_message {rest : List Char}
    (hq : quotedAt? (Text.trimLeft cs) = some (m, rest)) (hend : Text.dropFinalNewline rest = [])
    (hn : '\n' ∉ cs) :
    ∃ gap q q', (∀ c ∈ gap, isOrdinary c = true) ∧ Quotable m ∧ isPlainQuote q = true ∧
      isPlainQuote q' = true ∧ cs = gap ++ q :: (m ++ [q']) := by
  obtain ⟨gap, hgap, hcs⟩ := exists_trimLeft cs
  obtain ⟨q, q', hquoted, hp, hp', hm⟩ := quotedAt?_eq_some_iff.1 hq
  rw [hquoted] at hcs
  have hnil : rest = [] := by
    rw [← hend]
    refine (Text.dropFinalNewline_of_not_mem fun hx => hn ?_).symm
    rw [hcs]
    simp [hx]
  subst hnil
  exact ⟨gap, q, q', hgap, hm, hp, hp', hcs⟩

/-- `gap` is the white space behind a literal, with the comma when a message follows -/
theorem exists_of_regexArgs? (h : regexArgs? cs = some (lit, msg)) (hn : '\n' ∉ cs) :
    IsLiteral lit ∧ ∃ gap, (∀ c ∈ gap, isOrdinary c = true) ∧
      (msg = none ∧ cs = lit ++ gap ∨
        ∃ m q q', msg = some m ∧ Quotable m ∧ isPlainQuote q = true ∧ isPlainQuote q' = true ∧
          cs = lit ++ (gap ++ q :: (m ++ [q']))) := by
  unfold regexArgs? at h
  split at h
  swap
  · cases h
  next cs =>
  split at h
  swap
  · cases h
  next c body rest ht hd =>
  dsimp only at h
  have hlit : IsLiteral ('/' :: c :: body ++ '/' :: rest.takeWhile isRegexFlag) := by
    refine ⟨c :: body, rest.takeWhile isRegexFlag, rfl, List.cons_ne_nil _ _, ?_,
      fun x hx => List.mem_takeWhile_imp hx⟩
    intro x hx
    rw [← ht] at hx
    simpa using List.mem_takeWhile_imp hx
  have hcs : '/' :: cs = ('/' :: c :: body ++ '/' :: rest.takeWhile isRegexFlag) ++
      rest.dropWhile isRegexFlag := by
    calc '/' :: cs = '/' :: (c :: body ++ '/' :: rest) := by
          rw [← ht, ← hd, List.takeWhile_append_dropWhile]
      _ = _ := by simp
  obtain ⟨gap, hgap, htail⟩ := exists_trimLeft (rest.dropWhile isRegexFlag)
  rw [htail] at hcs
  split at h
  · next hnil =>
    obtain ⟨rfl, rfl⟩ := Prod.mk.inj (Option.some.inj h)
    rw [hnil, List.append_nil] at hcs
    exact ⟨hlit, gap, hgap, Or.inl ⟨rfl, hcs⟩⟩
  · next rest' hcomma =>
    split at h
    · next m rest'' hq =>
      split at h
      · next hend =>
        obtain ⟨rfl, rfl⟩ := Prod.mk.inj (Option.some.inj h)
        rw [hcomma] at hcs
        have hline : '\n' ∉ rest' := fun hx => hn (by rw [hcs]; simp [hx])
        obtain ⟨gap', q, q', hgap', hm, hp, hp', rfl⟩ := exists_of_message hq hend hline
        refine ⟨hlit, gap ++ ',' :: gap', ?_, Or.inr ⟨m, q, q', rfl, hm, hp, hp', ?_⟩⟩
        · intro x hx
          rcases List.mem_append.1 hx with hx | hx
          · exact hgap x hx
          · rcases List.mem_cons.1 hx with rfl | hx
            · decide
            · exact hgap' x hx
        · rw [hcs, List.append_assoc gap]
          rfl
      · cases h
    · cases h
  · cases h

theorem regexArgs?_literal (h : IsLiteral lit) : regexArgs? lit = some (lit, none) := by
  obtain ⟨body, flags, rfl, hne, hbody, hflags⟩ := h
  have hp : ∀ c ∈ body, (c != '/') = true := fun c hc => bne_iff_ne.2 (hbody c hc)
  have hs : ('/' != '/') = false := by decide
  have ht : flags.takeWhile isRegexFlag = flags := List.takeWhile_eq_self_iff.2 hflags
  have hd : flags.dropWhile isRegexFlag = [] := List.dropWhile_eq_nil_iff.2 hflags
  obtain ⟨c, body, rfl⟩ := List.exists_cons_of_ne_nil hne
  have hl : Text.trimLeft [] = [] := rfl
  simp only [regexArgs?, Text.takeWhile_run hp hs, Text.dropWhile_run hp hs, ht, hd, hl]
  rfl

/-- a literal with its message in double quotes -/
def written (lit : List Char) : Option (List Char) → List Char
  | some m => lit ++ (", ".toList ++ '"' :: (m ++ ['"']))
  | none => lit

theorem regexArgs?_message (h : IsLiteral lit) (hm : Quotable m) :
    regexArgs? (written lit (some m)) = some (lit, some m) := by
  obtain ⟨body, flags, rfl, hne, hbody, hflags⟩ := h
  have hp : ∀ c ∈ body, (c != '/') = true := fun c hc => bne_iff_ne.2 (hbody c hc)
  have hs : ('/' != '/') = false := by decide
  have hc : isRegexFlag ',' = false := by decide
  have he : written ('/' :: (body ++ '/' :: flags)) (some m) =
      '/' :: (body ++ '/' :: (flags ++ ',' :: ' ' :: '"' :: (m ++ ['"']))) := by
    simp [written]
  have hl : Text.trimLeft (',' :: ' ' :: '"' :: (m ++ ['"'])) =
      ',' :: ' ' :: '"' :: (m ++ ['"']) := rfl
  have hl' : Text.trimLeft (' ' :: '"' :: (m ++ ['"'])) = '"' :: (m ++ ['"']) := rfl
  have hn : Text.dropFinalNewline [] = [] := rfl
  obtain ⟨c, body, rfl⟩ := List.exists_cons_of_ne_nil hne
  rw [he]
  simp only [regexArgs?, Text.takeWhile_run hp hs, Text.dropWhile_run hp hs,
    Text.takeWhile_run hflags hc, Text.dropWhile_run hflags hc, hl, hl', quotedAt?_quoted hm, hn,
    if_true]
  rfl

/-! ## where the scanner stands behind them -/

namespace ChainState

/-- inside a regular expression or a quoted text -/
def Inside (st : ChainState) : Prop :=
  st.quote = none ∧ st.regex = true ∨ ∃ q, st.quote = some q ∧ isQuoteMark q = true

/-- a parenthesis does not lead out -/
theorem Inside.not_isLevel {st : ChainState} (h : st.Inside) : ¬ (st.next ')').1.IsLevel := by
  rintro ⟨_, hr, hq⟩
  rcases h with ⟨h1, h2⟩ | ⟨q, h1, h2⟩
  · simp [next, h1, h2] at hr
  · have hne : ')' ≠ q := by
      rintro rfl
      exact absurd h2 (by decide)
    simp [next, h1, hne] at hq

/-- no mark is open but a backtick -/
def Unquoted (st : ChainState) : Prop := st.quote = none ∨ st.quote = some '`'

theorem ne_of_isPlainQuote {q x : Char} (hq : isPlainQuote q = true) (hx : isPlainQuote x = false) :
    q ≠ x := by
  rintro rfl
  rw [hq] at hx
  cases hx

theorem isQuoteMark_of_isPlainQuote {q : Char} (hq : isPlainQuote q = true) :
    isQuoteMark q = true := by
  rw [isQuoteMark, ← isPlainQuote.eq_1, hq]
  rfl

theorem Unquoted.next {st : ChainState} {c : Char} (h : st.Unquoted)
    (hc : isPlainQuote c = false) : (st.next c).1.Unquoted := by
  have hmark : isQuoteMark c = true → c = '`' := fun hm => by
    simpa [isQuoteMark, ← isPlainQuote.eq_1, hc] using hm
  unfold ChainState.next
  rcases h with h | h
  · rw [h]
    dsimp only
    repeat' split
    all_goals first | exact Or.inl rfl | exact Or.inr (congrArg some (hmark ‹_›))
  · rw [h]
    dsimp only
    split
    · exact Or.inl rfl
    · exact Or.inr rfl

theorem Unquoted.pass? {st st' : ChainState} (h : st.Unquoted)
    (hc : ∀ c ∈ cs, isPlainQuote c = false) (hst : st.pass? cs = some st') : st'.Unquoted := by
  induction cs generalizing st with
  | nil => exact Option.some.inj hst ▸ h
  | cons c cs ih =>
    rw [ChainState.pass?] at hst
    split at hst
    · cases hst
    · exact ih (h.next (hc c List.mem_cons_self)) (fun x hx => hc x (List.mem_cons_of_mem _ hx)) hst

theorem Unquoted.inside {st : ChainState} {q : Char} (h : st.Unquoted)
    (hq : isPlainQuote q = true) : (st.next q).1.Inside := by
  have hmark := isQuoteMark_of_isPlainQuote hq
  have hslash := ne_of_isPlainQuote hq (x := '/') (by decide)
  have hback := ne_of_isPlainQuote hq (x := '`') (by decide)
  rcases h with h | h
  · by_cases hr : st.regex = true
    · have hregex : (st.next q).1.quote = none ∧ (st.next q).1.regex = true := by
        simp [ChainState.next, h, hr, hslash]
      exact Or.inl hregex
    · exact Or.inr ⟨q, by simp [ChainState.next, h, hr, hslash, hmark], hmark⟩
  · exact Or.inr ⟨'`', by simp [ChainState.next, h, hback], by decide⟩

end ChainState

/-! ## closing parentheses -/

/-- the arguments of a call end before its last parenthesis -/
def Closes (args : List Char) : Prop :=
  ∃ st, opened.pass? args = some st ∧ (st.next ')').1.IsLevel

theorem closed_call_iff {name : List Char} (h : ∀ c ∈ name, Text.isWord c = true) :
    Closed (name ++ '(' :: (args ++ [')'])) ↔ Closes args := by
  rw [Closed, pass?_call h, Closes, pass?_append]
  cases opened.pass? args with
  | none => simp
  | some st => simp [ChainState.pass?, next_snd_of_ne]

/-- The scanner may still be inside the expression, when its body ends with a backslash. -/
theorem pass?_literal (h : IsLiteral lit) :
    ∃ r e, opened.pass? lit = some ⟨1, r, none, e⟩ := by
  obtain ⟨body, flags, rfl, _, hbody, hflags⟩ := h
  have hord : ∀ c ∈ flags, isOrdinary c = true := fun c hc =>
    isOrdinary_of (by decide) (hflags c hc)
  show ∃ r e, (⟨1, true, none, false⟩ : ChainState).pass? (body ++ '/' :: flags) = _
  rw [pass?_append, pass?_regex hbody, Option.bind_some]
  cases endsInSlash false body with
  | false =>
    obtain ⟨e, hf⟩ := pass?_ordinary (d := 1) (e := false) hord
    exact ⟨false, e, hf⟩
  | true =>
    -- the slash is escaped
    show ∃ r e, (⟨1, true, none, false⟩ : ChainState).pass? flags = _
    exact ⟨true, _, pass?_regex fun c hc => (isOrdinary_iff.1 (hord c hc)).1⟩

theorem closes_literal {e : Bool} (h : opened.pass? lit = some ⟨1, false, none, e⟩) :
    Closes lit :=
  ⟨_, h, rfl, rfl, rfl⟩

/-- the scanner has left a literal in front of a parenthesis that closes -/
theorem left_of_closes {gap : List Char} {r e : Bool}
    (hlit : opened.pass? lit = some ⟨1, r, none, e⟩) (hgap : ∀ c ∈ gap, isOrdinary c = true)
    (h : Closes (lit ++ gap)) : r = false := by
  obtain ⟨st, hst, hl⟩ := h
  cases r with
  | false => rfl
  | true =>
    rw [pass?_append, hlit, Option.bind_some,
      pass?_regex fun c hc => (isOrdinary_iff.1 (hgap c hc)).1] at hst
    obtain rfl := Option.some.inj hst
    exact absurd hl (Inside.not_isLevel (Or.inl ⟨rfl, rfl⟩))

section
variable {gap : List Char} {r e : Bool} {q q' : Char} (hgap : ∀ c ∈ gap, isOrdinary c = true)
  (hm : Quotable m) (hq : isPlainQuote q = true) (hq' : isPlainQuote q' = true)
include hgap hm hq hq'

/-- The same with a message.  Its last mark leads inside, whatever the message opens or closes. -/
theorem left_of_closes_message (hlit : opened.pass? lit = some ⟨1, r, none, e⟩)
    (h : Closes (lit ++ (gap ++ q :: (m ++ [q'])))) : r = false := by
  obtain ⟨st, hst, hl⟩ := h
  cases r with
  | false => rfl
  | true =>
    have hdot : isPlainQuote '.' = false := by decide
    rw [pass?_append, hlit, Option.bind_some, pass?_append,
      pass?_regex fun c hc => (isOrdinary_iff.1 (hgap c hc)).1, Option.bind_some,
      pass?_cons (next_snd_of_ne (ne_of_isPlainQuote hq hdot)), pass?_append] at hst
    obtain ⟨st', hst', hst⟩ := Option.bind_eq_some_iff.1 hst
    rw [pass?_cons (next_snd_of_ne (ne_of_isPlainQuote hq' hdot))] at hst
    have hopen : Unquoted st' := by
      refine Unquoted.pass? (Or.inl ?_) hm.2 hst'
      simp [next, ne_of_isPlainQuote hq (x := '/') (by decide)]
    exact absurd hl (Option.some.inj hst ▸ (hopen.inside hq').not_isLevel)

theorem pass?_message : (⟨1, false, none, e⟩ : ChainState).pass? (gap ++ q :: (m ++ [q'])) =
    some ((⟨1, false, some q, endsInSlash false m⟩ : ChainState).next q').1 := by
  obtain ⟨e', he⟩ := pass?_ordinary (d := 1) (e := e) hgap
  have hdot : isPlainQuote '.' = false := by decide
  have hopen : (⟨1, false, none, e'⟩ : ChainState).next q = (⟨1, false, some q, false⟩, false) := by
    simp [next, ne_of_isPlainQuote hq (x := '/') (by decide), isQuoteMark_of_isPlainQuote hq,
      ne_of_isPlainQuote hq (x := '\\') (by decide)]
  rw [pass?_append, he, Option.bind_some, pass?_cons (congrArg Prod.snd hopen), hopen, pass?_append,
    pass?_quoted fun c hc => (ne_of_isPlainQuote hq (hm.2 c hc)).symm, Option.bind_some,
    pass?_cons (next_snd_of_ne (ne_of_isPlainQuote hq' hdot))]
  rfl

theorem endsInSlash_of_closes (hlit : opened.pass? lit = some ⟨1, false, none, e⟩)
    (h : Closes (lit ++ (gap ++ q :: (m ++ [q'])))) : endsInSlash false m = false := by
  obtain ⟨st, hst, hl⟩ := h
  rw [pass?_append, hlit, Option.bind_some, pass?_message hgap hm hq hq'] at hst
  rw [← Option.some.inj hst] at hl
  by_contra he
  refine absurd hl (Inside.not_isLevel (Or.inr ⟨q, ?_, isQuoteMark_of_isPlainQuote hq⟩))
  simp [next, he]

end

theorem closes_message {e : Bool} (hlit : opened.pass? lit = some ⟨1, false, none, e⟩)
    (hm : Quotable m) (he : endsInSlash false m = false) :
    Closes (written lit (some m)) := by
  have hgap : ∀ c ∈ ", ".toList, isOrdinary c = true := List.all_eq_true.1 (by decide)
  have hq : isPlainQuote '"' = true := by decide
  have hst := pass?_message (e := e) hgap hm hq hq
  rw [he] at hst
  exact ⟨_, by rw [written, pass?_append, hlit, Option.bind_some, hst], rfl, rfl, rfl⟩

section
variable (h : regexArgs? args = some (lit, msg)) (hn : '\n' ∉ args)
include h hn

theorem regexArgs?_written : regexArgs? (written lit msg) = some (lit, msg) := by
  obtain ⟨hlit, _, _, ⟨rfl, _⟩ | ⟨m, _, _, rfl, hm, _⟩⟩ := exists_of_regexArgs? h hn
  · exact regexArgs?_literal hlit
  · exact regexArgs?_message hlit hm

theorem mem_of_mem_written {c : Char} (hc : c ∈ written lit msg) :
    c ∈ args ∨ c ∈ ", \"".toList := by
  obtain ⟨_, gap, _, ⟨rfl, rfl⟩ | ⟨m, q, q', rfl, _, _, _, rfl⟩⟩ := exists_of_regexArgs? h hn
  · exact Or.inl (List.mem_append_left _ hc)
  · have hmark : '"' ∈ ", \"".toList := by decide
    have hcomma : ", ".toList ⊆ ", \"".toList := by decide
    simp only [written, List.mem_append, List.mem_cons, List.not_mem_nil, or_false] at hc ⊢
    rcases hc with hc | hc | rfl | hc | rfl
    · exact Or.inl (Or.inl hc)
    · exact Or.inr (hcomma hc)
    · exact Or.inr hmark
    · exact Or.inl (Or.inr (Or.inr (Or.inr (Or.inl hc))))
    · exact Or.inr hmark

theorem Closes.written (hc : Closes args) : Closes (written lit msg) := by
  obtain ⟨hlit, gap, hgap, hargs⟩ := exists_of_regexArgs? h hn
  obtain ⟨r, e, hst⟩ := pass?_literal hlit
  rcases hargs with ⟨rfl, rfl⟩ | ⟨m, q, q', rfl, hm, hq, hq', rfl⟩
  · obtain rfl := left_of_closes hst hgap hc
    exact closes_literal hst
  · obtain rfl := left_of_closes_message hgap hm hq hq' hst hc
    exact closes_message hst hm (endsInSlash_of_closes hgap hm hq hq' hst hc)

end

/-! ## the arguments of a validator -/

/-- the arguments of a call as its validator has them -/
def memberArgs (name : String) (args : List Char) : List Char :=
  if !hasBraces (String.ofList args) && name = "regex" then
    match regexArgs? args with
    | some (lit, msg) => written lit msg
    | none => args
  else args

theorem callMember_eq (name : String) (args : Option String) :
    callMember name args =
      call name (String.ofList (memberArgs name (args.getD "").toList)) := by
  unfold callMember memberArgs
  dsimp only
  rw [String.ofList_toList]
  by_cases hb : hasBraces (args.getD "") = true
  · rw [if_pos hb, if_neg (by simp [hb]), String.ofList_toList]
  rw [if_neg hb]
  by_cases hr : name = "regex"
  · rw [if_pos hr, if_pos (by simp [hb, hr])]
    split
    · next lit m hlit =>
      have he : String.ofList lit ++ ", \"" ++ String.ofList m ++ "\"" =
          String.ofList (written lit (some m)) := by
        apply String.toList_injective
        simp [written]
      rw [hlit, he]
    · next lit hlit =>
      rw [hlit]
      rfl
    · next hlit => rw [hlit, String.ofList_toList]
  · rw [if_neg hr, if_neg (by simp [hr]), String.ofList_toList]

/-- only a regular expression is written anew -/
theorem memberArgs_cases (name : String) (args : List Char) :
    memberArgs name args = args ∨
      name = "regex" ∧ hasBraces (String.ofList args) = false ∧
        ∃ lit msg, regexArgs? args = some (lit, msg) ∧ memberArgs name args = written lit msg := by
  unfold memberArgs
  split
  · next h =>
    simp only [Bool.and_eq_true, Bool.not_eq_true', decide_eq_true_eq] at h
    split
    · next lit msg hlit => exact Or.inr ⟨h.2, h.1, lit, msg, hlit, rfl⟩
    · exact Or.inl rfl
  · exact Or.inl rfl

theorem hasBraces_mono {as bs : List Char}
    (h : ∀ c ∈ as, c ∈ bs ∨ c ∈ ", \"".toList)
    (hb : hasBraces (String.ofList bs) = false) : hasBraces (String.ofList as) = false := by
  rw [hasBraces, String.toList_ofList] at hb ⊢
  rw [Bool.eq_false_iff] at hb ⊢
  simp only [ne_eq, Bool.and_eq_true, List.contains_iff_mem] at hb ⊢
  rintro ⟨h1, h2⟩
  exact hb ⟨(h _ h1).resolve_right (by decide), (h _ h2).resolve_right (by decide)⟩

/-- writing anew changes nothing the second time -/
theorem memberArgs_memberArgs (hn : '\n' ∉ args) :
    memberArgs name (memberArgs name args) = memberArgs name args := by
  rcases memberArgs_cases name args with h | ⟨hr, hb, lit, msg, hlit, h⟩
  · rw [h, h]
  · have hb' : hasBraces (String.ofList (written lit msg)) = false :=
      hasBraces_mono (fun c hc => mem_of_mem_written hlit hn hc) hb
    rw [h, memberArgs, if_pos (by simp [hb', hr]), regexArgs?_written hlit hn]

theorem line_memberArgs (hn : '\n' ∉ args) : '\n' ∉ memberArgs name args := by
  rcases memberArgs_cases name args with h | ⟨_, _, lit, msg, hlit, h⟩
  · rwa [h]
  · rw [h]
    exact fun hx => (mem_of_mem_written hlit hn hx).elim hn (by decide)

theorem Closes.memberArgs (hc : Closes args) (hn : '\n' ∉ args) :
    Closes (memberArgs name args) := by
  rcases memberArgs_cases name args with h | ⟨_, _, lit, msg, hlit, h⟩
  · rwa [h]
  · rw [h]
    exact hc.written hlit hn

/-! ## stable parts -/

/-- a closed part of one line that is read as a named segment and stands for itself -/
structure Stable (w : List Char) : Prop where
  closed : Closed w
  line : '\n' ∉ w
  named : ∃ raw name args, Segment.read w = .named raw name args
  validator : (Segment.read w).validator? = some ("." ++ String.ofList w)

theorem stable_call (hne : name.toList ≠ []) (hw : ∀ c ∈ name.toList, Text.isWord c = true)
    (hb : name ≠ "brand") (hd : name ≠ "describe") (hn : '\n' ∉ args) (hc : Closes args) :
    ∃ w, callMember name (some (String.ofList args)) = "." ++ String.ofList w ∧ Stable w := by
  have hread := read_call hne hw (memberArgs name args)
  rw [String.ofList_toList] at hread
  have hv : callMember name (some (String.ofList args)) =
      "." ++ String.ofList (name.toList ++ '(' :: (memberArgs name args ++ [')'])) := by
    rw [callMember_eq, Option.getD_some, String.toList_ofList]
    apply String.toList_injective
    simp [call]
  refine ⟨_, hv, (closed_call_iff hw).2 (hc.memberArgs hn), ?_, ⟨_, _, _, hread⟩, ?_⟩
  · simp only [List.mem_append, List.mem_cons, List.not_mem_nil, or_false, not_or]
    refine ⟨fun hx => ?_, by decide, line_memberArgs hn, by decide⟩
    exact absurd (hw _ hx) (by decide)
  · rw [hread, Segment.validator?, if_neg hb, if_neg hd, ← hv, callMember_eq, callMember_eq,
      Option.getD_some, Option.getD_some, String.toList_ofList, String.toList_ofList,
      memberArgs_memberArgs hn]

theorem stable_of_validator? {p : List Char} {raw v : String} {as : Option String} (hp : Closed p)
    (hn : '\n' ∉ p) (hs : Segment.read p = .named raw name as)
    (hv : (Segment.read p).validator? = some v) :
    ∃ w, v = "." ++ String.ofList w ∧ Stable w := by
  obtain ⟨rfl, hne, hw, hshape⟩ := shape_of_read hs hn
  -- a brand or a description that is none stays as it is
  have hself : v = "." ++ String.ofList p → ∃ w, v = "." ++ String.ofList w ∧ Stable w := fun he =>
    ⟨p, he, hp, hn, ⟨_, _, _, hs⟩, by rw [hv, he]⟩
  rw [hs, Segment.validator?] at hv
  split at hv
  · split at hv
    · cases hv
    · exact hself (Option.some.inj hv).symm
  next hb =>
  split at hv
  · split at hv
    · cases hv
    · exact hself (Option.some.inj hv).symm
  next hd =>
  obtain rfl := Option.some.inj hv
  rcases hshape with ⟨rfl, _⟩ | ⟨args, rfl, rfl⟩
  · -- a bare name is called without arguments
    have hnil : Closes [] := ⟨opened, rfl, rfl, rfl, rfl⟩
    have hcall := stable_call hne hw hb hd List.not_mem_nil hnil
    exact hcall
  · refine stable_call hne hw hb hd (fun hx => hn ?_) ((closed_call_iff hw).1 hp)
    exact List.mem_append_right _ (List.mem_cons_of_mem _ (List.mem_append_left _ hx))

end ZodSchema.Annotations
