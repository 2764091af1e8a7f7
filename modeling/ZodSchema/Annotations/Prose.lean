import ZodSchema.Annotations.Directive

/-!
# Prose around the directives

* `firstRule?`  the text before the first rule, and the text from its parenthesis on
* `cutRules`    a line without its rules; every round shortens the line
* `prose`       the documentation lines that remain without directives
-/

namespace ZodSchema.Annotations

/-- the text before the first rule of a line, and the text from its parenthesis on -/
def firstRule? : List Char → Option (List Char × List Char)
  | [] => none
  | c :: cs =>
    match ruleAt? (c :: cs) with
    | some (_, rest) => some ([], rest)
    | none => (firstRule? cs).map fun r => (c :: r.1, r.2)

theorem ruleAt?_length {cs key rest : List Char} (h : ruleAt? cs = some (key, rest)) :
    rest.length + 7 ≤ cs.length := by
  unfold ruleAt? at h
  split at h
  · next c t ht =>
    have hl := congrArg List.length (Text.dropStart?_eq_some_iff.1 ht)
    split at h
    · next tail hc ht' =>
      obtain ⟨_, rfl⟩ := Prod.mk.inj (Option.some.inj h)
      have hd : (t.dropWhile isKeyRest).length ≤ t.length :=
        (List.dropWhile_suffix isKeyRest).length_le
      simp only [List.length_append, List.length_cons, ruleMark] at hl
      rw [ht'] at hd
      have h6 : ("@crud.".toList).length = 6 := rfl
      omega
    · simp at h
  · simp at h

theorem firstRule?_length {cs before rest : List Char} (h : firstRule? cs = some (before, rest)) :
    before.length + rest.length + 7 ≤ cs.length := by
  induction cs generalizing before rest with
  | nil => simp [firstRule?] at h
  | cons c cs ih =>
    simp only [firstRule?] at h
    split at h
    · next key r hr =>
      obtain ⟨rfl, rfl⟩ := Prod.mk.inj (Option.some.inj h)
      simpa using ruleAt?_length hr
    · obtain ⟨⟨b, r⟩, hbr, he⟩ := Option.map_eq_some_iff.1 h
      obtain ⟨rfl, rfl⟩ := Prod.mk.inj he
      have := ih hbr
      simp only [List.length_cons]
      omega

theorem trimRight_length (cs : List Char) : (Text.trimRight cs).length ≤ cs.length := by
  have := (List.dropWhile_suffix (l := cs.reverse) Text.isBlank).length_le
  simpa [Text.trimRight] using this

theorem trimLeft_length (cs : List Char) : (Text.trimLeft cs).length ≤ cs.length :=
  (List.dropWhile_suffix Text.isBlank).length_le

/-- a line without its rules, the text around each joined by one space; a rule that never closes
takes the rest of the line with it -/
def cutRules (line : List Char) : List Char :=
  match _h : firstRule? line with
  | none => line
  | some (before, rest) =>
    match _h' : enclosed? rest with
    | none => before
    | some (_, after) => cutRules (Text.trimRight before ++ ' ' :: Text.trimLeft after)
termination_by line.length
decreasing_by
  have h1 := firstRule?_length _h
  have h2 := enclosed?_length _h'
  have h3 := trimRight_length before
  have h4 := trimLeft_length after
  simp only [List.length_append, List.length_cons]
  omega

def chainMark : List Char := "@zod.".toList

/-- a line without its rules, and without the chain that runs to its end -/
def cutDirectives (line : List Char) : List Char :=
  let line := cutRules line
  Text.trim ((Text.breakOn? chainMark line).elim line Prod.fst)

/-- a documentation line without blanks and slashes in front -/
def bareLine (line : List Char) : List Char :=
  let line := Text.trim line
  match Text.dropStart? "///".toList line with
  | some rest => Text.trim rest
  | none => line

/-- documentation without its type directive -/
def withoutType (doc : List Char) : List Char :=
  match typeParts? doc with
  | some (before, inner, after) => if Text.trim inner = [] then doc else before ++ after
  | none => doc

/-- the documentation lines that are not empty once their directives are cut -/
def prose (doc : String) : List String :=
  let lines := (Text.splitLines (withoutType doc.toList)).map (cutDirectives ∘ bareLine)
  (lines.filter (· ≠ [])).map String.ofList

end ZodSchema.Annotations
