import ZodSchema.Run.Basic

/-!
# The source of a data model

A run notes the path of the schema file in the document, which changes nothing else of what is read.

* `get?_put_of_ne`       a note changes no other entry
* `datamodelOf_source`   a data model with and without its source
* `readInput_withSource` data model and settings with and without the note
-/

namespace ZodSchema

namespace Value

theorem get?_put_of_ne {name other : String} (h : name ≠ other) (v : Value) (es : Entries) :
    get? name (put (.text other) v es) = get? name es := by
  rw [get?_put, if_neg h]

theorem get?_append (name : String) (xs ys : Entries) :
    get? name (xs ++ ys) = (get? name xs).or (get? name ys) := by
  induction xs with
  | nil => rfl
  | cons e xs ih =>
    obtain ⟨k, w⟩ := e
    cases k with
    | text k =>
      by_cases h : k = name
      · simp [get?, h]
      · simp [get?, h, ih]
    | _ => simpa [get?] using ih

end Value

namespace Contract

variable {es es' : Value.Entries} {name : String} {α : Type} {rule : Value → Check α}

theorem may_congr (h : Value.get? name es = Value.get? name es') (dflt : α) :
    may es name dflt rule = may es' name dflt rule := by
  unfold may
  rw [h]

theorem need_congr (h : Value.get? name es = Value.get? name es') :
    need es name rule = need es' name rule := by
  unfold need
  rw [h]

theorem extras_append (known : List String) (xs ys : Value.Entries) :
    extras known (xs ++ ys) = extras known xs ++ extras known ys := by
  induction xs with
  | nil => rfl
  | cons e xs ih =>
    obtain ⟨k, w⟩ := e
    cases k with
    | text k =>
      simp only [List.cons_append, extras, ih]
      split <;> rfl
    | _ => simp [extras, ih]

/-- the source of a data model is a part by itself -/
theorem datamodelOf_source (source : String) (h : Value.get? "source_file" es = none) :
    datamodelOf (.map (es ++ [(.text "source_file", .text source)])) =
      (datamodelOf (.map es)).map fun d => { d with sourceFile := some source } := by
  have hget : ∀ name, name ≠ "source_file" →
      Value.get? name (es ++ [(.text "source_file", .text source)]) = Value.get? name es := by
    intro name hn
    rw [Value.get?_append]
    simp [Value.get?, Ne.symm hn]
  have hs : Value.get? "source_file" (es ++ [(.text "source_file", .text source)]) =
      some (.text source) := by
    rw [Value.get?_append, h]
    rfl
  have ht : text? (.text source) = .ok (some source) := by
    simp [text?, text, spelled, Check.map]
  have hnew : may (es ++ [(.text "source_file", .text source)]) "source_file" none text? =
      .ok (some source) := by
    unfold may
    rw [hs]
    show (text? (.text source)).under _ = _
    rw [ht]
    rfl
  have hold : may es "source_file" none text? = .ok none := by
    unfold may
    rw [h]
  have hextras : extras ["provider", "models", "enums", "source_file"]
      (es ++ [(.text "source_file", .text source)]) =
        extras ["provider", "models", "enums", "source_file"] es := by
    rw [extras_append]
    exact List.append_nil _
  have hany : List.any (es ++ [(Value.text "source_file", Value.text source)])
      (fun e => isUnreadable e.1) = es.any fun e => isUnreadable e.1 := by
    rw [List.any_append]
    exact Bool.or_false _
  unfold datamodelOf record
  dsimp only
  rw [hany]
  split
  · rfl
  rw [hnew, hold, hextras, may_congr (hget "provider" (by decide)),
    need_congr (hget "models" (by decide)), may_congr (hget "enums" (by decide))]
  cases may es "provider" _ providerOf <;> cases need es "models" (someOf modelOf) <;>
    cases may es "enums" _ (listOf enumOf) <;> cases extras _ es <;> rfl

end Contract

namespace Generation

open Contract

variable {raw : Document} {source : String}

/-- the same outcome, up to the source of the data model -/
def SameInput : Except InputError (Datamodel × Config) → Except InputError (Datamodel × Config) →
    Prop
  | .ok (d, c), .ok (d', c') => (∃ source, d' = { d with sourceFile := source }) ∧ c' = c
  | .error _, .error _ => True
  | _, _ => False

theorem SameInput.refl (x : Except InputError (Datamodel × Config)) : SameInput x x := by
  cases x with
  | error e => trivial
  | ok x => exact ⟨⟨x.1.sourceFile, rfl⟩, rfl⟩

section
variable (hs : Value.get? "source_file" raw = none)

/-- the body of a document with a note, in terms of the one without -/
theorem body?_put (raw : Document) (source : String) :
    (body? (Value.put (.text "source_file") (.text source) raw) = none ∧ body? raw = none) ∨
      ∃ b b', body? (Value.put (.text "source_file") (.text source) raw) = some b' ∧
        body? raw = some b ∧ ∀ name, name ≠ "source_file" → Value.get? name b' = Value.get? name b := by
  unfold body?
  rw [Value.get?_put_of_ne (by decide)]
  cases Value.get? "datamodel" raw with
  | none => exact Or.inr ⟨_, _, rfl, rfl, fun name hn => Value.get?_put_of_ne hn _ _⟩
  | some v =>
    cases v with
    | map es => exact Or.inr ⟨es, es, rfl, rfl, fun _ _ => rfl⟩
    | _ => exact Or.inl ⟨rfl, rfl⟩

theorem configKey_mem (raw : Document) : configKey raw ∈ configKeys := by
  unfold configKey
  cases hf : configKeys.find? fun k => (Value.get? k raw).isSome with
  | none => decide
  | some k => exact List.mem_of_find?_eq_some hf

theorem configKey_congr {raw raw' : Document}
    (h : ∀ k ∈ configKeys, Value.get? k raw' = Value.get? k raw) :
    configKey raw' = configKey raw := by
  unfold configKey configKeys
  simp only [List.find?_cons, List.find?_nil, h "config" (by decide),
    h "generator_config" (by decide)]

theorem configValue_put (raw : Document) (source : String) :
    configValue (Value.put (.text "source_file") (.text source) raw) = configValue raw := by
  have hget : ∀ k ∈ configKeys, Value.get? k (Value.put (.text "source_file") (.text source) raw) =
      Value.get? k raw := by
    intro k hk
    refine Value.get?_put_of_ne ?_ _ _
    rintro rfl
    revert hk
    decide
  unfold configValue
  rw [configKey_congr hget, hget _ (configKey_mem raw)]

include hs

theorem datamodelEntries_put {b b' : Document} (models : Value) (hne : source ≠ "")
    (hb : ∀ name, name ≠ "source_file" → Value.get? name b' = Value.get? name b) :
    datamodelEntries (Value.put (.text "source_file") (.text source) raw) b' models =
      datamodelEntries raw b models ++ [(.text "source_file", .text source)] := by
  have hp : providerValue? b' = providerValue? b := by
    unfold providerValue?
    rw [hb "provider" (by decide), hb "datasource" (by decide)]
  unfold datamodelEntries
  rw [hp, hb "enums" (by decide), Value.get?_put_self, hs]
  simp [isPresent, hne]

theorem get?_datamodelEntries (b : Document) (models : Value) :
    Value.get? "source_file" (datamodelEntries raw b models) = none := by
  unfold datamodelEntries
  rw [hs]
  cases providerValue? b <;> simp [Value.get?]

theorem readInput_put (hne : source ≠ "") :
    SameInput (readInput raw)
      (readInput (Value.put (.text "source_file") (.text source) raw)) := by
  unfold readInput
  rw [configValue_put]
  rcases body?_put raw source with ⟨h', h⟩ | ⟨b, b', h', h, hb⟩
  · rw [h, h']
    trivial
  · rw [h, h']
    dsimp only
    rw [hb "models" (by decide)]
    cases Value.get? "models" b with
    | none => trivial
    | some models =>
      dsimp only
      rw [datamodelEntries_put hs models hne hb,
        datamodelOf_source source (get?_datamodelEntries hs b models)]
      cases datamodelOf (.map (datamodelEntries raw b models)) with
      | bad is => trivial
      | ok d =>
        cases configOf (configValue raw) with
        | bad is => trivial
        | ok c => exact ⟨⟨_, rfl⟩, rfl⟩

end

/-- the path of the schema file counts for nothing but itself -/
theorem readInput_withSource (path : Text.Parts) (raw : Document) :
    SameInput (readInput raw) (readInput (Run.withSource path raw)) := by
  unfold Run.withSource
  split
  · exact SameInput.refl _
  · next hn =>
    refine readInput_put (by simpa using hn) fun he => ?_
    have hl := congrArg String.toList he
    rw [Text.Path.text, String.toList_append] at hl
    cases (List.append_eq_nil_iff.1 hl).1

end Generation

end ZodSchema
