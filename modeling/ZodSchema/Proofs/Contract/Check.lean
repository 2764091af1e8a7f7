import ZodSchema.Contract.Config
import ZodSchema.Contract.Datamodel

/-!
# Accepted values

What is known of a value that its rule accepts.

* `Check.Holds`              a fact about the value, when there is one
* `Check.holds_seq`          a fact about a record from one about a part of it
* `int_holds`                an integer is within its bounds
* `provider_of_datamodelOf`  the provider of a data model
* `pageSize_of_configOf`     the page size of settings
* `encodedDirs_of_configOf`  their directories have an encoding
-/

namespace ZodSchema.Contract

namespace Check

variable {α β : Type} {P : β → Prop} {Q : α → Prop}

/-- the fact is true of the checked value, when there is one -/
def Holds (P : α → Prop) (x : Check α) : Prop := ∀ a, x = .ok a → P a

/-- the record has the fact from the part that is checked last -/
theorem holds_seq {f : Check (α → β)} {x : Check α} (hx : x.Holds Q)
    (hf : f.Holds fun g => ∀ a, Q a → P (g a)) : Holds P (f <*> x) := by
  intro b hb
  have hs : Check.seq f x = .ok b := hb
  cases f with
  | bad is => cases x <;> cases hs
  | ok g =>
    cases x with
    | bad is => cases hs
    | ok a =>
      cases hs
      exact hf g rfl a (hx a rfl)

/-- the record has the fact whatever the part that is checked last -/
theorem holds_left {f : Check (α → β)} {x : Check α} (hf : f.Holds fun g => ∀ a, P (g a)) :
    Holds P (f <*> x) :=
  holds_seq (Q := fun _ => True) (fun _ _ => trivial) fun g hg a _ => hf g hg a

theorem holds_map {f : α → β} {x : Check α} (hx : x.Holds Q) (hf : ∀ a, Q a → P (f a)) :
    Holds P (f <$> x) := by
  intro b hb
  have hm : Check.map f x = .ok b := hb
  cases x with
  | bad is => cases hm
  | ok a =>
    cases hm
    exact hf a (hx a rfl)

theorem holds_under {s : Step} {x : Check α} (hx : x.Holds Q) : (x.under s).Holds Q := by
  intro a ha
  cases x with
  | bad is => cases ha
  | ok b =>
    cases ha
    exact hx a rfl

theorem holds_andThen {x : Check α} {f : α → Check β} (hx : x.Holds Q)
    (hf : ∀ a, Q a → (f a).Holds P) : (x.andThen f).Holds P := by
  intro b hb
  cases x with
  | bad is => cases hb
  | ok a => exact hf a (hx a rfl) b hb

end Check

section
variable {α : Type} {P : α → Prop} {es : Value.Entries} {name : String} {v : Value}

theorem record_holds {known : List String} {build : Value.Entries → Check α}
    (h : ∀ es, v = .map es → (build es).Holds P) : (record name known build v).Holds P := by
  intro a ha
  cases v with
  | map es =>
    unfold record at ha
    dsimp only at ha
    split at ha
    · cases ha
    split at ha
    · next hb _ =>
      cases ha
      exact h es rfl a hb
    · cases ha
    · cases ha
  | _ => cases ha

/-- an entry has the fact when its default has it, and its rule gives it -/
theorem may_holds {dflt : α} {rule : Value → Check α} (hd : P dflt)
    (hr : ∀ v, Value.get? name es = some v → (rule v).Holds P) :
    (may es name dflt rule).Holds P := by
  unfold may
  split
  · next v hv => exact Check.holds_under (hr v hv)
  · rintro _ ⟨⟩
    exact hd

theorem int_holds (least most : Int) (v : Value) :
    (int least most v).Holds fun i => least ≤ i ∧ i ≤ most := by
  refine Check.holds_andThen (Q := fun _ => True) (fun _ _ => trivial) fun i _ j hj => ?_
  split at hj
  · cases hj
  · split at hj
    · cases hj
    · cases hj
      omega

theorem encoded_holds {rule : Check α} {s : String} (h : rule.Holds P) :
    (encoded s rule).Holds P := by
  intro a ha
  unfold encoded at ha
  split at ha
  · cases ha
  · exact h a ha

/-- an accepted text of which a least number of characters is asked has an encoding -/
theorem text_holds (least : Nat) (v : Value) :
    (text (least + 1) v).Holds fun s => Text.Str.lone? s = none := by
  intro s hs
  unfold text encoded at hs
  split at hs
  · next t _ =>
    rw [if_neg (Nat.succ_ne_zero least)] at hs
    split at hs
    · cases hs
    · next hl =>
      have he : Text.Str.lone? t = none := by simpa using hl
      split at hs
      · cases hs
      · cases hs
        exact he
  · cases hs
  · cases hs

/-- an accepted member is the one that is named -/
theorem stated_holds (all : List α) (name : α → String) (s : String) :
    (stated all name (.text s)).Holds fun a => name a.value = s := by
  refine Check.holds_map (Q := fun a => name a = s) (fun a ha => ?_) fun a h => h
  unfold member spelled at ha
  dsimp only at ha
  refine encoded_holds (P := fun a => name a = s) (fun b hb => ?_) a ha
  split at hb
  · next c hc =>
    cases hb
    simpa using List.find?_some hc
  · cases hb

end

/-! ## data models and settings -/

/-- the provider that a document names -/
theorem provider_of_datamodelOf {es : Value.Entries} {s : String} {d : Datamodel}
    (hp : Value.get? "provider" es = some (.text s)) (h : datamodelOf (.map es) = .ok d) :
    d.provider.value.name = s := by
  have hrule : (may es "provider" ⟨.postgresql, false⟩ providerOf).Holds
      fun p => p.value.name = s := by
    unfold may
    rw [hp]
    exact Check.holds_under (stated_holds _ _ s)
  refine record_holds (P := fun d : Datamodel => d.provider.value.name = s) (fun es' he => ?_) d h
  cases he
  iterate 3 refine Check.holds_left ?_
  exact Check.holds_map hrule fun p hp _ _ _ => hp

theorem pageSize_holds (v : Value) :
    (crudConfigOf v).Holds fun c => 1 ≤ c.maxPageSize ∧ c.maxPageSize ≤ 10000 := by
  refine record_holds fun es _ => ?_
  iterate 2 refine Check.holds_left ?_
  refine Check.holds_seq (may_holds (by decide) fun w _ => int_holds 1 10000 w) ?_
  iterate 3 refine Check.holds_left ?_
  exact Check.holds_map (Q := fun _ => True) (fun _ _ => trivial) fun _ _ _ _ _ n hn _ _ => hn

theorem agreed_holds {P : Config → Prop} {x : Check Config} (hx : x.Holds P) :
    (x.andThen agreed).Holds P := by
  refine Check.holds_andThen hx fun c hc c' hc' => ?_
  unfold agreed at hc'
  split at hc'
  · cases hc'
  · cases hc'
    exact hc

/-- the page size of accepted settings, stated or by default -/
theorem pageSize_of_configOf {v : Value} {c : Config} (h : configOf v = .ok c) :
    1 ≤ c.crud.maxPageSize ∧ c.crud.maxPageSize ≤ 10000 := by
  let P (c : Config) : Prop := 1 ≤ c.crud.maxPageSize ∧ c.crud.maxPageSize ≤ 10000
  refine agreed_holds (P := P) (record_holds fun es _ => ?_) c h
  iterate 2 refine Check.holds_left ?_
  refine Check.holds_seq (may_holds (by decide) fun w _ => pageSize_holds w) ?_
  iterate 10 refine Check.holds_left ?_
  refine Check.holds_map (Q := fun _ => True) (fun _ _ => trivial) ?_
  exact fun _ _ _ _ _ _ _ _ _ _ _ _ crud hcrud _ _ => hcrud

theorem encodedDir_holds (v : Value) :
    (crudConfigOf v).Holds fun c => Text.Str.lone? c.outputDir = none := by
  refine record_holds fun es _ => ?_
  iterate 6 refine Check.holds_left ?_
  exact Check.holds_map (may_holds (by decide +kernel) fun w _ => text_holds 0 w)
    fun _ hd _ _ _ _ _ _ => hd

/-- the directories of accepted settings have an encoding -/
theorem encodedDirs_of_configOf {v : Value} {c : Config} (h : configOf v = .ok c) :
    ∀ a ∈ c.familyDirs, Text.Str.lone? a.2 = none := by
  let P (c : Config) : Prop := Text.Str.lone? c.schemasDir = none ∧
    Text.Str.lone? c.brandsDir = none ∧ Text.Str.lone? c.layersDir = none ∧
      Text.Str.lone? c.crud.outputDir = none
  have hP : P c := by
    refine agreed_holds (P := P) (record_holds fun es _ => ?_) c h
    iterate 2 refine Check.holds_left ?_
    refine Check.holds_seq (may_holds (by decide +kernel) fun w _ => encodedDir_holds w) ?_
    refine Check.holds_left ?_
    refine Check.holds_seq (may_holds (by decide +kernel) fun w _ => text_holds 0 w) ?_
    iterate 2 refine Check.holds_left ?_
    refine Check.holds_seq (may_holds (by decide +kernel) fun w _ => text_holds 0 w) ?_
    iterate 3 refine Check.holds_left ?_
    refine Check.holds_seq (may_holds (by decide +kernel) fun w _ => text_holds 0 w) ?_
    refine Check.holds_left ?_
    refine Check.holds_map (Q := fun _ => True) (fun _ _ => trivial) ?_
    exact fun _ _ _ s hs _ _ _ b hb _ _ l hl _ crud hc _ _ => ⟨hs, hb, hl, hc⟩
  obtain ⟨hs, hb, hl, hc⟩ := hP
  intro a ha
  simp only [Config.familyDirs, List.mem_append, List.mem_ite_nil_right, List.mem_singleton] at ha
  rcases ha with ((⟨-, rfl⟩ | ⟨-, rfl⟩) | ⟨-, rfl⟩) | ⟨-, rfl⟩
  · exact hs
  · exact hb
  · exact hl
  · exact hc

end ZodSchema.Contract
