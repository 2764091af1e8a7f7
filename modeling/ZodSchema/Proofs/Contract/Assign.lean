import Mathlib.Data.List.Induction
import ZodSchema.Contract.Assign
import ZodSchema.Proofs.Contract.Config

/-!
# Sequences of assignments

A value that is assigned to a setting is refused by the rule of its attribute, or is stored and
then contradicts the other settings, or is accepted.  A contradiction is reported, but the value
stays.

* `Outcome`            what becomes of settings, told by the issues
* `outcome_assign`     one assignment
* `coherent_after_iff` a sequence of assignments leaves settings as its last stored value does
* `steady_iff`         the sequences without an effect of refused values
* `clash_stays`        a refused directory that stays
-/

namespace ZodSchema

namespace Config

open Contract (Check Issue)

/-- the value of an attribute -/
inductive Setting where
  | flag (b : Bool)
  | text (s : String)
  | crud (c : CrudConfig)

/-- the attribute of a name -/
def attribute? (c : Config) : String → Option Setting
  | "camel_case" => some (.flag c.camelCase)
  | "generate_zod_schemas" => some (.flag c.zodSchemas)
  | "zod_schemas_dir" => some (.text c.schemasDir)
  | "enum_file_name" => some (.text c.enumFileName)
  | "use_default_validators" => some (.flag c.defaultValidators)
  | "generate_brand_registry" => some (.flag c.brandRegistry)
  | "brands_dir" => some (.text c.brandsDir)
  | "strict_brands" => some (.flag c.strictBrands)
  | "generate_three_layers" => some (.flag c.threeLayers)
  | "layers_dir" => some (.text c.layersDir)
  | "generate_crud_schemas" => some (.flag c.crudSchemas)
  | "crud" => some (.crud c.crud)
  | "write_manifest" => some (.flag c.writeManifest)
  | "concurrent_writes" => some (.flag c.concurrentWrites)
  | _ => none

/-- the issues of a change concern no single attribute -/
def isStored (r : Change Config) : Bool := r.issues.all fun i => i.loc == []

/-- what becomes of settings when a value is assigned to an attribute -/
inductive Outcome (c : Config) (attr : String) (r : Change Config) : Prop where
  /-- the value is not stored -/
  | refused (state : r.state = c) (issues : r.issues ≠ [])
      (loc : ∀ i ∈ r.issues, i.loc.head? = some (.key attr))
  /-- the value is stored, and what the settings say together is the only issue -/
  | contradicted (t : String) (objection : r.state.objection? = some t)
      (issues : r.issues = [⟨[], .rejected t⟩])
      (others : ∀ k ≠ attr, r.state.attribute? k = c.attribute? k)
  | accepted (issues : r.issues = []) (coherent : Coherent r.state)
      (others : ∀ k ≠ attr, r.state.attribute? k = c.attribute? k)

section
variable {c : Config} {attr : String} {v : Value}

/-! ## one assignment -/

/-- every attribute is stored in the same way -/
theorem outcome_put {β : Type} (v : Value) (rule : Value → Check β) (set : β → Config)
    (hset : ∀ b, ∀ k ≠ attr, (set b).attribute? k = c.attribute? k) :
    Outcome c attr
      (match (Change.store c attr v rule set).issues,
          (Change.store c attr v rule set).state.objection? with
        | [], some t => ⟨(Change.store c attr v rule set).state, [⟨[], .rejected t⟩]⟩
        | _, _ => Change.store c attr v rule set) := by
  have hothers : ∀ k ≠ attr,
      (Change.store c attr v rule set).state.attribute? k = c.attribute? k := by
    intro k hk
    unfold Change.store
    split
    · exact hset _ k hk
    · rfl
  split
  · next t _ ho => exact .contradicted t ho rfl hothers
  · next hne =>
    by_cases hi : (Change.store c attr v rule set).issues = []
    · refine .accepted hi (objection?_eq_none_iff.1 ?_) hothers
      exact Option.eq_none_iff_forall_ne_some.2 fun t ht => hne t hi ht
    · obtain ⟨is, he⟩ : ∃ is : List Issue,
          Change.store c attr v rule set = ⟨c, is.map (Issue.under (.key attr))⟩ := by
        unfold Change.store at hi ⊢
        cases hr : rule v with
        | ok b =>
          rw [hr] at hi
          exact absurd rfl hi
        | bad is => exact ⟨is, rfl⟩
      rw [he] at hi ⊢
      refine .refused rfl hi fun i hm => ?_
      obtain ⟨j, -, rfl⟩ := List.mem_map.1 hm
      rfl

theorem outcome_assign (c : Config) (attr : String) (v : Value) :
    Outcome c attr (c.assign attr v) := by
  unfold assign
  split
  all_goals first
    | refine outcome_put v _ _ fun b k hk => ?_
      unfold attribute?
      split <;> first | rfl | exact absurd rfl hk
    | refine .refused rfl (List.cons_ne_nil _ _) fun i hi => ?_
      rw [List.mem_singleton.1 hi]
      rfl

namespace Outcome

variable {r : Change Config}

/-- what is stored leaves coherent settings exactly when it is accepted -/
theorem coherent_iff (h : Outcome c attr r) (hs : isStored r = true) :
    Coherent r.state ↔ r.issues = [] := by
  cases h with
  | refused state issues loc =>
    obtain ⟨i, is, hi⟩ := List.exists_cons_of_ne_nil issues
    have hl : i.loc = [] := by simpa using List.all_eq_true.1 hs i (hi ▸ List.mem_cons_self)
    have hh := loc i (hi ▸ List.mem_cons_self)
    rw [hl] at hh
    cases hh
  | contradicted t objection issues others =>
    rw [← objection?_eq_none_iff, objection, issues]
    exact iff_of_false (fun h => by cases h) fun h => by cases h
  | accepted issues coherent others => exact iff_of_true coherent issues

/-- what is not stored leaves the settings alone -/
theorem state_eq (h : Outcome c attr r) (hs : ¬ isStored r = true) : r.state = c := by
  cases h with
  | refused state issues loc => exact state
  | contradicted t objection issues others =>
    unfold isStored at hs
    rw [issues] at hs
    exact absurd rfl hs
  | accepted issues coherent others =>
    unfold isStored at hs
    rw [issues] at hs
    exact absurd rfl hs

end Outcome

/-! ## sequences of assignments -/

/-- attributes with the values assigned to them, in order -/
abbrev Steps := List (String × Value)

/-- the settings after a sequence of assignments -/
def after (c : Config) (steps : Steps) : Config :=
  steps.foldl (fun c s => (c.assign s.1 s.2).state) c

/-- what each assignment of a sequence does -/
def changes (c : Config) : Steps → List (Change Config)
  | [] => []
  | s :: steps => c.assign s.1 s.2 :: changes (c.assign s.1 s.2).state steps

/-- a refused value has no effect, and the settings are coherent after every assignment -/
def Steady (c : Config) : Steps → Prop
  | [] => True
  | s :: steps =>
    ((c.assign s.1 s.2).issues ≠ [] → (c.assign s.1 s.2).state = c) ∧
      Coherent (c.assign s.1 s.2).state ∧ Steady (c.assign s.1 s.2).state steps

theorem changes_append (c : Config) (front back : Steps) :
    changes c (front ++ back) = changes c front ++ changes (after c front) back := by
  induction front generalizing c with
  | nil => rfl
  | cons s front ih => exact congrArg _ (ih _)

theorem after_concat (c : Config) (steps : Steps) (s : String × Value) :
    after c (steps ++ [s]) = ((after c steps).assign s.1 s.2).state := by
  rw [after, List.foldl_append]
  rfl

/-- the last value that is stored decides -/
theorem coherent_after_iff (h : Coherent c) (steps : Steps) :
    Coherent (after c steps) ↔
      ∀ r ∈ ((changes c steps).filter isStored).getLast?, r.issues = [] := by
  induction steps using List.reverseRecOn with
  | nil => exact iff_of_true h fun r hr => by cases hr
  | append_singleton steps s ih =>
    have ho := outcome_assign (after c steps) s.1 s.2
    rw [after_concat, changes_append]
    show _ ↔ ∀ r ∈ ((changes c steps ++ [(after c steps).assign s.1 s.2]).filter isStored).getLast?,
      r.issues = []
    by_cases hs : isStored ((after c steps).assign s.1 s.2) = true
    · rw [ho.coherent_iff hs, List.filter_append, List.filter_cons_of_pos hs, List.filter_nil,
        List.getLast?_concat]
      simp
    · rw [ho.state_eq hs, ih, List.filter_append, List.filter_cons_of_neg hs, List.filter_nil,
        List.append_nil]

/-- a value that is stored and refused is what disturbs -/
theorem steady_changes_iff (h : Coherent c) (steps : Steps) :
    Steady c steps ↔ ∀ r ∈ changes c steps, isStored r = true → r.issues = [] := by
  induction steps generalizing c with
  | nil => exact iff_of_true trivial fun r hr => by cases hr
  | cons s steps ih =>
    have ho := outcome_assign c s.1 s.2
    show _ ∧ _ ∧ Steady _ steps ↔ ∀ r ∈ c.assign s.1 s.2 :: changes _ steps, _
    rw [List.forall_mem_cons]
    by_cases hs : isStored (c.assign s.1 s.2) = true
    · by_cases hi : (c.assign s.1 s.2).issues = []
      · have hc := (ho.coherent_iff hs).2 hi
        rw [← ih hc]
        exact ⟨fun h => ⟨fun _ => hi, h.2.2⟩, fun h => ⟨fun hne => absurd hi hne, hc, h.2⟩⟩
      · refine iff_of_false (fun h => hi ((ho.coherent_iff hs).1 h.2.1)) fun h => hi (h.1 hs)
    · have hc : Coherent (c.assign s.1 s.2).state := by rwa [ho.state_eq hs]
      rw [← ih hc]
      exact ⟨fun h => ⟨fun ht => absurd ht hs, h.2.2⟩,
        fun h => ⟨fun _ => ho.state_eq hs, hc, h.2⟩⟩

end

/-- **Sequences of assignments.**  Every assignment, to whatever settings, is refused without an
effect, or stores a value that contradicts the others, or is accepted and leaves coherent settings;
no other attribute changes.  Of the settings of a document, no refused value has an effect and all
are coherent in between exactly as long as no stored value is refused; after a sequence they are
coherent exactly when the last value that was stored was accepted. -/
theorem steady_iff {v : Value} {c : Config} (h : Contract.configOf v = .ok c) (steps : Steps) :
    (∀ b attr w, Outcome b attr (b.assign attr w)) ∧
    (Steady c steps ↔ ∀ r ∈ changes c steps, isStored r = true → r.issues = []) ∧
    (Coherent (after c steps) ↔
      ∀ r ∈ ((changes c steps).filter isStored).getLast?, r.issues = []) := by
  have hc := Contract.coherent_of_configOf h
  exact ⟨outcome_assign, steady_changes_iff hc steps, coherent_after_iff hc steps⟩

/-! ## a directory that is taken -/

/-- a document that asks for brands -/
def branded : Value := .map [(.text "generate_brand_registry", .bool true)]

/-- a directory that is taken, a value that is no text, and a directory of its own -/
def repair : Steps :=
  [("brands_dir", .text "schemas"), ("brands_dir", .int 5), ("brands_dir", .text "names")]

/-- the first value stays until the third one replaces it -/
theorem steady_iff_repair :
    Contract.configOf branded = .ok { brandRegistry := true } ∧
      ¬ Steady { brandRegistry := true } repair ∧
      Coherent (after { brandRegistry := true } repair) ∧
      (after { brandRegistry := true } repair).brandsDir = "names" := by
  have hv : Contract.configOf branded = .ok { brandRegistry := true } := rfl
  obtain ⟨-, hsteady, hcoherent⟩ := steady_iff hv repair
  have hfirst : ∀ r ∈ (changes { brandRegistry := true } repair).head?,
      isStored r = true ∧ r.issues ≠ [] := by
    intro r hr
    obtain rfl := Option.some.inj hr
    exact ⟨by decide +kernel, by decide +kernel⟩
  refine ⟨hv, fun h => ?_, hcoherent.2 fun r hr => ?_, by decide +kernel⟩
  · obtain ⟨hs, hi⟩ := hfirst _ rfl
    exact hi (hsteady.1 h _ List.mem_cons_self hs)
  · obtain rfl := Option.some.inj hr
    rfl

/-- a directory that another family has is refused and stays; what follows is refused, too -/
theorem clash_stays :
    Contract.configOf branded = .ok { brandRegistry := true } ∧
    ∃ r : Change Config, Config.assign { brandRegistry := true } "brands_dir" (.text "schemas") = r ∧
      r.issues ≠ [] ∧ r.state = { brandRegistry := true, brandsDir := "schemas" } ∧
      ¬ Coherent r.state ∧
      (r.state.assign "camel_case" (.bool true)).issues ≠ [] := by
  refine ⟨rfl, _, rfl, by decide +kernel, rfl, fun h => ?_, by decide +kernel⟩
  have ho := objection?_eq_none_iff.2 h
  revert ho
  decide +kernel

end Config

end ZodSchema
