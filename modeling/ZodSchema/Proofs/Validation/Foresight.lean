import Mathlib.Data.List.Nodup
import ZodSchema.Proofs.Crud.Options
import ZodSchema.Proofs.Generation.Order
import ZodSchema.Proofs.Generation.Passed
import ZodSchema.Proofs.Schema.Unknown
import ZodSchema.Proofs.Validation.Passed

/-!
# What validation foretells of emission

Two warnings say that a field will be emitted as `z.unknown()`.  They look at the type alone, and
the documentation of a field comes before its type.

* `Concern.foretold?`    the field that such a warning is about
* `filterMap_concerns`   the fields they are about are those of unknown type, in order
* `Foretold`             a warning foretells `z.unknown()` of a field
* `foretold_iff`         with distinct names: when the type of the field is not known
* `head_crudWarnings`    no warning of the CRUD family reads like one of emission
* `foretold_unknown`     which foretold fields are emitted so, and what emission warns of
* `overruled_foretold`   two fields of which validation foretells what does not happen
-/

namespace ZodSchema

/-! ## warnings of the CRUD family -/

namespace Crud

variable {x : Context} {w : String}

/-- unknown names, option sets and sort options are all that is warned of -/
theorem head_crudWarnings {b : Base} (hw : w ∈ crudWarnings b) : w.toList.head? ≠ some 'F' := by
  unfold crudWarnings at hw
  obtain ⟨m, -, hw⟩ := List.mem_flatMap.1 hw
  obtain ⟨hp, he⟩ := Context.crudSet_warnings (contextOf b m)
  rw [setOf, hp.mem_iff, he, List.mem_append, List.mem_append] at hw
  rcases hw with hw | hw | hw
  · rw [Context.head_unknownWarnings w hw]
    decide
  · rw [Context.head_optionSets w hw]
    decide
  · rw [Context.head_sort w hw]
    decide

end Crud

namespace Validation

open Schema

variable {d : Datamodel} {c : Config} {m : Model} {f : Field} {x : Concern}

/-! ## the fields that warnings are about -/

/-- model and field that a concern foretells `z.unknown()` of -/
def Concern.foretold? : Concern → Option (String × String)
  | unknownScalar m f _ | unknownEnum m f _ => some (m, f)
  | _ => none

/-- the codes of these concerns -/
def foretelling : List String := ["UNKNOWN_ENUM_REFERENCE", "UNKNOWN_SCALAR_TYPE"]

theorem foretold?_isSome_iff : x.foretold?.isSome = true ↔ x.code ∈ foretelling := by
  cases x with
  | invalidName w n => cases w <;> simp [Concern.foretold?, Concern.code, foretelling, Named.capitals]
  | reservedName w n => cases w <;> simp [Concern.foretold?, Concern.code, foretelling, Named.capitals]
  | _ => simp [Concern.foretold?, Concern.code, foretelling]

theorem context_of_foretold? {p : String × String} (h : x.foretold? = some p) :
    x.context.take 2 = [("model", .text p.1), ("field", .text p.2)] := by
  cases x <;> cases h <;> rfl

theorem foretold?_nameConcern? {what : Named} {n : String} (h : nameConcern? what n = some x) :
    x.foretold? = none := by
  unfold nameConcern? at h
  split at h
  · rw [← Option.some.inj h]
    rfl
  · split at h
    · rw [← Option.some.inj h]
      rfl
    · cases h

theorem foretold?_modelNameConcerns (ns : List String) :
    ∀ seen, ∀ x ∈ modelNameConcerns seen ns, x.foretold? = none := by
  induction ns with
  | nil => exact fun _ _ hx => by cases hx
  | cons n ns ih =>
    intro seen x hx
    simp only [modelNameConcerns, List.mem_append] at hx
    rcases hx with (hx | hx) | hx
    · split at hx
      · rw [List.mem_singleton.1 hx]
        rfl
      · cases hx
    · split at hx
      · next hc =>
        rw [List.mem_singleton.1 hx]
        exact foretold?_nameConcern? hc
      · split at hx
        · cases hx
        · rw [List.mem_singleton.1 hx]
          rfl
    · exact ih _ x hx

theorem foretold?_enumNameConcerns (ns : List String) :
    ∀ seen, ∀ x ∈ enumNameConcerns seen ns, x.foretold? = none := by
  induction ns with
  | nil => exact fun _ _ hx => by cases hx
  | cons n ns ih =>
    intro seen x hx
    simp only [enumNameConcerns, List.mem_append] at hx
    rcases hx with (hx | hx) | hx
    · split at hx
      · rw [List.mem_singleton.1 hx]
        rfl
      · cases hx
    · exact foretold?_nameConcern? (Option.mem_toList.1 hx)
    · exact ih _ x hx

theorem foretold?_relationConcerns : ∀ x ∈ relationConcerns d, x.foretold? = none := by
  intro x hx
  simp only [relationConcerns, List.mem_flatMap, List.mem_append, List.mem_map] at hx
  obtain ⟨m, -, f, -, hx | ⟨k, -, rfl⟩⟩ := hx
  · split at hx
    · rw [List.mem_singleton.1 hx]
      rfl
    · cases hx
  · rfl

theorem foretold?_configConcerns : ∀ x ∈ configConcerns c, x.foretold? = none := by
  intro x hx
  rcases List.mem_append.1 hx with hx | hx
  all_goals
    split at hx
    · rw [List.mem_singleton.1 hx]
      rfl
    · cases hx

theorem foretold?_brandConcerns : ∀ x ∈ brandConcerns d c, x.foretold? = none := by
  intro x hx
  rcases List.mem_append.1 hx with hx | hx
  all_goals
    obtain ⟨_, -, rfl⟩ := List.mem_map.1 hx
    rfl

theorem foretold?_crudConcerns : ∀ x ∈ crudConcerns d c, x.foretold? = none := by
  intro x hx
  unfold crudConcerns at hx
  split at hx
  · cases hx
  · simp only [List.mem_append, List.mem_map] at hx
    rcases hx with (⟨_, -, rfl⟩ | ⟨_, -, rfl⟩) | ⟨_, -, rfl⟩ <;> rfl

/-! ## fields of unknown type -/

/-- the fields of a class, with their models -/
def sites (d : Datamodel) (p : Field → Bool) : List (String × String) :=
  d.models.flatMap fun m => (m.fields.filter p).map fun f => (m.name, f.name)

/-- no two models share a name, and no two fields of a model -/
structure DistinctNames (d : Datamodel) : Prop where
  models : (d.models.map (·.name)).Nodup
  fields : ∀ m ∈ d.models, (m.fields.map (·.name)).Nodup

theorem mem_sites_iff (hn : DistinctNames d) {p : Field → Bool} (hm : m ∈ d.models)
    (hf : f ∈ m.fields) : (m.name, f.name) ∈ sites d p ↔ p f = true := by
  unfold sites
  simp only [List.mem_flatMap, List.mem_map, List.mem_filter, Prod.mk.injEq]
  constructor
  · rintro ⟨m', hm', f', ⟨hf', hp⟩, hmn, hfn⟩
    obtain rfl := List.inj_on_of_nodup_map hn.models hm' hm hmn
    obtain rfl := List.inj_on_of_nodup_map (hn.fields m' hm) hf' hf hfn
    exact hp
  · exact fun hp => ⟨m, hm, f, ⟨hf, hp⟩, rfl, rfl⟩

theorem exists_of_mem_sites {s : String × String} {p q : Field → Bool}
    (h : s ∈ sites d p ++ sites d q) :
    ∃ m ∈ d.models, ∃ f ∈ m.fields, s = (m.name, f.name) := by
  rcases List.mem_append.1 h with h | h
  all_goals
    obtain ⟨m, hm, h⟩ := List.mem_flatMap.1 h
    obtain ⟨f, hf, rfl⟩ := List.mem_map.1 h
    exact ⟨m, hm, f, (List.mem_filter.1 hf).1, rfl⟩

/-- the check of fields, name by name, foretells what it says of unknown scalar types -/
theorem filterMap_modelFieldConcerns {camel : Bool} {model : String} {fs : List Field}
    {seen : List String} {keys : List (String × String)} (hn : (fs.map (·.name)).Nodup)
    (hs : ∀ f ∈ fs, f.name ∉ seen) :
    (modelFieldConcerns camel model seen keys fs).filterMap Concern.foretold? =
      (fs.filter isUnknownScalar).map fun f => (model, f.name) := by
  induction fs generalizing seen keys with
  | nil => rfl
  | cons f fs ih =>
    obtain ⟨hnf, hn⟩ := List.nodup_cons.1 hn
    obtain ⟨hsf, hs⟩ := List.forall_mem_cons.1 hs
    -- the names that follow are new as well
    have hs' : ∀ g ∈ fs, g.name ∉ f.name :: seen := by
      intro g hg hm
      rcases List.mem_cons.1 hm with he | hm
      · exact hnf (List.mem_map.2 ⟨g, hg, he⟩)
      · exact hs g hg hm
    rw [modelFieldConcerns, if_neg (by simpa using hsf)]
    split
    · next he =>
      have hf : isUnknownScalar f = false := by
        rw [Bool.eq_false_iff]
        intro h
        rw [isEmitted_of_isUnknownScalar h] at he
        cases he
      rw [ih hn hs', List.filter_cons_of_neg (by rw [hf]; decide)]
    · have htype : (if isUnknownScalar f then [Concern.unknownScalar model f.name f.type] else
          []).filterMap Concern.foretold? ++ (fs.filter isUnknownScalar).map (fun f => (model, f.name)) =
          ((f :: fs).filter isUnknownScalar).map fun f => (model, f.name) := by
        cases hu : isUnknownScalar f with
        | true =>
          rw [List.filter_cons_of_pos hu]
          rfl
        | false =>
          rw [List.filter_cons_of_neg (by rw [hu]; decide)]
          rfl
      rw [List.filterMap_append, List.filterMap_append, ih hn hs']
      -- a key that comes twice foretells nothing
      split
      · exact htype
      · exact htype

theorem filterMap_fieldConcerns (hn : DistinctNames d) (c : Config) :
    (fieldConcerns d c).filterMap Concern.foretold? = sites d isUnknownScalar := by
  unfold fieldConcerns sites
  rw [List.filterMap_flatMap]
  exact List.flatMap_congr fun m hm =>
    filterMap_modelFieldConcerns (hn.fields m hm) fun _ _ => List.not_mem_nil

theorem filterMap_enumConcerns (d : Datamodel) :
    (enumConcerns d).filterMap Concern.foretold? = sites d (isUnknownEnum d) := by
  unfold enumConcerns sites
  rw [List.filterMap_flatMap]
  refine List.flatMap_congr fun m _ => ?_
  rw [List.filterMap_map]
  exact List.filterMap_eq_map (f := fun f : Field => (m.name, f.name)) ▸ rfl

/-- **What is foretold.**  Warnings speak of the fields of an unknown scalar type and of those of an
unknown enumeration, and of each of them once. -/
theorem filterMap_concerns (hn : DistinctNames d) (c : Config) :
    (concerns d c).filterMap Concern.foretold? =
      sites d isUnknownScalar ++ sites d (isUnknownEnum d) := by
  have hnil : ∀ {xs : List Concern}, (∀ x ∈ xs, x.foretold? = none) →
      xs.filterMap Concern.foretold? = [] := List.filterMap_eq_nil_iff.2
  have hnames : ∀ x ∈ nameConcerns d, x.foretold? = none := fun x hx =>
    (List.mem_append.1 hx).elim (foretold?_modelNameConcerns _ _ x)
      (foretold?_enumNameConcerns _ _ x)
  unfold concerns
  simp only [List.filterMap_append, filterMap_fieldConcerns hn, filterMap_enumConcerns,
    hnil hnames, hnil foretold?_relationConcerns, hnil foretold?_configConcerns,
    hnil foretold?_brandConcerns, hnil foretold?_crudConcerns, List.nil_append, List.append_nil]

/-- a warning says of the field that it will be emitted as `z.unknown()` -/
def Foretold (d : Datamodel) (c : Config) (m : Model) (f : Field) : Prop :=
  ∃ x ∈ validate d c, x.code ∈ foretelling ∧
    x.context.take 2 = [("model", .text m.name), ("field", .text f.name)]

theorem foretold_iff_mem :
    Foretold d c m f ↔ (m.name, f.name) ∈ (concerns d c).filterMap Concern.foretold? := by
  unfold Foretold validate
  rw [List.mem_filterMap]
  constructor
  · rintro ⟨_, hv, hc, ht⟩
    obtain ⟨x, hx, rfl⟩ := List.mem_map.1 hv
    obtain ⟨p, hp⟩ := Option.isSome_iff_exists.1 (foretold?_isSome_iff.2 hc)
    have he := (context_of_foretold? hp).symm.trans ht
    simp only [List.cons.injEq, Prod.mk.injEq, Value.text.injEq, true_and, and_true] at he
    exact ⟨x, hx, hp.trans (congrArg some (Prod.ext he.1 he.2))⟩
  · rintro ⟨x, hx, hp⟩
    exact ⟨_, List.mem_map_of_mem hx, foretold?_isSome_iff.1 (by rw [hp]; rfl),
      context_of_foretold? hp⟩

theorem foretold_iff (hn : DistinctNames d) (hm : m ∈ d.models) (hf : f ∈ m.fields) :
    Foretold d c m f ↔ Unresolved d f := by
  rw [foretold_iff_mem, filterMap_concerns hn, List.mem_append, mem_sites_iff hn hm hf,
    mem_sites_iff hn hm hf, or_comm]
  rfl

/-- with distinct names a model has its own entries -/
theorem mem_entries (hn : DistinctNames d) (hm : m ∈ d.models) (hf : f ∈ m.fields)
    (he : f.isEmitted = true) : (f, emit c d f) ∈ entries c d m := by
  unfold entries
  rw [Generation.firstOfName_eq hn.models hm]
  exact List.mem_map_of_mem (List.mem_filter.2 ⟨hf, he⟩)

/-! ## warnings of emission -/

theorem exists_of_entryWarnings {w : String} (hw : w ∈ entryWarnings c d) :
    ∃ m ∈ d.models, ∃ f ∈ m.fields, w ∈ (emit c d f).warnings := by
  obtain ⟨n, -, hw⟩ := List.mem_flatMap.1 hw
  split at hw
  · next m hm =>
    have hname : m.name = n := by simpa using List.find?_some hm
    have hfirst : d.firstOfName m = m := by
      unfold Datamodel.firstOfName
      rw [hname, hm]
      rfl
    obtain ⟨p, hp, hw⟩ := List.mem_flatMap.1 hw
    rw [entries, hfirst] at hp
    obtain ⟨f, hf, rfl⟩ := List.mem_map.1 hp
    exact ⟨m, List.mem_of_find?_eq_some hm, f, (List.mem_filter.1 hf).1, hw⟩
  · cases hw

/-- of all warnings of a run only those of emission read like this -/
theorem mem_entryWarnings {workDir : Text.Parts} {g : Generation.Generated GeneratedFile}
    (h : Generation.generate workDir d c = .ok g) {w : String} (hw : w ∈ g.warnings)
    (hF : w.toList.head? = some 'F') : w ∈ entryWarnings c d := by
  obtain ⟨r, -, -, rfl⟩ := Generation.generate_eq_ok.1 h
  unfold Generation.familyWarnings at hw
  rw [List.mem_append, List.mem_append] at hw
  rcases hw with (hw | hw) | hw
  · exact (List.mem_ite_nil_right.1 hw).2
  · exact absurd hF (Crud.head_crudWarnings (List.mem_ite_nil_right.1 hw).2)
  · obtain ⟨x, -, rfl⟩ := List.mem_map.1 hw
    unfold Brand.Conflict.describe at hF
    simp only [String.append_assoc] at hF
    rw [Text.Str.head?_append (c := 'B') (by decide)] at hF
    exact absurd hF (by decide)

theorem mem_validate_of_unknownEnum (hm : m ∈ d.models) (hf : f ∈ m.fields)
    (h : isUnknownEnum d f = true) :
    (Concern.unknownEnum m.name f.name f.type).finding ∈ validate d c := by
  refine List.mem_map_of_mem ?_
  have he : Concern.unknownEnum m.name f.name f.type ∈ enumConcerns d :=
    List.mem_flatMap.2 ⟨m, hm, List.mem_map.2 ⟨f, List.mem_filter.2 ⟨hf, h⟩, rfl⟩⟩
  unfold concerns
  simp only [List.mem_append]
  tauto

/-- **Validation and emission.**  Let all names be distinct.  Each warning that foretells
`z.unknown()` is about a field of a model, and these are the fields of unknown type.  Such a field has
an entry, which opens with `z.unknown()` unless the documentation overrules the type.  Whatever a run
warns of an unknown enumeration, validation has reported it of a field that reads like this. -/
theorem foretold_unknown (hn : DistinctNames d) (c : Config) :
    (∀ x ∈ validate d c, x.code ∈ foretelling → ∃ m ∈ d.models, ∃ f ∈ m.fields,
      x.context.take 2 = [("model", .text m.name), ("field", .text f.name)]) ∧
    (∀ m ∈ d.models, ∀ f ∈ m.fields, (Foretold d c m f ↔ Unresolved d f) ∧
      (Foretold d c m f → (f, emit c d f) ∈ entries c d m ∧
        (Text.Str.startsWith (emit c d f).expr.render "z.unknown()" = true ↔ ¬Overruled f))) ∧
    ∀ workDir g, Generation.generate workDir d c = .ok g →
      ∀ w ∈ g.warnings, ∀ n t, w = unknownEnumText n t → ∃ m ∈ d.models, ∃ f ∈ m.fields,
        w = unknownEnumText f.name f.type ∧
        (Concern.unknownEnum m.name f.name f.type).finding ∈ validate d c := by
  refine ⟨fun _ hv hc => ?field, fun m hm f hf => ⟨foretold_iff hn hm hf, fun h => ?entry⟩,
    fun workDir g hg w hw n t ht => ?warning⟩
  case field =>
    obtain ⟨x, hx, rfl⟩ := List.mem_map.1 hv
    obtain ⟨p, hp⟩ := Option.isSome_iff_exists.1 (foretold?_isSome_iff.2 hc)
    have hs : p ∈ sites d isUnknownScalar ++ sites d (isUnknownEnum d) := by
      rw [← filterMap_concerns hn c]
      exact List.mem_filterMap.2 ⟨x, hx, hp⟩
    obtain ⟨m, hm, f, hf, rfl⟩ := exists_of_mem_sites hs
    exact ⟨m, hm, f, hf, context_of_foretold? hp⟩
  case entry =>
    have hu := (foretold_iff hn hm hf).1 h
    exact ⟨mem_entries hn hm hf hu.isEmitted, opens_unknown_iff c hu⟩
  case warning =>
    have hF : w.toList.head? = some 'F' := by
      rw [ht, unknownEnumText]
      simp only [String.append_assoc]
      exact Text.Str.head?_append (by decide) _
    obtain ⟨m, hm, f, hf, he⟩ := exists_of_entryWarnings (mem_entryWarnings hg hw hF)
    refine ⟨m, hm, f, hf, ?_⟩
    rcases warnings_emit he with ⟨rest, rfl⟩ | ⟨hu, rfl⟩
    · rw [Text.Str.head?_append (c := 'E') (by decide)] at hF
      exact absurd hF (by decide)
    · exact ⟨rfl, mem_validate_of_unknownEnum hm hf hu⟩

def stateField : Field := { name := "state", type := "Status", kind := ⟨.enumeration, true⟩ }

def shapeField : Field :=
  { name := "shape", type := "Geometry", documentation := some "@zod.min(1).nullable()" }

/-- an enumeration and a scalar type that are not there -/
def parcel : Model :=
  { name := "Parcel", fields := [{ name := "id", type := "Int", isId := true }, stateField, shapeField] }

def parcels : Datamodel := { models := [parcel], enums := [{ name := "Size", values := ["S", "L"] }] }

/-- Both fields are foretold and emitted so, and the unknown enumeration is warned of by both. -/
theorem foretold_unknown_parcels :
    DistinctNames parcels ∧ Foretold parcels {} parcel stateField ∧
      Foretold parcels {} parcel shapeField ∧
      Text.Str.startsWith (emit {} parcels stateField).expr.render "z.unknown()" = true ∧
      Text.Str.startsWith (emit {} parcels shapeField).expr.render "z.unknown()" = true ∧
      ∃ g, Generation.generate [] parcels {} = .ok g ∧
        g.warnings = [unknownEnumText "state" "Status"] ∧
        ∃ m ∈ parcels.models, ∃ f ∈ m.fields,
          unknownEnumText "state" "Status" = unknownEnumText f.name f.type ∧
          (Concern.unknownEnum m.name f.name f.type).finding ∈ validate parcels {} := by
  have hn : DistinctNames parcels := ⟨by decide, by decide⟩
  have hm : parcel ∈ parcels.models := List.mem_singleton_self _
  have hs : stateField ∈ parcel.fields := by simp [parcel]
  have hf : shapeField ∈ parcel.fields := by simp [parcel]
  obtain ⟨-, hfields, hruns⟩ := foretold_unknown hn {}
  have hstate := (hfields parcel hm stateField hs).1.2 (Or.inl (by decide))
  have hshape := (hfields parcel hm shapeField hf).1.2 (Or.inr (by decide))
  have hopen := ((hfields parcel hm stateField hs).2 hstate).2.2 (by decide +kernel)
  have hopen' := ((hfields parcel hm shapeField hf).2 hshape).2.2 (by decide +kernel)
  have hw : ((Generation.generate [] parcels {}).map (·.warnings)).toOption =
      some [unknownEnumText "state" "Status"] := by decide +kernel
  cases hg : Generation.generate [] parcels {} with
  | error e =>
    rw [hg] at hw
    cases hw
  | ok g =>
    rw [hg] at hw
    have hw : g.warnings = [unknownEnumText "state" "Status"] := Option.some.inj hw
    exact ⟨hn, hstate, hshape, hopen, hopen', g, rfl, hw,
      hruns [] g hg _ (hw ▸ List.mem_singleton_self _) _ _ rfl⟩

def addressField : Field :=
  { name := "address", type := "Address", kind := ⟨.enumeration, true⟩
    documentation := some "@kyselyType(import('./types').Address)" }

def mailField : Field := { name := "mail", type := "Email", documentation := some "@zod.email()" }

def desk : Model :=
  { name := "Desk", fields := [{ name := "id", type := "Int", isId := true }, addressField, mailField] }

def desks : Datamodel := { models := [desk] }

/-- Of both fields validation foretells `z.unknown()`; an imported schema is emitted for the one, the
check of an address for the other. -/
theorem overruled_foretold :
    DistinctNames desks ∧ desk ∈ desks.models ∧ addressField ∈ desk.fields ∧ mailField ∈ desk.fields ∧
      Foretold desks {} desk addressField ∧ Foretold desks {} desk mailField ∧
      (emit {} desks addressField).expr.render =
        "z.preprocess(" ++ jsonPreprocess ++ ", AddressSchema)" ∧
      Text.Str.startsWith (emit {} desks addressField).expr.render "z.unknown()" = false ∧
      (emit {} desks mailField).expr.render = "z.email()" ∧
      Text.Str.startsWith (emit {} desks mailField).expr.render "z.unknown()" = false := by
  have hn : DistinctNames desks := ⟨by decide, by decide⟩
  have hm : desk ∈ desks.models := List.mem_singleton_self _
  have ha : addressField ∈ desk.fields := by simp [desk]
  have hf : mailField ∈ desk.fields := by simp [desk]
  refine ⟨hn, hm, ha, hf, (foretold_iff hn hm ha).2 (Or.inl (by decide)),
    (foretold_iff hn hm hf).2 (Or.inr (by decide)), ?_⟩
  decide +kernel

end Validation

end ZodSchema
