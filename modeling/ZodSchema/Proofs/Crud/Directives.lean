import Mathlib.Data.List.Induction
import ZodSchema.Proofs.Crud.Overlong

/-!
# Directives that cannot be read

A directive whose argument its reader rejects changes nothing in the rules of a model, save that a
page size is forgotten.

* `Rejected`               the arguments that are rejected
* `apply_of_rejected`      one such directive, whatever stood before it
* `foldl_accepted`         a list of directives without them
* `Forgets`                the lists that lose a page size to them
* `rejected_ignored_iff`   all of it, for the rules of a model
* `page_size_forgotten`    a page size that is lost
-/

namespace ZodSchema.Crud

open Annotations (Rule)

/-! ## what is rejected -/

/-- keys of the directives that ask for an object -/
def objectKeys : List String := ["create.defaults", "list.customFilterTypes"]

/-- keys of the directives that ask for JSON -/
def jsonKeys : List String := objectKeys ++ ["list.jsonFilter"]

/-- the argument is none that the directive can take -/
inductive Rejected (d : Rule) : Prop where
  | notJson (key : d.key ∈ jsonKeys) (args : Json.read d.args = .error .malformed)
  | notObject (key : d.key ∈ objectKeys) (v : Value) (args : Json.read d.args = .ok v)
      (other : v.entries? = none)
  | notInteger (key : d.key = "list.maxPageSize") (args : intArg? d.args = none)
  | notPagination (key : d.key = "list.pagination")
      (args : Pagination.ofName? (stringArg d.args) = none)

def isNoJson (raw : String) : Bool :=
  match Json.read raw with
  | .error .malformed => true
  | _ => false

def isNoObject (raw : String) : Bool :=
  match Json.read raw with
  | .ok v => v.entries?.isNone
  | .error _ => false

def rejects (d : Rule) : Bool :=
  jsonKeys.contains d.key && isNoJson d.args ||
    objectKeys.contains d.key && isNoObject d.args ||
    d.key == "list.maxPageSize" && (intArg? d.args).isNone ||
    d.key == "list.pagination" && (Pagination.ofName? (stringArg d.args)).isNone

/-- the directives that are left when the rejected ones are deleted -/
def accepted (ds : List Rule) : List Rule := ds.filter fun d => !rejects d

section
variable {d : Rule} {raw : String}

theorem isNoJson_iff : isNoJson raw = true ↔ Json.read raw = .error .malformed := by
  unfold isNoJson
  split
  · next h => simp [h]
  · next h => simpa using h

theorem isNoObject_iff :
    isNoObject raw = true ↔ ∃ v, Json.read raw = .ok v ∧ v.entries? = none := by
  unfold isNoObject
  split
  · next v h => simp [h]
  · next f h => simp [h]

theorem rejects_iff : rejects d = true ↔ Rejected d := by
  unfold rejects
  simp only [Bool.or_eq_true, Bool.and_eq_true, List.contains_iff_mem, beq_iff_eq,
    isNoJson_iff, isNoObject_iff, Option.isNone_iff_eq_none]
  constructor
  · rintro (((⟨hk, ha⟩ | ⟨hk, v, ha, hv⟩) | ⟨hk, ha⟩) | ⟨hk, ha⟩)
    · exact .notJson hk ha
    · exact .notObject hk v ha hv
    · exact .notInteger hk ha
    · exact .notPagination hk ha
  · rintro (⟨hk, ha⟩ | ⟨hk, v, ha, hv⟩ | ⟨hk, ha⟩ | ⟨hk, ha⟩)
    · exact Or.inl (Or.inl (Or.inl ⟨hk, ha⟩))
    · exact Or.inl (Or.inl (Or.inr ⟨hk, v, ha, hv⟩))
    · exact Or.inl (Or.inr ⟨hk, ha⟩)
    · exact Or.inr ⟨hk, ha⟩

instance : DecidablePred Rejected := fun _ => decidable_of_iff _ rejects_iff

theorem jsonArg?_of_not_json (h : Json.read raw = .error .malformed) : jsonArg? raw = none := by
  unfold jsonArg? Json.read?
  rw [h]
  rfl

theorem jsonObject?_of_not_json (h : Json.read raw = .error .malformed) :
    jsonObject? raw = none := by
  unfold jsonObject?
  rw [jsonArg?_of_not_json h]
  rfl

theorem jsonObject?_of_not_object {v : Value} (h : Json.read raw = .ok v)
    (hv : v.entries? = none) : jsonObject? raw = none := by
  unfold jsonObject? jsonArg? Json.read?
  rw [h]
  cases v with
  | map es => cases hv
  | _ => rfl

end

/-! ## one directive -/

/-- the rules with another page size -/
def ModelRules.withPageSize (r : ModelRules) (n : Option Int) : ModelRules :=
  { r with list := { r.list with maxPageSize := n } }

theorem ModelRules.withPageSize_withPageSize (r : ModelRules) (n k : Option Int) :
    (r.withPageSize n).withPageSize k = r.withPageSize k := rfl

/-- what a directive makes of a page size: nothing is left of it when the new one cannot be read -/
def pageSizeAfter (n : Option Int) (d : Rule) : Option Int :=
  if d.key = "list.maxPageSize" then intArg? d.args else n

section
variable {r : ModelRules} {d : Rule} {n : Option Int}

theorem apply_pageSize (h : d.key = "list.maxPageSize") (r : ModelRules) :
    r.apply d = r.withPageSize (intArg? d.args) := by
  unfold ModelRules.apply
  rw [h]
  rfl

theorem apply_of_ne (h : d.key ≠ "list.maxPageSize") (r : ModelRules) (n : Option Int) :
    (r.withPageSize n).apply d = (r.apply d).withPageSize n := by
  unfold ModelRules.apply
  split
  case h_13 hk => exact absurd hk h
  all_goals dsimp only
  all_goals first
    | split <;> rfl
    | rfl

/-- no directive looks at the page size -/
theorem apply_withPageSize (r : ModelRules) (n : Option Int) (d : Rule) :
    (r.withPageSize n).apply d = (r.apply d).withPageSize (pageSizeAfter n d) := by
  unfold pageSizeAfter
  split
  · next h =>
    rw [apply_pageSize h, apply_pageSize h, ModelRules.withPageSize_withPageSize,
      ModelRules.withPageSize_withPageSize]
  · next h => exact apply_of_ne h r n

theorem maxPageSize_apply (r : ModelRules) (d : Rule) :
    (r.apply d).list.maxPageSize = pageSizeAfter r.list.maxPageSize d :=
  congrArg (·.list.maxPageSize) (apply_withPageSize r r.list.maxPageSize d)

/-- a rejected argument changes no more than the page size -/
theorem apply_of_rejected (h : Rejected d) (r : ModelRules) :
    r.apply d = r.withPageSize (pageSizeAfter r.list.maxPageSize d) := by
  unfold ModelRules.apply
  cases h with
  | notJson key args =>
    have hj := jsonArg?_of_not_json args
    have ho := jsonObject?_of_not_json args
    simp only [jsonKeys, objectKeys, List.cons_append, List.nil_append, List.mem_cons,
      List.not_mem_nil, or_false] at key
    rcases key with key | key | key <;> simp [pageSizeAfter, key, hj, ho, ModelRules.withPageSize]
  | notObject key v args other =>
    have ho := jsonObject?_of_not_object args other
    simp only [objectKeys, List.mem_cons, List.not_mem_nil, or_false] at key
    rcases key with key | key <;> simp [pageSizeAfter, key, ho, ModelRules.withPageSize]
  | notInteger key args => simp [pageSizeAfter, key, ModelRules.withPageSize]
  | notPagination key args => simp [pageSizeAfter, key, args, ModelRules.withPageSize]

end

/-! ## a list of directives -/

/-- the page sizes that a list of directives states, `none` for one that cannot be read -/
def pageSizes (ds : List Rule) : List (Option Int) :=
  (ds.filter fun d => d.key == "list.maxPageSize").map fun d => intArg? d.args

/-- the page size that a list of directives leaves -/
def pageSizeOf (ds : List Rule) : Option Int := (pageSizes ds).getLast?.getD none

/-- the last page size cannot be read, and one before it can -/
def Forgets (ds : List Rule) : Prop :=
  (pageSizes ds).getLast? = some none ∧ ∃ n, some n ∈ pageSizes ds

section
variable {ds : List Rule} {d : Rule}

theorem pageSizes_cons_of_eq (h : d.key = "list.maxPageSize") (ds : List Rule) :
    pageSizes (d :: ds) = intArg? d.args :: pageSizes ds := by
  unfold pageSizes
  rw [List.filter_cons_of_pos (by simpa using h), List.map_cons]

theorem pageSizes_cons_of_ne (h : d.key ≠ "list.maxPageSize") (ds : List Rule) :
    pageSizes (d :: ds) = pageSizes ds := by
  unfold pageSizes
  rw [List.filter_cons_of_neg (by simpa using h)]

theorem foldl_pageSizeAfter (n : Option Int) (ds : List Rule) :
    ds.foldl pageSizeAfter n = (pageSizes ds).getLast?.getD n := by
  induction ds generalizing n with
  | nil => rfl
  | cons d ds ih =>
    rw [List.foldl_cons, ih, pageSizeAfter]
    split
    · next h => rw [pageSizes_cons_of_eq h, List.getLast?_cons, Option.getD_some]
    · next h => rw [pageSizes_cons_of_ne h]

/-- of the page sizes, those are left that can be read -/
theorem pageSizes_accepted (ds : List Rule) :
    pageSizes (accepted ds) = (pageSizes ds).filter Option.isSome := by
  unfold pageSizes accepted
  rw [List.filter_map, List.filter_filter, List.filter_filter]
  refine congrArg _ (List.filter_congr fun d _ => ?_)
  by_cases h : d.key = "list.maxPageSize"
  · simp [rejects, h, jsonKeys, objectKeys]
  · have hk : (d.key == "list.maxPageSize") = false := beq_eq_false_iff_ne.2 h
    rw [hk, Bool.false_and, Bool.and_false]

theorem foldl_withPageSize (ds : List Rule) (r : ModelRules) (n : Option Int) :
    ds.foldl ModelRules.apply (r.withPageSize n) =
      (ds.foldl ModelRules.apply r).withPageSize (ds.foldl pageSizeAfter n) := by
  induction ds generalizing r n with
  | nil => rfl
  | cons d ds ih => rw [List.foldl_cons, apply_withPageSize, ih, List.foldl_cons, List.foldl_cons]

/-- without the rejected directives, the rules differ in the page size at most -/
theorem foldl_accepted (ds : List Rule) (r : ModelRules) :
    (accepted ds).foldl ModelRules.apply r =
      (ds.foldl ModelRules.apply r).withPageSize
        ((accepted ds).foldl pageSizeAfter r.list.maxPageSize) := by
  induction ds generalizing r with
  | nil => rfl
  | cons d ds ih =>
    unfold accepted at ih ⊢
    cases h : rejects d with
    | true =>
      have hr := apply_of_rejected (rejects_iff.1 h) r
      rw [List.filter_cons_of_neg (by simp [h]), ih, List.foldl_cons, hr, foldl_withPageSize,
        ModelRules.withPageSize_withPageSize]
    | false =>
      rw [List.filter_cons_of_pos (by simp [h]), List.foldl_cons, List.foldl_cons, List.foldl_cons,
        ih, maxPageSize_apply]

theorem getLast?_filter_isSome (ns : List (Option Int)) :
    (ns.filter Option.isSome).getLast?.getD none = ns.getLast?.getD none ↔
      ¬(ns.getLast? = some none ∧ ∃ n, some n ∈ ns) := by
  induction ns using List.reverseRecOn with
  | nil => simp
  | append_singleton ns n _ =>
    cases n with
    | some n => simp
    | none =>
      have hl : (ns.filter Option.isSome).getLast?.getD none = none ↔ ∀ n, some n ∉ ns := by
        constructor
        · intro h n hn
          have hm : some n ∈ ns.filter Option.isSome := List.mem_filter.2 ⟨hn, rfl⟩
          obtain ⟨k, hk⟩ := Option.isSome_iff_exists.1 (List.getLast?_isSome.2 (List.ne_nil_of_mem hm))
          have hs := (List.mem_filter.1 (List.mem_of_getLast? hk)).2
          rw [hk, Option.getD_some] at h
          rw [h] at hs
          cases hs
        · intro h
          have he : ns.filter Option.isSome = [] := by
            rw [List.filter_eq_nil_iff]
            intro n hn hs
            obtain ⟨k, rfl⟩ := Option.isSome_iff_exists.1 hs
            exact h k hn
          rw [he]
          rfl
      simpa using hl

end

/-! ## the rules of a model -/

/-- takes up the rules of a field, when it states some -/
def addFieldRules (r : ModelRules) (f : Field) : ModelRules :=
  match fieldRules? (docRules f.documentation) with
  | some fr => { r with fields := Assoc.put f.name fr r.fields }
  | none => r

/-- the rules that the directives of a model and its fields state -/
def rulesBy (ds : List Rule) (fs : List Field) : ModelRules :=
  fs.foldl addFieldRules (ds.foldl ModelRules.apply {})

/-- the rules of fields are all that fields add -/
theorem exists_rulesOf (m : Model) : ∃ fields, rulesOf m =
    { (docRules m.documentation).foldl ModelRules.apply {} with fields := fields } := by
  let r := (docRules m.documentation).foldl ModelRules.apply {}
  show ∃ fields, m.fields.foldl addFieldRules r = { r with fields := fields }
  refine List.foldlRecOn (motive := fun r' : ModelRules => ∃ fields, r' = { r with fields := fields })
    _ _ ⟨r.fields, rfl⟩ ?_
  rintro _ ⟨fields, rfl⟩ f -
  unfold addFieldRules
  split
  · exact ⟨_, rfl⟩
  · exact ⟨_, rfl⟩

/-- the arguments that are read as JSON for them -/
def jsonArgsBy (ds : List Rule) (fs : List Field) : List String :=
  (ds.filter fun d => readsJson d.key).map (·.args) ++
    fs.flatMap fun f => ((docRules f.documentation).filter fun d => d.key == "default").map (·.args)

/-- reading the rules: an integer that is too long breaks it off -/
def readRules (ds : List Rule) (fs : List Field) : Except Nat ModelRules :=
  match (jsonArgsBy ds fs).findSome? longIntegerIn? with
  | some n => .error n
  | none => .ok (rulesBy ds fs)

theorem readRules_eq (m : Model) : readRules (docRules m.documentation) m.fields =
    match longInteger? m with
    | some n => .error n
    | none => .ok (rulesOf m) := rfl

section
variable {ds : List Rule} {d : Rule}

/-- the rules of fields are taken up whatever the page size -/
theorem foldl_addFieldRules (fs : List Field) (r : ModelRules) (n : Option Int) :
    fs.foldl addFieldRules (r.withPageSize n) = (fs.foldl addFieldRules r).withPageSize n := by
  induction fs generalizing r with
  | nil => rfl
  | cons f fs ih =>
    have hf : addFieldRules (r.withPageSize n) f = (addFieldRules r f).withPageSize n := by
      unfold addFieldRules
      split <;> rfl
    rw [List.foldl_cons, List.foldl_cons, hf, ih]

theorem maxPageSize_rulesBy (ds : List Rule) (fs : List Field) :
    (rulesBy ds fs).list.maxPageSize = pageSizeOf ds := by
  have hd : ds.foldl ModelRules.apply {} =
      (ds.foldl ModelRules.apply {}).withPageSize (ds.foldl pageSizeAfter none) :=
    foldl_withPageSize ds {} none
  unfold rulesBy
  rw [hd, foldl_addFieldRules, foldl_pageSizeAfter]
  rfl

theorem rulesBy_accepted (ds : List Rule) (fs : List Field) :
    rulesBy (accepted ds) fs = (rulesBy ds fs).withPageSize (pageSizeOf (accepted ds)) := by
  unfold rulesBy
  rw [foldl_accepted, foldl_addFieldRules, foldl_pageSizeAfter]
  rfl

theorem longIntegerIn?_of_rejected (h : Rejected d) (hj : readsJson d.key = true) :
    longIntegerIn? d.args = none := by
  unfold longIntegerIn?
  cases h with
  | notJson key args => rw [args]
  | notObject key v args other => rw [args]
  | notInteger key args =>
    rw [key] at hj
    exact absurd hj (by decide)
  | notPagination key args =>
    rw [key] at hj
    exact absurd hj (by decide)

/-- no integer that is too long stands in a rejected argument -/
theorem findSome?_accepted (ds : List Rule) (fs : List Field) :
    (jsonArgsBy (accepted ds) fs).findSome? longIntegerIn? =
      (jsonArgsBy ds fs).findSome? longIntegerIn? := by
  have hd : (((accepted ds).filter fun d => readsJson d.key).map (·.args)).findSome? longIntegerIn? =
      ((ds.filter fun d => readsJson d.key).map (·.args)).findSome? longIntegerIn? := by
    unfold accepted
    induction ds with
    | nil => rfl
    | cons d ds ih =>
      cases hr : rejects d <;> cases hj : readsJson d.key
      · simpa [hr, hj] using ih
      · rw [List.filter_cons_of_pos (by simp [hr]), List.filter_cons_of_pos (by simp [hj]),
          List.filter_cons_of_pos (by simp [hj]), List.map_cons, List.map_cons, List.findSome?_cons,
          List.findSome?_cons, ih]
      · simpa [hr, hj] using ih
      · have hn := longIntegerIn?_of_rejected (rejects_iff.1 hr) hj
        rw [List.filter_cons_of_neg (by simp [hr]), List.filter_cons_of_pos (by simp [hj]),
          List.map_cons, List.findSome?_cons, hn, ih]
  unfold jsonArgsBy
  rw [List.findSome?_append, List.findSome?_append, hd]

theorem readRules_accepted (ds : List Rule) (fs : List Field) :
    readRules (accepted ds) fs =
      (readRules ds fs).map fun r => r.withPageSize (pageSizeOf (accepted ds)) := by
  unfold readRules
  rw [findSome?_accepted, rulesBy_accepted]
  cases (jsonArgsBy ds fs).findSome? longIntegerIn? <;> rfl

theorem pageSizeOf_accepted_iff (ds : List Rule) :
    pageSizeOf (accepted ds) = pageSizeOf ds ↔ ¬Forgets ds := by
  unfold pageSizeOf Forgets
  rw [pageSizes_accepted, getLast?_filter_isSome]

theorem readRules_accepted_iff (ds : List Rule) (fs : List Field) :
    readRules (accepted ds) fs = readRules ds fs ↔
      Forgets ds → ∃ n, readRules ds fs = .error n := by
  rw [readRules_accepted]
  cases hr : readRules ds fs with
  | error n => simp [Except.map]
  | ok r =>
    have hs : r.list.maxPageSize = pageSizeOf ds := by
      unfold readRules at hr
      split at hr
      · cases hr
      · rw [← Except.ok.inj hr, maxPageSize_rulesBy]
    have hw : r.withPageSize (pageSizeOf (accepted ds)) = r ↔ ¬Forgets ds := by
      rw [← pageSizeOf_accepted_iff, ← hs]
      constructor
      · exact fun h => congrArg (·.list.maxPageSize) h
      · intro h
        rw [h]
        rfl
    simpa [Except.map] using hw

end

/-- **A rejected argument changes nothing but a page size.**  Whatever the rules are, a directive
whose argument is rejected leaves them as they are, save that one for the page size takes away the
page size that was there.  Without the rejected directives of a list, the rules that are read for a
model are the same but for the page size, which is the last one that can be read; they are the same,
if and only if the list does not forget one, where they can be read at all. -/
theorem rejected_ignored_iff (r : ModelRules) (ds : List Rule) (m : Model) :
    (∀ d, Rejected d →
      r.apply d = (if d.key = "list.maxPageSize" then r.withPageSize none else r) ∧
        (r.apply d = r ↔ d.key ≠ "list.maxPageSize" ∨ r.list.maxPageSize = none)) ∧
    (readRules (accepted ds) m.fields =
        (readRules ds m.fields).map (fun r => r.withPageSize (pageSizeOf (accepted ds))) ∧
      pageSizes (accepted ds) = (pageSizes ds).filter Option.isSome ∧
      (readRules (accepted ds) m.fields = readRules ds m.fields ↔
        Forgets ds → ∃ n, readRules ds m.fields = .error n)) ∧
    readRules (docRules m.documentation) m.fields =
      match longInteger? m with
      | some n => .error n
      | none => .ok (rulesOf m) := by
  refine ⟨fun d h => ?_, ⟨readRules_accepted ds m.fields, pageSizes_accepted ds,
    readRules_accepted_iff ds m.fields⟩, readRules_eq m⟩
  have ha := apply_of_rejected h r
  by_cases hk : d.key = "list.maxPageSize"
  · have hn : pageSizeAfter r.list.maxPageSize d = none := by
      rw [pageSizeAfter, if_pos hk]
      cases h with
      | notInteger key args => exact args
      | _ => simp_all [jsonKeys, objectKeys]
    rw [hn] at ha
    rw [ha, if_pos hk]
    refine ⟨rfl, fun he => Or.inr (congrArg (·.list.maxPageSize) he).symm, fun he => ?_⟩
    rw [← he.resolve_left fun hne => hne hk]
    rfl
  · rw [pageSizeAfter, if_neg hk] at ha
    rw [if_neg hk]
    exact ⟨ha, iff_of_true ha (Or.inl hk)⟩

/-- a model that states its page size twice -/
def listing : Model :=
  { name := "Thing"
    documentation := some "@crud.list.maxPageSize(50)\n@crud.list.maxPageSize(lots)"
    fields := [{ name := "id", type := "Int", isId := true }] }

/-- The second page size is none, and the first one is forgotten. -/
theorem page_size_forgotten :
    docRules listing.documentation =
        [⟨"list.maxPageSize", "50"⟩, ⟨"list.maxPageSize", "lots"⟩] ∧
      Rejected ⟨"list.maxPageSize", "lots"⟩ ∧
      accepted (docRules listing.documentation) = [⟨"list.maxPageSize", "50"⟩] ∧
      (rulesBy (accepted (docRules listing.documentation)) listing.fields).list.maxPageSize =
        some 50 ∧
      (rulesOf listing).list.maxPageSize = none := by
  decide +kernel

end ZodSchema.Crud
