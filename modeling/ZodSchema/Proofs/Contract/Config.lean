import ZodSchema.Contract.Config

/-!
# Settings taken together

* `Config.Coherent`              what settings that are accepted keep together
* `Config.sharedDir?_eq_none_iff`  no two directories are compared equal
* `Config.objection?_eq_none_iff`  nothing speaks against coherent settings, and against no others
* `Contract.coherent_of_configOf`  the settings of a document are coherent
-/

namespace ZodSchema

namespace Config

variable {c : Config}

/-- the rules for settings as a whole -/
structure Coherent (c : Config) : Prop where
  /-- layers and CRUD schemas come with the base schemas that they import -/
  based : c.threeLayers = true ∨ c.crudSchemas = true → c.zodSchemas = true
  /-- enabled families have directories that differ, outer slashes and capitals aside -/
  apart : c.familyDirs.Pairwise fun a b => dirKey a.2 ≠ dirKey b.2
  enumFile : Text.Str.endsWith c.enumFileName ".ts" = true

/-- no directory is compared equal to one before it or to one seen -/
theorem sharedDir?_eq_none_iff {seen : List (String × Family)} {dirs : List (Family × String)} :
    sharedDir? seen dirs = none ↔
      (∀ e ∈ dirs, dirKey e.2 ∉ seen.map (·.1)) ∧
        dirs.Pairwise fun a b => dirKey a.2 ≠ dirKey b.2 := by
  induction dirs generalizing seen with
  | nil => simp [sharedDir?]
  | cons e dirs ih =>
    obtain ⟨f, dir⟩ := e
    unfold sharedDir?
    split
    · next g hg =>
      have hm : dirKey dir ∈ seen.map (·.1) :=
        List.mem_map.2 ⟨_, List.mem_of_find?_eq_some hg, by simpa using List.find?_some hg⟩
      exact iff_of_false (fun h => by cases h) fun h => h.1 _ List.mem_cons_self hm
    · next hn =>
      have hm : dirKey dir ∉ seen.map (·.1) := by
        intro hm
        obtain ⟨s, hs, he⟩ := List.mem_map.1 hm
        exact List.find?_eq_none.1 hn s hs (beq_iff_eq.2 he)
      rw [ih, List.pairwise_cons, List.forall_mem_cons]
      simp only [List.map_append, List.map_singleton, List.mem_append, List.mem_singleton, not_or]
      constructor
      · rintro ⟨h1, h2⟩
        exact ⟨⟨hm, fun e he => (h1 e he).1⟩, fun e he h => (h1 e he).2 h.symm, h2⟩
      · rintro ⟨⟨-, h1⟩, h2, h3⟩
        exact ⟨fun e he => ⟨h1 e he, fun h => h2 e he h.symm⟩, h3⟩

theorem dependants_eq_nil_iff :
    c.dependants = [] ↔ c.threeLayers = false ∧ c.crudSchemas = false := by
  unfold dependants
  cases c.threeLayers <;> cases c.crudSchemas <;> decide

theorem based_iff :
    (c.threeLayers = true ∨ c.crudSchemas = true → c.zodSchemas = true) ↔
      ¬ (!c.zodSchemas && !c.dependants.isEmpty) = true := by
  rw [Bool.and_eq_true, Bool.not_eq_true', Bool.not_eq_true', List.isEmpty_eq_false_iff, ne_eq,
    dependants_eq_nil_iff]
  cases c.zodSchemas <;> cases c.threeLayers <;> cases c.crudSchemas <;> decide

theorem objection?_eq_none_iff : c.objection? = none ↔ Coherent c := by
  unfold objection?
  split
  · next hb => exact iff_of_false (by simp) fun h => based_iff.1 h.based hb
  · next hb =>
    have hbased := based_iff.2 hb
    split
    · next hs =>
      refine iff_of_false (by simp) fun h => ?_
      have hnone : sharedDir? [] c.familyDirs = none :=
        sharedDir?_eq_none_iff.2 ⟨by simp, h.apart⟩
      rw [hs] at hnone
      cases hnone
    · next hs =>
      have hapart := (sharedDir?_eq_none_iff.1 hs).2
      split
      · next he => exact iff_of_true rfl ⟨hbased, hapart, he⟩
      · next he => exact iff_of_false (by simp) fun h => he h.enumFile

end Config

namespace Contract

variable {c : Config} {v : Value}

theorem agreed_eq_ok_iff {c' : Config} : agreed c = .ok c' ↔ c = c' ∧ c.Coherent := by
  unfold agreed
  split
  · next ho =>
    refine iff_of_false (fun h => by cases h) fun h => ?_
    rw [Config.objection?_eq_none_iff.2 h.2] at ho
    cases ho
  · next ho =>
    rw [Check.ok.injEq, and_iff_left (Config.objection?_eq_none_iff.1 ho)]

/-- settings that pass their own rules are accepted when they are coherent -/
theorem andThen_agreed {x : Check Config} (hx : x = .ok c) (hc : c.Coherent) :
    x.andThen agreed = .ok c := by
  rw [hx]
  show agreed c = .ok c
  exact agreed_eq_ok_iff.2 ⟨rfl, hc⟩

/-- the settings of a document are coherent -/
theorem coherent_of_configOf (h : configOf v = .ok c) : c.Coherent := by
  unfold configOf Check.andThen at h
  split at h
  · next hr => exact (agreed_eq_ok_iff.1 h).1 ▸ (agreed_eq_ok_iff.1 h).2
  · cases h

end Contract

end ZodSchema
