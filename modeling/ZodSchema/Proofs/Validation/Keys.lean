import ZodSchema.Proofs.Validation.Passed

/-!
# Keys of fields

No two entries of a model that passes validation have the same key.
-/

namespace ZodSchema.Validation

variable {d : Datamodel} {c : Config}

/-- keys that raise no error are new, each of them -/
theorem keys_of_modelFieldConcerns {camel : Bool} {model : String} {fs : List Field}
    {seen : List String} {keys : List (String × String)}
    (h : ∀ x ∈ modelFieldConcerns camel model seen keys fs, x.level ≠ .error) :
    ((fs.filter (·.isEmitted)).map (Schema.fieldKey · camel)).Nodup ∧
      ∀ f ∈ fs, f.isEmitted = true → Schema.fieldKey f camel ∉ keys.map (·.1) := by
  induction fs generalizing seen keys with
  | nil => exact ⟨List.nodup_nil, fun f hf => by cases hf⟩
  | cons f fs ih =>
    unfold modelFieldConcerns at h
    split at h
    · exact absurd rfl (h _ List.mem_cons_self)
    · split at h
      · next hn =>
        have hn : f.isEmitted = false := by simpa using hn
        obtain ⟨hnd, hrest⟩ := ih h
        refine ⟨by rwa [List.filter_cons_of_neg (by simp [hn])], ?_⟩
        intro g hg he
        rcases List.mem_cons.1 hg with rfl | hg
        · rw [hn] at he
          cases he
        · exact hrest g hg he
      · next he =>
        have he : f.isEmitted = true := by simpa using he
        have hnew : Schema.fieldKey f camel ∉ keys.map (·.1) := by
          intro hk
          obtain ⟨⟨k, g⟩, hkm, hke⟩ := List.mem_map.1 hk
          have hs : (keys.find? (·.1 == Schema.fieldKey f camel)).isSome = true :=
            List.find?_isSome.2 ⟨_, hkm, beq_iff_eq.2 hke⟩
          obtain ⟨p, hp⟩ := Option.isSome_iff_exists.1 hs
          refine h (.duplicateKey model p.2 f.name (Schema.fieldKey f camel)) ?_ rfl
          simp [hp]
        obtain ⟨hnd, hrest⟩ := ih fun x hx => h x (List.mem_append_right _ hx)
        rw [List.filter_cons_of_pos he, List.map_cons, List.nodup_cons]
        refine ⟨⟨?_, hnd⟩, ?_⟩
        · intro hm
          obtain ⟨g, hg, hge⟩ := List.mem_map.1 hm
          obtain ⟨hg, hge'⟩ := List.mem_filter.1 hg
          refine hrest g hg hge' ?_
          rw [hge]
          exact List.mem_cons_self
        · intro g hg hge
          rcases List.mem_cons.1 hg with rfl | hg
          · exact hnew
          · exact fun hk => hrest g hg hge (List.mem_cons_of_mem _ hk)

theorem keys_of_valid (h : (validate d c).isValid = true) {m : Model} (hm : m ∈ d.models) :
    (m.emittedFields.map (Schema.fieldKey · c.camelCase)).Nodup := by
  have hm : ∀ x ∈ modelFieldConcerns c.camelCase m.name [] [] m.fields, x.level ≠ .error :=
    fun x hx => (partsPass_of_valid h).fields x (List.mem_flatMap.2 ⟨m, hm, hx⟩)
  exact (keys_of_modelFieldConcerns hm).1

end ZodSchema.Validation
