import Mathlib.Data.List.Pairwise
import ZodSchema.Files.Pool
import ZodSchema.Proofs.Export.Confined
import ZodSchema.Proofs.Files.Write

/-!
# A batch of writes

What a batch of writes leaves is told by the file system before it: each write fares there as it
would fare alone.

* `Batch`              targets of which none is another or lies below another
* `Settled`            what a batch leaves, by the writes alone
* `Settled.sameFor`    a further write meets what it would have met before the batch
* `Settled.write`      what it leaves with one write more
-/

namespace ZodSchema.Export

open Files FileSystem Text

variable {atomic : Bool} {jobs : List Job} {j k : Job} {p q : Parts}
  {fs fs' fs'' : FileSystem}

theorem Apart.symm (h : Apart p q) : Apart q p := ⟨h.2, h.1⟩

theorem Apart.ne (h : Apart p q) : p ≠ q := by
  rintro rfl
  exact h.1 (List.prefix_refl p)

/-- neither target is on the way to the other -/
theorem Apart.not_mem_opened (h : Apart p q) : p ∉ opened q.dropLast fs :=
  fun hm => h.1 ((of_mem_opened hm).1.trans (List.dropLast_prefix q))

theorem not_mem_opened_self (hp : p ≠ []) : p ∉ opened p.dropLast fs :=
  fun hm => not_prefix_dropLast hp (of_mem_opened hm).1

/-- targets of which none is the root, another one or below another one -/
structure Batch (jobs : List Job) : Prop where
  apart : jobs.Pairwise fun j k => Apart j.target k.target
  ne_nil : ∀ j ∈ jobs, j.target ≠ []

namespace Batch

theorem apart_of_ne (h : Batch jobs) (hj : j ∈ jobs) (hk : k ∈ jobs) (hne : j ≠ k) :
    Apart j.target k.target := by
  have : Std.Symm fun j k : Job => Apart j.target k.target := ⟨fun _ _ ha => ha.symm⟩
  exact h.apart.forall hj hk hne

/-- there is one job for a target -/
theorem eq_of_target_eq (h : Batch jobs) (hj : j ∈ jobs) (hk : k ∈ jobs)
    (he : j.target = k.target) : j = k := by
  by_contra hne
  exact (h.apart_of_ne hj hk hne).ne he

end Batch

/-- the write of a job -/
def writeJob (atomic : Bool) (j : Job) (fs : FileSystem) : FileSystem × Option Fault :=
  write atomic j.target j.text fs

/-- what a batch leaves from `fs`: the files that can be written there, and directories on the way
to every target -/
structure Settled (atomic : Bool) (jobs : List Job) (fs fs' : FileSystem) : Prop where
  written : ∀ j ∈ jobs, (writeJob atomic j fs).2 = none →
    fs'.get? j.target = some (.file (Str.bytes j.text))
  opened : ∀ j ∈ jobs, ∀ p ∈ opened j.target.dropLast fs, fs'.get? p = some .dir
  kept : ∀ p, (∀ j ∈ jobs, (writeJob atomic j fs).2 = none → p ≠ j.target) →
    (∀ j ∈ jobs, p ∉ FileSystem.opened j.target.dropLast fs) → fs'.get? p = fs.get? p

namespace Settled

theorem refl (atomic : Bool) (fs : FileSystem) : Settled atomic [] fs fs :=
  ⟨fun _ hj => absurd hj List.not_mem_nil, fun _ hj => absurd hj List.not_mem_nil,
    fun _ _ _ => rfl⟩

/-- all that a batch leaves is told by the file system before it -/
theorem get?_eq (h : Settled atomic jobs fs fs') (h' : Settled atomic jobs fs fs'') (p : Parts) :
    fs'.get? p = fs''.get? p := by
  by_cases hw : ∃ j ∈ jobs, (writeJob atomic j fs).2 = none ∧ p = j.target
  · obtain ⟨j, hj, hn, rfl⟩ := hw
    rw [h.written j hj hn, h'.written j hj hn]
  · by_cases ho : ∃ j ∈ jobs, p ∈ FileSystem.opened j.target.dropLast fs
    · obtain ⟨j, hj, hp⟩ := ho
      rw [h.opened j hj p hp, h'.opened j hj p hp]
    · have h1 : ∀ j ∈ jobs, (writeJob atomic j fs).2 = none → p ≠ j.target :=
        fun j hj hn he => hw ⟨j, hj, hn, he⟩
      have h2 : ∀ j ∈ jobs, p ∉ FileSystem.opened j.target.dropLast fs :=
        fun j hj hp => ho ⟨j, hj, hp⟩
      rw [h.kept p h1 h2, h'.kept p h1 h2]

/-- what is there afterwards is a file of the batch, a directory on the way to one, or it was there
before -/
theorem cases_get? (h : Settled atomic jobs fs fs') (p : Parts) :
    (∃ j ∈ jobs, (writeJob atomic j fs).2 = none ∧ p = j.target) ∨
      (∃ j ∈ jobs, p ∈ FileSystem.opened j.target.dropLast fs) ∨ fs'.get? p = fs.get? p := by
  by_cases hw : ∃ j ∈ jobs, (writeJob atomic j fs).2 = none ∧ p = j.target
  · exact Or.inl hw
  · by_cases ho : ∃ j ∈ jobs, p ∈ FileSystem.opened j.target.dropLast fs
    · exact Or.inr (Or.inl ho)
    · exact Or.inr (Or.inr (h.kept p (fun j hj hn he => hw ⟨j, hj, hn, he⟩)
        fun j hj hp => ho ⟨j, hj, hp⟩))

/-- a path apart from all targets is as before -/
theorem get?_of_apart (h : Settled atomic jobs fs fs') (ha : ∀ j ∈ jobs, Apart p j.target) :
    fs'.get? p = fs.get? p :=
  h.kept p (fun j hj _ => (ha j hj).ne) fun j hj => (ha j hj).not_mem_opened

/-- a write apart from the batch meets what it would have met before -/
theorem sameFor (h : Settled atomic jobs fs fs') (ha : ∀ j ∈ jobs, Apart k.target j.target) :
    SameFor k.target fs fs' := by
  refine ⟨fun q hq => ?_, ?_⟩
  · have hq' : q <+: k.target := hq.trans (List.dropLast_prefix _)
    rcases h.cases_get? q with ⟨j, hj, _, rfl⟩ | ⟨j, hj, hp⟩ | he
    · exact absurd hq' (ha j hj).2
    · rw [(of_mem_opened hp).2.2, isFile_of_dir (h.opened j hj q hp)]
    · exact (isFile_congr he).symm
  · unfold FileSystem.isDir
    rw [h.get?_of_apart ha]

/-- the batch with one write more -/
theorem write (h : Settled atomic jobs fs fs') (hn : k.target ≠ [])
    (ha : ∀ j ∈ jobs, Apart k.target j.target) :
    Settled atomic (jobs ++ [k]) fs (writeJob atomic k fs').1 := by
  have hsame := h.sameFor ha
  have hfault : (writeJob atomic k fs).2 = none ↔ (writeJob atomic k fs').2 = none :=
    (hsame.alike_write atomic hn k.text).eq_none_iff
  have hget : ∀ p, (writeJob atomic k fs').1.get? p =
      if (writeJob atomic k fs).2 = none ∧ p = k.target then some (.file (Str.bytes k.text))
      else if p ∈ FileSystem.opened k.target.dropLast fs then some .dir else fs'.get? p := by
    intro p
    rw [hsame.opened_eq]
    simp only [hfault]
    exact get?_write atomic hn k.text fs' p
  refine ⟨fun j hj hw => ?_, fun j hj p hp => ?_, fun p hp ho => ?_⟩
  · rw [hget]
    rcases List.mem_append.1 hj with hj | hj
    · rw [if_neg fun he => (ha j hj).ne he.2.symm, if_neg (ha j hj).symm.not_mem_opened]
      exact h.written j hj hw
    · obtain rfl := List.mem_singleton.1 hj
      rw [if_pos ⟨hw, rfl⟩]
  · rw [hget]
    rcases List.mem_append.1 hj with hj | hj
    · have hne : p ≠ k.target := by
        rintro rfl
        exact (ha j hj).not_mem_opened hp
      rw [if_neg fun he => hne he.2, h.opened j hj p hp, ite_self]
    · obtain rfl := List.mem_singleton.1 hj
      have hne : p ≠ j.target := by
        rintro rfl
        exact not_mem_opened_self hn hp
      rw [if_neg fun he => hne he.2, if_pos hp]
  · have hk : k ∈ jobs ++ [k] := List.mem_append_right _ (List.mem_singleton_self k)
    rw [hget, if_neg fun he => hp k hk he.1 he.2, if_neg (ho k hk)]
    exact h.kept p (fun j hj => hp j (List.mem_append_left _ hj))
      fun j hj => ho j (List.mem_append_left _ hj)

end Settled

end ZodSchema.Export
