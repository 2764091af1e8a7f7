import ZodSchema.Files.Plain
import ZodSchema.Proofs.Export.Turns

/-!
# One turn of a plain write

A plain write has its own target open.  Others see its directories, and the target from the turn on
that opens it.

* `steady_plainTurn`      every turn is `Stepped`
* `advancing_plainTurn`   and brings the write nearer to its end
-/

namespace ZodSchema.Export

open Files FileSystem Text

variable {j : Job} {p : Parts} {fs fs₀ : FileSystem} {pr : Progress} {e : Entry}

theorem openFault?_false (target : Parts) : openFault? false target = pathFault? target := rfl

theorem Meets.ne_target (h : Meets false fs₀ j fs pr)
    (hp : p ∈ FileSystem.opened j.target.dropLast fs₀) : p ≠ j.target := by
  rintro rfl
  exact not_mem_opened_self h.ne_nil hp

theorem stepped_plainParents (h : Meets false fs₀ j fs .parents) :
    Stepped false fs₀ j fs .parents (Progress.parents.plainTurn j fs).1
      (Progress.parents.plainTurn j fs).2 := by
  have hd : (prepare j.target j.text fs₀).2 = none := by
    cases h.phase with
    | parents hd => exact hd
  have hsame := h.same fun _ => not_shows_target h.ne_nil (Or.inr rfl)
  have hwrite : (writeJob false j fs₀).2 = (pathFault? j.target).or
      (if fs.isDir j.target then some (.isDirectory j.target) else none) := by
    rw [fault_writeJob h.ne_nil hd, openFault?_false, hsame.isDir]
    rfl
  simp only [Progress.plainTurn]
  cases ho : pathFault? j.target with
  | some f =>
    refine h.fail ?_
    rw [hwrite, ho]
    exact .some (.refl f)
  | none =>
    rw [ho, Option.none_or] at hwrite
    dsimp only
    cases hdir : fs.isDir j.target with
    | true =>
      rw [if_pos hdir] at hwrite
      rw [if_pos rfl]
      refine h.fail ?_
      rw [hwrite]
      exact .some (.refl _)
    | false =>
      rw [if_neg Bool.false_ne_true]
      have hspot : Spot fs₀ j false j.target := .target (hsame.isDir.trans hdir)
      refine ⟨.temp hd ho hspot, fun p e he => ?_, fun p hp => Or.inl ⟨fun e he => ?_, ?_⟩⟩
      · cases he with
        | opened _ hp => rw [get?_put_of_ne (h.ne_target hp), h.opened (fun h => nomatch h) hp]
        | temp => exact (get?_put _ j.target _ j.target).trans (if_pos ⟨h.ne_nil, rfl⟩)
      · cases he with
        | opened _ hm => exact hp _ (.opened (fun h => nomatch h) hm)
      · have hne : p ≠ j.target := by
          rintro rfl
          exact hp _ (.temp _)
        exact get?_put_of_ne hne _

/-- the turn that fills the target, which the write has open -/
theorem stepped_plainFill (h : Meets false fs₀ j fs pr) (hpr : pr ≠ .begun)
    (hw : (writeJob false j fs₀).2 = none) (hs : ∀ p e, Shows fs₀ j pr p e →
      p ∈ FileSystem.opened j.target.dropLast fs₀ ∧ e = .dir ∨ p = j.target) :
    Stepped false fs₀ j fs pr (fs.put j.target (.file (Str.bytes j.text))) .finished := by
  refine ⟨.finished hw, fun p e he => ?_, fun p hp => Or.inl ⟨fun e he => ?_, ?_⟩⟩
  · cases he with
    | opened _ hp => rw [get?_put_of_ne (h.ne_target hp), h.opened hpr hp]
    | written => exact (get?_put _ j.target _ j.target).trans (if_pos ⟨h.ne_nil, rfl⟩)
  · rcases hs p e he with ⟨hm, rfl⟩ | rfl
    · exact hp _ (.opened (fun h => nomatch h) hm)
    · exact hp _ .written
  · have hne : p ≠ j.target := by
      rintro rfl
      exact hp _ .written
    exact get?_put_of_ne hne _

theorem steady_plainTurn : Steady false fun _ j fs pr => pr.plainTurn j fs := by
  intro fs₀ j fs pr w h
  have hdone : (prepare j.target j.text fs₀).2 = none → openFault? false j.target = none →
      fs₀.isDir j.target = false → (writeJob false j fs₀).2 = none := by
    intro hd ho hdir
    rw [fault_writeJob h.ne_nil hd, ho, if_neg (by rw [hdir]; decide)]
    rfl
  cases pr with
  | begun => exact stepped_begun h
  | parents => exact stepped_plainParents h
  | temp t =>
    cases h.phase with
    | temp hd ho ht =>
    cases ht with
    | target hdir =>
      refine stepped_plainFill h (fun h => nomatch h) (hdone hd ho hdir) fun p e he => ?_
      generalize hp : j.target = t at he
      cases he with
      | opened _ hm => exact Or.inl ⟨hp ▸ hm, rfl⟩
      | temp => exact Or.inr rfl
  | filled t =>
    cases h.phase with
    | filled hd ho ht =>
    cases ht with
    | target hdir =>
      refine stepped_plainFill h (fun h => nomatch h) (hdone hd ho hdir) fun p e he => ?_
      generalize hp : j.target = t at he
      cases he with
      | opened _ hm => exact Or.inl ⟨hp ▸ hm, rfl⟩
      | filled => exact Or.inr rfl
  | finished => exact h.refl
  | failed f => exact h.refl

theorem advancing_plainTurn : Advancing fun _ j fs pr => pr.plainTurn j fs := by
  intro w j fs pr
  cases pr with
  | begun =>
    simp only [Progress.plainTurn, Progress.step]
    split <;> simp [turnsLeft]
  | parents =>
    simp only [Progress.plainTurn]
    split
    · simp [turnsLeft]
    · split <;> simp [turnsLeft]
  | temp | filled => exact Nat.zero_le _
  | finished | failed => exact Nat.le_refl 0

end ZodSchema.Export
