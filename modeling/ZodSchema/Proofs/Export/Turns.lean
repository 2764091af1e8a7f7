import Mathlib.Data.List.Basic
import ZodSchema.Proofs.Export.Jobs

/-!
# One turn of a write

What a write on its way shows to others, and what one turn of it changes there.

* `TempsApart`     no target can be met by a temporary file of the batch
* `Spot`           where a write has its file open: a temporary file, or the target itself
* `Shows`          what a write on its way has put where
* `Phase`          what a write on its way tells of the beginning
* `Shows.unique`   where two writes show, both show the same
* `Stepped`        a turn of a write, as all others see it
* `Steady`         turns that are all `Stepped`
* `steady_turn`    those by way of a temporary file are
-/

namespace ZodSchema.Export

open Files FileSystem Text

variable {atomic : Bool} {jobs : List Job} {j k : Job} {p q t : Parts} {w w' : String}
  {pr pr' : Progress} {fs fs' fs₀ : FileSystem} {e e' : Entry} {f : Fault}

/-! ## names of temporary files -/

theorem append_cons_inj {α : Type} {c : α} {a a' b b' : List α} (hb : c ∉ b) (hb' : c ∉ b')
    (h : a ++ c :: b = a' ++ c :: b') : a = a' ∧ b = b' := by
  rcases List.append_eq_append_iff.1 h with ⟨l, ha, he⟩ | ⟨l, ha, he⟩
  · cases l with
    | nil => exact ⟨by rw [ha, List.append_nil], (List.cons.inj he).2⟩
    | cons x l =>
      have hm : c ∈ b := by
        rw [(List.cons.inj he).2]
        exact List.mem_append_right _ List.mem_cons_self
      exact absurd hm hb
  · cases l with
    | nil => exact ⟨by rw [ha, List.append_nil], (List.cons.inj he).2.symm⟩
    | cons x l =>
      have hm : c ∈ b' := by
        rw [(List.cons.inj he).2]
        exact List.mem_append_right _ List.mem_cons_self
      exact absurd hm hb'

theorem dropLast_append_fileName (hp : p ≠ []) : p.dropLast ++ [Path.fileName p] = p := by
  have h := List.dropLast_append_getLast hp
  unfold Path.fileName
  rw [List.getLast?_eq_some_getLast hp, Option.getD_some, h]

theorem wordPath_inj (hp : p ≠ []) (hq : q ≠ []) (hw : '.' ∉ w.toList) (hw' : '.' ∉ w'.toList)
    (h : wordPath p w = wordPath q w') : p = q := by
  obtain ⟨hd, hn⟩ := List.append_inj' h rfl
  have hl := congrArg String.toList (List.singleton_inj.1 hn)
  simp only [String.toList_append, List.append_assoc] at hl
  have hcut := List.append_cancel_left hl
  rw [← List.append_assoc, ← List.append_assoc, ← List.append_assoc, ← List.append_assoc] at hcut
  have hsep := List.append_cancel_right hcut
  have hdot : ".".toList = ['.'] := rfl
  rw [hdot, List.append_assoc, List.append_assoc, List.singleton_append,
    List.singleton_append] at hsep
  have hname := (append_cons_inj hw hw' hsep).1
  rw [← dropLast_append_fileName hp, ← dropLast_append_fileName hq, hd,
    String.toList_injective hname]

theorem wordPath_ne_nil (p : Parts) (w : String) : wordPath p w ≠ [] :=
  List.append_ne_nil_of_right_ne_nil _ (List.cons_ne_nil _ _)

/-- what stands between the last two dots of a temporary name -/
def IsWord (w : String) : Prop := isTempWord w = true ∨ ∃ n, w = padded 8 n

theorem IsWord.not_mem (h : IsWord w) : '.' ∉ w.toList := by
  intro hm
  rcases h with h | ⟨n, rfl⟩
  · have hc := List.all_eq_true.1 (Bool.and_eq_true_iff.1 h).2 '.' hm
    revert hc
    decide
  · have hr := isIdentRest_padded 8 n hm
    revert hr
    decide

/-- a path that a temporary file of the write can get -/
def IsTemp (j : Job) (t : Parts) : Prop := ∃ w, IsWord w ∧ t = wordPath j.target w

theorem isTemp_freshTemp (j : Job) (fs : FileSystem) : IsTemp j (freshTemp j.target fs) :=
  ⟨_, Or.inr ⟨_, rfl⟩, rfl⟩

/-- the path that is picked for a temporary file is free -/
theorem pickTemp_spec (w : String) (j : Job) (fs : FileSystem) :
    IsTemp j (pickTemp w j.target fs) ∧ fs.get? (pickTemp w j.target fs) = none := by
  unfold pickTemp
  split
  · next h =>
    obtain ⟨hw, hf⟩ := Bool.and_eq_true_iff.1 h
    exact ⟨⟨w, Or.inl hw, rfl⟩, Option.isNone_iff_eq_none.1 hf⟩
  · exact ⟨isTemp_freshTemp j fs, get?_freshTemp j.target fs⟩

theorem IsTemp.ne_nil (h : IsTemp j t) : t ≠ [] := by
  obtain ⟨w, _, rfl⟩ := h
  exact wordPath_ne_nil _ w

theorem IsTemp.ne_target (h : IsTemp j t) : j.target ≠ t := by
  obtain ⟨w, _, rfl⟩ := h
  refine ne_beside ?_
  have hd : ".".toList.length = 1 := rfl
  simp only [String.toList_append, List.length_append]
  omega

/-- no target of a batch is, or lies below, a path that a temporary file of the batch can get -/
def TempsApart (jobs : List Job) : Prop :=
  ∀ j ∈ jobs, ∀ k ∈ jobs, ∀ w, IsWord w → ¬ wordPath j.target w <+: k.target

theorem TempsApart.not_on_way (h : TempsApart jobs) (hj : j ∈ jobs) (hk : k ∈ jobs)
    (ht : IsTemp j t) : ¬ t <+: k.target := by
  obtain ⟨w, hw, rfl⟩ := ht
  exact h j hj k hk w hw

/-- a name like those of temporary files -/
def isTempName (name : String) : Bool :=
  name.toList.head? == some '.' && ".tmp".toList.isSuffixOf name.toList

/-- targets without such names are never met -/
theorem tempsApart_of_names (h : ∀ k ∈ jobs, ∀ name ∈ k.target, isTempName name = false) :
    TempsApart jobs := by
  intro j _ k hk w _ hp
  let temp := "." ++ Path.fileName j.target ++ "." ++ w ++ ".tmp"
  have hm : temp ∈ k.target := hp.subset (List.mem_append_right _ (List.mem_singleton_self _))
  have htemp : isTempName temp = true := by
    unfold isTempName temp
    rw [Bool.and_eq_true_iff, List.isSuffixOf_iff_suffix]
    simp only [String.toList_append, List.append_assoc]
    refine ⟨rfl, ?_⟩
    exact List.suffix_append_of_suffix (List.suffix_append_of_suffix (List.suffix_append_of_suffix
      (List.suffix_append _ _)))
  rw [h k hk temp hm] at htemp
  cases htemp

/-! ## a write on its way -/

/-- where a write that began in `fs` has its file open -/
inductive Spot (fs : FileSystem) (j : Job) : Bool → Parts → Prop where
  | temp {t : Parts} (ht : IsTemp j t) (hf : fs.get? t = none) : Spot fs j true t
  | target (hd : fs.isDir j.target = false) : Spot fs j false j.target

/-- what a write that began in `fs` shows at a path -/
inductive Shows (fs : FileSystem) (j : Job) : Progress → Parts → Entry → Prop where
  | opened {pr : Progress} {p : Parts} (hb : pr ≠ .begun) (hp : p ∈ opened j.target.dropLast fs) :
      Shows fs j pr p .dir
  | temp (t : Parts) : Shows fs j (.temp t) t (.file ByteArray.empty)
  | filled (t : Parts) : Shows fs j (.filled t) t (.file (Str.bytes j.text))
  | written : Shows fs j .finished j.target (.file (Str.bytes j.text))

/-- what a write on its way tells of `fs`, where it began -/
inductive Phase (atomic : Bool) (fs : FileSystem) (j : Job) : Progress → Prop where
  | begun : Phase atomic fs j .begun
  | parents (hd : (prepare j.target j.text fs).2 = none) : Phase atomic fs j .parents
  | temp {t : Parts} (hd : (prepare j.target j.text fs).2 = none)
      (ho : openFault? atomic j.target = none) (ht : Spot fs j atomic t) :
      Phase atomic fs j (.temp t)
  | filled {t : Parts} (hd : (prepare j.target j.text fs).2 = none)
      (ho : openFault? atomic j.target = none) (ht : Spot fs j atomic t) :
      Phase atomic fs j (.filled t)
  | finished (hw : (writeJob atomic j fs).2 = none) : Phase atomic fs j .finished
  | failed {f : Fault} (hw : AlikeFaults j.target (some f) (writeJob atomic j fs).2) :
      Phase atomic fs j (.failed f)

theorem Spot.ne_nil (hn : j.target ≠ []) (h : Spot fs j atomic t) : t ≠ [] := by
  cases h with
  | temp ht _ => exact ht.ne_nil
  | target => exact hn

theorem not_shows_begun : ¬ Shows fs j .begun p e := by
  intro h
  cases h with
  | opened hb _ => exact hb rfl

/-- a write shows on the way to its target, where it has its file open or at the target -/
theorem Shows.cases_path (h : Shows fs j pr p e) (hph : Phase atomic fs j pr) :
    (e = .dir ∧ p ∈ FileSystem.opened j.target.dropLast fs) ∨ Spot fs j atomic p ∨
      p = j.target := by
  cases h with
  | opened _ hp => exact Or.inl ⟨rfl, hp⟩
  | temp t =>
    cases hph with
    | temp _ _ ht => exact Or.inr (Or.inl ht)
  | filled t =>
    cases hph with
    | filled _ _ ht => exact Or.inr (Or.inl ht)
  | written => exact Or.inr (Or.inr rfl)

/-- a write that has made directories only does not show at its target -/
theorem not_shows_target (hn : j.target ≠ []) (hpr : pr = .begun ∨ pr = .parents) :
    ¬ Shows fs j pr j.target e := by
  intro h
  cases h with
  | opened _ hp => exact not_mem_opened_self hn hp
  | _ => rcases hpr with hpr | hpr <;> cases hpr

section
variable (hb : Batch jobs) (ht : atomic = true → TempsApart jobs) (hj : j ∈ jobs) (hk : k ∈ jobs)
include hb ht hj hk

/-- a write has its file open off the way to the target of another one -/
theorem Spot.not_on_way (hne : j ≠ k) (h : Spot fs j atomic t) : ¬ t <+: k.target := by
  cases h with
  | temp htemp _ => exact (ht rfl).not_on_way hj hk htemp
  | target => exact (hb.apart_of_ne hj hk hne).1

theorem not_spot_of_shows (hne : j ≠ k) (h : Shows fs k pr p e) (hph : Phase atomic fs k pr) :
    ¬ Spot fs j atomic p := by
  intro hs
  have hno := hs.not_on_way hb ht hj hk hne
  rcases h.cases_path hph with ⟨_, hp⟩ | hp | rfl
  · exact hno ((of_mem_opened hp).1.trans (List.dropLast_prefix _))
  · cases hs with
    | temp hs _ =>
      cases hp with
      | temp hp _ =>
        obtain ⟨w, hw, rfl⟩ := hs
        obtain ⟨w', hw', he⟩ := hp
        have htarget := wordPath_inj (hb.ne_nil j hj) (hb.ne_nil k hk) hw.not_mem hw'.not_mem he
        exact hne (hb.eq_of_target_eq hj hk htarget)
    | target => exact hp.not_on_way hb ht hk hj hne.symm (List.prefix_refl _)
  · exact hno (List.prefix_refl _)

theorem ne_target_of_shows (hne : j ≠ k) (h : Shows fs k pr p e) (hph : Phase atomic fs k pr) :
    p ≠ j.target := by
  rintro rfl
  have ha := hb.apart_of_ne hj hk hne
  rcases h.cases_path hph with ⟨_, hp⟩ | hp | he
  · exact ha.not_mem_opened hp
  · exact hp.not_on_way hb ht hk hj hne.symm (List.prefix_refl _)
  · exact ha.ne he

/-- where two writes show, both show the same -/
theorem Shows.unique (hne : j ≠ k) (h : Shows fs j pr p e) (hph : Phase atomic fs j pr)
    (h' : Shows fs k pr' p e') (hph' : Phase atomic fs k pr') : e = e' := by
  rcases h.cases_path hph with ⟨rfl, _⟩ | hp | hp
  · rcases h'.cases_path hph' with ⟨rfl, _⟩ | hp' | hp'
    · rfl
    · exact absurd hp' (not_spot_of_shows hb ht hk hj hne.symm h hph)
    · exact absurd hp' (ne_target_of_shows hb ht hk hj hne.symm h hph)
  · exact absurd hp (not_spot_of_shows hb ht hj hk hne h' hph')
  · exact absurd hp (ne_target_of_shows hb ht hj hk hne h' hph')

end

/-! ## one turn of one write -/

/-- a turn of a write, as all others see it: where the write does not show afterwards, either it
did not show before and nothing has changed, or the file that it had open is gone -/
structure Stepped (atomic : Bool) (fs₀ : FileSystem) (j : Job) (fs : FileSystem) (pr : Progress)
    (fs' : FileSystem) (pr' : Progress) : Prop where
  phase : Phase atomic fs₀ j pr'
  shown : ∀ p e, Shows fs₀ j pr' p e → fs'.get? p = some e
  kept : ∀ p, (∀ e, ¬ Shows fs₀ j pr' p e) →
    ((∀ e, ¬ Shows fs₀ j pr p e) ∧ fs'.get? p = fs.get? p) ∨
      (Spot fs₀ j atomic p ∧ fs'.get? p = fs₀.get? p)

/-- in what turns of a write find, nothing has come between: a write that does not show at its
target meets what it would have met at the beginning, it shows what it has put, and what is free
was free -/
structure Meets (atomic : Bool) (fs₀ : FileSystem) (j : Job) (fs : FileSystem) (pr : Progress) :
    Prop where
  ne_nil : j.target ≠ []
  phase : Phase atomic fs₀ j pr
  same : (∀ e, ¬ Shows fs₀ j pr j.target e) → SameFor j.target fs₀ fs
  shown : ∀ p e, Shows fs₀ j pr p e → fs.get? p = some e
  free : ∀ t, fs.get? t = none → fs₀.get? t = none

/-- turns that are `Stepped`, whoever comes between them -/
def Steady (atomic : Bool) (step : String → Job → FileSystem → Progress → FileSystem × Progress) :
    Prop :=
  ∀ {fs₀ j fs pr} (w : String), Meets atomic fs₀ j fs pr →
    Stepped atomic fs₀ j fs pr (step w j fs pr).1 (step w j fs pr).2

/-- a write that keeps its place changes nothing -/
theorem Meets.refl (h : Meets atomic fs₀ j fs pr) : Stepped atomic fs₀ j fs pr fs pr :=
  ⟨h.phase, h.shown, fun _ hp => Or.inl ⟨hp, rfl⟩⟩

/-- a write that fails without changing anything -/
theorem Meets.fail (h : Meets atomic fs₀ j fs .parents)
    (hw : AlikeFaults j.target (some f) (writeJob atomic j fs₀).2) :
    Stepped atomic fs₀ j fs .parents fs (.failed f) := by
  refine ⟨.failed hw, fun p e he => ?_, fun p hp => Or.inl ⟨fun e he => ?_, rfl⟩⟩
  · cases he with
    | opened _ hp => exact h.shown p _ (.opened (fun h => nomatch h) hp)
  · cases he with
    | opened _ hm => exact hp _ (.opened (fun h => nomatch h) hm)

theorem Meets.opened (h : Meets atomic fs₀ j fs pr) (hpr : pr ≠ .begun)
    (hp : p ∈ FileSystem.opened j.target.dropLast fs₀) : fs.get? p = some .dir :=
  h.shown p _ (.opened hpr hp)

/-- the fault of a write for which nothing can be prepared -/
theorem fault_writeJob_of_unready (hn : j.target ≠ [])
    (hd : (prepare j.target j.text fs).2 = some f) : (writeJob atomic j fs).2 = some f := by
  unfold writeJob
  rw [fault_write atomic hn, ← prepare_snd, hd]
  rfl

/-- the fault of a write that has been prepared -/
theorem fault_writeJob (hn : j.target ≠ []) (hd : (prepare j.target j.text fs).2 = none) :
    (writeJob atomic j fs).2 = (openFault? atomic j.target).or
      (if fs.isDir j.target then some (dirFault atomic j.target fs) else none) := by
  unfold writeJob
  rw [fault_write atomic hn, ← prepare_snd, hd, Option.none_or]

theorem alike_prepare (h : SameFor j.target fs fs') :
    AlikeFaults j.target (prepare j.target j.text fs).2 (prepare j.target j.text fs').2 := by
  have hm := alike_makeDirs h.isFile
  rw [prepare_snd, prepare_snd]
  generalize (fs.makeDirs j.target.dropLast).2 = f at hm ⊢
  generalize (fs'.makeDirs j.target.dropLast).2 = f' at hm ⊢
  cases hm with
  | some h => exact .some (h.mono (List.dropLast_prefix j.target))
  | none => exact .refl _ _

/-- the first turn makes the directories on the way -/
theorem stepped_begun (h : Meets atomic fs₀ j fs .begun) :
    Stepped atomic fs₀ j fs .begun (Progress.begun.step j.target j.text fs).1
      (Progress.begun.step j.target j.text fs).2 := by
  have hsame := h.same fun _ => not_shows_begun
  have hfault := alike_prepare hsame
  have hget : ∀ p, (prepare j.target j.text fs).1.get? p =
      if p ∈ FileSystem.opened j.target.dropLast fs₀ then some .dir else fs.get? p := by
    intro p
    rw [prepare_fst, get?_makeDirs, hsame.opened_eq]
  have hkept : ∀ pr p, pr ≠ Progress.begun → (∀ e, ¬ Shows fs₀ j pr p e) →
      (prepare j.target j.text fs).1.get? p = fs.get? p := by
    intro pr p hpr hp
    rw [hget, if_neg fun hm => hp _ (.opened hpr hm)]
  simp only [Progress.step]
  cases hm : prepare j.target j.text fs with
  | mk fs₁ f =>
    rw [hm] at hfault hget hkept
    cases f with
    | none =>
      refine ⟨.parents (hfault.eq_none_iff.2 rfl), fun p e he => ?_,
        fun p hp => Or.inl ⟨fun _ => not_shows_begun, ?_⟩⟩
      · cases he with
        | opened _ hp => rw [hget, if_pos hp]
      · exact hkept .parents p (by simp) hp
    | some f =>
      have hphase : AlikeFaults j.target (some f) (writeJob atomic j fs₀).2 := by
        cases hd : (prepare j.target j.text fs₀).2 with
        | none =>
          rw [hd] at hfault
          cases hfault
        | some g =>
          rw [hd] at hfault
          rw [fault_writeJob_of_unready h.ne_nil hd]
          cases hfault with
          | some h => exact .some h.symm
      refine ⟨.failed hphase, fun p e he => ?_, fun p hp => Or.inl ⟨fun _ => not_shows_begun, ?_⟩⟩
      · cases he with
        | opened _ hp => rw [hget, if_pos hp]
      · exact hkept (.failed f) p (by simp) hp

/-! ## turns by way of a temporary file -/

theorem openFault?_true (target : Parts) : openFault? true target = pathFault? (tempPath target 0) :=
  rfl

theorem stepped_parents (h : Meets true fs₀ j fs .parents) (w : String) :
    Stepped true fs₀ j fs .parents (Progress.parents.turn w j fs).1
      (Progress.parents.turn w j fs).2 := by
  have hd : (prepare j.target j.text fs₀).2 = none := by
    cases h.phase with
    | parents hd => exact hd
  have hopen := openFault?_true j.target
  simp only [Progress.turn]
  cases ho : pathFault? (tempPath j.target 0) with
  | some f =>
    refine h.fail ?_
    rw [fault_writeJob h.ne_nil hd, hopen, ho]
    exact .some (.refl f)
  | none =>
    -- the name is free now, so it was free at the beginning
    obtain ⟨htemp, hnone⟩ := pickTemp_spec w j fs
    dsimp only
    generalize pickTemp w j.target fs = t at htemp hnone ⊢
    refine ⟨.temp hd (hopen.trans ho) (.temp htemp (h.free t hnone)), fun p e he => ?_,
      fun p hp => Or.inl ⟨fun e he => ?_, ?_⟩⟩
    · cases he with
      | opened _ hp =>
        have hdir := h.opened (by simp) hp
        have hne : p ≠ t := by
          rintro rfl
          rw [hdir] at hnone
          cases hnone
        rw [get?_put_of_ne hne, hdir]
      | temp => rw [get?_put, if_pos ⟨htemp.ne_nil, rfl⟩]
    · cases he with
      | opened _ hm => exact hp _ (.opened (by simp) hm)
    · have hne : p ≠ t := by
        rintro rfl
        exact hp _ (.temp p)
      exact get?_put_of_ne hne _

/-- the file that a write has open is told from the directories on the way -/
theorem Meets.ne_spot {c : ByteArray} (h : Meets atomic fs₀ j fs pr) (hpr : pr ≠ .begun)
    (ht : Shows fs₀ j pr t (.file c)) (hp : p ∈ FileSystem.opened j.target.dropLast fs₀) :
    p ≠ t := by
  rintro rfl
  have hdir := h.opened hpr hp
  rw [h.shown p _ ht] at hdir
  cases hdir

theorem stepped_temp (h : Meets true fs₀ j fs (.temp t)) (w : String) :
    Stepped true fs₀ j fs (.temp t) ((Progress.temp t).turn w j fs).1
      ((Progress.temp t).turn w j fs).2 := by
  have hfill : fill t j.text fs = fs.put t (.file (Str.bytes j.text)) := by
    unfold fill
    rw [h.shown t _ (.temp t)]
    rfl
  simp only [Progress.turn, Progress.step, hfill]
  cases h.phase with
  | temp hd ho ht =>
    refine ⟨.filled hd ho ht, fun p e he => ?_, fun p hp => Or.inl ⟨fun e he => ?_, ?_⟩⟩
    · cases he with
      | opened _ hp =>
        rw [get?_put_of_ne (h.ne_spot (by simp) (.temp t) hp),
          h.opened (by simp) hp]
      | filled => rw [get?_put, if_pos ⟨ht.ne_nil h.ne_nil, rfl⟩]
    · cases he with
      | opened _ hm => exact hp _ (.opened (by simp) hm)
      | temp => exact hp _ (.filled t)
    · have hne : p ≠ t := by
        rintro rfl
        exact hp _ (.filled p)
      exact get?_put_of_ne hne _

/-- the directories on the way stay when the temporary file goes -/
theorem Meets.get?_erase_opened (h : Meets true fs₀ j fs (.filled t))
    (hp : p ∈ FileSystem.opened j.target.dropLast fs₀) : (fs.erase t).get? p = some .dir := by
  have hne := h.ne_spot (by simp) (.filled t) hp
  rw [get?_erase, if_neg fun h => hne h.2, h.opened (by simp) hp]

/-- off the way to the target only the temporary file changes when it goes -/
theorem get?_erase_off_way (ht : IsTemp j t) (hf : fs₀.get? t = none)
    (hp : p ∉ FileSystem.opened j.target.dropLast fs₀) :
    ((∀ e, ¬ Shows fs₀ j (.filled t) p e) ∧ (fs.erase t).get? p = fs.get? p) ∨
      (Spot fs₀ j true p ∧ (fs.erase t).get? p = fs₀.get? p) := by
  by_cases hpt : p = t
  · subst hpt
    refine Or.inr ⟨.temp ht hf, ?_⟩
    rw [get?_erase, if_pos ⟨ht.ne_nil, rfl⟩, hf]
  · refine Or.inl ⟨fun e he => ?_, ?_⟩
    · cases he with
      | opened _ h => exact hp h
      | filled => exact hpt rfl
    · rw [get?_erase, if_neg fun h => hpt h.2]

theorem stepped_filled (h : Meets true fs₀ j fs (.filled t)) (w : String) :
    Stepped true fs₀ j fs (.filled t) ((Progress.filled t).turn w j fs).1
      ((Progress.filled t).turn w j fs).2 := by
  cases h.phase with
  | filled hd ho hspot =>
    cases hspot with
    | temp ht hf =>
    have hsame : SameFor j.target fs₀ fs := h.same fun e he => by
      generalize hp : j.target = p at he
      cases he with
      | opened _ hm =>
        subst hp
        exact not_mem_opened_self h.ne_nil hm
      | filled => exact ht.ne_target hp
    have hwrite : (writeJob true j fs₀).2 =
        if fs.isDir j.target then some (dirFault true j.target fs₀) else none := by
      rw [fault_writeJob h.ne_nil hd, ho, hsame.isDir]
      rfl
    simp only [Progress.turn, Progress.step, h.shown t _ (.filled t)]
    cases hdir : fs.isDir j.target with
    | true =>
      rw [if_pos hdir] at hwrite
      rw [if_pos rfl]
      have hphase : AlikeFaults j.target (some (.isDirectoryAt t j.target))
          (writeJob true j fs₀).2 := by
        rw [hwrite]
        exact .some (.temp t _ j.target)
      refine ⟨.failed hphase, fun p e he => ?_, fun p hp => get?_erase_off_way ht hf fun hm => ?_⟩
      · cases he with
        | opened _ hp => exact h.get?_erase_opened hp
      · exact hp _ (.opened (by simp) hm)
    | false =>
      rw [if_neg (by rw [hdir]; decide)] at hwrite
      rw [if_neg (by decide)]
      refine ⟨.finished hwrite, fun p e he => ?_, fun p hp => ?_⟩
      · cases he with
        | opened _ hp =>
          have hne : p ≠ j.target := by
            rintro rfl
            exact not_mem_opened_self h.ne_nil hp
          exact (get?_put_of_ne hne _).trans (h.get?_erase_opened hp)
        | written => exact (get?_put _ j.target _ j.target).trans (if_pos ⟨h.ne_nil, rfl⟩)
      · have hne : p ≠ j.target := by
          rintro rfl
          exact hp _ .written
        dsimp only
        rw [get?_put_of_ne hne]
        exact get?_erase_off_way ht hf fun hm => hp _ (.opened (by simp) hm)

theorem steady_turn : Steady true fun w j fs pr => pr.turn w j fs := by
  intro fs₀ j fs pr w h
  cases pr with
  | begun => exact stepped_begun h
  | parents => exact stepped_parents h w
  | temp t => exact stepped_temp h w
  | filled t => exact stepped_filled h w
  | finished => exact h.refl
  | failed f => exact h.refl

/-! ## the way to the end -/

/-- how many turns a write takes to its end, at most -/
def turnsLeft : Progress → Nat
  | .begun => 4
  | .parents => 3
  | .temp _ => 2
  | .filled _ => 1
  | .finished => 0
  | .failed _ => 0

/-- turns that bring a write nearer to its end -/
def Advancing (step : String → Job → FileSystem → Progress → FileSystem × Progress) : Prop :=
  ∀ w j fs pr, turnsLeft (step w j fs pr).2 ≤ turnsLeft pr - 1

theorem advancing_turn : Advancing fun w j fs pr => pr.turn w j fs := by
  intro w j fs pr
  cases pr with
  | begun =>
    simp only [Progress.turn, Progress.step]
    split <;> simp [turnsLeft]
  | parents =>
    simp only [Progress.turn]
    split <;> simp [turnsLeft]
  | temp t => exact Nat.le_refl 1
  | filled t =>
    simp only [Progress.turn, Progress.step]
    split
    · simp [turnsLeft]
    · split <;> simp [turnsLeft]
  | finished => exact Nat.le_refl 0
  | failed f => exact Nat.le_refl 0

end ZodSchema.Export
