import Mathlib.Data.List.Basic
import Mathlib.Order.Basic
import ZodSchema.Annotations.Chain

/-!
# How a chain is cut

The scanner is in its initial state behind every cut.  So a part says on its own whether a dot in
it cuts and where it leaves the scanner, whatever stands before it.

* `ChainState.run`       the state behind a text
* `ChainState.pass?`     the same for a text in which no dot cuts
* `Whole`, `Closed`      no dot of a text cuts; nothing is open at its end either
* `splitChain_append`    a closed text in front of a dot is a part
* `mem_splitChain`       the parts of a chain are whole, and closed when it leaves nothing open
* `splitChain_intercalate_iff`   texts joined by dots are cut at these dots and no others
* `ChainState.uncut`     a text without the dots that cut
* `splitChain_stable`    nothing else is lost, and the parts are not cut again
-/

namespace ZodSchema.Annotations

namespace ChainState

/-- the state behind a text -/
def run (st : ChainState) (cs : List Char) : ChainState := cs.foldl (fun st c => (st.next c).1) st

/-- outside parentheses, quotes and regular expressions -/
def IsLevel (st : ChainState) : Prop := st.depth = 0 ∧ st.regex = false ∧ st.quote = none

/-- the state behind a text in which no dot cuts -/
def pass? (st : ChainState) : List Char → Option ChainState
  | [] => some st
  | c :: cs => if (st.next c).2 then none else (st.next c).1.pass? cs

variable {st st' : ChainState} {c : Char} {cs : List Char}

/-- a cut leads back to the initial state -/
theorem next_dot (h : st.IsLevel) : st.next '.' = (start, true) := by
  obtain ⟨depth, regex, quote, escaped⟩ := st
  obtain ⟨rfl, rfl, rfl⟩ := h
  rfl

/-- a cut is a dot where nothing is open -/
theorem next_snd_iff : (st.next c).2 = true ↔ c = '.' ∧ st.IsLevel := by
  constructor
  · intro h
    unfold next at h
    split at h
    · cases h
    · next hq =>
      -- of the characters outside quotes, only the last kind can cut
      split at h
      · cases h
      split at h
      · cases h
      next hr =>
      split at h
      · cases h
      split at h
      · cases h
      split at h
      · cases h
      simp only [Bool.and_eq_true, beq_iff_eq] at h
      exact ⟨h.1, h.2, Bool.eq_false_iff.2 hr, hq⟩
  · rintro ⟨rfl, h⟩
    rw [next_dot h]

theorem next_snd_of_ne (h : c ≠ '.') : (st.next c).2 = false :=
  Bool.eq_false_iff.2 fun hc => h (next_snd_iff.1 hc).1

theorem next_snd_of_not_isLevel (h : ¬ st.IsLevel) : (st.next c).2 = false :=
  Bool.eq_false_iff.2 fun hc => h (next_snd_iff.1 hc).2

theorem pass?_cons (h : (st.next c).2 = false) :
    st.pass? (c :: cs) = (st.next c).1.pass? cs := by
  rw [pass?, h]
  exact if_neg Bool.false_ne_true

theorem pass?_append (st : ChainState) (p cs : List Char) :
    st.pass? (p ++ cs) = (st.pass? p).bind fun st => st.pass? cs := by
  induction p generalizing st with
  | nil => rfl
  | cons c p ih =>
    rw [List.cons_append, pass?, pass?]
    split
    · rfl
    · exact ih _

theorem next_escaped (st : ChainState) (c : Char) : (st.next c).1.escaped = (c == '\\') := by
  unfold next
  repeat' split
  all_goals rfl

/-- characters that the scanner passes over where nothing but parentheses is open -/
def isOrdinary (c : Char) : Bool :=
  !(c == '/' || isQuoteMark c || c == '(' || c == ')' || c == '.')

theorem isOrdinary_iff :
    isOrdinary c = true ↔ c ≠ '/' ∧ isQuoteMark c = false ∧ c ≠ '(' ∧ c ≠ ')' ∧ c ≠ '.' := by
  simp only [isOrdinary, Bool.not_eq_true', Bool.or_eq_false_iff, beq_eq_false_iff_ne, and_assoc]

theorem next_ordinary {d : Int} {e : Bool} (h : isOrdinary c = true) :
    (⟨d, false, none, e⟩ : ChainState).next c = (⟨d, false, none, c == '\\'⟩, false) := by
  obtain ⟨h1, h2, h3, h4, h5⟩ := isOrdinary_iff.1 h
  simp [next, h1, h2, h3, h4, h5]

/-- the last character is a backslash; `e` says this of the character before the text -/
def endsInSlash (e : Bool) (cs : List Char) : Bool := cs.foldl (fun _ c => c == '\\') e

/-- where no character opens, closes or cuts, only the last one counts -/
theorem pass?_of_next {d : Int} {r e : Bool} {q : Option Char}
    (h : ∀ c ∈ cs, ∀ e, (⟨d, r, q, e⟩ : ChainState).next c = (⟨d, r, q, c == '\\'⟩, false)) :
    (⟨d, r, q, e⟩ : ChainState).pass? cs = some ⟨d, r, q, endsInSlash e cs⟩ := by
  induction cs generalizing e with
  | nil => rfl
  | cons c cs ih =>
    have hn := h c List.mem_cons_self e
    rw [pass?_cons (congrArg Prod.snd hn), hn, ih fun x hx => h x (List.mem_cons_of_mem _ hx)]
    rfl

theorem pass?_ordinary {d : Int} {e : Bool} (h : ∀ c ∈ cs, isOrdinary c = true) :
    ∃ e', (⟨d, false, none, e⟩ : ChainState).pass? cs = some ⟨d, false, none, e'⟩ :=
  ⟨_, pass?_of_next fun c hc _ => next_ordinary (h c hc)⟩

theorem isOrdinary_of {f : Char → Bool} (hf : "/'\"`().".toList.all (fun x => !f x) = true)
    (h : f c = true) : isOrdinary c = true := by
  have hne : ∀ x ∈ "/'\"`().".toList, c ≠ x := fun x hx he => by
    have hx := List.all_eq_true.1 hf x hx
    rw [← he, h] at hx
    cases hx
  simp [isOrdinary, isQuoteMark, hne '/' (by decide), hne '\'' (by decide), hne '"' (by decide),
    hne '`' (by decide), hne '(' (by decide), hne ')' (by decide), hne '.' (by decide)]

theorem isOrdinary_of_isWord (h : Text.isWord c = true) : isOrdinary c = true :=
  isOrdinary_of (by decide) h

/-- a slash closes a regular expression -/
theorem pass?_regex {d : Int} {e : Bool} (h : ∀ c ∈ cs, c ≠ '/') :
    (⟨d, true, none, e⟩ : ChainState).pass? cs = some ⟨d, true, none, endsInSlash e cs⟩ :=
  pass?_of_next fun c hc _ => by simp [next, h c hc]

/-- a mark closes a quoted text -/
theorem pass?_quoted {d : Int} {r e : Bool} {q : Char} (h : ∀ c ∈ cs, c ≠ q) :
    (⟨d, r, some q, e⟩ : ChainState).pass? cs = some ⟨d, r, some q, endsInSlash e cs⟩ :=
  pass?_of_next fun c hc _ => by simp [next, h c hc]

/-- the state behind the parenthesis of a call -/
def opened : ChainState := ⟨1, false, none, false⟩

theorem pass?_word (h : ∀ c ∈ cs, Text.isWord c = true) :
    ∃ e, start.pass? cs = some ⟨0, false, none, e⟩ :=
  pass?_ordinary fun c hc => isOrdinary_of_isWord (h c hc)

theorem pass?_call {name : List Char} (h : ∀ c ∈ name, Text.isWord c = true) (cs : List Char) :
    start.pass? (name ++ '(' :: cs) = opened.pass? cs := by
  obtain ⟨e, he⟩ := pass?_word h
  rw [pass?_append, he]
  rfl

end ChainState

open ChainState

variable {st st' : ChainState} {c : Char} {acc cs p : List Char} {ps : List (List Char)}

/-- no dot of the text cuts -/
def Whole (p : List Char) : Prop := (start.pass? p).isSome = true

/-- no dot of the text cuts, and nothing is open at its end -/
def Closed (p : List Char) : Prop := ∃ st, start.pass? p = some st ∧ st.IsLevel

theorem Closed.whole (h : Closed p) : Whole p := by
  obtain ⟨st, hst, _⟩ := h
  rw [Whole, hst, Option.isSome_some]

/-! ## one character -/

theorem splitChainFrom_dot (h : st.IsLevel) :
    splitChainFrom st acc ('.' :: cs) = closePart acc ++ splitChain cs := by
  rw [splitChainFrom, next_dot h]
  rfl

theorem splitChainFrom_cons (h : (st.next c).2 = false) :
    splitChainFrom st acc (c :: cs) = splitChainFrom (st.next c).1 (c :: acc) cs := by
  rw [splitChainFrom]
  split
  · next hn =>
    rw [hn] at h
    cases h
  · next hn => rw [hn]

/-- a character cuts or goes to the open part -/
theorem cut_or_not (st : ChainState) (c : Char) :
    c = '.' ∧ st.IsLevel ∨ (st.next c).2 = false := by
  rw [← next_snd_iff]
  exact Bool.eq_false_or_eq_true _

/-! ## from parts to a chain -/

theorem splitChainFrom_append (h : st.pass? p = some st') (acc cs : List Char) :
    splitChainFrom st acc (p ++ cs) = splitChainFrom st' (p.reverse ++ acc) cs := by
  induction p generalizing st acc with
  | nil => rw [Option.some.inj h, List.reverse_nil, List.nil_append, List.nil_append]
  | cons c p ih =>
    rw [pass?] at h
    split at h
    · cases h
    · next hc =>
      rw [List.cons_append, splitChainFrom_cons (Bool.eq_false_iff.2 hc), List.reverse_cons,
        List.append_assoc]
      exact ih h (c :: acc)

theorem closePart_reverse (hp : p ≠ []) : closePart p.reverse = [p] := by
  rw [closePart, if_neg (mt List.reverse_eq_nil_iff.1 hp), List.reverse_reverse]

theorem splitChain_whole (h : Whole p) (hp : p ≠ []) : splitChain p = [p] := by
  obtain ⟨st, hst⟩ := Option.isSome_iff_exists.1 h
  have ha := splitChainFrom_append hst [] []
  rw [List.append_nil, List.append_nil] at ha
  rw [splitChain, ha, splitChainFrom, closePart_reverse hp]

theorem splitChain_append (h : Closed p) (hp : p ≠ []) (cs : List Char) :
    splitChain (p ++ '.' :: cs) = p :: splitChain cs := by
  obtain ⟨st, hst, hl⟩ := h
  rw [splitChain, splitChainFrom_append hst, List.append_nil, splitChainFrom_dot hl,
    closePart_reverse hp, List.singleton_append]

theorem splitChain_intercalate (hw : ∀ p ∈ ps, p ≠ [] ∧ Whole p)
    (hc : ∀ p ∈ ps.dropLast, Closed p) : splitChain (['.'].intercalate ps) = ps := by
  induction ps with
  | nil => rfl
  | cons p ps ih =>
    have hp := hw p List.mem_cons_self
    cases ps with
    | nil => rw [List.intercalate_singleton, splitChain_whole hp.2 hp.1]
    | cons q qs =>
      rw [List.intercalate_cons_cons, List.append_assoc, List.singleton_append,
        splitChain_append (hc p List.mem_cons_self) hp.1,
        ih (fun r hr => hw r (List.mem_cons_of_mem _ hr))
          (fun r hr => hc r (List.mem_cons_of_mem _ hr))]

/-! ## from a chain to its parts -/

theorem mem_closePart (hp : p ∈ closePart acc) : acc ≠ [] ∧ p = acc.reverse := by
  rw [closePart] at hp
  split at hp
  · cases hp
  · next ha => exact ⟨ha, List.mem_singleton.1 hp⟩

/-- the parts from a state on to which the open part has led -/
theorem mem_splitChainFrom (hst : start.pass? acc.reverse = some st)
    (hp : p ∈ splitChainFrom st acc cs) :
    p ≠ [] ∧ Whole p ∧ ((st.run cs).IsLevel → Closed p) := by
  have hclose : ∀ {acc st}, start.pass? acc.reverse = some st → p ∈ closePart acc →
      p ≠ [] ∧ Whole p ∧ (st.IsLevel → Closed p) := by
    intro acc st hst hp
    obtain ⟨ha, rfl⟩ := mem_closePart hp
    exact ⟨mt List.reverse_eq_nil_iff.1 ha, by rw [Whole, hst, Option.isSome_some],
      fun hl => ⟨st, hst, hl⟩⟩
  induction cs generalizing st acc with
  | nil => exact hclose hst hp
  | cons c cs ih =>
    show p ≠ [] ∧ Whole p ∧ (((st.next c).1.run cs).IsLevel → Closed p)
    rcases cut_or_not st c with ⟨rfl, hl⟩ | hc
    · -- behind a cut everything starts anew
      rw [splitChainFrom_dot hl] at hp
      rw [next_dot hl]
      rcases List.mem_append.1 hp with hp | hp
      · obtain ⟨hne, hw, hc⟩ := hclose hst hp
        exact ⟨hne, hw, fun _ => hc hl⟩
      · exact ih rfl hp
    · rw [splitChainFrom_cons hc] at hp
      refine ih ?_ hp
      rw [List.reverse_cons, pass?_append, hst, Option.bind_some, pass?_cons hc]
      rfl

theorem mem_splitChain (hp : p ∈ splitChain cs) :
    p ≠ [] ∧ Whole p ∧ ((start.run cs).IsLevel → Closed p) :=
  mem_splitChainFrom rfl hp

/-- the first part is at least as long as the open one -/
theorem length_le_of_splitChainFrom (ha : acc ≠ []) (h : splitChainFrom st acc cs = p :: ps) :
    acc.length ≤ p.length := by
  have hclose : ∀ {acc qs}, acc ≠ [] → closePart acc ++ qs = p :: ps → acc.length ≤ p.length := by
    intro acc qs ha h
    rw [closePart, if_neg ha, List.singleton_append] at h
    exact (List.cons.inj h).1 ▸ Nat.le_of_eq List.length_reverse.symm
  induction cs generalizing st acc with
  | nil => exact hclose ha ((List.append_nil _).trans h)
  | cons c cs ih =>
    rcases cut_or_not st c with ⟨rfl, hl⟩ | hc
    · rw [splitChainFrom_dot hl] at h
      exact hclose ha h
    · rw [splitChainFrom_cons hc] at h
      exact Nat.le_of_succ_le (ih (List.cons_ne_nil _ _) h)

theorem closed_of_splitChain_append (hw : Whole p)
    (h : splitChain (p ++ '.' :: cs) = p :: ps) : Closed p := by
  obtain ⟨st, hst⟩ := Option.isSome_iff_exists.1 hw
  refine ⟨st, hst, by_contra fun hl => ?_⟩
  -- otherwise the dot goes to the part, which is longer then
  rw [splitChain, splitChainFrom_append hst,
    splitChainFrom_cons (next_snd_of_not_isLevel hl)] at h
  have hlen := length_le_of_splitChainFrom (List.cons_ne_nil _ _) h
  rw [List.length_cons, List.append_nil, List.length_reverse] at hlen
  exact Nat.not_succ_le_self _ hlen

/-- **Texts joined by dots** are cut at these dots and no others exactly when no dot in a text cuts
and nothing is open at the end of any but the last. -/
theorem splitChain_intercalate_iff (hne : ∀ p ∈ ps, p ≠ []) :
    splitChain (['.'].intercalate ps) = ps ↔
      (∀ p ∈ ps, Whole p) ∧ ∀ p ∈ ps.dropLast, Closed p := by
  constructor
  · intro h
    have hw : ∀ p ∈ ps, Whole p := fun p hp => (mem_splitChain (h.symm ▸ hp)).2.1
    refine ⟨hw, ?_⟩
    induction ps with
    | nil => exact fun p hp => absurd hp List.not_mem_nil
    | cons p ps ih =>
      cases ps with
      | nil => exact fun p hp => absurd hp List.not_mem_nil
      | cons q qs =>
        rw [List.intercalate_cons_cons, List.append_assoc, List.singleton_append] at h
        have hp := closed_of_splitChain_append (hw p List.mem_cons_self) h
        rw [splitChain_append hp (hne p List.mem_cons_self)] at h
        intro r hr
        rcases List.mem_cons.1 hr with rfl | hr
        · exact hp
        · exact ih (fun r hr => hne r (List.mem_cons_of_mem _ hr)) (List.cons.inj h).2
            (fun r hr => hw r (List.mem_cons_of_mem _ hr)) r hr
  · rintro ⟨hw, hc⟩
    exact splitChain_intercalate (fun p hp => ⟨hne p hp, hw p hp⟩) hc

/-! ## what is cut away -/

namespace ChainState

instance (st : ChainState) : Decidable st.IsLevel := inferInstanceAs (Decidable (_ ∧ _ ∧ _))

/-- read on from `st`, the text has a dot at position `i` where nothing is open -/
def CutsAt (st : ChainState) (cs : List Char) (i : Nat) : Prop :=
  cs[i]? = some '.' ∧ (st.run (cs.take i)).IsLevel

instance (st : ChainState) (cs : List Char) (i : Nat) : Decidable (st.CutsAt cs i) :=
  inferInstanceAs (Decidable (_ ∧ _))

/-- the characters at all other positions -/
def uncut (st : ChainState) (cs : List Char) : List Char :=
  (cs.zipIdx.filter fun c => ¬st.CutsAt cs c.2).map Prod.fst

theorem cutsAt_zero : st.CutsAt (c :: cs) 0 ↔ (st.next c).2 = true := by
  rw [next_snd_iff, CutsAt, List.getElem?_cons_zero, Option.some_inj]
  rfl

theorem uncut_cons : st.uncut (c :: cs) =
    (if (st.next c).2 then [] else [c]) ++ (st.next c).1.uncut cs := by
  have hrest : ((cs.zipIdx.map (Prod.map id (· + 1))).filter
      fun x => ¬st.CutsAt (c :: cs) x.2).map Prod.fst = (st.next c).1.uncut cs := by
    rw [List.filter_map, List.map_map]
    rfl
  unfold uncut at hrest ⊢
  rw [List.zipIdx_cons', List.filter_cons, ← hrest]
  simp only [cutsAt_zero]
  cases (st.next c).2 <;> rfl

theorem uncut_sublist (st : ChainState) (cs : List Char) : (st.uncut cs).Sublist cs := by
  have hs := (List.filter_sublist (p := fun c => ¬st.CutsAt cs c.2) (l := cs.zipIdx)).map Prod.fst
  rwa [List.zipIdx_map_fst] at hs

end ChainState

theorem flatten_closePart (acc : List Char) : (closePart acc).flatten = acc.reverse := by
  rw [closePart]
  split
  · next ha => rw [ha]; rfl
  · exact List.flatten_singleton

theorem flatten_splitChainFrom (st : ChainState) (acc cs : List Char) :
    (splitChainFrom st acc cs).flatten = acc.reverse ++ st.uncut cs := by
  induction cs generalizing st acc with
  | nil => exact (flatten_closePart acc).trans (List.append_nil _).symm
  | cons c cs ih =>
    rw [uncut_cons]
    rcases cut_or_not st c with ⟨rfl, hl⟩ | hc
    · rw [splitChainFrom_dot hl, List.flatten_append, flatten_closePart, splitChain, ih, next_dot hl]
      rfl
    · rw [splitChainFrom_cons hc, ih, hc, List.reverse_cons, List.append_assoc]
      rfl

/-- only the dots that cut are lost -/
theorem flatten_splitChain (cs : List Char) : (splitChain cs).flatten = start.uncut cs :=
  flatten_splitChainFrom start [] cs

theorem sublist_of_mem_splitChain (hp : p ∈ splitChain cs) : p.Sublist cs := by
  have hflat := List.sublist_flatten_of_mem hp
  rw [flatten_splitChain] at hflat
  exact hflat.trans (uncut_sublist start cs)

theorem closed_of_mem_dropLast_splitChain (hp : p ∈ (splitChain cs).dropLast) : Closed p := by
  suffices h : ∀ {st acc}, start.pass? acc.reverse = some st →
      p ∈ (splitChainFrom st acc cs).dropLast → Closed p from h rfl hp
  clear hp
  induction cs with
  | nil =>
    intro st acc _ hp
    rw [splitChainFrom, closePart] at hp
    split at hp <;> cases hp
  | cons c cs ih =>
    intro st acc hst hp
    rcases cut_or_not st c with ⟨rfl, hl⟩ | hc
    · rw [splitChainFrom_dot hl, List.dropLast_append] at hp
      -- what stands before a cut is closed
      have hclose : ∀ p ∈ closePart acc, Closed p := by
        intro p hp
        obtain ⟨-, rfl⟩ := mem_closePart hp
        exact ⟨st, hst, hl⟩
      split at hp
      · exact hclose p (List.dropLast_subset _ hp)
      · exact (List.mem_append.1 hp).elim (hclose p) (ih rfl)
    · rw [splitChainFrom_cons hc] at hp
      refine ih ?_ hp
      rw [List.reverse_cons, pass?_append, hst, Option.bind_some, pass?_cons hc]
      rfl

/-- **Cutting is lossless and stable**, also for a chain that leaves something open: the parts are
not empty, together they have all characters but the dots where nothing is open, no part is cut
again, and the parts joined by dots are cut into the same parts. -/
theorem splitChain_stable (cs : List Char) :
    (∀ p ∈ splitChain cs, p ≠ []) ∧ (splitChain cs).flatten = start.uncut cs ∧
      (∀ p ∈ splitChain cs, splitChain p = [p]) ∧
      splitChain (['.'].intercalate (splitChain cs)) = splitChain cs := by
  have hpart : ∀ p ∈ splitChain cs, p ≠ [] ∧ Whole p := fun p hp =>
    ⟨(mem_splitChain hp).1, (mem_splitChain hp).2.1⟩
  refine ⟨fun p hp => (hpart p hp).1, flatten_splitChain cs, fun p hp => ?_, ?_⟩
  · exact splitChain_whole (hpart p hp).2 (hpart p hp).1
  · exact splitChain_intercalate hpart fun p hp => closed_of_mem_dropLast_splitChain hp

/-- a closing parenthesis too many keeps all dots behind it -/
example : splitChain "a..b(x.y).c)/d.e/.f".toList =
    ["a".toList, "b(x.y)".toList, "c)/d.e/.f".toList] := by decide

end ZodSchema.Annotations
