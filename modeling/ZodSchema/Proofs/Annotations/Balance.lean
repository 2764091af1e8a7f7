import ZodSchema.Proofs.Annotations.Directive

/-!
# Open parentheses

The parenthesis that closes is the first one that brings the number of open parentheses back to
zero.  Quoted texts do not count; a backslash in them takes the character behind it along.

* `QuotedText`, `QuotesEnded`   a text between two marks, and one in which every quoted text has ended
* `quotesEnded_iff`             the search for a closing parenthesis knows where quoted texts end
* `balance`                     opening minus closing parentheses outside quoted texts
* `balance_eq_depthAfter`       the search counts them
* `ClosesAt`                    the parenthesis that closes
* `closingAt?_spec`             it is found if and only if there is one
-/

namespace ZodSchema.Annotations

variable {q : Quoting} {d : Int} {m c : Char} {cs text : List Char} {i n : Nat}

/-! ## quoted texts -/

/-- a text between two marks `m` -/
inductive QuotedText (m : Char) : List Char → Prop
  | nil : QuotedText m []
  | char {c : Char} {cs : List Char} : c ≠ m → c ≠ '\\' → QuotedText m cs → QuotedText m (c :: cs)
  | escape (c : Char) {cs : List Char} : QuotedText m cs → QuotedText m ('\\' :: c :: cs)

/-- a text in which every quoted text has ended -/
inductive QuotesEnded : List Char → Prop
  | nil : QuotesEnded []
  | char {c : Char} {cs : List Char} : isQuoteMark c = false → QuotesEnded cs → QuotesEnded (c :: cs)
  | quoted {m : Char} {body cs : List Char} : isQuoteMark m = true → QuotedText m body →
      QuotesEnded cs → QuotesEnded (m :: (body ++ m :: cs))

/-- the quotes that are open behind a text -/
def quotingAfter (q : Quoting) (cs : List Char) : Quoting := cs.foldl nextQuoting q

theorem slash_ne_of_isQuoteMark (h : isQuoteMark m = true) : '\\' ≠ m := by
  rintro rfl
  exact absurd h (by decide)

theorem QuotedText.quotingAfter (h : QuotedText m cs) (rest : List Char) :
    quotingAfter (some (m, false)) (cs ++ rest) = quotingAfter (some (m, false)) rest := by
  induction h with
  | nil => rfl
  | @char c cs hc hs _ ih =>
    have hn : nextQuoting (some (m, false)) c = some (m, false) := by simp [nextQuoting, hc, hs]
    rw [List.cons_append, Annotations.quotingAfter, List.foldl_cons, hn]
    exact ih
  | @escape c cs _ ih => exact ih

theorem QuotesEnded.quotingAfter (h : QuotesEnded cs) : quotingAfter none cs = none := by
  induction h with
  | nil => rfl
  | @char c cs hc _ ih =>
    have hn : nextQuoting none c = none := by simp [nextQuoting, hc]
    rw [Annotations.quotingAfter, List.foldl_cons, hn]
    exact ih
  | @quoted m body cs hm hb _ ih =>
    have hopen : nextQuoting none m = some (m, false) := by simp [nextQuoting, hm]
    have hclose : nextQuoting (some (m, false)) m = none := by
      simp [nextQuoting, (slash_ne_of_isQuoteMark hm).symm]
    rw [Annotations.quotingAfter, List.foldl_cons, hopen]
    refine (hb.quotingAfter _).trans ?_
    rw [Annotations.quotingAfter, List.foldl_cons, hclose]
    exact ih

/-- from each of the three states the quotes end only in the way that is written down -/
theorem quotesEnded_of_quotingAfter (cs : List Char) :
    (quotingAfter none cs = none → QuotesEnded cs) ∧
    ∀ m, isQuoteMark m = true →
      (quotingAfter (some (m, false)) cs = none →
        ∃ body rest, cs = body ++ m :: rest ∧ QuotedText m body ∧ QuotesEnded rest) ∧
      (quotingAfter (some (m, true)) cs = none →
        ∃ c body rest, cs = c :: (body ++ m :: rest) ∧ QuotedText m body ∧ QuotesEnded rest) := by
  induction cs with
  | nil =>
    exact ⟨fun _ => .nil, fun m _ => ⟨fun h => (Option.some_ne_none _ h).elim,
      fun h => (Option.some_ne_none _ h).elim⟩⟩
  | cons c cs ih =>
    obtain ⟨hnone, hsome⟩ := ih
    refine ⟨fun h => ?outside, fun m hm => ⟨fun h => ?inside, fun h => ?escaped⟩⟩
    case outside =>
      change quotingAfter (nextQuoting none c) cs = none at h
      by_cases hc : isQuoteMark c = true
      · rw [nextQuoting, if_pos hc] at h
        obtain ⟨body, rest, rfl, hb, hr⟩ := (hsome c hc).1 h
        exact .quoted hc hb hr
      · rw [nextQuoting, if_neg hc] at h
        exact .char (Bool.eq_false_iff.2 hc) (hnone h)
    case inside =>
      change quotingAfter (nextQuoting (some (m, false)) c) cs = none at h
      by_cases hs : c = '\\'
      · subst hs
        obtain ⟨x, body, rest, rfl, hb, hr⟩ := (hsome m hm).2 h
        exact ⟨'\\' :: x :: body, rest, rfl, .escape x hb, hr⟩
      · by_cases hc : c = m
        · subst hc
          rw [nextQuoting, if_neg hs, if_pos rfl] at h
          exact ⟨[], cs, rfl, .nil, hnone h⟩
        · rw [nextQuoting, if_neg hs, if_neg hc] at h
          obtain ⟨body, rest, rfl, hb, hr⟩ := (hsome m hm).1 h
          exact ⟨c :: body, rest, rfl, .char hc hs hb, hr⟩
    case escaped =>
      obtain ⟨body, rest, rfl, hb, hr⟩ := (hsome m hm).1 h
      exact ⟨c, body, rest, rfl, hb, hr⟩

theorem quotesEnded_iff : QuotesEnded cs ↔ quotingAfter none cs = none :=
  ⟨QuotesEnded.quotingAfter, (quotesEnded_of_quotingAfter cs).1⟩

instance (cs : List Char) : Decidable (QuotesEnded cs) := decidable_of_iff' _ quotesEnded_iff

/-! ## open parentheses -/

/-- the character `c` stands at position `k` outside quoted texts, when none is open at `i` -/
def UnquotedAt (text : List Char) (i : Nat) (c : Char) (k : Nat) : Prop :=
  text[k]? = some c ∧ QuotesEnded (text.extract i k)

instance (text : List Char) (i : Nat) (c : Char) : DecidablePred (UnquotedAt text i c) :=
  fun _ => inferInstanceAs (Decidable (_ ∧ _))

/-- opening minus closing parentheses at the positions `i` to `j`, outside quoted texts -/
def balance (text : List Char) (i j : Nat) : Int :=
  (List.range' i (j + 1 - i)).countP (UnquotedAt text i '(' ·) -
    (List.range' i (j + 1 - i)).countP (UnquotedAt text i ')' ·)

/-- the open parentheses behind a text -/
def depthAfter (q : Quoting) (d : Int) : List Char → Int
  | [] => d
  | c :: cs => depthAfter (nextQuoting q c) (nextDepth q d c) cs

theorem depthAfter_concat (q : Quoting) (d : Int) (cs : List Char) (c : Char) :
    depthAfter q d (cs ++ [c]) = nextDepth (quotingAfter q cs) (depthAfter q d cs) c := by
  induction cs generalizing q d with
  | nil => rfl
  | cons x cs ih => exact ih _ _

theorem extract_succ (text : List Char) (i k : Nat) :
    text.extract i (i + (k + 1)) = text.extract i (i + k) ++ text[i + k]?.toList := by
  rw [List.extract_eq_take_drop, List.extract_eq_take_drop, Nat.add_sub_cancel_left,
    Nat.add_sub_cancel_left, List.take_add_one, List.getElem?_drop]

/-- counting position by position is what the search does -/
theorem count_eq_depthAfter (text : List Char) (i k : Nat) :
    ((List.range' i k).countP (UnquotedAt text i '(' ·) : Int) -
      (List.range' i k).countP (UnquotedAt text i ')' ·) =
    depthAfter none 0 (text.extract i (i + k)) := by
  induction k with
  | zero => simp [List.extract_eq_take_drop, depthAfter]
  | succ k ih =>
    rw [List.range'_1_concat, List.countP_append, List.countP_append, List.countP_singleton,
      List.countP_singleton, extract_succ]
    cases hc : text[i + k]? with
    | none => simpa [UnquotedAt, hc] using ih
    | some c =>
      have hat : ∀ x, UnquotedAt text i x (i + k) ↔
          c = x ∧ quotingAfter none (text.extract i (i + k)) = none := fun x => by
        rw [UnquotedAt, hc, quotesEnded_iff, Option.some_inj]
      rw [Option.toList_some, depthAfter_concat, ← ih, nextDepth]
      simp only [hat, decide_eq_true_eq]
      by_cases hq : quotingAfter none (text.extract i (i + k)) = none
      · by_cases ho : c = '('
        · have hp : '(' ≠ ')' := by decide
          simp only [hq, ho, hp, and_true, if_true, if_false]
          omega
        · simp only [hq, ho, and_true, if_true, if_false]
          split <;> omega
      · simp only [hq, and_false, if_false, Nat.add_zero]

theorem balance_eq_depthAfter (h : i ≤ n) :
    balance text i n = depthAfter none 0 ((text.drop i).take (n - i + 1)) := by
  have hlen : n + 1 - i = n - i + 1 := by omega
  have hc := count_eq_depthAfter text i (n - i + 1)
  rw [List.extract_eq_take_drop, Nat.add_sub_cancel_left] at hc
  rw [balance, hlen]
  exact hc

/-! ## the search -/

theorem closingFrom_eq_some_iff (hd : 1 ≤ d) : closingFrom d q cs = some n ↔
    n < cs.length ∧ depthAfter q d (cs.take (n + 1)) = 0 ∧
      ∀ k < n, 1 ≤ depthAfter q d (cs.take (k + 1)) := by
  induction cs generalizing d q n with
  | nil => simp [closingFrom]
  | cons c cs ih =>
    rw [closingFrom_cons]
    rcases nextDepth_cases hd q c with ⟨hc, hz⟩ | ⟨hc, hd'⟩
    · rw [if_pos hc]
      cases n with
      | zero => simp [depthAfter, hz]
      | succ n =>
        refine iff_of_false (by simp) fun h => ?_
        have h0 := h.2.2 0 (Nat.succ_pos n)
        simp [depthAfter, hz] at h0
    · rw [if_neg hc]
      cases n with
      | zero =>
        refine iff_of_false (by simp) fun h => ?_
        have h0 : nextDepth q d c = 0 := h.2.1
        omega
      | succ n =>
        have hall : (∀ k < n + 1, 1 ≤ depthAfter q d ((c :: cs).take (k + 1))) ↔
            ∀ k < n, 1 ≤ depthAfter (nextQuoting q c) (nextDepth q d c) (cs.take (k + 1)) := by
          refine ⟨fun h k hk => h (k + 1) (Nat.succ_lt_succ hk), fun h k hk => ?_⟩
          cases k with
          | zero => exact hd'
          | succ k => exact h k (Nat.lt_of_succ_lt_succ hk)
        rw [hall, Option.map_eq_some_iff, List.length_cons, Nat.succ_lt_succ_iff]
        simp only [Nat.succ_inj, exists_eq_right]
        exact ih hd'

theorem closingFrom_eq_none_iff (hd : 1 ≤ d) : closingFrom d q cs = none ↔
    ∀ k < cs.length, 1 ≤ depthAfter q d (cs.take (k + 1)) := by
  induction cs generalizing d q with
  | nil => simp [closingFrom]
  | cons c cs ih =>
    rw [closingFrom_cons]
    rcases nextDepth_cases hd q c with ⟨hc, hz⟩ | ⟨hc, hd'⟩
    · rw [if_pos hc]
      refine iff_of_false (by simp) fun h => ?_
      have h0 := h 0 (Nat.succ_pos _)
      simp [depthAfter, hz] at h0
    · rw [if_neg hc, Option.map_eq_none_iff, ih hd']
      refine ⟨fun h k hk => ?_, fun h k hk => h (k + 1) (Nat.succ_lt_succ hk)⟩
      cases k with
      | zero => exact hd'
      | succ k => exact h k (Nat.lt_of_succ_lt_succ hk)

/-! ## the parenthesis that closes -/

/-- the parenthesis at position `n` closes the one at position `i` -/
structure ClosesAt (text : List Char) (i n : Nat) : Prop where
  lt : i < n
  paren : UnquotedAt text i ')' n
  balance : balance text i n = 0
  pos : ∀ k, i ≤ k → k < n → 1 ≤ Annotations.balance text i k

theorem balance_step (h : i ≤ n) (hc : text[n + 1]? = some c) : balance text i (n + 1) =
    nextDepth (quotingAfter none (text.extract i (n + 1))) (balance text i n) c := by
  obtain ⟨k, rfl⟩ := Nat.exists_eq_add_of_le h
  have hlast : i + k + 1 - i = k + 1 := by omega
  rw [balance_eq_depthAfter (Nat.le_succ_of_le h), balance_eq_depthAfter h, hlast,
    Nat.add_sub_cancel_left, List.take_add_one, List.getElem?_drop, ← Nat.add_assoc, hc,
    Option.toList_some, depthAfter_concat, List.extract_eq_take_drop, hlast]

/-- where no parenthesis is open any more, one has just been closed -/
theorem unquotedAt_of_balance (h : i ≤ n) (hn : n + 1 < text.length)
    (hpos : 1 ≤ balance text i n) (hz : balance text i (n + 1) = 0) :
    UnquotedAt text i ')' (n + 1) := by
  have hc := List.getElem?_eq_getElem hn
  rw [balance_step h hc] at hz
  rcases nextDepth_cases hpos (quotingAfter none (text.extract i (n + 1))) text[n + 1] with
    ⟨⟨hq, hp, -⟩, -⟩ | ⟨-, hd⟩
  · exact ⟨hc.trans (congrArg some hp), quotesEnded_iff.2 hq⟩
  · omega

section
variable {tail : List Char} (ht : text.drop i = '(' :: tail)
include ht

theorem length_of_drop : text.length - i = tail.length + 1 := by
  rw [← List.length_drop, ht, List.length_cons]

theorem balance_self : balance text i i = 1 := by
  rw [balance_eq_depthAfter (Nat.le_refl i), ht, Nat.sub_self]
  rfl

/-- behind the opening parenthesis one is open -/
theorem balance_succ (k : Nat) :
    balance text i (i + (k + 1)) = depthAfter none 1 (tail.take (k + 1)) := by
  rw [balance_eq_depthAfter (Nat.le_add_right i _), ht, Nat.add_sub_cancel_left, List.take_succ_cons]
  rfl

theorem forall_balance_iff : (∀ k, i ≤ k → k < i + (n + 1) → 1 ≤ balance text i k) ↔
    ∀ k < n, 1 ≤ depthAfter none 1 (tail.take (k + 1)) := by
  constructor
  · intro h k hk
    rw [← balance_succ ht]
    exact h _ (Nat.le_add_right i _) (by omega)
  · intro h k hi hk
    obtain ⟨k, rfl⟩ := Nat.exists_eq_add_of_le hi
    cases k with
    | zero => exact Int.le_of_eq (balance_self ht).symm
    | succ k =>
      rw [balance_succ ht]
      exact h k (by omega)

theorem closing?_eq_some_iff : closing? (text.drop i) = some n ↔ ClosesAt text i (i + n) := by
  have hlen := length_of_drop ht
  rw [ht, closing?_paren]
  cases n with
  | zero => exact iff_of_false (by simp) fun h => absurd h.lt (Nat.lt_irrefl i)
  | succ n =>
    simp only [Option.map_eq_some_iff, Nat.succ_inj, exists_eq_right]
    rw [closingFrom_eq_some_iff (Int.le_refl 1), ← balance_succ ht, ← forall_balance_iff ht]
    constructor
    · rintro ⟨hn, hz, hpos⟩
      refine ⟨by omega, ?_, hz, hpos⟩
      exact unquotedAt_of_balance (n := i + n) (Nat.le_add_right i n) (by omega)
        (hpos (i + n) (Nat.le_add_right i n) (by omega)) hz
    · intro h
      have hn := (List.getElem?_eq_some_iff.1 h.paren.1).1
      exact ⟨by omega, h.balance, h.pos⟩

theorem closing?_eq_none_iff : closing? (text.drop i) = none ↔
    ∀ k, i ≤ k → k < text.length → 1 ≤ balance text i k := by
  have hlen := length_of_drop ht
  have htext : text.length = i + (tail.length + 1) := by omega
  rw [htext, forall_balance_iff ht, ht, closing?_paren, Option.map_eq_none_iff,
    closingFrom_eq_none_iff (Int.le_refl 1)]

end

/-- only what stands between the two parentheses counts -/
theorem closing?_congr {cs other : List Char} (h : closing? cs = some n)
    (ho : other.take (n + 1) = cs.take (n + 1)) : closing? other = some n := by
  have hlt : n < (cs.take (n + 1)).length := by
    obtain ⟨inner, after, rfl, rfl⟩ := eq_append_of_closingFrom h
    simp
  have htake : ∀ as : List Char, n < (as.take (n + 1)).length →
      (closing? as = some n ↔ closing? (as.take (n + 1)) = some n) := by
    intro as has
    have happ := closingFrom_append_iff (d := 0) (q := none) (as.drop (n + 1)) has
    rwa [List.take_append_drop] at happ
  exact (htake other (ho ▸ hlt)).2 (ho ▸ (htake cs hlt).1 h)

/-- **The closing parenthesis.**  The search from an opening parenthesis finds the first place where
as many are closed as were opened outside quoted texts, and there is an unquoted closing parenthesis.
It finds nothing if and only if at least one is open up to the end.  Only the text between the two
parentheses counts. -/
theorem closingAt?_spec (h : text[i]? = some '(') :
    (∀ j : Int, closingAt? text i = some j ↔ ∃ n : Nat, j = n ∧ ClosesAt text i n) ∧
    (closingAt? text i = none ↔ ∀ k, i ≤ k → k < text.length → 1 ≤ balance text i k) ∧
    ∀ (n : Nat) (other : List Char), closingAt? text i = some (n : Int) →
      other.extract i (n + 1) = text.extract i (n + 1) → closingAt? other i = some (n : Int) := by
  obtain ⟨hi, hp⟩ := List.getElem?_eq_some_iff.1 h
  have ht : text.drop i = '(' :: text.drop (i + 1) := by rw [List.drop_eq_getElem_cons hi, hp]
  have hat : ∀ other : List Char, i < other.length →
      closingAt? other i = (closing? (other.drop i)).map fun k => ((i + k : Nat) : Int) := by
    intro other ho
    have happ := closingAt?_append (other.take i) (other.drop i)
    rwa [List.take_append_drop, List.length_take_of_le (Nat.le_of_lt ho)] at happ
  refine ⟨fun j => ?found, ?absent, fun n other hn ho => ?within⟩
  case found =>
    simp only [hat text hi, Option.map_eq_some_iff, closing?_eq_some_iff ht]
    constructor
    · rintro ⟨k, hk, rfl⟩
      exact ⟨i + k, rfl, hk⟩
    · rintro ⟨n, rfl, hn⟩
      obtain ⟨k, rfl⟩ := Nat.exists_eq_add_of_le (Nat.le_of_lt hn.lt)
      exact ⟨k, hn, rfl⟩
  case absent =>
    rw [hat text hi, Option.map_eq_none_iff, closing?_eq_none_iff ht]
  case within =>
    rw [hat text hi, Option.map_eq_some_iff] at hn
    obtain ⟨k, hk, he⟩ := hn
    obtain rfl := Int.ofNat_inj.1 he
    have hlen : i + k + 1 - i = k + 1 := by omega
    rw [List.extract_eq_take_drop, List.extract_eq_take_drop, hlen] at ho
    have hother : i < other.length := by
      have := congrArg List.length ho
      simp only [List.length_take, List.length_drop] at this
      omega
    rw [hat other hother, closing?_congr hk ho]
    rfl

/-- a call whose argument has an escaped mark and a parenthesis in quotes -/
def quotedArg : List Char := "f(g('\\')'), \"(\") + h(".toList

theorem closingAt?_spec_quotedArg :
    quotedArg[1]? = some '(' ∧ closingAt? quotedArg (1 : Nat) = some 15 ∧ ClosesAt quotedArg 1 15 ∧
      closingAt? (quotedArg.take 16 ++ "' (".toList) (1 : Nat) = some 15 ∧
      quotedArg[20]? = some '(' ∧ closingAt? quotedArg (20 : Nat) = none ∧
      ∀ k, 20 ≤ k → k < quotedArg.length → 1 ≤ balance quotedArg 20 k := by
  have hopen : quotedArg[1]? = some '(' := by decide
  have hlast : quotedArg[20]? = some '(' := by decide
  have hfound : closingAt? quotedArg (1 : Nat) = some 15 := by decide +kernel
  have hnone : closingAt? quotedArg (20 : Nat) = none := by decide +kernel
  obtain ⟨hsome, -, hwithin⟩ := closingAt?_spec hopen
  obtain ⟨n, hn, hclose⟩ := (hsome 15).1 hfound
  obtain rfl := Int.ofNat_inj.1 hn
  obtain ⟨-, hnone_iff, -⟩ := closingAt?_spec hlast
  exact ⟨hopen, hfound, hclose, hwithin 15 _ hfound (by decide), hlast, hnone, hnone_iff.1 hnone⟩

end ZodSchema.Annotations
