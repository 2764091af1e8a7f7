import ZodSchema.Text.Chars

/-!
# Facts about texts

* `nodup_eraseDups`                  each member once
* `eraseDups_concat`                 one member more
* `mergeSort_eq_of_perm`, `sortDedup_congr`   what sorting does not depend on
* `takeWhile_run`, `takeWhile_of_head`, `dropWhile_run`   a run of one class in front of another
  character
* `trimBy_eq_self`, `trim_eq_self`   a text that neither begins nor ends with a blank
* `trimRight_prefix`, `trim_infix`   trimming leaves a part of a text
* `splitOnChar_eq_splitOn`           the parts of a text are those of the library
* `splitOnChar_append`, `splitOnChar_append_of_not_mem`   parts of a text with another one behind
* `startsWith_iff`, `endsWith_iff`   what stands at the ends of a text
* `dropLast_append_of_endsWith`      an ending taken off and put back
* `unlines_append`, `unlines_cons`, `unlines_concat_empty`   lines joined by line feeds
* `mem_sortDedup`, `pairwise_sortDedup`   the same members, in order, each once
-/

namespace ZodSchema.Text

theorem nodup_eraseDups {α : Type} [BEq α] [LawfulBEq α] : ∀ xs : List α, xs.eraseDups.Nodup
  | [] => List.nodup_nil
  | x :: xs => by
    rw [List.eraseDups_cons, List.nodup_cons, List.mem_eraseDups]
    exact ⟨by simp, nodup_eraseDups _⟩
  termination_by xs => xs.length
  decreasing_by exact Nat.lt_succ_of_le (List.length_filter_le ..)

theorem eraseDups_sublist {α : Type} [BEq α] [LawfulBEq α] : ∀ xs : List α, xs.eraseDups.Sublist xs
  | [] => List.Sublist.refl _
  | x :: xs => by
    rw [List.eraseDups_cons]
    exact ((eraseDups_sublist _).trans List.filter_sublist).cons_cons x
  termination_by xs => xs.length
  decreasing_by exact Nat.lt_succ_of_le (List.length_filter_le ..)

theorem eraseDups_concat {α : Type} [BEq α] [LawfulBEq α] [DecidableEq α] (xs : List α) (x : α) :
    (xs ++ [x]).eraseDups = xs.eraseDups ++ (if x ∈ xs then [] else [x]) := by
  rw [List.eraseDups_append]
  congr 1
  by_cases hx : x ∈ xs
  · simp [List.removeAll, hx]
  · simp [List.removeAll, hx, List.eraseDups_cons]

section
variable {α : Type} (key : α → String)

theorem pairwise_mergeSort (xs : List α) :
    (xs.mergeSort fun a b => decide (key a ≤ key b)).Pairwise fun a b => key a ≤ key b := by
  have ht : ∀ a b c : α, decide (key a ≤ key b) = true → decide (key b ≤ key c) = true →
      decide (key a ≤ key c) = true := fun a b c h1 h2 =>
    decide_eq_true (String.le_trans (of_decide_eq_true h1) (of_decide_eq_true h2))
  have hc : ∀ a b : α, (decide (key a ≤ key b) || decide (key b ≤ key a)) = true := fun a b => by
    simp [String.le_total]
  exact (List.pairwise_mergeSort ht hc xs).imp of_decide_eq_true

/-- the order of a list does not matter to sorting, when different members have different keys -/
theorem mergeSort_eq_of_perm {xs ys : List α} (hp : xs.Perm ys)
    (hk : ∀ a ∈ xs, ∀ b ∈ xs, key a = key b → a = b) :
    (xs.mergeSort fun a b => decide (key a ≤ key b)) =
      ys.mergeSort fun a b => decide (key a ≤ key b) := by
  refine List.Perm.eq_of_pairwise (fun a b ha hb h1 h2 => ?_) (pairwise_mergeSort key xs)
    (pairwise_mergeSort key ys) ?_
  · exact hk a (List.mem_mergeSort.1 ha) b (hp.mem_iff.2 (List.mem_mergeSort.1 hb))
      (String.le_antisymm h1 h2)
  · exact (List.mergeSort_perm xs _).trans (hp.trans (List.mergeSort_perm ys _).symm)

end

theorem dropFinalNewline_of_not_mem {cs : List Char} (h : '\n' ∉ cs) : dropFinalNewline cs = cs :=
  if_neg fun hl => h (List.mem_of_getLast? hl)

section
variable {p : Char → Bool} {run rest : List Char} {x : Char} (hr : ∀ c ∈ run, p c = true)
  (hx : p x = false)
include hr hx

theorem takeWhile_run : (run ++ x :: rest).takeWhile p = run := by
  rw [List.takeWhile_append_of_pos hr, List.takeWhile_cons, hx, if_neg Bool.false_ne_true,
    List.append_nil]

theorem dropWhile_run : (run ++ x :: rest).dropWhile p = x :: rest := by
  rw [List.dropWhile_append_of_pos hr, List.dropWhile_cons, hx, if_neg Bool.false_ne_true]

end

/-- a run that nothing of its class follows -/
theorem takeWhile_of_head {p : Char → Bool} {run rest : List Char} (hr : ∀ c ∈ run, p c = true)
    (hx : ∀ c ∈ rest.head?, p c = false) : (run ++ rest).takeWhile p = run := by
  cases rest with
  | nil => rw [List.takeWhile_append_of_pos hr, List.takeWhile_nil, List.append_nil]
  | cons x rest => exact takeWhile_run hr (hx x rfl)

theorem trimBy_eq_self {p : Char → Bool} {cs : List Char} (hf : ∀ c ∈ cs.head?, p c = false)
    (hl : ∀ c ∈ cs.getLast?, p c = false) : trimBy p cs = cs := by
  have hd : ∀ {cs : List Char}, (∀ c ∈ cs.head?, p c = false) → cs.dropWhile p = cs := by
    intro cs h
    cases cs with
    | nil => rfl
    | cons c cs => rw [List.dropWhile_cons, h c rfl, if_neg Bool.false_ne_true]
  unfold trimBy
  rw [hd hf, hd (by rwa [List.head?_reverse]), List.reverse_reverse]

theorem trim_eq_self {cs : List Char} (hf : ∀ c ∈ cs.head?, isBlank c = false)
    (hl : ∀ c ∈ cs.getLast?, isBlank c = false) : trim cs = cs :=
  trimBy_eq_self hf hl

theorem trimRight_prefix (cs : List Char) : trimRight cs <+: cs := by
  have hs := List.dropWhile_suffix (l := cs.reverse) isBlank
  rwa [← List.reverse_prefix, List.reverse_reverse] at hs

theorem trim_infix (cs : List Char) : trim cs <:+: cs :=
  (Text.trimRight_prefix _).isInfix.trans (List.dropWhile_suffix _).isInfix

theorem trimRight_append {cs : List Char} (rest : List Char) (h : ∀ c ∈ cs.getLast?, isBlank c = false) :
    trimRight (cs ++ rest) = cs ++ trimRight rest := by
  have hd : cs.reverse.dropWhile isBlank = cs.reverse := by
    rw [← List.head?_reverse] at h
    cases hc : cs.reverse with
    | nil => rfl
    | cons c cs' =>
      rw [hc] at h
      rw [List.dropWhile_cons, h c rfl]
      rfl
  unfold trimRight
  rw [List.reverse_append, List.dropWhile_append]
  split
  · next he =>
    rw [hd, List.isEmpty_iff.1 he, List.reverse_reverse, List.reverse_nil, List.append_nil]
  · rw [List.reverse_append, List.reverse_reverse]

/-- a list without characters of a class, by a look at each -/
theorem forall_eq_false {p : Char → Bool} {cs : List Char} (h : cs.all (fun c => !p c) = true) :
    ∀ c ∈ cs, p c = false := by
  intro c hc
  rw [← Bool.not_eq_true']
  exact List.all_eq_true.1 h c hc

/-- a class without blanks -/
theorem isBlank_eq_false {p : Char → Bool} {c : Char} (hp : ∀ r ∈ blankRanges,
    ∀ n ∈ List.range' r.1 (r.2 + 1 - r.1), p (Char.ofNat n) = false) (h : p c = true) :
    isBlank c = false := by
  rw [Bool.eq_false_iff]
  intro hb
  obtain ⟨r, hr, h1, h2⟩ := (inRanges_iff _ _).1 hb
  have := hp r hr c.toNat (List.mem_range'_1.2 ⟨h1, by omega⟩)
  rw [Char.ofNat_toNat, h] at this
  cases this

theorem isBlank_of_isWord {c : Char} (h : isWord c = true) : isBlank c = false :=
  isBlank_eq_false (by decide +kernel) h

theorem isBlank_of_isIdentRest {c : Char} (h : isIdentRest c = true) : isBlank c = false :=
  isBlank_eq_false (by decide +kernel) h

/-! ## parts -/

theorem splitOnChar_eq_splitOn (sep : Char) (cs : List Char) :
    splitOnChar sep cs = cs.splitOn sep := by
  induction cs with
  | nil => rfl
  | cons c cs ih =>
    obtain ⟨p, ps, hp⟩ := List.exists_cons_of_ne_nil (List.splitOnP_ne_nil (· == sep) cs)
    have hs : cs.splitOn sep = p :: ps := hp
    unfold splitOnChar List.splitOn
    rw [ih, hs, List.splitOnP_cons_eq_if_modifyHead, hp]
    simp only [beq_iff_eq, List.modifyHead_cons]

theorem mem_of_mem_splitOnChar {sep c : Char} {p cs : List Char} (hp : p ∈ splitOnChar sep cs)
    (hc : c ∈ p) : c ∈ cs := by
  induction cs generalizing p with
  | nil =>
    rw [List.mem_singleton.1 hp] at hc
    cases hc
  | cons x cs ih =>
    unfold splitOnChar at hp
    split at hp
    · rw [List.mem_singleton.1 hp, List.mem_singleton] at hc
      exact hc ▸ List.mem_cons_self
    · next q qs hq =>
      split at hp
      · rcases List.mem_cons.1 hp with rfl | hp
        · cases hc
        · exact List.mem_cons_of_mem _ (ih (hq ▸ hp) hc)
      · rcases List.mem_cons.1 hp with rfl | hp
        · rcases List.mem_cons.1 hc with rfl | hc
          · exact List.mem_cons_self
          · exact List.mem_cons_of_mem _ (ih (hq ▸ List.mem_cons_self) hc)
        · exact List.mem_cons_of_mem _ (ih (hq ▸ List.mem_cons_of_mem _ hp) hc)

theorem splitOnChar_append (sep : Char) (as bs : List Char) :
    splitOnChar sep (as ++ sep :: bs) = splitOnChar sep as ++ splitOnChar sep bs := by
  simp only [splitOnChar_eq_splitOn]
  exact List.splitOnP_append_cons as bs (beq_self_eq_true sep)

theorem exists_splitOnChar (sep : Char) (cs : List Char) : ∃ p ps, splitOnChar sep cs = p :: ps := by
  rw [splitOnChar_eq_splitOn]
  exact List.exists_cons_of_ne_nil (List.splitOnP_ne_nil (· == sep) cs)

/-- a piece without separators goes to the first part -/
theorem splitOnChar_append_of_not_mem {sep : Char} {block cs p : List Char} {ps : List (List Char)}
    (hb : sep ∉ block) (h : splitOnChar sep cs = p :: ps) :
    splitOnChar sep (block ++ cs) = (block ++ p) :: ps := by
  induction block with
  | nil => exact h
  | cons b block ih =>
    rw [List.mem_cons, not_or] at hb
    rw [List.cons_append, splitOnChar, ih hb.2]
    exact if_neg (Ne.symm hb.1)

theorem not_mem_of_mem_splitOnChar {sep : Char} {p cs : List Char} (h : p ∈ splitOnChar sep cs) :
    sep ∉ p := by
  induction cs generalizing p with
  | nil =>
    rw [List.mem_singleton.1 h]
    exact List.not_mem_nil
  | cons c cs ih =>
    obtain ⟨q, qs, hq⟩ := exists_splitOnChar sep cs
    by_cases hc : c = sep
    · rw [hc, ← List.nil_append (sep :: cs), splitOnChar_append] at h
      rcases List.mem_cons.1 h with rfl | h
      · exact List.not_mem_nil
      · exact ih h
    · have hcs : sep ∉ [c] := by simpa using Ne.symm hc
      rw [← List.singleton_append, splitOnChar_append_of_not_mem hcs hq] at h
      rcases List.mem_cons.1 h with rfl | h
      · rw [List.mem_append, not_or]
        exact ⟨hcs, ih (hq ▸ List.mem_cons_self)⟩
      · exact ih (hq ▸ List.mem_cons_of_mem _ h)

theorem splitOnChar_injective (sep : Char) : Function.Injective (splitOnChar sep) := by
  have h : Function.LeftInverse [sep].intercalate (splitOnChar sep) := fun cs => by
    rw [splitOnChar_eq_splitOn, List.intercalate_splitOn]
  exact h.injective

namespace Str

variable {s pat x : String} {xs : List String}

theorem head?_append {c : Char} (h : s.toList.head? = some c) (t : String) :
    (s ++ t).toList.head? = some c := by
  rw [String.toList_append, List.head?_append, h, Option.some_or]

theorem startsWith_iff : startsWith s pat = true ↔ ∃ r, s.toList = pat.toList ++ r := by
  simp [startsWith, Option.isSome_iff_exists, dropStart?_eq_some_iff]

/-- a common beginning does not count -/
theorem startsWith_append (s t pat : String) :
    startsWith (s ++ t) (s ++ pat) = startsWith t pat := by
  rw [Bool.eq_iff_iff, startsWith_iff, startsWith_iff]
  simp only [String.toList_append, List.append_assoc, List.append_cancel_left_eq]

theorem endsWith_iff : endsWith s pat = true ↔ ∃ r, s.toList = r ++ pat.toList := by
  unfold endsWith
  rw [Option.isSome_iff_exists]
  constructor
  · rintro ⟨r, hr⟩
    refine ⟨r.reverse, ?_⟩
    have h := congrArg List.reverse (dropStart?_eq_some_iff.1 hr)
    simpa using h
  · rintro ⟨r, hr⟩
    exact ⟨r.reverse, dropStart?_eq_some_iff.2 (by simp [hr])⟩

theorem endsWith_append_self (s pat : String) : endsWith (s ++ pat) pat = true :=
  endsWith_iff.2 ⟨s.toList, String.toList_append⟩

/-- how a text ends is seen in a part at its end that is long enough -/
theorem endsWith_append {t : String} (s : String) (h : pat.toList.length ≤ t.toList.length) :
    endsWith (s ++ t) pat = endsWith t pat := by
  rw [Bool.eq_iff_iff, endsWith_iff, endsWith_iff]
  constructor
  · rintro ⟨r, hr⟩
    rw [String.toList_append] at hr
    obtain ⟨u, hu⟩ := List.suffix_of_suffix_length_le (List.suffix_append r _)
      (hr ▸ List.suffix_append s.toList _) h
    exact ⟨u, hu.symm⟩
  · rintro ⟨r, hr⟩
    exact ⟨s.toList ++ r, by rw [String.toList_append, hr, List.append_assoc]⟩

theorem dropLast_append_of_endsWith {n : Nat} (hn : pat.toList.length = n)
    (h : endsWith s pat = true) : dropLast n s ++ pat = s := by
  obtain ⟨r, hr⟩ := endsWith_iff.1 h
  apply String.toList_injective
  rw [String.toList_append, dropLast, String.toList_ofList, hr, ← hn]
  simp

theorem unlines_singleton (l : String) : unlines [l] = l := by
  rw [unlines, join, String.intercalate_singleton]

/-- lines behind lines -/
theorem unlines_append {xs ys : List String} (hx : xs ≠ []) (hy : ys ≠ []) :
    unlines (xs ++ ys) = unlines xs ++ "\n" ++ unlines ys :=
  String.intercalate_append_of_ne_nil hx hy

/-- lines joined before the rest of the lines -/
theorem unlines_unlines (xs ys : List String) {ls : List String} (h : ls ≠ []) :
    unlines (xs ++ [unlines ls] ++ ys) = unlines (xs ++ ls ++ ys) := by
  have hfront : unlines (xs ++ [unlines ls]) = unlines (xs ++ ls) := by
    by_cases hx : xs = []
    · rw [hx, List.nil_append, List.nil_append, unlines_singleton]
    · rw [unlines_append hx (List.cons_ne_nil _ _), unlines_append hx h, unlines_singleton]
  by_cases hy : ys = []
  · rw [hy, List.append_nil, List.append_nil, hfront]
  · rw [unlines_append (List.append_ne_nil_of_right_ne_nil xs (List.cons_ne_nil _ _)) hy,
      unlines_append (List.append_ne_nil_of_right_ne_nil xs h) hy, hfront]

theorem unlines_cons {ls : List String} (h : ls ≠ []) (l : String) :
    unlines (l :: ls) = l ++ "\n" ++ unlines ls :=
  String.intercalate_cons_of_ne_nil h

/-- an empty line at the end is a line feed -/
theorem unlines_concat_empty {ls : List String} (h : ls ≠ []) :
    unlines (ls ++ [""]) = unlines ls ++ "\n" := by
  induction ls with
  | nil => exact absurd rfl h
  | cons l ls ih =>
    cases ls with
    | nil =>
      show unlines [l, ""] = unlines [l] ++ "\n"
      simp [unlines, join]
    | cons l' ls =>
      rw [unlines_cons (List.cons_ne_nil l' ls), String.append_assoc, ← ih (List.cons_ne_nil l' ls)]
      exact unlines_cons (by simp) l

@[simp] theorem mem_sortDedup : x ∈ sortDedup xs ↔ x ∈ xs := by
  simp [sortDedup]

theorem nodup_sortDedup (xs : List String) : (sortDedup xs).Nodup := nodup_eraseDups _

theorem pairwise_le_sortDedup (xs : List String) : (sortDedup xs).Pairwise (· ≤ ·) :=
  (pairwise_mergeSort id xs).sublist (eraseDups_sublist _)

theorem pairwise_sortDedup (xs : List String) : (sortDedup xs).Pairwise (· < ·) := by
  refine ((pairwise_le_sortDedup xs).and (nodup_sortDedup xs)).imp ?_
  rintro a b ⟨hle, hne⟩
  exact String.not_le.1 fun h => hne (String.le_antisymm hle h)

/-- only the members count -/
theorem sortDedup_congr {ys : List String} (h : ∀ x, x ∈ xs ↔ x ∈ ys) :
    sortDedup xs = sortDedup ys := by
  refine List.Perm.eq_of_pairwise (fun _ _ _ _ => String.le_antisymm) (pairwise_le_sortDedup xs)
    (pairwise_le_sortDedup ys) ?_
  refine (List.perm_ext_iff_of_nodup (nodup_sortDedup _) (nodup_sortDedup _)).2 fun x => ?_
  rw [mem_sortDedup, mem_sortDedup, h]

end Str

end ZodSchema.Text
