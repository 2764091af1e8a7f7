import Mathlib.Data.List.Basic
import ZodSchema.Crud.Args
import ZodSchema.Proofs.Text.Chars

/-!
# Lists as they are written

The items of a list stand in double quotes, in single quotes or bare, each as it likes, with blanks
around them.

* `Quoting`, `Spaced`     how an item is written, and what stands around it
* `itemsFrom_quoted`, `itemsFrom_bare`, `itemsFrom_pass`   what is read of the text at the head
* `Spaced.itemsFrom_text` an item is read with the blanks around it
* `arrayArg_listText`   a list is read back, item by item
-/

namespace ZodSchema.Crud

open Text

variable {q : Char} {cs rest : List Char}

/-! ## what is read at the head -/

theorem itemsFrom_skip (skip : Nat) (cs : List Char) :
    itemsFrom skip cs = itemsFrom 0 (cs.drop skip) := by
  induction cs generalizing skip with
  | nil => cases skip <;> rfl
  | cons c cs ih =>
    cases skip with
    | zero => rfl
    | succ skip => exact ih skip

theorem upTo?_of_not_mem (h : q ∉ cs) (rest : List Char) :
    upTo? q (cs ++ q :: rest) = some cs := by
  have hc : (cs ++ q :: rest).contains q = true := by simp
  have ht : (cs ++ q :: rest).takeWhile (· != q) = cs :=
    takeWhile_run (fun c hc => bne_iff_ne.2 (ne_of_mem_of_not_mem hc h)) (bne_self_eq_false q)
  rw [upTo?, if_pos hc, ht]

theorem itemsFrom_quoted (hq : q = '"' ∨ q = '\'') (h : q ∉ cs) (rest : List Char) :
    itemsFrom 0 (q :: cs ++ q :: rest) = cs :: itemsFrom 0 rest := by
  have hitem : quotedItem? (q :: (cs ++ q :: rest)) = some cs := by
    rw [quotedItem?, if_pos hq, upTo?_of_not_mem h]
  have hdrop : (cs ++ q :: rest).drop (cs.length + 1) = rest := by
    rw [List.append_cons, List.drop_left' (by simp)]
  rw [List.cons_append, itemsFrom, hitem]
  dsimp only
  rw [itemsFrom_skip, hdrop]

/-- no quoted item begins with another character -/
theorem quotedItem?_eq_none (h : q ≠ '"' ∧ q ≠ '\'') (cs : List Char) :
    quotedItem? (q :: cs) = none :=
  if_neg (not_or.2 h)

theorem ne_quote_of_isBare (h : isBare q = true) : q ≠ '"' ∧ q ≠ '\'' := by
  constructor
  · rintro rfl
    exact absurd h (by decide)
  · rintro rfl
    exact absurd h (by decide)

/-- a bare item goes on up to a character that no bare item has -/
theorem itemsFrom_bare (hne : cs ≠ []) (h : ∀ c ∈ cs, isBare c = true)
    (hr : ∀ c ∈ rest.head?, isBare c = false) :
    itemsFrom 0 (cs ++ rest) = cs :: itemsFrom 0 rest := by
  cases cs with
  | nil => exact absurd rfl hne
  | cons c cs =>
    obtain ⟨hc, hcs⟩ := List.forall_mem_cons.1 h
    rw [List.cons_append, itemsFrom, quotedItem?_eq_none (ne_quote_of_isBare hc), if_pos hc,
      ← List.cons_append, takeWhile_of_head h hr, takeWhile_of_head hcs hr, itemsFrom_skip,
      List.drop_left]

/-- begins no item -/
def isGap (c : Char) : Bool := !isBare c && !(c == '"' || c == '\'')

theorem itemsFrom_pass (h : ∀ c ∈ cs, isGap c = true) (rest : List Char) :
    itemsFrom 0 (cs ++ rest) = itemsFrom 0 rest := by
  induction cs with
  | nil => rfl
  | cons c cs ih =>
    obtain ⟨hc, hcs⟩ := List.forall_mem_cons.1 h
    obtain ⟨hbare, hquote⟩ := Bool.and_eq_true_iff.1 hc
    have hne : c ≠ '"' ∧ c ≠ '\'' := by simpa using hquote
    have hno : ¬ isBare c = true := by simpa using hbare
    rw [List.cons_append, itemsFrom, quotedItem?_eq_none hne, if_neg hno]
    exact ih hcs

theorem isGap_of_isBlank {c : Char} (h : isBlank c = true) : isGap c = true := by
  have hne : ∀ x, isBlank x = false → c ≠ x := by
    rintro x hx rfl
    exact Bool.false_ne_true (hx.symm.trans h)
  have hd : (c == '"') = false := beq_eq_false_iff_ne.2 (hne _ (by decide))
  have hs : (c == '\'') = false := beq_eq_false_iff_ne.2 (hne _ (by decide))
  simp [isGap, isBare, h, hd, hs]

/-! ## how a list is written -/

/-- ways to write an item -/
inductive Quoting where
  | double | single | bare
  deriving DecidableEq, Repr

namespace Quoting

/-- what stands on either side of the item -/
def mark : Quoting → List Char
  | double => ['"']
  | single => ['\'']
  | bare => []

/-- characters that an item which is written so does not have -/
def isBarred : Quoting → Char → Bool
  | double, c => c == '"'
  | single, c => c == '\''
  | bare, c => c == ',' || c == '[' || c == ']' || c == '"' || c == '\'' || isBlank c

end Quoting

/-- an item of a list, how it is written, and the blanks around it -/
structure Spaced where
  item : String
  quoting : Quoting
  before : String := ""
  after : String := ""
  deriving DecidableEq, Repr

namespace Spaced

def text (s : Spaced) : String :=
  s.before ++ String.ofList (s.quoting.mark ++ s.item.toList ++ s.quoting.mark) ++ s.after

/-- the item can be written so, and there is nothing around it but blanks -/
structure Fits (s : Spaced) : Prop where
  ne : s.item ≠ ""
  quoting : ∀ c ∈ s.item.toList, s.quoting.isBarred c = false
  before : ∀ c ∈ s.before.toList, isBlank c = true
  after : ∀ c ∈ s.after.toList, isBlank c = true

end Spaced

/-- a list with its brackets and commas -/
def listText (items : List Spaced) : String := "[" ++ Str.join "," (items.map Spaced.text) ++ "]"

/-! ## what is read of it -/

namespace Spaced

variable {s : Spaced}

/-- an item between its marks is read up to the second one, and a bare one up to what follows it -/
theorem itemsFrom_marked (h : s.Fits) (hr : ∀ c ∈ rest.head?, isBare c = false) :
    itemsFrom 0 (s.quoting.mark ++ s.item.toList ++ s.quoting.mark ++ rest) =
      s.item.toList :: itemsFrom 0 rest := by
  have hne : s.item.toList ≠ [] := fun he => h.ne (String.toList_injective he)
  have hq := h.quoting
  cases hs : s.quoting <;> rw [hs] at hq
  case double =>
    have hm : '"' ∉ s.item.toList := fun hm => by simpa [Quoting.isBarred] using hq _ hm
    rw [List.append_assoc]
    exact itemsFrom_quoted (Or.inl rfl) hm rest
  case single =>
    have hm : '\'' ∉ s.item.toList := fun hm => by simpa [Quoting.isBarred] using hq _ hm
    rw [List.append_assoc]
    exact itemsFrom_quoted (Or.inr rfl) hm rest
  case bare =>
    have hb : ∀ c ∈ s.item.toList, isBare c = true := by
      intro c hc
      have := hq c hc
      simp only [Quoting.isBarred, Bool.or_eq_false_iff] at this
      simp [isBare, this]
    show itemsFrom 0 ([] ++ s.item.toList ++ [] ++ rest) = _
    rw [List.nil_append, List.append_nil]
    exact itemsFrom_bare hne hb hr

/-- in front of a character that no bare item has, an item is read with the blanks around it -/
theorem itemsFrom_text {x : Char} (h : s.Fits) (hx : isBare x = false) (rest : List Char) :
    itemsFrom 0 (s.text.toList ++ x :: rest) = s.item.toList :: itemsFrom 0 (x :: rest) := by
  have hgap : ∀ c ∈ (s.after.toList ++ x :: rest).head?, isBare c = false := by
    intro c hc
    cases ha : s.after.toList with
    | nil =>
      rw [ha] at hc
      rwa [← Option.some.inj hc]
    | cons y ys =>
      rw [ha] at hc
      obtain rfl := Option.some.inj hc
      have hy : isGap y = true := isGap_of_isBlank (h.after y (ha ▸ List.mem_cons_self))
      simpa using (Bool.and_eq_true_iff.1 hy).1
  unfold text
  rw [String.toList_append, String.toList_append, String.toList_ofList, List.append_assoc,
    List.append_assoc, itemsFrom_pass fun c hc => isGap_of_isBlank (h.before c hc),
    itemsFrom_marked h hgap, itemsFrom_pass fun c hc => isGap_of_isBlank (h.after c hc)]

end Spaced

variable {items : List Spaced}

/-- the items in front of the closing bracket, one after another -/
theorem itemsFrom_join (h : ∀ s ∈ items, s.Fits) :
    itemsFrom 0 ((Str.join "," (items.map Spaced.text)).toList ++ [']']) =
      items.map (·.item.toList) := by
  induction items with
  | nil => decide
  | cons s items ih =>
    obtain ⟨hs, hrest⟩ := List.forall_mem_cons.1 h
    unfold Str.join at ih ⊢
    cases items with
    | nil =>
      rw [List.map_singleton, String.intercalate_singleton, Spaced.itemsFrom_text hs (by decide)]
      exact congrArg _ (ih hrest)
    | cons t items =>
      have hne : (t :: items).map Spaced.text ≠ [] := List.cons_ne_nil _ _
      have hcomma : ",".toList = [','] := rfl
      have hread : ∀ rest, itemsFrom 0 (',' :: rest) = itemsFrom 0 rest :=
        itemsFrom_pass (List.forall_mem_singleton.2 rfl)
      rw [List.map_cons, String.intercalate_cons_of_ne_nil hne, String.toList_append,
        String.toList_append, List.append_assoc, List.append_assoc, hcomma, List.singleton_append,
        Spaced.itemsFrom_text hs (by decide), hread, ih hrest]
      rfl

/-- **Lists are read back.**  Whatever way each item is written in, the items come back in their
order. -/
theorem arrayArg_listText (items : List Spaced) (h : ∀ s ∈ items, s.Fits) :
    arrayArg (listText items) = items.map (·.item) := by
  have hopen : "[".toList = ['['] := rfl
  have hclose : "]".toList = [']'] := rfl
  have hitems : itemsFrom 0 (listText items).toList = items.map (·.item.toList) := by
    unfold listText
    rw [String.toList_append, String.toList_append, List.append_assoc, hopen, hclose,
      itemsFrom_pass (List.forall_mem_singleton.2 rfl), itemsFrom_join h]
  have hall : (items.map (·.item.toList)).filter (· ≠ []) = items.map (·.item.toList) := by
    rw [List.filter_eq_self]
    intro cs hcs
    obtain ⟨s, hs, rfl⟩ := List.mem_map.1 hcs
    exact decide_eq_true fun he => (h s hs).ne (String.toList_injective he)
  unfold arrayArg
  rw [hitems, hall, List.map_map]
  exact List.map_congr_left fun s _ => String.ofList_toList

/-- a list in all three ways, with marks, brackets, commas and blanks inside the items -/
def mixed : List Spaced :=
  [⟨"it's, [here]", .double, "", " "⟩, ⟨"say \"yes\"", .single, "\u2003", "\n"⟩,
    ⟨"a/b=c", .bare, "", "\t"⟩, ⟨" ", .single, "", ""⟩]

theorem arrayArg_mixed : (∀ s ∈ mixed, s.Fits) ∧
    arrayArg (listText mixed) = ["it's, [here]", "say \"yes\"", "a/b=c", " "] := by
  have h : ∀ s ∈ mixed, s.Fits := by
    have hall : (mixed.all fun s => s.item != "" && s.item.toList.all (!s.quoting.isBarred ·) &&
        s.before.toList.all isBlank && s.after.toList.all isBlank) = true := by decide
    intro s hs
    have hone := List.all_eq_true.1 hall s hs
    simp only [Bool.and_eq_true, bne_iff_ne, List.all_eq_true, Bool.not_eq_true'] at hone
    obtain ⟨⟨⟨hne, hquoting⟩, hbefore⟩, hafter⟩ := hone
    exact ⟨hne, hquoting, hbefore, hafter⟩
  exact ⟨h, arrayArg_listText mixed h⟩

end ZodSchema.Crud
