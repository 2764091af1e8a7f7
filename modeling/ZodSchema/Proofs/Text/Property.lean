import Mathlib.Data.List.TakeWhile
import ZodSchema.Proofs.Json.Strings
import ZodSchema.Proofs.Text.Chars
import ZodSchema.Proofs.Text.Literal

/-!
# Properties and how they are written

A name stands bare as an object key or behind a dot, every other text in quotes.  Read as source
text, both denote a property.

* `IsName`, `IsFedName`   an identifier over its whole length, and one with a line feed behind it
* `isIdentifier_iff`      the test passes these two and nothing else
* `keyName?`, `accessed?`   the property that a key and an access denote
* `keyName?_key`, `accessed?_member`   it is the text itself, or the name before the line feed
-/

namespace ZodSchema.Text

variable {s t : String}

/-! ## names -/

/-- over its whole length: a character that may open an identifier, then such as may follow it -/
def IsName (s : String) : Prop :=
  ∃ c cs, s.toList = c :: cs ∧ isIdentStart c = true ∧ ∀ x ∈ cs, isIdentRest x = true

/-- a name and a line feed -/
def IsFedName (s : String) : Prop := ∃ t, IsName t ∧ s = t ++ "\n"

theorem toList_fed (t : String) : (t ++ "\n").toList = t.toList ++ ['\n'] :=
  String.toList_append

theorem IsName.isIdentRest (h : IsName s) : ∀ c ∈ s.toList, isIdentRest c = true := by
  obtain ⟨c, cs, hs, h1, h2⟩ := h
  rw [hs, List.forall_mem_cons]
  exact ⟨isIdentRest_of_isIdentStart h1, h2⟩

theorem IsName.line (h : IsName s) : '\n' ∉ s.toList := fun hm =>
  absurd (h.isIdentRest _ hm) (by decide)

theorem IsFedName.feed (h : IsFedName s) : '\n' ∈ s.toList := by
  obtain ⟨t, -, rfl⟩ := h
  rw [toList_fed]
  exact List.mem_append_right _ List.mem_cons_self

theorem fed_ne_self (t : String) : t ++ "\n" ≠ t := by
  intro h
  have hl := congrArg (fun x : String => x.toList.length) h
  simp only [toList_fed, List.length_append, List.length_cons, List.length_nil] at hl
  omega

theorem dropFinalNewline_concat (cs : List Char) : dropFinalNewline (cs ++ ['\n']) = cs := by
  rw [dropFinalNewline, List.getLast?_concat, if_pos rfl, List.dropLast_concat]

theorem isName_iff : IsName s ↔
    (match s.toList with
      | [] => false
      | c :: cs => isIdentStart c && cs.all isIdentRest) = true := by
  unfold IsName
  cases s.toList with
  | nil => simp
  | cons c cs =>
    rw [Bool.and_eq_true, List.all_eq_true]
    constructor
    · rintro ⟨x, xs, hx, h⟩
      obtain ⟨rfl, rfl⟩ := List.cons.inj hx
      exact h
    · exact fun h => ⟨c, cs, rfl, h⟩

instance : DecidablePred IsName := fun _ => decidable_of_iff _ isName_iff.symm

/-- what the test passes, without a line feed behind it, is a name -/
theorem isIdentifier_eq (s : String) :
    isIdentifier s = true ↔ IsName (String.ofList (dropFinalNewline s.toList)) := by
  rw [isName_iff, String.toList_ofList]
  rfl

/-- **The test passes** names, and names with a line feed behind them. -/
theorem isIdentifier_iff : isIdentifier s = true ↔ IsName s ∨ IsFedName s := by
  rw [isIdentifier_eq]
  constructor
  · intro h
    by_cases hl : s.toList.getLast? = some '\n'
    · rw [dropFinalNewline, if_pos hl] at h
      refine Or.inr ⟨_, h, String.toList_inj.1 ?_⟩
      rw [toList_fed, String.toList_ofList, List.dropLast_append_getLast? _ hl]
    · rw [dropFinalNewline, if_neg hl, String.ofList_toList] at h
      exact Or.inl h
  · rintro (h | ⟨t, h, rfl⟩)
    · rwa [dropFinalNewline_eq_self h.isIdentRest, String.ofList_toList]
    · rwa [toList_fed, dropFinalNewline_concat, String.ofList_toList]

theorem isName_iff_of_isIdentifier (h : isIdentifier s = true) : IsName s ↔ '\n' ∉ s.toList :=
  ⟨IsName.line, fun hn => (isIdentifier_iff.1 h).resolve_right fun hf => hn hf.feed⟩

/-! ## what the source text denotes -/

/-- an identifier at the head, and what follows it -/
def bareAt? : List Char → Option (List Char × List Char)
  | [] => none
  | c :: cs =>
    if isIdentStart c then some (c :: cs.takeWhile isIdentRest, cs.dropWhile isIdentRest) else none

/-- the text of a literal at the head, and what follows it -/
def literalAt? : List Char → Option (List Char × List Char)
  | '"' :: cs => Json.stringTail (cs.length + 1) [] cs
  | _ => none

/-- the first of two texts, with nothing but blanks in the second -/
def alone? (p : List Char × List Char) : Option String :=
  if p.2.all Json.isSpace then some (String.ofList p.1) else none

/-- the property that an object key denotes: blanks behind a key are not part of it -/
def keyName? (s : String) : Option String :=
  ((bareAt? s.toList).or (literalAt? s.toList)).bind alone?

/-- the property that an access denotes, from the dot or the bracket on -/
def accessName? : List Char → Option String
  | '.' :: cs => (bareAt? cs).bind alone?
  | '[' :: cs =>
    match literalAt? cs with
    | some (name, ']' :: rest) => alone? (name, rest)
    | _ => none
  | _ => none

/-- the property that a text denotes as an access to `target` -/
def accessed? (target text : String) : Option String :=
  (dropStart? target.toList text.toList).bind accessName?

/-- the property that a text written as a key denotes -/
def denoted (s : String) : String :=
  if isIdentifier s then String.ofList (dropFinalNewline s.toList) else s

theorem alone?_toList (s : String) {rest : List Char} (h : rest.all Json.isSpace = true) :
    alone? (s.toList, rest) = some s := by
  rw [alone?, if_pos h, String.ofList_toList]

theorem literalAt?_quote (s : String) (rest : List Char) :
    literalAt? ((quote s).toList ++ rest) = some (s.toList, rest) := by
  rw [quote, String.toList_ofList, quoteChars]
  simp only [List.cons_append, List.append_assoc, List.nil_append]
  refine Json.stringTail_literal s.toList rest [] ?_
  have hl := length_quote s
  rw [quote, String.toList_ofList, quoteChars] at hl
  simp only [List.length_append, List.length_cons, List.length_nil] at hl ⊢
  omega

theorem bareAt?_name (h : IsName s) (rest : List Char)
    (hr : ∀ c ∈ rest.head?, isIdentRest c = false) :
    bareAt? (s.toList ++ rest) = some (s.toList, rest) := by
  obtain ⟨c, cs, hs, h1, h2⟩ := h
  rw [hs, List.cons_append, bareAt?, if_pos h1]
  cases rest with
  | nil =>
    rw [List.append_nil, List.takeWhile_eq_self_iff.2 h2, List.dropWhile_eq_nil_iff.2 h2]
  | cons x rest =>
    have hx : isIdentRest x = false := hr x rfl
    rw [takeWhile_run h2 hx, dropWhile_run h2 hx]

/-- a text that the test passes is read up to its line feed -/
theorem bareAt?_of_isIdentifier (h : isIdentifier s = true) :
    (bareAt? s.toList).bind alone? = some (denoted s) := by
  rw [denoted, if_pos h]
  rcases isIdentifier_iff.1 h with hs | ⟨t, ht, rfl⟩
  · have hb := bareAt?_name hs [] (fun c hc => by cases hc)
    rw [List.append_nil] at hb
    rw [hb, Option.bind_some, alone?_toList s (by decide), dropFinalNewline_eq_self hs.isIdentRest,
      String.ofList_toList]
  · have hfeed : ∀ c ∈ ['\n'].head?, isIdentRest c = false := fun c hc => Option.some.inj hc ▸ rfl
    have hb := bareAt?_name ht ['\n'] hfeed
    rw [toList_fed, hb, Option.bind_some, alone?_toList t (by decide), dropFinalNewline_concat,
      String.ofList_toList]

theorem denoted_fed (h : IsName s) : denoted (s ++ "\n") = s := by
  rw [denoted, if_pos (isIdentifier_iff.2 (Or.inr ⟨s, h, rfl⟩)), toList_fed,
    dropFinalNewline_concat, String.ofList_toList]

theorem denoted_eq_self_iff : denoted s = s ↔ ¬IsFedName s := by
  constructor
  · rintro h ⟨t, ht, rfl⟩
    rw [denoted_fed ht] at h
    exact fed_ne_self t h.symm
  · intro h
    unfold denoted
    split
    · next hi =>
      have hs := (isIdentifier_iff.1 hi).resolve_right h
      rw [dropFinalNewline_eq_self hs.isIdentRest, String.ofList_toList]
    · rfl

theorem keyName?_key (s : String) : keyName? (key s) = some (denoted s) := by
  unfold keyName? key
  split
  · next h =>
    obtain ⟨p, hp, ha⟩ := Option.bind_eq_some_iff.1 (bareAt?_of_isIdentifier h)
    rw [hp, Option.some_or]
    exact ha
  · next h =>
    -- a quote mark opens no identifier
    have hb : bareAt? (quote s).toList = none := by
      rw [quote, String.toList_ofList]
      rfl
    have hl := literalAt?_quote s []
    rw [List.append_nil] at hl
    rw [hb, Option.none_or, hl, Option.bind_some, alone?_toList s (by decide), denoted, if_neg h]

theorem accessed?_member (target s : String) :
    accessed? target (member target s) = some (denoted s) := by
  unfold accessed? member
  split
  · next h =>
    have hd : dropStart? target.toList (target ++ "." ++ s).toList = some ('.' :: s.toList) := by
      rw [dropStart?_eq_some_iff, String.append_assoc, String.toList_append, String.toList_append]
      rfl
    rw [hd, Option.bind_some, accessName?, bareAt?_of_isIdentifier h]
  · next h =>
    have hd : dropStart? target.toList (target ++ "[" ++ quote s ++ "]").toList =
        some ('[' :: ((quote s).toList ++ [']'])) := by
      rw [dropStart?_eq_some_iff]
      have hl : "[".toList = ['['] := rfl
      have hr : "]".toList = [']'] := rfl
      simp only [String.toList_append, List.append_assoc]
      rw [hl, hr, List.singleton_append]
    rw [hd, Option.bind_some, accessName?, literalAt?_quote, denoted, if_neg h]
    exact alone?_toList s (by decide)

/-! ## when a name stands bare -/

theorem bare_key_iff : key s = s ↔ IsName s ∨ IsFedName s :=
  key_eq_self_iff.trans isIdentifier_iff

theorem dotted_member_iff {target : String} :
    member target s = target ++ "." ++ s ↔ IsName s ∨ IsFedName s := by
  rw [← isIdentifier_iff, member]
  split
  · next h => exact ⟨fun _ => h, fun _ => rfl⟩
  · next h =>
    constructor
    · intro he
      -- behind the target stands a bracket
      rw [String.append_assoc, String.append_assoc, String.append_assoc] at he
      have hl := congrArg String.toList ((String.append_right_inj target).1 he)
      simp at hl
    · exact fun hi => absurd hi h

end ZodSchema.Text
