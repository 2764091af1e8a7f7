import Mathlib.Data.List.Chain
import ZodSchema.Proofs.Text.Replace
import ZodSchema.TypeScript.Module

/-!
# Documentation comments

A comment reaches from its head up to the first star with a slash behind it.

* `Endless`            no star with a slash behind it
* `endless_breakTerminator`, `Endless.unlines`   texts that are made so, and lines of such texts
* `EndsOnce`           one star with a slash behind it, at the end
* `endsOnce_docBlock`  a block of any lines ends where it is closed, and not before
* `Commented`          a text in which such a block stands on lines of its own
-/

namespace ZodSchema

namespace Text.Str

/-- what the last line ends with, the text ends with -/
theorem unlines_concat_append (ls : List String) (l t : String) :
    unlines (ls ++ [l ++ t]) = unlines (ls ++ [l]) ++ t := by
  by_cases hne : ls = []
  · rw [hne, List.nil_append, List.nil_append, unlines_singleton, unlines_singleton]
  · rw [unlines_append hne (List.cons_ne_nil _ _), unlines_append hne (List.cons_ne_nil _ _),
      unlines_singleton, unlines_singleton, String.append_assoc, String.append_assoc,
      String.append_assoc]

/-- lines between other lines begin and end with theirs -/
theorem exists_unlines (xs ys : List String) {ls : List String} (h : ls ≠ []) :
    ∃ before after, unlines (xs ++ ls ++ ys) = before ++ unlines ls ++ after ∧
      (before = "" ∨ ∃ t, before = t ++ "\n") ∧ (after = "" ∨ ∃ t, after = "\n" ++ t) := by
  have hfront : ∃ before, unlines (xs ++ ls) = before ++ unlines ls ∧
      (before = "" ∨ ∃ t, before = t ++ "\n") := by
    by_cases hx : xs = []
    · exact ⟨"", by rw [hx, List.nil_append, String.empty_append], Or.inl rfl⟩
    · exact ⟨_, unlines_append hx h, Or.inr ⟨_, rfl⟩⟩
  obtain ⟨before, hb, hbefore⟩ := hfront
  by_cases hy : ys = []
  · exact ⟨before, "", by rw [hy, List.append_nil, hb, String.append_empty], hbefore, Or.inl rfl⟩
  · refine ⟨before, "\n" ++ unlines ys, ?_, hbefore, Or.inr ⟨_, rfl⟩⟩
    rw [unlines_append (List.append_ne_nil_of_right_ne_nil xs h) hy, hb, String.append_assoc]

end Text.Str

namespace TypeScript

open Text

variable {cs ds : List Char} {s indent : String} {lines : List String}

/-! ## texts that end no comment -/

/-- no star has a slash behind it -/
def Endless (cs : List Char) : Prop := cs.IsChain fun a b => ¬ (a = '*' ∧ b = '/')

instance (cs : List Char) : Decidable (Endless cs) :=
  inferInstanceAs (Decidable (cs.IsChain fun a b => ¬ (a = '*' ∧ b = '/')))

theorem Endless.append (hc : Endless cs) (hd : Endless ds)
    (h : cs.getLast? ≠ some '*' ∨ ds.head? ≠ some '/') : Endless (cs ++ ds) := by
  refine List.IsChain.append hc hd ?_
  rintro x hx y hy ⟨rfl, rfl⟩
  exact h.elim (· hx) (· hy)

theorem endless_of_not_mem (h : '*' ∉ cs) : Endless cs := by
  refine List.isChain_iff_forall_rel_of_append_cons_cons.2 fun a b xs ys he hab => h ?_
  rw [he, ← hab.1]
  simp

/-- the ends of comments are broken up, and no others come about -/
theorem endless_replace (cs : List Char) :
    Endless (replace "*/".toList "*\\/".toList cs) := by
  have ho : "*/".toList ≠ [] := by decide
  induction cs using replace_induction ho with
  | nil => exact List.isChain_nil
  | piece rest ih =>
    rw [replace_append ho]
    exact Endless.append (by decide) ih (Or.inl (by decide))
  | char c cs hp ih =>
    rw [replace_cons hp]
    have hone : Endless [c] := List.isChain_singleton c
    refine hone.append ih ?_
    by_contra hseam
    obtain ⟨hc, hslash⟩ := not_or.1 hseam
    obtain rfl : c = '*' := by simpa using hc
    -- a slash at the head of the rest was there before
    obtain ⟨rest, hr⟩ := List.head?_eq_some_iff.1 (not_not.1 hslash)
    have hpre : ['/'] <+: replace ['*', '/'] ['*', '\\', '/'] cs := ⟨rest, hr.symm⟩
    rw [prefix_replace_iff (by decide)] at hpre
    exact hp (List.cons_prefix_cons.2 ⟨rfl, hpre⟩)

theorem endless_breakTerminator (line : String) : Endless (breakTerminator line).toList := by
  rw [breakTerminator, Str.toList_replace]
  exact endless_replace line.toList

/-- a line feed keeps the end of one line and the beginning of the next apart -/
theorem Endless.unlines (h : ∀ l ∈ lines, Endless l.toList) : Endless (Str.unlines lines).toList := by
  induction lines with
  | nil => exact List.isChain_nil
  | cons l ls ih =>
    obtain ⟨hl, hls⟩ := List.forall_mem_cons.1 h
    by_cases hne : ls = []
    · rwa [hne, Str.unlines_singleton]
    · rw [Str.unlines_cons hne, String.toList_append, String.toList_append]
      refine Endless.append (hl.append (by decide) (Or.inr (by decide))) (ih hls) (Or.inl ?_)
      rw [show "\n".toList = ['\n'] from rfl, List.getLast?_concat]
      decide

/-! ## blocks -/

/-- Two marks, the star and the slash, end a comment: they are the last two characters of the text,
and stand nowhere else in it. -/
structure EndsOnce (s : String) : Prop where
  ends : ∃ body, s = body ++ "*/"
  once : ∀ before after, s = before ++ "*/" ++ after → after = ""

theorem endsOnce_append {body : String} (h : Endless (body ++ "*").toList) :
    EndsOnce (body ++ "*" ++ "/") := by
  refine ⟨⟨body, String.append_assoc⟩, fun before after he => ?_⟩
  by_contra hne
  -- a mark before the last one would stand in the text without its slash
  have hl : body.toList ++ ['*'] ++ ['/'] = before.toList ++ ['*', '/'] ++ after.toList := by
    have := congrArg String.toList he
    simp only [String.toList_append] at this
    exact this
  have hpre : before.toList ++ ['*', '/'] <+: body.toList ++ ['*'] := by
    refine List.prefix_of_prefix_length_le ⟨_, hl.symm⟩ (List.prefix_append _ ['/']) ?_
    have hpos : 0 < after.toList.length :=
      List.length_pos_iff.2 fun hnil => hne (String.toList_injective hnil)
    have hlen := congrArg List.length hl
    simp only [List.length_append, List.length_cons, List.length_nil] at hlen ⊢
    omega
  obtain ⟨rest, hr⟩ := hpre
  have hmark : (body ++ "*").toList = before.toList ++ '*' :: '/' :: rest := by
    rw [String.toList_append]
    exact hr.symm.trans (by simp)
  exact List.isChain_iff_forall_rel_of_append_cons_cons.1 h hmark ⟨rfl, rfl⟩

section
variable (hi : ∀ c ∈ indent.toList, isBlank c = true)
include hi

theorem not_mem_of_blank {c : Char} (hc : isBlank c = false) : c ∉ indent.toList :=
  fun h => Bool.false_ne_true (hc.symm.trans (hi c h))

/-- an indent in front of a text without ends of comments -/
theorem endless_indent (h : Endless s.toList) : Endless (indent ++ s).toList := by
  have hstar : '*' ∉ indent.toList := not_mem_of_blank hi (by decide)
  rw [String.toList_append]
  exact (endless_of_not_mem hstar).append h (Or.inl fun hl => hstar (List.mem_of_getLast? hl))

/-- a line of a block -/
theorem endless_docLine (l : String) :
    Endless (Str.trimRight (indent ++ " * " ++ breakTerminator l)).toList := by
  have hline : Endless (" * " ++ breakTerminator l).toList := by
    rw [String.toList_append]
    exact Endless.append (by decide) (endless_breakTerminator l) (Or.inl (by decide))
  rw [Str.trimRight, String.toList_ofList, String.append_assoc]
  exact List.IsChain.prefix (endless_indent hi hline) <| trimRight_prefix _

/-- a block ends where it is closed, and not before -/
theorem endsOnce_docBlock (h : lines ≠ []) : EndsOnce (Str.unlines (docBlock lines indent)) := by
  have hopen : ∃ opened, docBlock lines indent = opened ++ [indent ++ " */"] ∧
      ∀ l ∈ opened, Endless l.toList := by
    refine ⟨_, if_neg (by rwa [List.isEmpty_iff]), List.forall_mem_cons.2 ⟨?_, ?_⟩⟩
    · exact endless_indent hi (by decide)
    · exact List.forall_mem_map.2 fun l _ => endless_docLine hi l
  obtain ⟨opened, hblock, hlines⟩ := hopen
  have hmark : indent ++ " */" = indent ++ " " ++ "*" ++ "/" := by
    rw [String.append_assoc, String.append_assoc]
    rfl
  rw [hblock, hmark, Str.unlines_concat_append, Str.unlines_concat_append]
  refine endsOnce_append ?_
  rw [← Str.unlines_concat_append]
  refine Endless.unlines (List.forall_mem_append.2 ⟨hlines, List.forall_mem_singleton.2 ?_⟩)
  rw [String.append_assoc]
  exact endless_indent hi (by decide)

end

/-! ## texts of files -/

/-- The lines stand in the text as a comment that begins and ends on lines of its own, and that
ends where it is closed.  There is none when there are no lines. -/
def Commented (content indent : String) (lines : List String) : Prop :=
  lines = [] ∨
    ∃ before after, content = before ++ Str.unlines (docBlock lines indent) ++ after ∧
      (before = "" ∨ ∃ t, before = t ++ "\n") ∧ (after = "" ∨ ∃ t, after = "\n" ++ t) ∧
      EndsOnce (Str.unlines (docBlock lines indent))

/-- a block among the lines of a statement -/
theorem commented_of_stmt {f : SourceFile} {st : Stmt} (hst : st ∈ f.stmts)
    (hi : ∀ c ∈ indent.toList, isBlank c = true) (h : docBlock lines indent <:+: st.lines) :
    Commented f.file.content indent lines := by
  by_cases hl : lines = []
  · exact Or.inl hl
  · have hne : docBlock lines indent ≠ [] := by
      rw [docBlock, if_neg (by rwa [List.isEmpty_iff])]
      exact List.cons_ne_nil _ _
    have hst : st.lines <:+: f.stmts.flatMap Stmt.lines :=
      List.infix_of_mem_flatten (List.mem_map_of_mem hst)
    obtain ⟨front, back, hf⟩ := h.trans hst
    obtain ⟨before, after, hc, hb, ha⟩ := Str.exists_unlines front back hne
    refine Or.inr ⟨before, after, ?_, hb, ha, endsOnce_docBlock hi hl⟩
    exact (congrArg Str.unlines hf.symm).trans hc

theorem commented_of_doc {f : SourceFile} (h : .doc lines ∈ f.stmts) :
    Commented f.file.content "" lines :=
  commented_of_stmt h (List.forall_mem_nil _) List.infix_rfl

end TypeScript

end ZodSchema
