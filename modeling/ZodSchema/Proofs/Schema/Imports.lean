import ZodSchema.Proofs.Annotations.Segment
import ZodSchema.Proofs.Schema.Entry
import ZodSchema.Proofs.Schema.Names
import ZodSchema.Proofs.TypeScript.Imports

/-!
# Imports of base files

A field needs its enumeration, or the schemas that its external type refers to.  The file of a model
imports what its fields need, by module, and nothing else.

* `RefAt`, `FirstRef`      references in the text of a type
* `mem_overrideRefs`       the references of an external type, member by member
* `has_draft`              what a field takes
* `Required`               what the fields of a model need
* `modelFile_imports`      the import lines of its file
-/

namespace ZodSchema

namespace Annotations

/-- the first result is that of the longest suffix that has one -/
theorem firstAlong_eq_some_iff {α : Type} {f : List Char → Option α} {cs : List Char} {r : α} :
    firstAlong f cs = some r ↔
      ∃ s, s <:+ cs ∧ f s = some r ∧ ∀ s', s' <:+ cs → s.length < s'.length → f s' = none := by
  induction cs with
  | nil =>
    simp only [firstAlong, List.suffix_nil, exists_eq_left]
    exact (and_iff_left fun s' hs' h => by simp [hs'] at h).symm
  | cons c cs ih =>
    rw [firstAlong]
    cases hc : f (c :: cs) with
    | some r' =>
      constructor
      · intro h
        refine ⟨_, List.suffix_rfl, hc.trans h, fun s' hs' hl => ?_⟩
        exact absurd hs'.length_le (Nat.not_le.2 hl)
      · rintro ⟨s, hs, hf, hlong⟩
        rcases List.suffix_cons_iff.1 hs with rfl | hs
        · exact hc.symm.trans hf
        · have hnone := hlong _ List.suffix_rfl (Nat.lt_succ_of_le hs.length_le)
          exact absurd (hc.symm.trans hnone) (Option.some_ne_none r')
    | none =>
      dsimp only
      rw [ih]
      constructor
      · rintro ⟨s, hs, hf, hlong⟩
        refine ⟨s, hs.trans (List.suffix_cons c cs), hf, fun s' hs' hl => ?_⟩
        rcases List.suffix_cons_iff.1 hs' with rfl | hs'
        · exact hc
        · exact hlong s' hs' hl
      · rintro ⟨s, hs, hf, hlong⟩
        rcases List.suffix_cons_iff.1 hs with rfl | hs
        · exact absurd (hc.symm.trans hf).symm (Option.some_ne_none r)
        · exact ⟨s, hs, hf, fun s' hs' => hlong s' (hs'.trans (List.suffix_cons c cs))⟩

end Annotations

namespace Schema

open Annotations TypeScript Text Zod

variable {c : Config} {d : Datamodel} {m : Model} {f : Field} {cs : List Char}
  {module path name member n : String}

/-! ## references -/

/-- The text begins with `import('path').Name`: the path stands between quotes of any kind, and the
name goes on as far as it can. -/
def RefAt (cs : List Char) (path name : String) : Prop :=
  ∃ q q' rest, cs = "import(".toList ++ q :: (path.toList ++ q' :: (").".toList ++
      (name.toList ++ rest))) ∧
    isPlainQuote q = true ∧ isPlainQuote q' = true ∧ Quotable path.toList ∧ name ≠ "" ∧
      (∀ x ∈ name.toList, isWord x = true) ∧ ∀ x ∈ rest.head?, isWord x = false

/-- the reference with which the first of all references in a text begins -/
def FirstRef (member path name : String) : Prop :=
  ∃ s, s <:+ member.toList ∧ RefAt s path name ∧
    ∀ s', s' <:+ member.toList → s.length < s'.length → ∀ p n, ¬ RefAt s' p n

theorem importRefAt?_eq_some_iff : importRefAt? cs = some (path, name) ↔ RefAt cs path name := by
  constructor
  · intro h
    unfold importRefAt? at h
    split at h
    · next rest hopen =>
      split at h
      · next p rest' hquoted =>
        split at h
        · next rest'' hclose =>
          split at h
          · cases h
          · next hne =>
            obtain ⟨rfl, rfl⟩ := Prod.mk.inj (Option.some.inj h)
            obtain ⟨q, q', rfl, hq, hq', hp⟩ := quotedAt?_eq_some_iff.1 hquoted
            rw [dropStart?_eq_some_iff] at hopen hclose
            refine ⟨q, q', rest''.dropWhile isWord, ?_, hq, hq', ?_, ?_, ?_, ?_⟩
            · have hpath : (String.ofList p).toList = p := String.toList_ofList
              have hword : (String.ofList (rest''.takeWhile isWord)).toList =
                rest''.takeWhile isWord := String.toList_ofList
              rw [hopen, hclose, hpath, hword, List.takeWhile_append_dropWhile]
            · rwa [String.toList_ofList]
            · exact fun he => hne (by simpa using congrArg String.toList he)
            · intro x hx
              rw [String.toList_ofList] at hx
              exact List.mem_takeWhile_imp hx
            · intro x hx
              have := List.head?_dropWhile_not isWord rest''
              rw [hx] at this
              simpa using this
        · cases h
      · cases h
    · cases h
  · rintro ⟨q, q', rest, rfl, hq, hq', hp, hne, hword, hrest⟩
    have hquoted : quotedAt? (q :: (path.toList ++ q' :: (").".toList ++ (name.toList ++ rest)))) =
        some (path.toList, ").".toList ++ (name.toList ++ rest)) :=
      quotedAt?_eq_some_iff.2 ⟨q, q', rfl, hq, hq', hp⟩
    have hopen : ∀ t, dropStart? "import(".toList ("import(".toList ++ t) = some t :=
      fun t => dropStart?_eq_some_iff.2 rfl
    have hclose : ∀ t, dropStart? ").".toList (").".toList ++ t) = some t :=
      fun t => dropStart?_eq_some_iff.2 rfl
    rw [importRefAt?, hopen]
    dsimp only
    rw [hquoted]
    dsimp only
    rw [hclose]
    dsimp only
    rw [takeWhile_of_head hword hrest]
    split
    · next he => exact absurd (String.toList_injective he) hne
    · rw [String.ofList_toList, String.ofList_toList]

theorem importRef?_eq_some_iff :
    importRef? member = some (path, n) ↔ ∃ name, FirstRef member path name ∧ n = name ++ "Schema" := by
  have hnone : ∀ s, importRefAt? s = none ↔ ∀ p n, ¬ RefAt s p n := by
    intro s
    rw [Option.eq_none_iff_forall_ne_some]
    simp only [← importRefAt?_eq_some_iff, Prod.forall, ne_eq]
  unfold importRef? FirstRef
  rw [Option.map_eq_some_iff]
  simp only [firstAlong_eq_some_iff, hnone]
  constructor
  · rintro ⟨⟨p, name⟩, ⟨s, hs, hr, hlong⟩, h⟩
    obtain ⟨rfl, rfl⟩ := Prod.mk.inj h
    exact ⟨name, ⟨s, hs, importRefAt?_eq_some_iff.1 hr, hlong⟩, rfl⟩
  · rintro ⟨name, ⟨s, hs, hr, hlong⟩, rfl⟩
    exact ⟨(path, name), ⟨s, hs, importRefAt?_eq_some_iff.2 hr, hlong⟩, rfl⟩

/-- what an external type refers to, member by member -/
theorem mem_overrideRefs {o : String} :
    (path, n) ∈ overrideRefs o ↔
      ∃ part ∈ Str.splitOn '|' o, Str.trim part ≠ "null" ∧
        ∃ name, FirstRef (Str.trim part) path name ∧ n = name ++ "Schema" := by
  unfold overrideRefs overrideMembers
  simp only [List.mem_filterMap, importRef?_eq_some_iff, List.mem_filter, List.mem_map,
    decide_eq_true_eq]
  constructor
  · rintro ⟨_, ⟨⟨part, hp, rfl⟩, hne⟩, h⟩
    exact ⟨part, hp, hne, h⟩
  · rintro ⟨part, hp, hne, h⟩
    exact ⟨_, ⟨⟨part, hp, rfl⟩, hne⟩, h⟩

/-! ## what fields take -/

theorem has_overrideDraft_iff {o : String} :
    (overrideDraft o).imports.Has module n ↔ (module, n) ∈ overrideRefs o := by
  unfold overrideDraft
  split
  · next h =>
    rw [h]
    exact iff_of_false (fun ⟨_, he, _⟩ => by cases he) List.not_mem_nil
  · rw [Imports.has_merge_iff]
    constructor
    · rintro ⟨t, ht, ns, he, hn⟩
      obtain ⟨r, hr, rfl⟩ := List.mem_map.1 ht
      obtain ⟨rfl, rfl⟩ := Prod.mk.inj (List.mem_singleton.1 he)
      rwa [List.mem_singleton.1 hn]
    · intro h
      exact ⟨_, List.mem_map_of_mem h, _, List.mem_singleton_self _, List.mem_singleton_self _⟩

/-- a draft takes its enumeration, or what its external type refers to -/
theorem has_draft {a : Option Annotations} :
    (draft c d f a).1.imports.Has module n ↔
      ((draft c d f a).1.expr.opening = "z.nativeEnum(" ++ n ++ ")" ∧ module = enumModule c) ∨
        ∃ o, a.bind (·.typeOverride) = some o ∧ (module, n) ∈ overrideRefs o := by
  have hnil : ¬ Imports.Has [] module n := fun ⟨_, h, _⟩ => by cases h
  constructor
  · intro h
    unfold draft at h ⊢
    split at h
    · next o ho =>
      exact Or.inr ⟨o, ho, has_overrideDraft_iff.1 h⟩
    · left
      split at h
      · unfold enumDraft at h ⊢
        split at h
        · next hd =>
          obtain ⟨ns, he, hn⟩ := h
          obtain ⟨rfl, rfl⟩ := Prod.mk.inj (List.mem_singleton.1 he)
          obtain rfl := List.mem_singleton.1 hn
          rw [if_pos hd]
          exact ⟨rfl, rfl⟩
        · exact absurd h hnil
      · exact absurd h hnil
      · exact absurd h hnil
  · rintro (⟨h, rfl⟩ | ⟨o, ho, h⟩)
    · rw [(draft_of_opening h).2]
      exact ⟨[n], List.mem_singleton_self _, List.mem_singleton_self _⟩
    · rw [draft, ho]
      exact has_overrideDraft_iff.2 h

theorem filled_draft (c : Config) (d : Datamodel) (f : Field) (a : Option Annotations) :
    (draft c d f a).1.imports.Filled := by
  have hnil : Imports.Filled [] := List.forall_mem_nil _
  unfold draft
  split
  · unfold overrideDraft
    split
    · exact hnil
    · exact Imports.filled_merge (List.forall_mem_map.2 fun r _ => Imports.filled_singleton r.1 r.2)
  · split
    · unfold enumDraft
      split
      · exact Imports.filled_singleton _ _
      · exact hnil
    · exact hnil
    · exact hnil

/-! ## schemas that are read as JSON first -/

theorem opening_scalarExpr_ne_preprocess (c : Config) (d : Datamodel) (f : Field)
    (a : Option Annotations) (t : String) :
    (scalarExpr c d f a).opening ≠ "z.preprocess(" ++ t := by
  intro h
  apply take_scalarExpr_ne (p := ['z', '.', 'p', 'r']) (by decide) (by decide) c d f a
  rw [h]
  simp

theorem opening_unknownExpr_ne_preprocess (t : String) :
    unknownExpr.opening ≠ "z.preprocess(" ++ t := by
  intro h
  have ht := congrArg (·.toList.take 3) h
  simp [unknownExpr] at ht

/-- what is read as JSON first is checked by the schemas that an external type refers to -/
theorem exists_of_preprocess {a : Option Annotations} {t : String}
    (h : (draft c d f a).1.expr.opening = "z.preprocess(" ++ t) :
    ∃ o, a.bind (·.typeOverride) = some o ∧ overrideRefs o ≠ [] ∧
      (draft c d f a).1.expr = overrideExpr ((overrideRefs o).map (·.2)).eraseDups := by
  unfold draft at h ⊢
  split at h
  · next o ho =>
    refine ⟨o, ho, ?_⟩
    unfold overrideDraft at h ⊢
    split at h
    · exact (opening_unknownExpr_ne_preprocess t h).elim
    · next hne => exact ⟨hne, rfl⟩
  · split at h
    · unfold enumDraft at h
      split at h
      · have ht := congrArg (·.toList.take 3) h
        simp at ht
      · exact (opening_unknownExpr_ne_preprocess t h).elim
    · exact (opening_scalarExpr_ne_preprocess c d f a t h).elim
    · exact (opening_unknownExpr_ne_preprocess t h).elim

/-! ## the file of a model -/

/-- what the fields of a model need: their enumerations, and of each member of their external types
but `null` the schema of the first type that it refers to -/
inductive Required (c : Config) (d : Datamodel) (m : Model) : String → String → Prop where
  | enumeration {p : Field × Entry} (hp : p ∈ entries c d m) {type : String}
      (h : p.2.expr.opening = "z.nativeEnum(" ++ type ++ ")") :
      Required c d m (enumModule c) type
  | external {p : Field × Entry} (hp : p ∈ entries c d m) {override : String}
      (ho : (Annotations.of? p.1.documentation).bind (·.typeOverride) = some override)
      {part : String} (hpart : part ∈ Str.splitOn '|' override) (hnull : Str.trim part ≠ "null")
      {path name : String} (h : FirstRef (Str.trim part) path name) :
      Required c d m path (name ++ "Schema")

theorem needs_iff_required : Needs c d m module n ↔ Required c d m module n := by
  constructor
  · rintro ⟨p, hp, h⟩
    obtain ⟨f, -, rfl⟩ := List.mem_map.1 hp
    rcases has_draft.1 h with ⟨ho, rfl⟩ | ⟨o, ho, hr⟩
    · exact .enumeration hp ho
    · obtain ⟨part, hpart, hnull, name, hname, rfl⟩ := mem_overrideRefs.1 hr
      exact .external hp ho hpart hnull hname
  · rintro (⟨hp, ho⟩ | ⟨hp, ho, hpart, hnull, hname⟩)
    all_goals obtain ⟨f, -, rfl⟩ := List.mem_map.1 hp
    · exact ⟨_, hp, has_draft.2 (Or.inl ⟨ho, rfl⟩)⟩
    · refine ⟨_, hp, has_draft.2 (Or.inr ⟨_, ho, ?_⟩)⟩
      exact mem_overrideRefs.2 ⟨_, hpart, hnull, _, hname, rfl⟩

/-- the file of a model imports by the rows of a table -/
structure ImportsBy (c : Config) (d : Datamodel) (m : Model) (table : Imports) : Prop where
  /-- a line for each row, behind the import of the schema library and before everything else -/
  lines : ∃ rest : List Stmt, (∀ st ∈ rest, st.isImport = false) ∧
    (modelFile c d m).file.content = Str.unlines
      ([generatedHeader, "import \x7b z \x7d from \"zod/v4\";"] ++
        table.map (fun e => importLine e.1 e.2) ++ rest.flatMap Stmt.lines)
  /-- one row for a module, in order -/
  modules : (table.map (·.1)).Pairwise (· < ·)
  /-- names in order, each once -/
  names : ∀ e ∈ table, e.2 ≠ [] ∧ e.2.Pairwise (· < ·)
  /-- what the fields need, and nothing else -/
  required : ∀ module name, table.Has module name ↔ Required c d m module name
  /-- a value that is read as JSON first is checked by schemas that are imported -/
  schemas : ∀ p ∈ entries c d m, ∀ t, p.2.expr.opening = "z.preprocess(" ++ t →
    ∃ ss, ss ≠ [] ∧ ss.Nodup ∧ p.2.expr.opening = (overrideExpr ss).opening ∧
      ∀ s ∈ ss, ∃ module, table.Has module s

/-- **Imports of base files.**  The file of every model imports what its fields need, on a line for
each module, in order. -/
theorem modelFile_imports (c : Config) (d : Datamodel) (m : Model) :
    ImportsBy c d m (importTable c d m).sorted where
  lines := by
    refine ⟨[.blank, .doc ((m.documentation.map Annotations.prose).getD []),
      .const (schemaName m.name) "z.object(\x7b"
        (((entries c d m).map (·.2)).flatMap (·.render "  ") ++ ["\x7d);"]), .blank], ?_, ?_⟩
    · simp [Stmt.isImport]
    · rw [← unlines_imports]
      rfl
  modules := Imports.pairwise_modules_sorted _
  names e he := by
    have hf : (importTable c d m).Filled := by
      refine Imports.filled_merge (List.forall_mem_map.2 (List.forall_mem_map.2 ?_))
      rintro p hp
      obtain ⟨f, -, rfl⟩ := List.mem_map.1 hp
      exact filled_draft c d f _
    exact ⟨hf.sorted e he, Imports.pairwise_names_sorted he⟩
  required module name := by
    rw [Imports.has_sorted, has_importTable, needs_iff_required]
  schemas p hp t h := by
    obtain ⟨f, -, rfl⟩ := List.mem_map.1 hp
    obtain ⟨o, ho, hne, he⟩ := exists_of_preprocess h
    refine ⟨((overrideRefs o).map (·.2)).eraseDups, ?_, nodup_eraseDups _, ?_, fun s hs => ?_⟩
    · obtain ⟨r, hr⟩ := List.exists_mem_of_ne_nil _ hne
      exact List.ne_nil_of_mem (List.mem_eraseDups.2 (List.mem_map_of_mem hr))
    · show (draft c d f (Annotations.of? f.documentation)).1.expr.opening = _
      rw [he]
    · obtain ⟨⟨path, s⟩, hr, rfl⟩ := List.mem_map.1 (List.mem_eraseDups.1 hs)
      refine ⟨path, ?_⟩
      rw [Imports.has_sorted, has_importTable]
      exact ⟨_, hp, has_draft.2 (Or.inr ⟨o, ho, hr⟩)⟩

end Schema

end ZodSchema
