import Mathlib.Data.List.Pairwise
import ZodSchema.Proofs.Contract.Check
import ZodSchema.Proofs.Contract.Config
import ZodSchema.Proofs.Text.CodePoint
import ZodSchema.Proofs.Text.Directory

/-!
# Directories of families

Accepted settings give enabled families directories that are not compared equal.  What is compared
are texts, so two texts for one directory pass.

* `normalize_absolute_eq_below`  where a directory is cleared
* `configOf_twoDirs`     settings with two directories
* `accepted_apart`       the texts for which accepted settings keep families apart
* `dotted_shares`        one directory for two families
-/

namespace ZodSchema

namespace Text.Path

variable {s : String}

/-- a text that no slash opens is read below the directory -/
theorem normalize_absolute_eq_below (root : Parts) (h : Str.startsWith s "/" = false) :
    normalize (absolute root s) = below (normalize root) s := by
  unfold absolute
  rw [if_neg (by rw [h]; exact Bool.false_ne_true)]
  show resolve [] (root ++ (parts s).filter (· ≠ ".")) = _
  rw [resolve, List.foldl_append]
  exact resolve_filter_dots _ _

end Text.Path

namespace Config

open Contract
open Text.Path (Tidy below plain tidied)

variable {dir other : String}

/-- a document with directories for base schemas and brands -/
def twoDirs (dir other : String) : Value :=
  .map [(.text "generate_brand_registry", .bool true), (.text "zod_schemas_dir", .text dir),
    (.text "brands_dir", .text other)]

theorem text_of_ne_empty {s : String} (h : s ≠ "") (he : Text.Str.lone? s = none) :
    text 1 (.text s) = .ok s := by
  have hl : (Text.Str.codePoints s).length ≠ 0 := by
    obtain ⟨cs, hs⟩ := Text.Str.lone?_eq_none_iff.1 he
    rw [Text.Str.codePoints, hs, Text.codePoints_keep, List.length_map, ne_eq,
      List.length_eq_zero_iff]
    rintro rfl
    exact h (String.toList_eq_nil_iff.1 hs)
  show (if (Text.Str.lone? s).isSome then _ else _) = _
  rw [he, if_neg (by decide), if_neg (by omega)]

/-- a tidy text for a directory consists of its parts -/
theorem lone?_tidied (h : Text.Str.lone? dir = none) : Text.Str.lone? (tidied dir) = none := by
  unfold tidied
  split
  · decide +kernel
  · refine Text.Str.lone?_join (by decide +kernel) fun x hx => ?_
    rcases Text.Path.mem_of_mem_resolve hx with hx | hx
    · cases hx
    · exact Text.Str.lone?_of_mem_splitOn (by decide) h (List.mem_filter.1 hx).1

theorem configOf_twoDirs (hd : dir ≠ "") (hde : Text.Str.lone? dir = none) (ho : other ≠ "")
    (hoe : Text.Str.lone? other = none) (h : dirKey dir ≠ dirKey other) :
    configOf (twoDirs dir other) =
      .ok { brandRegistry := true, schemasDir := dir, brandsDir := other } := by
  have hc : Coherent { brandRegistry := true, schemasDir := dir, brandsDir := other } := by
    refine ⟨fun _ => rfl, ?_, show Text.Str.endsWith "enums.ts" ".ts" = true by decide +kernel⟩
    show [(Family.schemas, dir), (Family.brands, other)].Pairwise _
    rw [List.pairwise_pair]
    exact h
  have hkeys : (["generate_brand_registry", "zod_schemas_dir", "brands_dir"].any fun k =>
      isUnreadable (.text k)) = false := by decide +kernel
  simp only [List.any_cons, List.any_nil, Bool.or_false] at hkeys
  unfold configOf
  refine andThen_agreed ?_ hc
  simp [twoDirs, record, may, Value.get?, extras, configKeys, text_of_ne_empty hd hde,
    text_of_ne_empty ho hoe, Check.under, hkeys]
  rfl

/-- **Directories of families.**  Beside tidy texts, a tidy one names another directory in all
accepted settings, below any output directory.  No other text is safe: beside it a tidy one for the
same directory is accepted, below every output directory that the text does not lead out of, unless
the text has no encoding and is not accepted at all.  A directory is where the clearing pass finds
it, unless a slash opens the text. -/
theorem accepted_apart (dir : String) :
    (Tidy dir → ∀ v c, configOf v = .ok c → ∀ a ∈ c.familyDirs, ∀ b ∈ c.familyDirs, a.1 ≠ b.1 →
      a.2 = dir → Tidy b.2 → ∀ root, below root dir ≠ below root b.2) ∧
    (∀ v c, configOf v = .ok c → ∀ a ∈ c.familyDirs, Text.Str.lone? a.2 = none) ∧
    (¬ Tidy dir → Text.Str.lone? dir = none → ∃ v c, configOf v = .ok c ∧
      ∃ a ∈ c.familyDirs, ∃ b ∈ c.familyDirs, a.1 ≠ b.1 ∧ a.2 = dir ∧ Tidy b.2 ∧
        ∀ root, below root dir = root ++ below [] dir → below root dir = below root b.2) ∧
    (Text.Str.startsWith dir "/" = false → ∀ root,
      Text.Path.normalize (Text.Path.absolute root dir) = below (Text.Path.normalize root) dir) := by
  refine ⟨?tidy, fun _ _ h => encodedDirs_of_configOf h, ?untidy,
    fun h root => Text.Path.normalize_absolute_eq_below root h⟩
  case tidy =>
    rintro hta v c hv a ha b hb hne rfl htb root hsame
    have hsymm : Std.Symm fun a b : Family × String => dirKey a.2 ≠ dirKey b.2 := ⟨fun _ _ => Ne.symm⟩
    have hkeys := (coherent_of_configOf hv).apart.forall ha hb fun he => hne (he ▸ rfl)
    exact hkeys (congrArg Text.Str.lower (Text.Path.below_injective hta htb hsame))
  case untidy =>
    intro ht he
    have hd : dir ≠ "" := by
      rintro rfl
      exact ht (Or.inl rfl)
    have hkeys : dirKey dir ≠ dirKey (tidied dir) := fun he =>
      ht ((Text.Path.tidy_congr he).2 (Text.Path.tidy_tidied dir))
    refine ⟨_, _, configOf_twoDirs hd he (Text.Path.tidied_ne_empty dir) (lone?_tidied he) hkeys,
      (.schemas, dir), List.mem_cons_self, (.brands, tidied dir),
      List.mem_cons_of_mem _ List.mem_cons_self, nofun, rfl, Text.Path.tidy_tidied dir, ?_⟩
    intro root hroot
    rw [hroot, Text.Path.below_tidied]
    rfl

/-- the usual directories of base schemas and brands -/
theorem accepted_apart_usual :
    ∃ c, configOf (twoDirs "schemas" "brands") = .ok c ∧
      c.familyDirs = [(.schemas, "schemas"), (.brands, "brands")] ∧
      ∀ root, below root "schemas" ≠ below root "brands" := by
  have hc : configOf (twoDirs "schemas" "brands") = _ :=
    configOf_twoDirs (by decide) (by decide +kernel) (by decide) (by decide +kernel)
      (by decide +kernel)
  have hname : ∀ s : String, '/' ∉ s.toList → 2 < s.toList.length → Tidy s := by
    intro s hs hl
    have hn := Text.normal_of_length hs hl
    exact Or.inr (by rwa [Text.Path.trimSlashes_of_normal hn])
  exact ⟨_, hc, rfl, (accepted_apart "schemas").1 (hname _ (by decide) (by decide)) _ _ hc
    (.schemas, "schemas") List.mem_cons_self
    (.brands, "brands") (List.mem_cons_of_mem _ List.mem_cons_self) nofun rfl
    (hname _ (by decide) (by decide))⟩

/-- a dot before the directory of the base schemas: accepted, and one directory for both -/
theorem dotted_shares :
    ∃ c, configOf (twoDirs "schemas" "./schemas") = .ok c ∧
      c.familyDirs = [(.schemas, "schemas"), (.brands, "./schemas")] ∧
      ∀ root, below root "./schemas" = below root "schemas" := by
  have hdotted : Text.Path.parts "./schemas" = [".", "schemas"] := by decide +kernel
  have hplain : Text.Path.parts "schemas" = ["schemas"] := by decide +kernel
  refine ⟨_, configOf_twoDirs (by decide) (by decide +kernel) (by decide) (by decide +kernel)
    (by decide +kernel), rfl, fun root => ?_⟩
  unfold below
  rw [hdotted, hplain]
  rfl

end Config

end ZodSchema
