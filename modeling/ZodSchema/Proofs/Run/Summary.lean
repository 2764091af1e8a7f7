import ZodSchema.Run.Basic
import ZodSchema.Proofs.Generation.Closure
import ZodSchema.Proofs.Json.Encoding
import ZodSchema.Proofs.Text.Chars

/-!
# The encoding of reports

A report is printed as one text.  It has an encoding when the texts have one that the report tells.

* `lone?_grouped`, `lone?_secondsText`   numbers and times
* `Printable`       lines that have an encoding
* `Report.Encoded`  the texts of a report have one
* `lone?_summary`   so has the report
* `encoded_runStages`   so it is with a run that writes nothing, as far as its input tells
-/

namespace ZodSchema.Run

open Text

open Files (FileSystem)
open Generation (Generated)

variable {r r' : Report} {t : Times} {d : Datamodel} {c : Config} {o : Options} {s : Setting}
  {fs fs' : FileSystem} {workDir : Parts} {w : Export.Manner}

/-! ## numbers and columns -/

theorem lone?_replicate {c : Char} (h : c ≠ mark) (n : Nat) :
    Str.lone? (String.ofList (List.replicate n c)) = none := by
  refine Str.lone?_of_notMem fun hm => h ?_
  rw [String.toList_ofList] at hm
  exact (List.eq_of_mem_replicate hm).symm

theorem toNat_lt_of_mem_natDigits {n : Nat} {c : Char} (h : c ∈ natDigits n) : c.toNat < 128 := by
  have hc : c ∈ (natText n).toList := by
    unfold natText
    rwa [String.toList_ofList]
  exact toNat_lt_of_isIdentRest (isIdentRest_natText n hc)

theorem lone?_padded (width n : Nat) : Str.lone? (padded width n) = none := by
  refine Json.lone?_ascii fun c hc => ?_
  unfold padded at hc
  rw [String.toList_ofList, List.mem_append] at hc
  rcases hc with hc | hc
  · rw [List.eq_of_mem_replicate hc]
    decide
  · exact toNat_lt_of_mem_natDigits hc

/-- commas are all that is added -/
theorem mem_groupRev {cs : List Char} {c : Char} (h : c ∈ groupRev cs) : c ∈ cs ∨ c = ',' := by
  fun_induction groupRev cs with
  | case1 x y z u cs ih =>
    simp only [List.mem_cons] at h ih ⊢
    rcases h with h | h | h | h | h
    · exact Or.inl (Or.inl h)
    · exact Or.inl (Or.inr (Or.inl h))
    · exact Or.inl (Or.inr (Or.inr (Or.inl h)))
    · exact Or.inr h
    · exact (ih h).imp_left fun h => Or.inr (Or.inr (Or.inr h))
  | case2 cs => exact Or.inl h

theorem lone?_grouped (n : Nat) : Str.lone? (grouped n) = none := by
  refine Json.lone?_ascii fun c hc => ?_
  unfold grouped at hc
  rw [String.toList_ofList, List.mem_reverse] at hc
  rcases mem_groupRev hc with hc | rfl
  · exact toNat_lt_of_mem_natDigits (List.mem_reverse.1 hc)
  · decide

theorem lone?_secondsText (ms : Nat) : Str.lone? (secondsText ms) = none := by
  unfold secondsText
  exact Str.lone?_append (Str.lone?_append (Str.lone?_append (Json.lone?_natText _) (by decide))
    (lone?_padded 3 _)) (by decide)

/-! ## reports -/

/-- all of the lines have an encoding -/
def Printable (lines : List String) : Prop := ∀ line ∈ lines, Str.lone? line = none

instance (lines : List String) : Decidable (Printable lines) :=
  inferInstanceAs (Decidable (∀ line ∈ lines, _))

/-- the texts of a report have an encoding -/
structure Report.Encoded (r : Report) : Prop where
  source : Str.lone? r.sourceFile = none
  output : Str.lone? (Path.text r.output) = none
  provider : Str.lone? r.provider = none
  details : ∀ s ∈ r.steps, Str.lone? s.detail = none
  input : Printable r.inputErrors
  validation : Printable r.validationErrors
  generation : Printable r.generationErrors
  writing : Printable r.exportErrors
  validationWarnings : Printable r.validationWarnings
  generationWarnings : Printable r.generationWarnings

theorem lone?_stepLine {s : Step} (h : Str.lone? s.detail = none) (ms : Nat) :
    Str.lone? (Report.stepLine s ms) = none := by
  have hmark : Str.lone? (if s.ok then "✓" else "✗") = none := by
    cases s.ok <;> decide
  have htitle : Str.lone? (padRight 28 s.stage.title) = none := by
    unfold padRight
    refine Str.lone?_append ?_ (lone?_replicate (by decide) _)
    cases s.stage <;> decide
  have htime : Str.lone? (padLeft 8 (secondsText ms)) = none :=
    Str.lone?_append (lone?_replicate (by decide) _) (lone?_secondsText ms)
  have hspace : ∀ n, Str.lone? (String.ofList (List.replicate n ' ')) = none :=
    lone?_replicate (by decide)
  unfold Report.stepLine
  refine Str.lone?_append (Str.lone?_append (Str.lone?_append ?_ htime) (hspace 2)) h
  refine Str.lone?_append (Str.lone?_append ?_ htitle) (hspace 1)
  exact Str.lone?_append (Str.lone?_append (hspace 4) hmark) (hspace 1)

theorem printable_stepLines (h : r.Encoded) (t : Times) : Printable (r.stepLines t) := by
  unfold Report.stepLines
  split
  · exact List.forall_mem_nil _
  · refine List.forall_mem_cons.2 ⟨by decide, List.forall_mem_map.2 fun p hp => ?_⟩
    exact lone?_stepLine (h.details p.1 (List.of_mem_zip hp).1) p.2

theorem printable_section {title icon : String} {items : List String}
    (htitle : Str.lone? title = none) (hicon : Str.lone? icon = none) (h : Printable items) :
    Printable (Report.section_ title icon items) := by
  unfold Report.section_
  split
  · exact List.forall_mem_nil _
  · have hhead : Str.lone? ("  " ++ title ++ " (" ++ natText items.length ++ "):") = none :=
      Str.lone?_append (Str.lone?_append (Str.lone?_append (Str.lone?_append (by decide) htitle)
        (by decide)) (Json.lone?_natText _)) (by decide)
    refine List.forall_mem_cons.2 ⟨lone?_replicate (by decide) _,
      List.forall_mem_cons.2 ⟨hhead, List.forall_mem_map.2 fun i hi => ?_⟩⟩
    exact Str.lone?_append (Str.lone?_append (Str.lone?_append (by decide) hicon) (by decide))
      (h i hi)

/-- **Printing a report.**  A report can be printed when its texts can, however long the run took. -/
theorem lone?_summary (h : r.Encoded) (t : Times) : Str.lone? (r.summary t) = none := by
  have hstatus : Str.lone? r.statusText = none := by
    unfold Report.statusText
    exact Str.lone?_append (by split <;> decide) (by split <;> decide)
  have hsource : Str.lone?
      (if r.sourceFile = "" then "<in-memory>" else r.sourceFile) = none := by
    split
    · decide
    · exact h.source
  have hrule : ∀ c, c ≠ mark → Str.lone? (rule c 60) = none := fun c hc => lone?_replicate hc 60
  have hhead : Printable [rule '=' 60, "  zodgen — Generation Report", rule '=' 60,
      "  Status:           " ++ r.statusText,
      "  Source:           " ++ (if r.sourceFile = "" then "<in-memory>" else r.sourceFile),
      "  Output:           " ++ Path.text r.output,
      "  Provider:         " ++ r.provider,
      "  Models processed: " ++ natText r.totalModels,
      "  Files generated:  " ++ natText r.totalFiles,
      "  Total lines:      " ++ grouped r.totalLines,
      "  Total bytes:      " ++ grouped r.totalBytes,
      "  Total time:       " ++ secondsText t.total,
      rule '─' 60] := by
    have hlabel : ∀ {label value : String}, Str.lone? label = none → Str.lone? value = none →
        Str.lone? (label ++ value) = none := Str.lone?_append
    unfold Printable
    simp only [List.forall_mem_cons]
    exact ⟨hrule _ (by decide), by decide, hrule _ (by decide), hlabel (by decide) hstatus,
      hlabel (by decide) hsource, hlabel (by decide) h.output, hlabel (by decide) h.provider,
      hlabel (by decide) (Json.lone?_natText _), hlabel (by decide) (Json.lone?_natText _),
      hlabel (by decide) (lone?_grouped _), hlabel (by decide) (lone?_grouped _),
      hlabel (by decide) (lone?_secondsText _), hrule _ (by decide), List.forall_mem_nil _⟩
  have hcross : Str.lone? "✗" = none := by decide
  have hsign : Str.lone? "⚠" = none := by decide
  have hlast : Printable [rule '=' 60] := List.forall_mem_singleton.2 (hrule _ (by decide))
  refine Str.lone?_join (by decide) ?_
  unfold Report.summaryLines
  simp only [List.forall_mem_append]
  exact ⟨⟨⟨⟨⟨⟨⟨⟨hhead, printable_stepLines h t⟩, printable_section (by decide) hcross h.input⟩,
    printable_section (by decide) hcross h.validation⟩,
    printable_section (by decide) hsign h.validationWarnings⟩,
    printable_section (by decide) hcross h.generation⟩,
    printable_section (by decide) hsign h.generationWarnings⟩,
    printable_section (by decide) hcross h.writing⟩, hlast⟩

/-! ## stages -/

theorem Report.Encoded.addStep (h : r.Encoded) {detail : String} (hd : Str.lone? detail = none)
    (stage : Stage) (ok : Bool) : (r.addStep stage ok detail).Encoded :=
  { h with details := List.forall_mem_append.2 ⟨h.details, List.forall_mem_singleton.2 hd⟩ }

/-- a check tells what it finds -/
theorem encoded_validateStage (h : r.Encoded)
    (hf : ∀ f ∈ Validation.validate d c, Str.lone? f.text = none) (o : Options) :
    (validateStage o d c r).1.Encoded := by
  have hcount : ∀ n, Str.lone? (natText n ++ " warning(s)") = none := fun n =>
    Str.lone?_append (Json.lone?_natText n) (by decide)
  have herrors : Printable ((Validation.validate d c).errors.map (·.text)) :=
    List.forall_mem_map.2 fun f hm => hf f (List.mem_filter.1 hm).1
  have hwarnings : Printable ((Validation.validate d c).warnings.map (·.text)) :=
    List.forall_mem_map.2 fun f hm => hf f (List.mem_filter.1 hm).1
  have hextra : Printable
      (if ((Validation.validate d c).errors.map (·.text)).isEmpty && (o.failOnWarnings &&
          !((Validation.validate d c).warnings.map (·.text)).isEmpty) then
        [natText ((Validation.validate d c).warnings.map (·.text)).length ++ " warning(s)" ++
          " treated as errors (--fail-on-warnings)."]
      else []) := by
    split
    · exact List.forall_mem_singleton.2 (Str.lone?_append (hcount _) (by decide))
    · exact List.forall_mem_nil _
  have hnoted : ({ r with
      validationErrors := r.validationErrors ++ (Validation.validate d c).errors.map (·.text) ++ _
      validationWarnings :=
        r.validationWarnings ++ (Validation.validate d c).warnings.map (·.text) } :
          Report).Encoded :=
    { h with
      validation := List.forall_mem_append.2
        ⟨List.forall_mem_append.2 ⟨h.validation, herrors⟩, hextra⟩
      validationWarnings := List.forall_mem_append.2 ⟨h.validationWarnings, hwarnings⟩ }
  refine hnoted.addStep ?_ _ _
  split
  · exact Str.lone?_append (Json.lone?_natText _) (by decide)
  · split
    · exact hcount _
    · decide

/-- a file that is generated bears the name of a family -/
theorem exists_family {g : Generated GeneratedFile} {errors : List String}
    (h : generated workDir d c = .ok (g, errors)) {f : GeneratedFile} (hf : f ∈ g.files) :
    ∃ fam : Family, f.family = fam.name := by
  unfold generated at h
  split at h
  · next hg =>
    obtain ⟨rfl, -⟩ := Prod.mk.inj (Except.ok.inj h)
    obtain ⟨r, -, -, rfl⟩ := Generation.generate_eq_ok.1 hg
    obtain ⟨s, hs, rfl⟩ := List.mem_map.1 hf
    obtain ⟨fam, ho⟩ := Generation.mem_familyFiles.1 hs
    exact ⟨fam, ho.family⟩
  · obtain ⟨rfl, -⟩ := Prod.mk.inj (Except.ok.inj h)
    cases hf
  · cases h

theorem lone?_familyList {files : List GeneratedFile}
    (h : ∀ f ∈ files, ∃ fam : Family, f.family = fam.name) :
    Str.lone? (familyList files) = none := by
  unfold familyList
  dsimp only
  split
  · decide
  · refine Str.lone?_join (by decide) fun family hm => ?_
    obtain ⟨f, hf, rfl⟩ := List.mem_map.1 (Str.mem_sortDedup.1 hm)
    obtain ⟨fam, he⟩ := h f hf
    rw [he]
    cases fam <;> decide

/-- generation tells the families of its files and what is wrong -/
theorem encoded_generateStage (h : r.Encoded)
    (hg : ∀ g errors, generated workDir d c = .ok (g, errors) →
      Printable errors ∧ Printable g.warnings)
    (hr : generateStage workDir d c r = .ok r') : r'.Encoded := by
  unfold generateStage at hr
  cases hx : generated workDir d c with
  | error e =>
    rw [hx] at hr
    cases hr
  | ok x =>
    obtain ⟨g, errors⟩ := x
    obtain ⟨herrors, hwarnings⟩ := hg g errors hx
    rw [hx] at hr
    dsimp only [bind, Except.bind] at hr
    cases hb : byteTotal g.files with
    | error e =>
      rw [hb] at hr
      cases hr
    | ok n =>
      rw [hb] at hr
      obtain rfl := Except.ok.inj hr
      have hnoted : ({ r with
          generationErrors := r.generationErrors ++ errors
          generationWarnings := r.generationWarnings ++ g.warnings
          files := g.files
          totalFiles := g.files.length
          totalLines := lineTotal g.files
          totalBytes := n } : Report).Encoded :=
        { h with
          generation := List.forall_mem_append.2 ⟨h.generation, herrors⟩
          generationWarnings := List.forall_mem_append.2 ⟨h.generationWarnings, hwarnings⟩ }
      have hlist := lone?_familyList fun f hf => exists_family hx hf
      refine hnoted.addStep (Str.lone?_append (Str.lone?_append ?_ (by decide)) hlist) _ _
      exact Str.lone?_append (Str.lone?_append (Json.lone?_natText _) (by decide))
        (lone?_grouped _)

/-- a run that writes nothing can print its report when its input can be told -/
theorem encoded_runStages (h : r.Encoded) (hdry : o.dryRun = true)
    (hprovider : Str.lone? d.providerText = none)
    (hf : ∀ f ∈ Validation.validate d c, Str.lone? f.text = none)
    (hg : ∀ g errors, generated s.workDir d c = .ok (g, errors) →
      Printable errors ∧ Printable g.warnings)
    (hr : runStages w o s d c r fs = .ok (r', fs')) : r'.Encoded := by
  have hopen : ({ r with provider := d.providerText, totalModels := d.models.length } :
      Report).Encoded := { h with provider := hprovider }
  have hchecked := encoded_validateStage hopen hf o
  unfold runStages at hr
  dsimp only at hr
  split at hr
  · obtain ⟨rfl, -⟩ := Prod.mk.inj (Except.ok.inj hr)
    exact hchecked
  · split at hr
    · cases hr
    · next hgen =>
      rw [hdry, Bool.or_true, if_pos rfl] at hr
      obtain ⟨rfl, -⟩ := Prod.mk.inj (Except.ok.inj hr)
      exact encoded_generateStage hchecked hg hgen

end ZodSchema.Run
