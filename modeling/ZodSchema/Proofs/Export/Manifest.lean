import Mathlib
import ZodSchema.Proofs.Export.Converge
import ZodSchema.Proofs.Export.Outcomes
import ZodSchema.Proofs.Text.Bytes
import ZodSchema.Proofs.Text.Chars

/-!
# What a manifest tells

* `exportOutcomes`    the outcomes of the files of an export
* `run_records`, `written_of_no_failures`   what an export notes of them
* `Truthful`          a record tells what the disk holds
* `Faithful`          a manifest lists what was written, truthfully and in order
* `run_faithful`      every export of separate files ends with such a manifest
* `manifest_totals`   without failures the totals are those of the files
* `records_untrue`    what makes a record untrue
-/

namespace ZodSchema

theorem totalOf_eq_sum {α : Type} (measure : α → Nat) (xs : List α) :
    totalOf measure xs = (xs.map measure).sum := by
  induction xs with
  | nil => rfl
  | cons x xs ih => rw [totalOf, ih, List.map_cons, List.sum_cons]

/-- a total does not depend on the order -/
theorem totalOf_perm {α : Type} (measure : α → Nat) {xs ys : List α} (h : xs.Perm ys) :
    totalOf measure xs = totalOf measure ys := by
  rw [totalOf_eq_sum, totalOf_eq_sum, (h.map measure).sum_eq]

theorem totalOf_map {α β : Type} (measure : β → Nat) (f : α → β) (xs : List α) :
    totalOf measure (xs.map f) = totalOf (fun x => measure (f x)) xs := by
  rw [totalOf_eq_sum, totalOf_eq_sum, List.map_map]
  rfl

namespace Export

open Files FileSystem Text

variable {s : Settings} {w : Manner} {f : GeneratedFile} {files : List GeneratedFile}
  {st : Log × FileSystem} {root : Parts}

/-! ## what an export notes -/

/-- the outcomes of the files of an export, but for families that are not cleared; there are none
without an output directory -/
def exportOutcomes (w : Manner) (s : Settings) (files : List GeneratedFile) (st : Log × FileSystem) :
    List Outcome :=
  if (st.2.makeDirs s.root).2 = none then
    w.outcomes s (without (swept s st).1 files) (swept s st).2.2
  else []

/-- the clearing pass notes a failure for each family that is not cleared, and nothing else -/
theorem exists_swept_log (s : Settings) (st : Log × FileSystem) :
    ∃ es, (swept s st).2.1 = { st.1 with failures := st.1.failures ++ es } ∧
      (swept s st).1.length = es.length := by
  unfold swept
  dsimp only
  split
  · obtain ⟨es, hl, hes, -⟩ :=
      clearFamilies_log s (sortedDirs s.config) st.1 (st.2.makeDirs s.root).1
    exact ⟨es, hl, hes.length_eq⟩
  · exact ⟨[], by simp, rfl⟩

/-- the files that were written are recorded -/
theorem run_records (w : Manner) (s : Settings) (files : List GeneratedFile)
    (st : Log × FileSystem) : (run w s files st).1.records =
      st.1.records ++ (written (exportOutcomes w s files st)).map Record.of := by
  unfold exportOutcomes
  cases h : (st.2.makeDirs s.root).2 with
  | some e =>
    rw [run_of_fault w h, if_neg (Option.some_ne_none e)]
    exact (List.append_nil _).symm
  | none =>
    obtain ⟨es, hl, -⟩ := exists_swept_log s st
    rw [run_of_root w st h, (writeManifest_log s _).1, w.write_log, hl, if_pos rfl]

/-- an export without manifest does not break off -/
theorem broken_run (hm : s.config.writeManifest = false) (w : Manner) (files : List GeneratedFile)
    (st : Log × FileSystem) : (run w s files st).1.broken = st.1.broken := by
  cases h : (st.2.makeDirs s.root).2 with
  | some e =>
    rw [run_of_fault w h]
    rfl
  | none =>
    obtain ⟨es, hl, -⟩ := exists_swept_log s st
    rw [run_of_root w st h]
    unfold writeManifest
    rw [if_neg (Bool.eq_false_iff.1 hm), w.write_log, hl]

/-- without failures every file was written -/
theorem written_of_no_failures (h : (run w s files st).1.failures = []) :
    written (exportOutcomes w s files st) = files := by
  unfold exportOutcomes
  cases hr : (st.2.makeDirs s.root).2 with
  | some e =>
    rw [run_of_fault w hr] at h
    exact absurd h (List.append_ne_nil_of_right_ne_nil _ (List.cons_ne_nil _ _))
  | none =>
    obtain ⟨es, hl, hlen⟩ := exists_swept_log s st
    rw [run_of_root w st hr, (writeManifest_log s _).2, w.write_log, hl] at h
    obtain ⟨hswept, hrefused⟩ := List.append_eq_nil_iff.1 h
    have hnone : (swept s st).1 = [] := by
      rw [← List.length_eq_zero_iff, hlen, (List.append_eq_nil_iff.1 hswept).2]
      rfl
    rw [if_pos rfl, written_of_refused_eq_nil hrefused, w.map_file_outcomes, hnone, without_nil]

/-! ## records and the disk -/

/-- a record tells the bytes that the disk holds at its path -/
def Truthful (root : Parts) (fs : FileSystem) (r : Record) : Prop :=
  ∃ t bytes, targetOf? root r.path = .ok t ∧ fs.get? t = some (.file bytes) ∧
    r.size = bytes.size ∧ r.lineCount = byteLines bytes ∧ r.digest = Digest.sha256Bytes bytes

theorem truthful_of {fs : FileSystem} {t : Parts} (ht : targetOf? root f.path = .ok t)
    (hc : Str.lone? f.content = none) (h : fs.get? t = some (.file (Str.bytes f.content))) :
    Truthful root fs (Record.of f) :=
  ⟨t, _, ht, h, rfl, (byteLines_bytes hc).symm, rfl⟩

/-- a directory that can have its path is not missed for a name without encoding -/
theorem makeDirs_ne_unencodable {dir : Parts} (h : hasBadName dir = false) (lone : Lone)
    (fs : FileSystem) : (fs.makeDirs dir).2 ≠ some (.unencodable lone) := by
  have hfrom : ∀ full made cur rest fs, (makeDirsFrom full made cur rest fs).2 ≠
      some (.unencodable lone) := by
    intro full made cur rest fs
    induction rest generalizing made cur fs with
    | nil => simp [makeDirsFrom]
    | cons part rest ih =>
      unfold makeDirsFrom
      dsimp only
      split
      · simp
      · split
        · exact ih _ _ _
        · split <;> simp
        · exact ih _ _ _
  unfold makeDirs
  rw [h, if_neg Bool.false_ne_true]
  split
  · simp
  · exact hfrom _ _ _ _ _

/-- a file of a name that can be one, in a directory that can have its path, has a path -/
theorem pathFault?_ne_unencodable (hn : hasBadName root = false) {name : String}
    (hc : Str.canName name = true) (lone : Lone) :
    pathFault? (root ++ [name]) ≠ some (.unencodable lone) := by
  have hname : hasBadName (root ++ [name]) = false := by
    unfold hasBadName at hn ⊢
    rw [List.any_append, hn, List.any_cons, hc]
    rfl
  unfold pathFault?
  rw [hname, if_neg Bool.false_ne_true]
  split <;> simp

/-- the manifest can be opened under its name, as can a temporary file beside it -/
theorem openFault?_manifest (hn : hasBadName root = false) (atomic : Bool) (lone : Lone) :
    openFault? atomic (root ++ [manifestName]) ≠ some (.unencodable lone) := by
  cases atomic with
  | false => exact pathFault?_ne_unencodable hn (by decide) lone
  | true =>
    have htemp : tempPath (root ++ [manifestName]) 0 =
        root ++ [".zodgen-manifest.json.00000000.tmp"] := by
      unfold tempPath
      rw [List.dropLast_concat, Path.fileName, List.getLast?_concat]
      rfl
    rw [openFault?_true, htemp]
    exact pathFault?_ne_unencodable hn (by decide) lone

/-- the manifest is missed for a text without encoding only if that is its own -/
theorem lone?_of_unencodable (hn : hasBadName root = false) (atomic : Bool) (text : String)
    (fs : FileSystem) (lone : Lone)
    (h : (Files.write atomic (root ++ [manifestName]) text fs).2 = some (.unencodable lone)) :
    Str.lone? text = some lone := by
  have hdir : (root ++ [manifestName]).dropLast = root := List.dropLast_concat
  rw [fault_write atomic (List.append_ne_nil_of_right_ne_nil _ (List.cons_ne_nil _ _)), hdir] at h
  have hdirs := makeDirs_ne_unencodable hn lone fs
  cases hm : (fs.makeDirs root).2 with
  | some e =>
    rw [hm] at h hdirs
    exact absurd h hdirs
  | none =>
    rw [hm, Option.none_or] at h
    cases hl : Str.lone? text with
    | some l =>
      unfold textFault? at h
      rw [hl] at h
      exact congrArg some (Fault.unencodable.inj (Option.some.inj h))
    | none =>
      unfold textFault? at h
      rw [hl, Option.map_none, Option.none_or] at h
      cases ho : openFault? atomic (root ++ [manifestName]) with
      | some e =>
        rw [ho] at h
        exact absurd (ho.trans h) (openFault?_manifest hn atomic lone)
      | none =>
        rw [ho, Option.none_or] at h
        split at h
        · unfold dirFault at h
          split at h <;> cases h
        · cases h

/-- how the manifest fares: the disk holds it, or a warning tells why not, or it has no encoding and
the export breaks off -/
inductive Stored (root : Parts) (json : String) (warnings : List String) (out : Log × FileSystem) :
    Prop where
  | held (hc : Str.lone? json = none)
      (hg : out.2.get? (root ++ [manifestName]) = some (.file (Str.bytes json)))
  | warned (e : Fault) (hw : out.1.warnings = warnings ++ ["Could not write manifest: " ++ e.message])
  | broken (lone : Lone) (hc : Str.lone? json = some lone) (hb : out.1.broken = some lone)

theorem stored_writeManifest (hm : s.config.writeManifest = true) (hn : hasBadName s.root = false)
    (st : Log × FileSystem) : Stored s.root (st.1.manifest s.config).json st.1.warnings
      (writeManifest s st) := by
  have hpath : s.root ++ [manifestName] ≠ [] :=
    List.append_ne_nil_of_right_ne_nil _ (List.cons_ne_nil _ _)
  have hfault := fault_write s.atomic hpath (st.1.manifest s.config).json st.2
  have hg := get?_write s.atomic hpath (st.1.manifest s.config).json st.2
    (s.root ++ [manifestName])
  have hlone := lone?_of_unencodable hn s.atomic (st.1.manifest s.config).json st.2
  unfold writeManifest
  rw [if_pos hm]
  cases hw : Files.write s.atomic (s.root ++ [manifestName])
    (st.1.manifest s.config).json st.2 with
  | mk fs e =>
    rw [hw] at hg hfault hlone
    cases e with
    | none =>
      rw [if_pos ⟨rfl, rfl⟩] at hg
      have hnone := (Option.or_eq_none_iff.1 (Option.or_eq_none_iff.1
        (Option.or_eq_none_iff.1 hfault.symm).1).1).2
      exact .held (Option.map_eq_none_iff.1 hnone) hg
    | some e =>
      cases e with
      | unencodable lone => exact .broken lone (hlone lone rfl) rfl
      | _ => exact .warned _ rfl

/-- what an export comes to, as its manifest tells it -/
structure Faithful (w : Manner) (s : Settings) (files : List GeneratedFile)
    (st out : Log × FileSystem) (m : Manifest) : Prop where
  sorted : m.files.Pairwise fun a b => a.path ≤ b.path
  /-- what was recorded before, and exactly the files that were written -/
  listed : m.files.Perm
    (st.1.records ++ (written (exportOutcomes w s files st)).map Record.of)
  truthful : ∀ f ∈ written (exportOutcomes w s files st), Truthful s.root out.2 (Record.of f)
  totals : m.totalFiles = m.files.length ∧ m.totalBytes = (m.files.map (·.size)).sum ∧
    m.totalLines = (m.files.map (·.lineCount)).sum
  stored : s.config.writeManifest = true → (st.2.makeDirs s.root).2 = none →
    Stored s.root m.json st.1.warnings out

theorem perm_manifest (c : Config) (l : Log) : (l.manifest c).files.Perm l.records :=
  List.mergeSort_perm ..

/-- the file that was written is still there after the manifest -/
theorem truthful_written (hsep : Separate s.root files) (hc : w.Clear s files)
    (hman : s.config.writeManifest = true →
      ∀ f ∈ files, targetOf? s.root f.path ≠ .ok (s.root ++ [manifestName]))
    (hf : f ∈ written (exportOutcomes w s files st)) :
    Truthful s.root (run w s files st).2 (Record.of f) := by
  unfold exportOutcomes at hf
  cases hr : (st.2.makeDirs s.root).2 with
  | some e =>
    rw [hr, if_neg (Option.some_ne_none e)] at hf
    cases hf
  | none =>
    rw [hr, if_pos rfl] at hf
    have hsub := without_sublist (swept s st).1 files
    have hmem : f ∈ without (swept s st).1 files := by
      rw [← w.map_file_outcomes s (without (swept s st).1 files) (swept s st).2.2]
      exact List.mem_map.2 ⟨_, mem_written.1 hf, rfl⟩
    obtain ⟨t, ht, hl, hg⟩ := w.get?_written (hsep.sublist hsub) (hc.sublist hsub) hf
    refine truthful_of ht hl ?_
    rw [run_of_root w st hr,
      get?_writeManifest_target (fun hm => hman hm f (hsub.subset hmem)) ht, hg]

/-- Every export of separate files ends with a manifest that is true of the disk. -/
theorem run_faithful (hsep : Separate s.root files) (hc : w.Clear s files)
    (hman : s.config.writeManifest = true →
      ∀ f ∈ files, targetOf? s.root f.path ≠ .ok (s.root ++ [manifestName])) :
    Faithful w s files st (run w s files st) ((run w s files st).1.manifest s.config) where
  sorted := pairwise_mergeSort Record.path _
  listed := run_records w s files st ▸ perm_manifest s.config (run w s files st).1
  truthful _ hf := truthful_written hsep hc hman hf
  totals := ⟨rfl, totalOf_eq_sum .., totalOf_eq_sum ..⟩
  stored hm hr := by
    obtain ⟨es, hl, -⟩ := exists_swept_log s st
    have hwarn : (w.write s (without (swept s st).1 files) (swept s st).2).1.warnings =
        st.1.warnings := by rw [w.write_log, hl]
    have hrec := (writeManifest_log s
      (w.write s (without (swept s st).1 files) (swept s st).2)).1
    have hn : hasBadName s.root = false := by
      unfold makeDirs at hr
      split at hr
      · cases hr
      · next h => exact Bool.eq_false_iff.2 h
    rw [run_of_root w st hr, ← hwarn]
    unfold Log.manifest
    rw [hrec]
    exact stored_writeManifest hm hn _

/-- Without failures the totals of a first export are those of the files. -/
theorem manifest_totals (hst : st.1.records = []) (h : (run w s files st).1.failures = [])
    (c : Config) :
    let m := (run w s files st).1.manifest c
    m.totalFiles = files.length ∧ m.totalBytes = totalOf (fun f => (Str.bytes f.content).size) files ∧
      m.totalLines = totalOf (fun f => TypeScript.countLines f.content) files := by
  have hrecords := run_records w s files st
  rw [hst, written_of_no_failures h, List.nil_append] at hrecords
  have hperm := perm_manifest c (run w s files st).1
  rw [hrecords] at hperm
  refine ⟨?_, ?_, ?_⟩
  · exact hperm.length_eq.trans (List.length_map ..)
  · exact (totalOf_perm _ hperm).trans (totalOf_map ..)
  · exact (totalOf_perm _ hperm).trans (totalOf_map ..)

/-! ## untrue records -/

/-- a manifest has more than one byte -/
theorem one_lt_size_json {m : Manifest} (h : Str.lone? (Json.writeIndent m.value) = none) :
    1 < (Str.bytes m.json).size := by
  have hne : Json.writeIndent m.value ≠ "" := by
    have hbrace : "\x7b" ≠ "" := by decide
    unfold Json.writeIndent Manifest.value
    rw [Json.writeAt]
    unfold Json.block
    split <;> simp only [ne_eq, String.append_eq_empty_iff, hbrace, false_and, not_false_eq_true]
  have hpos := Str.size_bytes_pos h hne
  have hfeed : (Str.bytes "\n").size = 1 := rfl
  show 1 < (Str.bytes (Json.writeIndent m.value ++ "\n")).size
  rw [Str.bytes_append h (by decide), ByteArray.size_append, hfeed]
  omega

/-- no record of a file that is not there is true -/
theorem not_truthful_of_absent {fs : FileSystem} {t : Parts} {r : Record}
    (ht : targetOf? root r.path = .ok t) (h : (fs.get? t).isSome = false) :
    ¬ Truthful root fs r := by
  rintro ⟨u, bytes, hu, hg, -⟩
  obtain rfl : t = u := Except.ok.inj (ht.symm.trans hu)
  rw [hg] at h
  cases h

/-- what is recorded of the file is not true of the manifest in its place -/
theorem decoy_untrue :
    let out := run .oneByOne (toOut true) [decoy] ({}, {})
    Record.of decoy ∈ (out.1.manifest (toOut true).config).files ∧
      ¬ Truthful (toOut true).root out.2 (Record.of decoy) := by
  obtain ⟨hrec, hm⟩ := run_decoy_manifest
  refine ⟨(perm_manifest _ _).mem_iff.2 (hrec ▸ List.mem_singleton_self _), ?_⟩
  rintro ⟨t, bytes, ht, hg, hsize, -⟩
  have hplace : targetOf? (toOut true).root decoy.path = .ok ["out", manifestName] :=
    rfl
  obtain rfl : ["out", manifestName] = t := Except.ok.inj (hplace.symm.trans ht)
  have hbytes := Entry.file.inj (Option.some.inj (hm.symm.trans hg))
  have hvalue : Str.lone? (Json.writeIndent
      (Manifest.of (toOut true).config [Record.of decoy]).value) = none :=
    Manifest.lone?_value _ [decoy] (List.forall_mem_singleton.2 (by decide))
  rw [← hbytes] at hsize
  exact Nat.ne_of_lt (one_lt_size_json hvalue) hsize

/-- the file that the move of another one takes away is recorded -/
theorem hidden_untrue :
    let out := run (.inTurns overtaking) (toOut false) [userFile, hiddenFile] ({}, {})
    Record.of hiddenFile ∈ (out.1.manifest (toOut false).config).files ∧
      ¬ Truthful (toOut false).root out.2 (Record.of hiddenFile) := by
  dsimp only
  obtain ⟨hnone, hgone⟩ := run_inTurns_overtaking (s := toOut false) rfl rfl rfl (swept_toOut false)
  have hrecords := run_records (.inTurns overtaking) (toOut false) [userFile, hiddenFile] ({}, {})
  rw [written_of_no_failures hnone] at hrecords
  have hmem : hiddenFile ∈ [userFile, hiddenFile] := List.mem_cons_of_mem _ List.mem_cons_self
  refine ⟨(perm_manifest _ _).mem_iff.2 (hrecords ▸ ?_), not_truthful_of_absent ?_ hgone⟩
  · exact List.mem_map_of_mem hmem
  · show targetOf? ["out"] hiddenFile.path = _
    rfl

def earlier : GeneratedFile := ⟨"schemas", "schemas/A.ts", "a"⟩

def later : GeneratedFile := ⟨"schemas", "schemas/B.ts", "b"⟩

/-- a second export clears away what the first one has written, and still lists it -/
theorem earlier_untrue :
    let out := run .oneByOne toSchemas [later] (run .oneByOne toSchemas [earlier] ({}, {}))
    Record.of earlier ∈ (out.1.manifest toSchemas.config).files ∧
      ¬ Truthful toSchemas.root out.2 (Record.of earlier) := by
  dsimp only
  have hsort : sortedDirs toSchemas.config = [(.schemas, "schemas")] := List.mergeSort_singleton _
  have hnone : (run .oneByOne toSchemas [earlier] ({}, {})).1.failures = [] := by
    rw [run_toSchemas]
    rfl
  have hgone : ((run .oneByOne toSchemas [later]
      (run .oneByOne toSchemas [earlier] ({}, {}))).2.get? ["out", "schemas", "A.ts"]).isSome =
        false := by
    rw [run_toSchemas]
    unfold run
    rw [hsort]
    rfl
  have hrecords := run_records .oneByOne toSchemas [earlier] ({}, {})
  rw [written_of_no_failures hnone] at hrecords
  refine ⟨(perm_manifest _ _).mem_iff.2 ?_, not_truthful_of_absent ?_ hgone⟩
  · rw [run_records]
    exact List.mem_append_left _ (hrecords ▸ List.mem_singleton_self _)
  · show targetOf? ["out"] earlier.path = _
    rfl

/-- A record is not true of the disk where the manifest or the move of another file takes the
place of what was written, or where a later export clears it away. -/
theorem records_untrue :
    (Separate (toOut true).root [decoy] ∧
      let out := run .oneByOne (toOut true) [decoy] ({}, {})
      Record.of decoy ∈ (out.1.manifest (toOut true).config).files ∧
        ¬ Truthful (toOut true).root out.2 (Record.of decoy)) ∧
    (Separate (toOut false).root [userFile, hiddenFile] ∧
      let out := run (.inTurns overtaking) (toOut false) [userFile, hiddenFile] ({}, {})
      Record.of hiddenFile ∈ (out.1.manifest (toOut false).config).files ∧
        ¬ Truthful (toOut false).root out.2 (Record.of hiddenFile)) ∧
    (Separate toSchemas.root [later] ∧
      let out := run .oneByOne toSchemas [later] (run .oneByOne toSchemas [earlier] ({}, {}))
      Record.of earlier ∈ (out.1.manifest toSchemas.config).files ∧
        ¬ Truthful toSchemas.root out.2 (Record.of earlier)) :=
  ⟨⟨by decide, decoy_untrue⟩, ⟨separate_hidden, hidden_untrue⟩, by decide, earlier_untrue⟩

end Export

end ZodSchema
