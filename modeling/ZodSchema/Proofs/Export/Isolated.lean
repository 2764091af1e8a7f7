import ZodSchema.Proofs.Export.Passes
import ZodSchema.Proofs.Text.Bytes
import ZodSchema.Proofs.Text.Path

/-!
# Files that fail

After the clearing pass every file of a batch fares as it would fare alone: it is written and
recorded, or it costs one error and its place stays as it is.

* `Isolated`       what an export of a batch comes to
* `run_isolated`   every export of separate files comes to that
* `run_decoy`, `failures_beside`   what a batch can do to a file all the same
-/

namespace ZodSchema.Export

open Files FileSystem Text

variable {s : Settings} {p t : Parts} {f : GeneratedFile} {files done : List GeneratedFile}
  {fs fs' fs'' : FileSystem} {st : Log × FileSystem} {w : Manner}

/-! ## the export of a batch -/

/-- how a file fared: it has an encoding, is recorded, and its place holds its bytes, or there is one
failure and its place is as before -/
inductive Fared (s : Settings) (before after : FileSystem) (f : GeneratedFile) : Prop where
  | written {t : Parts} (ht : targetOf? s.root f.path = .ok t)
      (hl : alone s before f = { records := [Record.of f] })
      (hc : Str.lone? f.content = none)
      (hg : after.get? t = some (.file (Str.bytes f.content)))
  | refused (why : Refusal) (hl : alone s before f = { failures := [.notWritten f.path why] })
      (hg : ∀ t, targetOf? s.root f.path = .ok t → after.get? t = before.get? t)

/-- what the export of a batch comes to, where `failed` are the families that are not cleared and
`mid` is the state after the clearing pass -/
structure Isolated (s : Settings) (files : List GeneratedFile) (failed : List Family)
    (mid out : Log × FileSystem) : Prop where
  /-- one failure for each family that is not cleared, and so far no other one -/
  families : List.Forall₂ (NotCleared s.config.familyDirs s.root) failed mid.1.failures
  nodup : failed.Nodup
  /-- the other files are recorded in their order, as they would be alone -/
  records : out.1.records =
    (without failed files).flatMap fun f => (alone s mid.2 f).records
  /-- failures in the order of the files, as they would be alone -/
  failures : List.Forall₂ (Failure.Alike s.root) out.1.failures
    (mid.1.failures ++ (without failed files).flatMap fun f => (alone s mid.2 f).failures)
  fared : ∀ f ∈ without failed files, Fared s mid.2 out.2 f
  /-- a place is left as by the file alone -/
  place : ∀ f ∈ without failed files, ∀ t, targetOf? s.root f.path = .ok t →
    out.2.get? t = (writeFile s ({}, mid.2) f).2.get? t
  /-- the files of families that are not cleared are not written -/
  skipped : ∀ f ∈ files, f ∉ without failed files → ∀ t, targetOf? s.root f.path = .ok t →
    out.2.get? t = mid.2.get? t
  /-- elsewhere nothing is left but directories, no temporary file -/
  others : ∀ p, (s.config.writeManifest = true → p ≠ s.root ++ [manifestName]) →
    (∀ f ∈ without failed files, targetOf? s.root f.path ≠ .ok p) →
    out.2.get? p = mid.2.get? p ∨ (mid.2.get? p = none ∧ out.2.get? p = some .dir)
  success : out.1.success = true ↔ out.1.errors = []

theorem success_iff (l : Log) : l.success = true ↔ l.errors = [] := by
  unfold Log.success Log.errors
  rw [List.isEmpty_iff, List.map_eq_nil_iff]

/-- a settled path is a file of the batch, as before, or a new directory -/
theorem Settled.get?_of_ne {jobs : List Job} (h : Settled s.atomic jobs fs fs')
    (hp : ∀ j ∈ jobs, p ≠ j.target) :
    fs'.get? p = fs.get? p ∨ (fs.get? p = none ∧ fs'.get? p = some .dir) := by
  rcases h.cases_get? p with ⟨j, hj, _, he⟩ | ⟨j, hj, ho⟩ | he
  · exact absurd he (hp j hj)
  · have hdir := h.opened j hj p ho
    rcases get?_of_isFile_eq_false (of_mem_opened ho).2.2 with hb | hb
    · exact Or.inr ⟨hb, hdir⟩
    · exact Or.inl (hdir.trans hb.symm)
  · exact Or.inl he

/-! ## the places of the files -/

/-- the manifest keeps the places of files that are not its own -/
theorem get?_writeManifest_target (hman : s.config.writeManifest = true →
      targetOf? s.root f.path ≠ .ok (s.root ++ [manifestName]))
    (ht : targetOf? s.root f.path = .ok t) (st : Log × FileSystem) :
    (writeManifest s st).2.get? t = st.2.get? t := by
  have hne : s.config.writeManifest = true → t ≠ s.root ++ [manifestName] := by
    rintro hm rfl
    exact hman hm ht
  refine (kept_writeManifest_of_ne s st hne).get?_eq fun hp => ?_
  have hl := (isBelow_iff.1 (isBelow_targetOf ht)).2
  have := hp.length_le
  omega

section
variable (hsep : Separate s.root files) (hsub : done.Sublist files)
  (hset : Settled s.atomic (jobsOf s.root done) fs fs')
include hsep hsub hset

/-- a place is left as by the file alone -/
theorem get?_eq_writeFile (hf : f ∈ done) (ht : targetOf? s.root f.path = .ok t) (l : Log) :
    fs'.get? t = (writeFile s (l, fs) f).2.get? t := by
  have hone : Separate s.root [f] := hsep.sublist (List.singleton_sublist.2 (hsub.subset hf))
  have halone : Settled s.atomic (jobsOf s.root [f]) fs (writeFile s (l, fs) f).2 :=
    (writeFiles_noted hone (l, fs)).1
  have hself : f ∈ [f] := List.mem_singleton_self f
  cases hn : fate s fs f with
  | none => rw [get?_of_written hset hf ht hn, get?_of_written halone hself ht hn]
  | some why =>
    have hw : fate s fs f ≠ none := by
      rw [hn]
      exact Option.some_ne_none why
    rw [get?_of_not_written hsep hsub hset (hsub.subset hf) ht fun _ => hw,
      get?_of_not_written hone (List.Sublist.refl _) halone hself ht fun _ => hw]

theorem fared_of_settled (hf : f ∈ done)
    (hplace : ∀ t, targetOf? s.root f.path = .ok t → fs''.get? t = fs'.get? t) :
    Fared s fs fs'' f := by
  have hl := alone_eq s fs f
  cases hn : fate s fs f with
  | some why =>
    rw [hn] at hl
    refine .refused why hl fun t ht => ?_
    rw [hplace t ht]
    refine get?_of_not_written hsep hsub hset (hsub.subset hf) ht fun _ => ?_
    rw [hn]
    exact Option.some_ne_none why
  | none =>
    rw [hn] at hl
    cases ht : targetOf? s.root f.path with
    | error why =>
      unfold fate at hn
      rw [ht] at hn
      cases hn
    | ok t =>
      exact .written ht hl (lone?_of_fate hn) ((hplace t ht).trans (get?_of_written hset hf ht hn))

end

/-- elsewhere the batch leaves nothing but directories -/
theorem others_of_settled (hset : Settled s.atomic (jobsOf s.root done) fs fs')
    (hp : ∀ f ∈ done, targetOf? s.root f.path ≠ .ok p) (hkept : Kept s.root fs' fs'' p) :
    fs''.get? p = fs.get? p ∨ (fs.get? p = none ∧ fs''.get? p = some .dir) := by
  have hw : fs'.get? p = fs.get? p ∨ (fs.get? p = none ∧ fs'.get? p = some .dir) := by
    refine hset.get?_of_ne ?_
    rintro j hj rfl
    obtain ⟨f, hf, ht, _⟩ := mem_jobsOf hj
    exact hp f hf ht
  rcases hkept with he | ⟨_, h0, h1⟩
  · rw [he]
    exact hw
  · rcases hw with he | ⟨_, he⟩
    · exact Or.inr ⟨he ▸ h0, h1⟩
    · rw [he] at h0
      cases h0

/-- **One file that fails does not spoil the batch.**  In an export of files with separate places,
none of them the place of the manifest or, when they are written in turns, in the way of a temporary
file, every file fares as it would fare alone after the clearing pass: it is written and recorded,
or it costs one failure and its place is as before; the files of a family that is not cleared are
not written. -/
theorem run_isolated (w : Manner) (s : Settings) (files : List GeneratedFile) (fs : FileSystem)
    (hroot : (fs.makeDirs s.root).2 = none) (hsep : Separate s.root files)
    (hcl : w.Clear s files)
    (hman : s.config.writeManifest = true →
      ∀ f ∈ files, targetOf? s.root f.path ≠ .ok (s.root ++ [manifestName])) :
    Isolated s files (swept s ({}, fs)).1 (swept s ({}, fs)).2 (run w s files ({}, fs)) := by
  obtain ⟨hrec, hnodup, hfam⟩ := swept_log s fs
  rw [run_of_root w ({}, fs) hroot files]
  generalize swept s ({}, fs) = r at hrec hnodup hfam
  obtain ⟨failed, mid⟩ := r
  dsimp only at hrec hnodup hfam ⊢
  have hsub := without_sublist failed files
  obtain ⟨hset, hnoted⟩ := w.write_noted (hsep.sublist hsub) (hcl.sublist hsub) mid
  generalize w.write s (without failed files) mid = st at hset hnoted
  obtain ⟨hmr, hmf⟩ := writeManifest_log s st
  have hplace : ∀ f ∈ files, ∀ t, targetOf? s.root f.path = .ok t →
      (writeManifest s st).2.get? t = st.2.get? t :=
    fun f hf t ht => get?_writeManifest_target (fun hm => hman hm f hf) ht st
  refine
    { families := hfam
      nodup := hnodup
      records := ?_
      failures := ?_
      fared := fun f hf => fared_of_settled hsep hsub hset hf (hplace f (hsub.subset hf))
      place := fun f hf t ht => ?_
      skipped := fun f hf hno t ht => ?_
      others := fun p hm hp => others_of_settled hset hp (kept_writeManifest_of_ne s st hm)
      success := success_iff _ }
  · rw [hmr, hnoted.records, hrec, List.nil_append]
  · rw [hmf]
    exact hnoted.failures
  · rw [hplace f (hsub.subset hf) t ht]
    exact get?_eq_writeFile hsep hsub hset hf ht {}
  · rw [hplace f hf t ht]
    exact get?_of_not_written hsep hsub hset hf ht fun h => absurd h hno

/-- settings of two families, with a manifest -/
def crowded : Settings :=
  { config := { zodSchemas := false, brandRegistry := true, threeLayers := true,
                writeManifest := true }
    root := ["out"] }

/-- a file where the directory of the layers should be, and a directory that stays -/
def crowdedFiles : FileSystem :=
  ⟨[(["out"], .dir), (["out", "layers"], .file ⟨#[120]⟩), (["out", "brands"], .dir),
    (["out", "brands", "old.ts"], .file ⟨#[121]⟩), (["out", "brands", ".git"], .dir)]⟩

/-- one file that is written, one outside, one of a family that is not cleared, and one in the
place of a directory -/
def crowd : List GeneratedFile :=
  [⟨"brands", "brands/User.ts", "a"⟩, ⟨"brands", "../User.ts", "b"⟩,
    ⟨"layers", "layers/User.ts", "c"⟩, ⟨"brands", "brands/.git", "d"⟩]

theorem swept_crowded : (swept crowded ({}, crowdedFiles)).1 = [.layers] := by
  have hsort : sortedDirs crowded.config = [(.brands, "brands"), (.layers, "layers")] :=
    List.mergeSort_of_pairwise (by decide)
  unfold swept
  rw [hsort]
  rfl

/-- the files take turns from the last to the first -/
def crowding : Manner :=
  .inTurns [⟨["out", "brands", ".git"], ""⟩, ⟨["out", "brands", "User.ts"], "k3u_x07q"⟩,
    ⟨["out", "brands", ".git"], ""⟩]

theorem run_isolated_crowd :
    (crowdedFiles.makeDirs crowded.root).2 = none ∧ Separate crowded.root crowd ∧
      crowding.Clear crowded crowd ∧
      (∀ f ∈ crowd, targetOf? crowded.root f.path ≠ .ok (crowded.root ++ [manifestName])) ∧
      (swept crowded ({}, crowdedFiles)).1 = [.layers] ∧
      Isolated crowded crowd (swept crowded ({}, crowdedFiles)).1
        (swept crowded ({}, crowdedFiles)).2 (run crowding crowded crowd ({}, crowdedFiles)) := by
  have hroot : (crowdedFiles.makeDirs crowded.root).2 = none := by decide +kernel
  have hsep : Separate crowded.root crowd := by decide +kernel
  have htemps : TempsApart (jobsOf crowded.root crowd) := tempsApart_of_names (by decide +kernel)
  have hman : ∀ f ∈ crowd,
      targetOf? crowded.root f.path ≠ .ok (crowded.root ++ [manifestName]) := by decide +kernel
  exact ⟨hroot, hsep, fun _ => htemps, hman, swept_crowded, run_isolated crowding crowded crowd
    crowdedFiles hroot hsep (fun _ => htemps) fun _ => hman⟩

/-! ## what a batch can do to a file -/

/-- an export to `/out` into nothing, with or without a manifest -/
def toOut (manifest : Bool) : Settings :=
  { config := { writeManifest := manifest }, root := ["out"], clean := false }

/-- the output directory and nothing else -/
def onlyOut : FileSystem := (({} : FileSystem).makeDirs ["out"]).1

theorem makeDirs_toOut (manifest : Bool) :
    (({} : FileSystem).makeDirs (toOut manifest).root).2 = none := by
  show (({} : FileSystem).makeDirs ["out"]).2 = none
  rfl

theorem run_toOut (manifest : Bool) (w : Manner) (files : List GeneratedFile) :
    run w (toOut manifest) files ({}, {}) =
      writeManifest (toOut manifest) (w.write (toOut manifest) files ({}, onlyOut)) := by
  have hrun := run_of_root w ({}, {}) (makeDirs_toOut manifest) files
  have hswept : swept (toOut manifest) ({}, {}) = ([], {}, onlyOut) := rfl
  rwa [hswept, without_nil] at hrun

/-- a file in the place of the manifest -/
def decoy : GeneratedFile := ⟨"schemas", "zodgen-manifest.json", "x"⟩

/-- a manifest ends with a line feed -/
theorem bytes_json_ne_decoy {m : Manifest} (h : Str.lone? m.json = none) :
    Str.bytes m.json ≠ Str.bytes decoy.content := by
  intro he
  have hgenuine : Str.genuine m.json = "x" := String.toByteArray_inj.1 he
  have hjson : m.json = "x" := by
    rw [← Str.keep_genuine h, hgenuine]
    rfl
  have hl := congrArg (fun s => s.toList.getLast?) hjson
  simp [Manifest.json] at hl

/-- the file is written and recorded -/
theorem writeFile_decoy :
    (writeFile (toOut true) ({}, onlyOut) decoy).1 = { records := [Record.of decoy] } := by
  have ht : targetOf? (toOut true).root decoy.path = .ok ["out", manifestName] := rfl
  have hn : fate (toOut true) onlyOut decoy = none := rfl
  rw [writeFile_of_target ht, hn]
  rfl

/-- the manifest stands in its place -/
theorem run_decoy_manifest :
    (run .oneByOne (toOut true) [decoy] ({}, {})).1.records = [Record.of decoy] ∧
      (run .oneByOne (toOut true) [decoy] ({}, {})).2.get? ["out", manifestName] =
        some (.file (Str.bytes (Manifest.of (toOut true).config [Record.of decoy]).json)) := by
  rw [run_toOut]
  generalize hw : Manner.write .oneByOne (toOut true) [decoy] ({}, onlyOut) = w
  have hw' : writeFile (toOut true) ({}, onlyOut) decoy = w := hw
  have hlog : w.1 = { records := [Record.of decoy] } := hw' ▸ writeFile_decoy
  refine ⟨by rw [(writeManifest_log _ w).1, hlog], ?_⟩
  have hpath : ["out", manifestName] ≠ [] := List.cons_ne_nil _ _
  have hjson : Str.lone? (Manifest.of (toOut true).config [Record.of decoy]).json = none :=
    Manifest.lone?_json _ [decoy] (List.forall_mem_singleton.2 (by decide))
  have hok : (write true ["out", manifestName]
      (Manifest.of (toOut true).config [Record.of decoy]).json w.2).2 = none := by
    have ht : targetOf? (toOut true).root decoy.path = .ok ["out", manifestName] := rfl
    have hfile := writeFile_of_target ht ({}, onlyOut)
    rw [fault_write true hpath, ← hw', hfile, textFault?, hjson]
    rfl
  have hg := get?_write true hpath (Manifest.of (toOut true).config [Record.of decoy]).json w.2
    ["out", manifestName]
  rw [if_pos ⟨hok, rfl⟩] at hg
  have hm := writeManifest_files (s := toOut true) rfl w
  rw [hm, hlog]
  exact hg

theorem run_decoy : (run .oneByOne (toOut true) [decoy] ({}, {})).1.records = [Record.of decoy] ∧
    (run .oneByOne (toOut true) [decoy] ({}, {})).2.get? ["out", manifestName] ≠
      some (.file (Str.bytes decoy.content)) := by
  obtain ⟨hrec, hm⟩ := run_decoy_manifest
  have hjson : Str.lone? (Manifest.of (toOut true).config [Record.of decoy]).json = none :=
    Manifest.lone?_json _ [decoy] (List.forall_mem_singleton.2 (by decide))
  rw [hm]
  exact ⟨hrec, fun h => bytes_json_ne_decoy hjson (Entry.file.inj (Option.some.inj h))⟩

/-- a name of one byte more than a name may have -/
@[irreducible] def longName : String := String.ofList (List.replicate 64 '😀')

theorem toList_longName : longName.toList = List.replicate 64 '😀' := by
  unfold longName
  exact String.toList_ofList

theorem longName_ne {name : String} (h : name.toList.length < 64) : longName ≠ name := by
  rintro rfl
  rw [toList_longName, List.length_replicate] at h
  exact Nat.lt_irrefl _ h

theorem notMem_longName : mark ∉ longName.toList := by
  rw [toList_longName]
  exact fun h => absurd (List.eq_of_mem_replicate h) (by decide)

theorem utf8ByteSize_longName : longName.utf8ByteSize = 256 := by
  have hl := congrArg List.length (toList_toUTF8 longName)
  rw [toList_longName, List.length_flatMap, List.map_replicate, Array.length_toList] at hl
  rw [← String.size_toByteArray]
  exact hl.trans (by decide)

theorem isLongName_longName : isLongName longName = true := by
  unfold isLongName
  rw [Str.nameSize_of_notMem notMem_longName, utf8ByteSize_longName]
  decide

theorem canName_longName : Str.canName longName = true := by
  have hnul : longName.toList.contains (Char.ofNat 0) = false := by
    rw [toList_longName]
    decide
  unfold Str.canName
  rw [Str.unnamed?_of_notMem notMem_longName, hnul]
  rfl

/-- a file two levels below a directory that cannot be made -/
def tooDeep : GeneratedFile := ⟨"schemas", "a/" ++ longName ++ "/b/x.ts", "x"⟩

def beside : GeneratedFile := ⟨"schemas", "a/y.ts", "y"⟩

theorem resolved_tooDeep : Path.Resolved ["a", longName, "b", "x.ts"] := by
  have hlong : longName ≠ "" ∧ longName ≠ "." ∧ longName ≠ ".." :=
    ⟨longName_ne (by decide), longName_ne (by decide), longName_ne (by decide)⟩
  unfold Path.Resolved
  simp only [List.forall_mem_cons, List.not_mem_nil, false_implies, implies_true, and_true]
  exact ⟨by decide, hlong, by decide, by decide⟩

theorem toList_tooDeep : tooDeep.path.toList =
    ['a', '/'] ++ List.replicate 64 '😀' ++ ['/', 'b', '/', 'x', '.', 't', 's'] := by
  have hstart : "a/".toList = ['a', '/'] := rfl
  have hend : "/b/x.ts".toList = ['/', 'b', '/', 'x', '.', 't', 's'] := rfl
  show (("a/" ++ longName) ++ "/b/x.ts").toList = _
  rw [String.toList_append, String.toList_append, toList_longName, hstart, hend]

theorem parts_tooDeep : Path.parts tooDeep.path = ["a", longName, "b", "x.ts"] := by
  have hs : (splitOnChar '/' tooDeep.path.toList).map String.ofList =
      ["a", longName, "b", "x.ts"] := by
    rw [toList_tooDeep]
    unfold longName
    rfl
  unfold Path.parts Str.splitOn
  rw [hs]
  exact List.filter_eq_self.2 fun x hx => decide_eq_true (resolved_tooDeep x hx).1

theorem targetOf?_tooDeep :
    targetOf? ["out"] tooDeep.path = .ok ["out", "a", longName, "b", "x.ts"] := by
  have habs : Str.startsWith tooDeep.path "/" = false := by
    unfold Str.startsWith
    rw [toList_tooDeep]
    rfl
  have hroute : Path.absolute ["out"] tooDeep.path = ["out", "a", longName, "b", "x.ts"] := by
    unfold Path.absolute
    rw [parts_tooDeep, habs,
      List.filter_eq_self.2 fun x hx => decide_eq_true (resolved_tooDeep x hx).2.1]
    rfl
  have hnormal : Path.normalize ["out", "a", longName, "b", "x.ts"] =
      ["out", "a", longName, "b", "x.ts"] :=
    Path.resolve_of_resolved [] (List.forall_mem_cons.2 ⟨by decide, resolved_tooDeep⟩)
  have hname : hasBadName ["out", "a", longName, "b", "x.ts"] = false := by
    simp only [hasBadName, List.any_cons, canName_longName]
    decide
  unfold targetOf?
  dsimp only
  rw [hroute, hnormal, hname, if_neg Bool.false_ne_true, if_pos]
  exact isBelow_iff.2 ⟨List.prefix_append ["out"] _, by decide⟩

theorem isLongPath_tooDeep : isLongPath ["out", "a", longName, "b"] = false := by
  have htext : Path.text ["out", "a", longName, "b"] =
      "/" ++ ("out" ++ "/" ++ ("a" ++ "/" ++ (longName ++ "/" ++ "b"))) := by
    simp only [Path.text, Str.join, String.intercalate_cons_cons, String.intercalate_singleton]
  have hmark : mark ∉ (Path.text ["out", "a", longName, "b"]).toList := by
    rw [htext]
    simp only [String.toList_append, List.mem_append, notMem_longName]
    decide
  unfold isLongPath
  rw [Str.nameSize_of_notMem hmark, htext]
  simp only [String.utf8ByteSize_append, utf8ByteSize_longName]
  decide

/-- the directory of the file is not made, for its long name; how much of the path is told depends
on the directory before that -/
theorem makeDirs_tooDeep {fs : FileSystem} (hout : fs.get? ["out"] = some .dir) :
    (fs.get? ["out", "a"] = none →
      (fs.makeDirs ["out", "a", longName, "b"]).2 = some (.nameTooLong ["out", "a", longName])) ∧
    (fs.get? ["out", "a"] = some .dir →
      (fs.makeDirs ["out", "a", longName, "b"]).2 =
        some (.nameTooLong ["out", "a", longName, "b"])) := by
  have hname : hasBadName ["out", "a", longName, "b"] = false := by
    simp only [hasBadName, List.any_cons, canName_longName]
    decide
  have hshort : isLongName "out" = false ∧ isLongName "a" = false := by decide
  unfold makeDirs
  rw [hname, isLongPath_tooDeep, if_neg Bool.false_ne_true, if_neg Bool.false_ne_true]
  constructor <;> intro ha
  all_goals
    simp only [makeDirsFrom, List.nil_append, List.cons_append, hshort, isLongName_longName, hout,
      ha, if_true, Bool.false_eq_true, if_false]

/-- what is noted of the file in an export to `/out` -/
theorem failures_tooDeep (st : Log × FileSystem) {e : Fault}
    (h : (st.2.makeDirs ["out", "a", longName, "b"]).2 = some e) :
    (writeFile (toOut false) st tooDeep).1.failures =
      st.1.failures ++ [.notWritten tooDeep.path (.fault e)] := by
  have hpath : ["out", "a", longName, "b", "x.ts"] ≠ [] := List.cons_ne_nil _ _
  have hfate : fate (toOut false) st.2 tooDeep = some (.fault e) := by
    rw [fate_of_target targetOf?_tooDeep]
    unfold writeJob
    rw [fault_write _ hpath]
    dsimp only [List.dropLast]
    rw [h]
    rfl
  rw [writeFile_of_target targetOf?_tooDeep, hfate]
  rfl

theorem targetOf?_beside : targetOf? ["out"] beside.path = .ok ["out", "a", "y.ts"] := by
  rfl

theorem apart_beside : Apart ["out", "a", "y.ts"] ["out", "a", longName, "b", "x.ts"] := by
  have hne : longName ≠ "y.ts" := longName_ne (by decide)
  unfold Apart
  simp only [List.cons_prefix_cons, hne, hne.symm, false_and, and_false, not_false_eq_true,
    and_self]

theorem separate_beside : Separate ["out"] [beside, tooDeep] := by
  unfold Separate
  rw [targets_cons targetOf?_beside, targets_cons targetOf?_tooDeep]
  exact List.pairwise_pair.2 apart_beside

/-- after the file beside it, the whole directory is told -/
theorem failures_beside : (run .oneByOne (toOut false) [beside, tooDeep] ({}, {})).1.failures =
    [.notWritten tooDeep.path (.fault (.nameTooLong ["out", "a", longName, "b"]))] := by
  have hb : (writeFile (toOut false) ({}, onlyOut) beside).1.failures = [] := rfl
  have hd := failures_tooDeep (writeFile (toOut false) ({}, onlyOut) beside)
    ((makeDirs_tooDeep rfl).2 rfl)
  rw [run_toOut, (writeManifest_log _ _).2]
  show (writeFiles _ _ _).1.failures = _
  unfold writeFiles
  rw [List.foldl_cons, List.foldl_cons, List.foldl_nil, hd, hb]
  rfl

end ZodSchema.Export
