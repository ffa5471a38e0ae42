import Mathlib
import MarkupLabels.Proofs.Run.Insertions

namespace MarkupLabels.Command

open Processed Progress

variable {s : Snapshot} {setup : Setup} {o : Options} {clock : Clock} {log : List LogEvent}
  {place : List String} {p : Path} {content : List UInt8} {paths : List Path}

def left (o : Options) (setup : Setup) (p : Path) (content : List UInt8) : List UInt8 :=
  if writes o then rewritten setup.config (.ofPath p) content else content

lemma labelFiles_results (hs : s.Sound) (log : List LogEvent)
    (hdistinct : (s.places (setup.selection.discover s o.paths)).Nodup) :
    (labelFiles o s setup log).results =
      (setup.selection.discover s o.paths).map fun p => (judge setup.config s p).result := by
  unfold labelFiles
  cases writes o with
  | false => simp [through_false]
  | true =>
    simp only
    rw [through_true_results hs hdistinct]
    rfl

lemma labelFiles_locate (hs : s.Sound) (log : List LogEvent) (p : Path) :
    (labelFiles o s setup log).snapshot.locate p = s.locate p := by
  cases hwrites : writes o with
  | false => rw [labelFiles_preview hwrites]
  | true => rw [labelFiles_snapshot hs hwrites, Setup.rewrite, Snapshot.locate_mapContents]

lemma labelFiles_entry? (hs : s.Sound) (log : List LogEvent)
    (hplace : place ∉ s.places (setup.selection.discover s o.paths)) :
    (labelFiles o s setup log).snapshot.entry? place = s.entry? place := by
  cases hwrites : writes o with
  | false => rw [labelFiles_preview hwrites]
  | true =>
    rw [labelFiles_snapshot hs hwrites, Setup.rewrite]
    apply Snapshot.entry?_mapContents_of_fixed
    intro content
    rw [List.count_eq_zero.mpr hplace]
    rfl

lemma labelFiles_readFile (hs : s.Sound) (log : List LogEvent)
    (hdistinct : (s.places (setup.selection.discover s o.paths)).Nodup)
    (hp : p ∈ setup.selection.discover s o.paths) (hread : s.readFile p = .ok content) :
    (labelFiles o s setup log).snapshot.readFile p = .ok (left o setup p content) := by
  unfold left
  cases hwrites : writes o with
  | false =>
    rw [labelFiles_preview hwrites]
    exact hread
  | true =>
    obtain ⟨place, hlocate, he⟩ := Snapshot.readFile_eq_ok.mp hread
    have honce := List.count_eq_one_of_mem hdistinct (Snapshot.mem_places hp hlocate)
    rw [labelFiles_snapshot hs hwrites, Setup.rewrite]
    refine Snapshot.readFile_eq_ok.mpr ⟨place, ?_, ?_⟩
    · rw [Snapshot.locate_mapContents, hlocate]
    · rw [Snapshot.entry?_mapContents, he, honce, hs.ofPath_eq hlocate he]
      rfl

lemma left_of_failed (h : (ofContent setup.config p content).result.error.isSome) :
    left o setup p content = content := by
  unfold left
  split
  · rw [rewritten_eq, (ofContent_failed h).2.2]
    rfl
  · rfl

/-- A report can be written to a path that leads to a place where no directory stands. -/
def Writable (s : Snapshot) (p : Path) : Prop :=
  ∃ place, s.locate p = .ok place ∧ s.entry? place ≠ some .directory

lemma exists_writeFile (h : Writable s p) (content : List UInt8) :
    ∃ t, s.writeFile p content = .ok t := by
  obtain ⟨place, hplace, hentry⟩ := h
  unfold Snapshot.writeFile
  simp only [hplace, bind, Except.bind]
  exact ⟨_, rfl⟩

lemma finish_status {g : Progress} (hreport : ∀ r ∈ o.report, Writable g.snapshot r)
    (fingerprint : String) (clock : Clock) :
    (finish o fingerprint clock g).status = .ok (statusFor o ⟨fingerprint, g.results⟩) := by
  unfold finish
  cases hr : o.report with
  | none => rfl
  | some r =>
    obtain ⟨t, ht⟩ := exists_writeFile (hreport r hr) (Text.encodeUtf8
      (Report.written ⟨fingerprint, g.results⟩ clock.timestamp clock.duration).toList)
    simp only [ht]

lemma writable_labelFiles (hs : s.Sound) (log : List LogEvent) (h : Writable s p) :
    Writable (labelFiles o s setup log).snapshot p := by
  cases hwrites : writes o with
  | false => rwa [labelFiles_preview hwrites]
  | true =>
    obtain ⟨place, hplace, hentry⟩ := h
    rw [labelFiles_snapshot hs hwrites, Setup.rewrite]
    refine ⟨place, by rwa [Snapshot.locate_mapContents], ?_⟩
    rw [Snapshot.entry?_mapContents]
    rcases he : s.entry? place with _ | (_ | _)
    · simp
    · simp [Entry.mapContent]
    · exact absurd he hentry

lemma statusFor_eq_failures (o : Options) (fingerprint : String) (paths : List Path) :
    statusFor o ⟨fingerprint, paths.map fun p => (judge setup.config s p).result⟩ = .failures ↔
      Failing setup s paths := by
  rw [statusFor_judged]
  split
  · next hfailing => exact iff_of_true rfl hfailing
  · next hfine => exact iff_of_false (by split <;> simp) hfine

/-- A run over files at different places goes through all that it finds, and labels them. What comes of
each, and what it holds in the end, is what a run over it alone gives, and follows from its name, its
content and the configuration; a file that fails keeps its content and counts for nothing. The files that
are not found are left alone, but for a report; and unless a report cannot be written or an argument cannot
be searched, the status tells whether some file failed. -/
theorem label_isolated (hs : s.Sound) (hsetup : Setup.prepare s o.config = (log, .ok setup))
    (hdistinct : (s.places (setup.selection.discover s o.paths)).Nodup) (clock : Clock) :
    let found := setup.selection.discover s o.paths
    ∃ g, labelFiles o s setup log = g ∧
      (setup.selection.refusal s o.paths = none → label o s = .ok (setup.fingerprint, g)) ∧
      g.results.map (·.path) = found.map Path.text ∧
      (∀ (i : Nat) p, found[i]? = some p → ∃ content result alone,
        s.readFile p = .ok content ∧
        label { o with paths := [p] } s = .ok (setup.fingerprint, alone) ∧
        alone.results = [result] ∧ g.results[i]? = some result ∧
        result = (ofContent setup.config p content).result ∧
        g.snapshot.readFile p = .ok (left o setup p content) ∧
        alone.snapshot.readFile p = .ok (left o setup p content) ∧
        (result.error.isSome → result.stats = {} ∧ result.changed = false ∧
          left o setup p content = content)) ∧
      (∀ place, place ∉ s.places found → g.snapshot.entry? place = s.entry? place) ∧
      (∀ place, (∀ r ∈ o.report, s.locate r ≠ .ok place) →
        (run o clock s).snapshot.entry? place = g.snapshot.entry? place) ∧
      (setup.selection.refusal s o.paths = none → (∀ r ∈ o.report, Writable s r) →
        ∃ status, (run o clock s).status = .ok status ∧
          (status = .failures ↔ ∃ result ∈ g.results, result.error.isSome)) := by
  intro found
  have hresults := labelFiles_results (o := o) hs log hdistinct
  refine ⟨labelFiles o s setup log, rfl, label_eq_ok hsetup, ?_, ?_, ?_, ?_, ?_⟩
  · rw [hresults, List.map_map]
    exact List.map_congr_left fun p _ => judge_path setup.config s p
  · intro i p hi
    have hp : p ∈ found := List.mem_of_getElem? hi
    obtain ⟨content, hread⟩ :=
      Snapshot.isFile_iff_readFile.mp (Selection.isFile_of_mem_discover hs hp)
    -- The run over the file alone is a run over different places too, being over one.
    have hsingle : setup.selection.discover s [p] = [p] := Selection.discover_singleton hs hp
    have hdistinct' : (s.places (setup.selection.discover s [p])).Nodup := by
      rw [hsingle, Snapshot.places, List.filterMap_cons]
      split <;> simp
    have halone := labelFiles_results (o := { o with paths := [p] }) hs log hdistinct'
    have hjudged : judge setup.config s p = ofContent setup.config p content := judge_of_readFile hread
    simp only [hsingle, List.map_cons, List.map_nil, hjudged] at halone
    refine ⟨content, _, labelFiles { o with paths := [p] } s setup log, hread,
      label_eq_ok (o := { o with paths := [p] }) hsetup (Selection.refusal_singleton hs hp), halone, ?_, rfl,
      labelFiles_readFile hs log hdistinct hp hread,
      labelFiles_readFile (o := { o with paths := [p] }) hs log hdistinct' (by simp [hsingle]) hread,
      fun hfailed => ?_⟩
    · rw [hresults, List.getElem?_map, hi, Option.map_some, hjudged]
    · obtain ⟨hstats, hchanged, -⟩ := ofContent_failed hfailed
      exact ⟨hstats, hchanged, left_of_failed hfailed⟩
  · exact fun place => labelFiles_entry? hs log
  · intro place hreport
    apply entry?_run hsetup
    simpa only [labelFiles_locate hs log] using hreport
  · intro hsearch hreport
    refine ⟨statusFor o ⟨setup.fingerprint, (labelFiles o s setup log).results⟩, ?_, ?_⟩
    · rw [run_eq hsetup hsearch, finish_status fun r hr => writable_labelFiles hs log (hreport r hr)]
    · rw [hresults, statusFor_eq_failures]
      simp [Failing]

theorem label_isolated_undecodable :
    let s : Snapshot := {
      entries := [(["a.tsx"], .file [0xff]), (["b.tsx"], .file (Text.encodeUtf8
        "import \x7b Button \x7d from '@patternfly/react-core';\nvar x = <Button />;\n".toList))]
      workingDirectory := [] }
    let o : Options := { paths := [.ofText "a.tsx", .ofText "b.tsx"] }
    s.Sound ∧ (∃ log setup, Setup.prepare s o.config = (log, .ok setup) ∧
      (s.places (setup.selection.discover s o.paths)).Nodup) ∧
    (run o default s).status = .ok .failures ∧
    ∃ g, label o s = .ok g ∧ g.2.snapshot.readFile (.ofText "a.tsx") = .ok [0xff] := by
  intro s o
  have hs : s.Sound := by decide
  obtain ⟨fingerprint, hsetup⟩ := Setup.exists_prepare_none s
  have hdistinct : (s.places (Selection.standard.discover s o.paths)).Nodup := by decide
  have hfound : (Selection.standard.discover s o.paths)[0]? = some (.ofText "a.tsx") := by
    decide
  have hread : s.readFile (.ofText "a.tsx") = .ok [0xff] := by decide
  have hsearch : Selection.standard.refusal s o.paths = none := by decide
  obtain ⟨g, -, hg, -, hfiles, -, -, hstatus⟩ := label_isolated (o := o) hs hsetup hdistinct default
  obtain ⟨content, result, -, hcontent, -, -, hresult, hjudged, hleft, -, hfailed⟩ := hfiles 0 _ hfound
  obtain rfl := Except.ok.inj (hread.symm.trans hcontent)
  have herror : result.error.isSome := by
    rw [hjudged]
    change (ofContent Config.default (.ofText "a.tsx") [0xff]).result.error.isSome
    decide +kernel
  obtain ⟨status, hrun, hfailures⟩ := hstatus hsearch (by simp [o])
  refine ⟨hs, ⟨[], _, hsetup, hdistinct⟩, ?_, _, hg hsearch, ?_⟩
  · rw [hrun, hfailures.mpr ⟨result, List.mem_of_getElem? hresult, herror⟩]
  · rw [hleft, (hfailed herror).2.2]

lemma finish_status_error {g : Progress} {f : FileFault} (hreport : o.report = some p)
    (hp : g.snapshot.locate p = .error f) (fingerprint : String) (clock : Clock) :
    (finish o fingerprint clock g).status = .error (.file f) := by
  have hwrite : ∀ content, g.snapshot.writeFile p content = .error f := by
    intro content
    rw [Snapshot.writeFile, hp]
    rfl
  rw [finish, hreport]
  simp only [hwrite]

theorem label_unreported :
    let s : Snapshot := { entries := [(["a.tsx"], .file [0xff])], workingDirectory := [] }
    let o : Options := { paths := [.ofText "a.tsx"], report := some (.ofText "nodir/r.json") }
    s.Sound ∧ (∃ log setup, Setup.prepare s o.config = (log, .ok setup) ∧
      (s.places (setup.selection.discover s o.paths)).Nodup ∧
      setup.selection.refusal s o.paths = none ∧ Failing setup s (setup.selection.discover s o.paths)) ∧
    (run o default s).status = .error (.file .missing) := by
  intro s o
  have hs : s.Sound := by decide
  obtain ⟨fingerprint, hsetup⟩ := Setup.exists_prepare_none s
  have hdistinct : (s.places (Selection.standard.discover s o.paths)).Nodup := by decide
  have hfailing : Failing ⟨Config.default, "", .standard⟩ s (Selection.standard.discover s o.paths) := by
    decide +kernel
  have hsearch : Selection.standard.refusal s o.paths = none := by decide
  refine ⟨hs, ⟨[], _, hsetup, hdistinct, hsearch, hfailing⟩, ?_⟩
  rw [run_eq (o := o) hsetup hsearch]
  apply finish_status_error rfl
  rw [labelFiles_locate hs]
  decide

end MarkupLabels.Command
