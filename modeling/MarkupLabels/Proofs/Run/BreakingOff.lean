import Mathlib
import MarkupLabels.Proofs.Run.Accounting

/-! How a run is broken off. Where a configuration is bad as a whole, that comes up in front of the first
file; where it is bad for some file, that comes up while the file is labelled, and is kept as what came of
it. Only an argument that cannot be searched breaks a run off behind files that it has written. -/

namespace MarkupLabels

open Processed

variable {config : Value} {language : Language} {content : List UInt8} {fault : Fault} {p : Path}
  {s : Snapshot} {place : List String} {paths : List Path}

/-- A configuration stands in the way of labelling a file that holds text. -/
def Hinders (config : Value) (language : Language) (content : List UInt8) (fault : Fault) : Prop :=
  ∃ text, Text.decodeUtf8 content = .ok text ∧
    Source.label language config (Text.unifyLines text) = .error fault

namespace Hinders

lemma rewritten (h : Hinders config language content fault) :
    Processed.rewritten config language content = content := by
  obtain ⟨text, htext, hfault⟩ := h
  simp only [Processed.rewritten, htext, hfault]

lemma ofContent (h : Hinders config (.ofPath p) content fault) :
    (Processed.ofContent config p content).result = { path := p.text, error := some fault.message } ∧
      (Processed.ofContent config p content).newText = none := by
  obtain ⟨text, htext, hfault⟩ := h
  have hjudged := ofContent_judgement config p content
  generalize Processed.ofContent config p content = done at hjudged
  cases hjudged with
  | undecodable hf => simp [htext] at hf
  | faulty notes hagain hf =>
    obtain rfl := Except.ok.inj (htext.symm.trans hagain)
    obtain rfl := Except.error.inj (hfault.symm.trans hf)
    exact ⟨rfl, rfl⟩
  | labelled notes hagain hl =>
    obtain rfl := Except.ok.inj (htext.symm.trans hagain)
    simp [hfault] at hl

end Hinders

namespace Progress

variable {g : Progress} {writes : Bool}

lemma visit_hindered (hread : s.readFile p = .ok content) (h : Hinders config (.ofPath p) content fault)
    (writes : Bool) :
    (visit config writes s p).1.result = { path := p.text, error := some fault.message } := by
  obtain ⟨hresult, hnew⟩ := h.ofContent
  rw [visit, hread]
  simp only
  split
  · rw [save, hnew]
    exact hresult
  · exact hresult

lemma visit_path (config : Value) (writes : Bool) (s : Snapshot) (p : Path) :
    (visit config writes s p).1.result.path = p.text := by
  rcases visit_cases config writes s p with ⟨reason, h⟩ | ⟨content, -, h⟩
  · rw [h]
    rfl
  · rw [h, ofContent_path]

lemma next_results (config : Value) (writes : Bool) (g : Progress) (p : Path) :
    (g.next config writes p).results = g.results ++ [(visit config writes g.snapshot p).1.result] := rfl

lemma through_paths (config : Value) (writes : Bool) (g : Progress) (paths : List Path) :
    (g.through config writes paths).results.map (·.path) =
      g.results.map (·.path) ++ paths.map Path.text := by
  induction paths generalizing g with
  | nil => simp [through]
  | cons p paths ih =>
    rw [through, List.foldl_cons, ← through, ih, next_results, List.map_append, List.map_cons,
      visit_path]
    simp

lemma results_prefix_through (config : Value) (writes : Bool) (g : Progress) (paths : List Path) :
    g.results <+: (g.through config writes paths).results := by
  induction paths generalizing g with
  | nil => exact List.prefix_rfl
  | cons p paths ih => exact (List.prefix_append _ _).trans (ih (g.next config writes p))

lemma through_results_getElem? {i : Nat} (hi : paths[i]? = some p) (config : Value) (writes : Bool)
    (g : Progress) :
    (g.through config writes paths).results[g.results.length + i]? =
      some (visit config writes (g.through config writes (paths.take i)).snapshot p).1.result := by
  induction paths generalizing g i with
  | nil => simp at hi
  | cons q paths ih =>
    cases i with
    | zero =>
      obtain rfl : q = p := by simpa using hi
      obtain ⟨more, hmore⟩ := results_prefix_through config writes (g.next config writes q) paths
      rw [through, List.foldl_cons, ← through, ← hmore, next_results]
      simp [through]
    | succ i =>
      have hlater := ih (by simpa using hi) (g.next config writes q)
      rw [next_results, List.length_append, List.length_singleton, Nat.add_assoc, Nat.add_comm 1] at hlater
      exact hlater

lemma through_snapshot (hs : g.snapshot.Sound) (config : Value) (writes : Bool) (paths : List Path) :
    (g.through config writes paths).snapshot = g.snapshot.mapContents fun place =>
      (rewritten config (.ofPlace place))^[if writes then (g.snapshot.places paths).count place else 0] := by
  cases writes with
  | false =>
    rw [through_false]
    exact (Snapshot.mapContents_self fun _ _ _ => rfl).symm
  | true => exact through_true_snapshot hs config paths

lemma refusal_through (hs : g.snapshot.Sound) (selection : Selection) (arguments : List Path) :
    selection.refusal (g.through config writes paths).snapshot arguments =
      selection.refusal g.snapshot arguments := by
  rw [through_snapshot hs, Snapshot.refusal_mapContents]

lemma discover_through (hs : g.snapshot.Sound) (selection : Selection) (arguments : List Path) :
    selection.discover (g.through config writes paths).snapshot arguments =
      selection.discover g.snapshot arguments := by
  rw [through_snapshot hs, Snapshot.discover_mapContents]

lemma locate_through (hs : g.snapshot.Sound) :
    (g.through config writes paths).snapshot.locate p = g.snapshot.locate p := by
  rw [through_snapshot hs, Snapshot.locate_mapContents]

lemma entry?_through_hindered (hs : g.snapshot.Sound) (he : g.snapshot.entry? place = some (.file content))
    (h : Hinders config (.ofPlace place) content fault) :
    (g.through config writes paths).snapshot.entry? place = some (.file content) := by
  rw [through_snapshot hs, Snapshot.entry?_mapContents, he, Option.map_some, Entry.mapContent,
    Function.iterate_fixed h.rewritten]

lemma readFile_through_hindered (hs : g.snapshot.Sound) (hread : g.snapshot.readFile p = .ok content)
    (h : Hinders config (.ofPath p) content fault) :
    (g.through config writes paths).snapshot.readFile p = .ok content := by
  obtain ⟨place, hplace, he⟩ := Snapshot.readFile_eq_ok.mp hread
  rw [hs.ofPath_eq hplace he] at h
  refine Snapshot.readFile_eq_ok.mpr ⟨place, ?_, entry?_through_hindered hs he h⟩
  rw [locate_through hs, hplace]

lemma results_hindered (hs : g.snapshot.Sound) {i : Nat} (hi : paths[i]? = some p)
    (hread : g.snapshot.readFile p = .ok content) (h : Hinders config (.ofPath p) content fault)
    (writes : Bool) : (g.through config writes paths).results[g.results.length + i]? =
      some { path := p.text, error := some fault.message } := by
  rw [through_results_getElem? hi, visit_hindered (readFile_through_hindered hs hread h) h]

end Progress

namespace Command

open Progress

variable {o : Options} {setup : Setup} {log : List LogEvent} {abort : Abort} {g : Progress}

lemma run_of_error (hsetup : Setup.prepare s o.config = (log, .error abort)) (clock : Clock) :
    run o clock s = { status := .error abort, printed := [], log, snapshot := s } := by
  unfold run label
  rw [hsetup]

lemma status_eq_error {clock : Clock} (hreport : o.report = none)
    (hstatus : (run o clock s).status = .error abort) :
    (∃ log, Setup.prepare s o.config = (log, .error abort)) ∨
      ∃ log setup f, Setup.prepare s o.config = (log, .ok setup) ∧ abort = .file f ∧
        setup.selection.refusal s o.paths = some f := by
  rcases hsetup : Setup.prepare s o.config with ⟨log, broken | setup⟩
  · rw [run_of_error hsetup] at hstatus
    obtain rfl := Except.error.inj hstatus
    exact .inl ⟨log, rfl⟩
  · cases hsearch : setup.selection.refusal s o.paths with
    | none =>
      rw [run_eq hsetup hsearch, finish_of_no_report hreport] at hstatus
      cases hstatus
    | some f =>
      rw [run_of_refusal hsetup hsearch] at hstatus
      exact .inr ⟨log, setup, f, rfl, (Except.error.inj hstatus).symm, hsearch⟩

lemma statusFor_of_failed {fingerprint : String} {result : FileResult} (hresult : result ∈ g.results)
    (hfailed : result.error.isSome) : statusFor o ⟨fingerprint, g.results⟩ = .failures := by
  have hmem : result ∈ Report.failed ⟨fingerprint, g.results⟩ := List.mem_filter.mpr ⟨hresult, hfailed⟩
  have hne := List.isEmpty_eq_false_iff.mpr (List.ne_nil_of_mem hmem)
  simp [statusFor, hne]

lemma finish_status_cases (o : Options) (fingerprint : String) (clock : Clock) (g : Progress) :
    (finish o fingerprint clock g).status = .ok (statusFor o ⟨fingerprint, g.results⟩) ∨
      ∃ f, (finish o fingerprint clock g).status = .error (.file f) := by
  unfold finish
  split
  · exact .inl rfl
  · simp only
    split
    · exact .inr ⟨_, rfl⟩
    · exact .inl rfl

lemma status_of_failed {clock : Clock} {status : ExitStatus} {result : FileResult}
    (hsetup : Setup.prepare s o.config = (log, .ok setup))
    (hresult : result ∈ (labelFiles o s setup log).results) (hfailed : result.error.isSome)
    (hstatus : (run o clock s).status = .ok status) : status = .failures := by
  cases hsearch : setup.selection.refusal s o.paths with
  | some f => simp [run_of_refusal hsetup hsearch] at hstatus
  | none =>
    rw [run_eq hsetup hsearch] at hstatus
    rcases finish_status_cases o setup.fingerprint clock (labelFiles o s setup log) with hok | ⟨f, herror⟩
    · rw [← Except.ok.inj (hok.symm.trans hstatus)]
      exact statusFor_of_failed hresult hfailed
    · simp [herror] at hstatus

/-- If a run without a report is broken off, then either nothing has been written or printed, and it is the
configuration as a whole that cannot be used; or one of the arguments cannot be searched, and the files
that were found in front of that have been labelled. Otherwise the run goes through all files that it found
in the beginning, which are those that it finds at any time. A file whose labelling the configuration makes
impossible counts as failed, with a message that says why, and keeps its bytes, unless a report is
written there. -/
theorem run_broken_off (hs : s.Sound) (clock : Clock) :
    (∀ abort, o.report = none → (run o clock s).status = .error abort →
      (Setup.prepare s o.config).2 = .error abort ∧ (run o clock s).printed = [] ∧
        (run o clock s).snapshot = s ∨
      ∃ log setup f, Setup.prepare s o.config = (log, .ok setup) ∧ abort = .file f ∧
        setup.selection.refusal s o.paths = some f ∧ (∃ argument ∈ o.paths, s.Refuses argument f) ∧
        (run o clock s).snapshot = (labelFiles o s setup log).snapshot) ∧
    ∀ log setup, Setup.prepare s o.config = (log, .ok setup) →
      let found := setup.selection.discover s o.paths
      let refusal := setup.selection.refusal s o.paths
      let start : Progress := { snapshot := s, log }
      ∃ g, labelFiles o s setup log = g ∧ (refusal = none → label o s = .ok (setup.fingerprint, g)) ∧
        (∀ n, let between := (start.through setup.config (writes o) (found.take n)).snapshot
          setup.selection.discover between o.paths = found ∧
          setup.selection.refusal between o.paths = refusal) ∧
        g.results.map (·.path) = found.map Path.text ∧
        (refusal = none → o.report = none → ∃ status, (run o clock s).status = .ok status) ∧
        ∀ (i : Nat) p place content fault, found[i]? = some p →
          s.locate p = .ok place → s.entry? place = some (.file content) →
          Hinders setup.config (.ofPath p) content fault →
          g.results[i]? = some { path := p.text, error := some fault.message } ∧
          ((∀ r ∈ o.report, s.locate r ≠ .ok place) →
            (run o clock s).snapshot.entry? place = some (.file content)) ∧
          ∀ status, (run o clock s).status = .ok status → status = .failures := by
  refine ⟨fun abort hreport hstatus => ?_, fun log setup hsetup => ?_⟩
  · rcases status_eq_error hreport hstatus with ⟨log, hsetup⟩ | ⟨log, setup, f, hsetup, rfl, hsearch⟩
    · rw [run_of_error hsetup, hsetup]
      exact .inl ⟨rfl, rfl, rfl⟩
    · refine .inr ⟨log, setup, f, hsetup, rfl, hsearch, Selection.exists_refused hsearch, ?_⟩
      rw [run_of_refusal hsetup hsearch]
  · intro found refusal start
    refine ⟨labelFiles o s setup log, rfl, label_eq_ok hsetup, fun n => ⟨?_, ?_⟩, ?_,
      fun hsearch hreport => ?_, ?_⟩
    · exact discover_through (g := start) hs setup.selection o.paths
    · exact refusal_through (g := start) hs setup.selection o.paths
    · exact through_paths setup.config (writes o) start found
    · rw [run_eq hsetup hsearch, finish_of_no_report hreport]
      exact ⟨_, rfl⟩
    · intro i p place content fault hi hplace he hhinders
      have hread := Snapshot.readFile_eq_ok.mpr ⟨place, hplace, he⟩
      have hresult : (labelFiles o s setup log).results[i]? =
          some { path := p.text, error := some fault.message } := by
        have hkept := results_hindered (g := start) hs hi hread hhinders (writes o)
        simpa [start, found, labelFiles] using hkept
      refine ⟨hresult, fun hreport => ?_, fun status hstatus => ?_⟩
      · rw [entry?_run hsetup]
        · exact entry?_through_hindered (g := start) hs he (hs.ofPath_eq hplace he ▸ hhinders)
        · simpa only [labelFiles_locate hs log] using hreport
      · exact status_of_failed hsetup (List.mem_of_getElem? hresult) rfl hstatus

lemma hinders_of_rules (hcatalogs : ∀ d : Source.Document, ∃ provenance,
    d.provenance (Source.effectiveConfig config) = .ok provenance)
    (hrules : Rules.ofConfig config = .error fault) {text : List Char} :
    Hinders config language (Text.encodeUtf8 text) fault := by
  refine ⟨text, Text.decodeUtf8_encodeUtf8 text, ?_⟩
  obtain ⟨provenance, hprovenance⟩ := hcatalogs (Source.Document.read language (Text.unifyLines text))
  unfold Source.label Source.Document.attempt
  simp only [hprovenance, hrules]

lemma prepare_of_selection {path : Option String} (hload : Setup.load s path = (log, .ok config))
    (hplain : config.Plain) (hselection : Setup.selectionOf config = .error fault) :
    Setup.prepare s path = (log, .error (.setting fault)) := by
  obtain ⟨fingerprint, hfingerprint⟩ := Config.exists_fingerprint hplain .standard
  rw [Setup.prepare, hload]
  change (log, (Setup.ofConfig config).mapError Abort.setting) = _
  rw [Setup.ofConfig, hfingerprint, hselection]
  rfl

def wordConfig (files rules : Value) : Value :=
  choosing (Config.texts Provenance.defaultPackages) files rules

lemma plain_wordConfig {files rules : Value} (hfiles : files.Plain) (hrules : rules.Plain) :
    (wordConfig files rules).Plain := plain_choosing (Value.plain_texts _) hfiles hrules

def wordText (key : String) : List Char := (key ++ ": all\n").toList

def wordSource : List Char :=
  "import \x7b Button \x7d from '@patternfly/react-core';\nvar x = <Button />;\n".toList

def wordFiles (key : String) : Snapshot where
  entries := [
    (["a.tsx"], .file (Text.encodeUtf8 wordSource)), (["c.yaml"], .file (Text.encodeUtf8 (wordText key)))]
  workingDirectory := []

def wordOptions : Options := { paths := [.ofText "a.tsx"], config := some "c.yaml" }

lemma read_wordText_files :
    Yaml.read (wordText "files") = .ok (.mapping [(.text "files", .text "all")]) := by
  apply Yaml.read_entry (n := 4) (s := ⟨⟨[], 11, 1, 0⟩, [], 0, -1, [], false, [], true⟩)
  case hscan => cbv
  all_goals decide

lemma read_wordText_rules :
    Yaml.read (wordText "rules") = .ok (.mapping [(.text "rules", .text "all")]) := by
  apply Yaml.read_entry (n := 4) (s := ⟨⟨[], 11, 1, 0⟩, [], 0, -1, [], false, [], true⟩)
  case hscan => cbv
  all_goals decide

lemma load_wordFiles {key : String} (hreturns : '\r' ∉ wordText key)
    (hread : Yaml.read (wordText key) = .ok (.mapping [(.text key, .text "all")]))
    (huser : Config.withUser (.mapping [(.text key, .text "all")]) = .ok config) :
    Setup.load (wordFiles key) wordOptions.config = ([], .ok config) := by
  apply load_user (by decide) ?_ hreturns hread huser
  simp [wordFiles]
  rfl

theorem run_broken_off_words :
    (wordFiles "files").Sound ∧ (wordFiles "rules").Sound ∧ wordOptions.report = none ∧
    (run wordOptions default (wordFiles "files")).status = .error (.setting (.noMapping .text)) ∧
    (run wordOptions default (wordFiles "files")).snapshot = wordFiles "files" ∧
    (run wordOptions default (wordFiles "rules")).status = .ok .failures ∧
    (∃ fingerprint g, label wordOptions (wordFiles "rules") = .ok (fingerprint, g) ∧
      g.results[0]? = some { path := "a.tsx", error := some "'str' object has no attribute 'get'" }) ∧
    (run wordOptions default (wordFiles "rules")).snapshot.entry? ["a.tsx"] =
      some (.file (Text.encodeUtf8 wordSource)) := by
  have hfiles : (wordFiles "files").Sound := by decide
  have hrules : (wordFiles "rules").Sound := by decide
  have hbroken : (run wordOptions default (wordFiles "files")).status =
      .error (.setting (.noMapping .text)) := by
    have hload : Setup.load (wordFiles "files") wordOptions.config =
        ([], .ok (wordConfig (.text "all") (.mapping (Value.textEntries Config.defaultRules)))) :=
      load_wordFiles (by decide) read_wordText_files rfl
    have hplain := plain_wordConfig (.text "all") Config.plain_defaultRules
    rw [run_of_error (prepare_of_selection hload hplain rfl)]
    rfl
  have hload : Setup.load (wordFiles "rules") wordOptions.config =
      ([], .ok (wordConfig (.mapping (Value.textEntries Config.defaultFiles)) (.text "all"))) :=
    load_wordFiles (by decide) read_wordText_rules rfl
  obtain ⟨fingerprint, hsetup⟩ : ∃ fingerprint, Setup.prepare (wordFiles "rules") wordOptions.config =
      ([], .ok ⟨_, fingerprint, .standard⟩) :=
    Setup.exists_prepare hload (plain_wordConfig Config.plain_defaultFiles (.text "all")) rfl
  have hfound : (Selection.standard.discover (wordFiles "rules") wordOptions.paths)[0]? =
      some (.ofText "a.tsx") := by decide
  have hhinders : Hinders (wordConfig (.mapping (Value.textEntries Config.defaultFiles)) (.text "all"))
      (.ofPath (.ofText "a.tsx")) (Text.encodeUtf8 wordSource) (.noOperation .text "get") := by
    refine hinders_of_rules (fun d => ?_) rfl
    change ∃ provenance, Provenance.ofValues d.imports (Config.texts Provenance.defaultPackages)
      (Config.texts Provenance.defaultNames) = .ok provenance
    exact Provenance.ofValues_texts d.imports (.inr ⟨_, rfl⟩) (.inr ⟨_, rfl⟩)
  have hsnapshot : (run wordOptions default (wordFiles "files")).snapshot = wordFiles "files" := by
    rcases (run_broken_off hfiles default).1 _ rfl hbroken with ⟨-, -, hkept⟩ | ⟨_, _, _, -, hfault, -⟩
    · exact hkept
    · cases hfault
  obtain ⟨g, -, hlabel, -, -, hstatus, hhindered⟩ := (run_broken_off hrules default).2 _ _ hsetup
  obtain ⟨hresult, hentry, hfailures⟩ :=
    hhindered 0 (.ofText "a.tsx") ["a.tsx"] _ _ hfound (by decide) rfl hhinders
  obtain ⟨status, hok⟩ := hstatus rfl rfl
  refine ⟨hfiles, hrules, rfl, hbroken, hsnapshot, ?_, ⟨_, g, hlabel rfl, hresult⟩,
    hentry (by simp [wordOptions])⟩
  rw [hok, hfailures status hok]

def longFiles : Snapshot where
  entries := [(["a.tsx"], .file (Text.encodeUtf8 wordSource))]
  workingDirectory := []
  limits := some .usual

def longOptions : Options :=
  { paths := [.ofText "a.tsx", .ofText (String.ofList (List.replicate 256 'x'))] }

theorem run_broken_off_labelled :
    longFiles.Sound ∧ longOptions.report = none ∧
    (run longOptions default longFiles).status = .error (.file .nameTooLong) ∧
    (run longOptions default longFiles).snapshot ≠ longFiles := by
  obtain ⟨fingerprint, hsetup⟩ := Setup.exists_prepare_none longFiles
  have hs : longFiles.Sound := by decide
  have hlong : longFiles.isFile (.ofText (String.ofList (List.replicate 256 'x'))) =
      .error .nameTooLong := by
    rw [Path.ofText_name (by decide) (by decide) (by decide)]
    apply Snapshot.isFile_of_not_fits hs (by decide)
    rw [Snapshot.fits, String.utf8ByteSize_ofList]
    decide +kernel
  have hgather : Selection.standard.gather longFiles longOptions.paths =
      ([.ofText "a.tsx"], some .nameTooLong) := by
    rw [longOptions, Selection.gather, Selection.candidates_of_isFile (by decide), Selection.gather,
      Selection.candidates_of_error hlong]
    rfl
  have hsnapshot : (labelFiles longOptions longFiles ⟨Config.default, fingerprint, .standard⟩ []).snapshot =
      Setup.rewrite ⟨Config.default, fingerprint, .standard⟩ longFiles
        (Selection.standard.discover longFiles longOptions.paths) := labelFiles_snapshot hs rfl []
  have hsearch : Selection.standard.refusal longFiles longOptions.paths = some .nameTooLong := by
    rw [Selection.refusal, hgather]
  refine ⟨hs, rfl, ?_, ?_⟩
  · rw [run_of_refusal (o := longOptions) hsetup hsearch]
  · rw [run_of_refusal (o := longOptions) hsetup hsearch, hsnapshot, Selection.discover, hgather]
    change Setup.rewrite ⟨Config.default, "", .standard⟩ _ (Selection.standard.keepNew _ _) ≠ _
    unfold longFiles wordSource
    rw [String.toList_ofList]
    decide +kernel

end Command

end MarkupLabels
