import Mathlib
import MarkupLabels.Proofs.Config.Presentation
import MarkupLabels.Proofs.Run.Rewriting
import MarkupLabels.Proofs.Yaml.Entry

namespace MarkupLabels

open Processed Progress

variable {s : Snapshot} {setup : Setup} {o : Options} {clock : Clock} {log : List LogEvent}
  {paths : List Path} {p : Path} {place : List String} {content : List UInt8}

def Selection.standard : Selection := ⟨Config.defaultExtensions, Config.defaultExcluded⟩

namespace Setup

def Accepts (s : Snapshot) (paths : List Path) : Prop :=
  ∀ p ∈ paths, ∀ content, s.readFile p = .ok content → Accepted (.ofPath p) content

instance : Decidable (∀ content, s.readFile p = .ok content → Accepted (.ofPath p) content) :=
  match h : s.readFile p with
  | .error _ => .isTrue fun content hread => by simp at hread
  | .ok content => decidable_of_iff (Accepted (.ofPath p) content)
    ⟨fun haccepted _ hread => Except.ok.inj hread ▸ haccepted, fun haccepts => haccepts content rfl⟩

instance : Decidable (Accepts s paths) :=
  inferInstanceAs (Decidable (∀ p ∈ paths, ∀ content, s.readFile p = .ok content →
    Accepted (.ofPath p) content))

def rewrite (setup : Setup) (s : Snapshot) (paths : List Path) : Snapshot :=
  s.mapContents fun place => (rewritten setup.config (.ofPlace place))^[(s.places paths).count place]

lemma entry?_rewrite (hs : s.Sound) (haccepts : Accepts s paths) :
    Snapshot.entry? (setup.rewrite s paths) place = (s.entry? place).map (Entry.mapContent fun content =>
      if place ∈ s.places paths then rewritten setup.config (.ofPlace place) content else content) := by
  rw [rewrite, Snapshot.entry?_mapContents]
  rcases he : s.entry? place with _ | (content | _)
  · rfl
  · simp only [Option.map_some, Entry.mapContent]
    congr 2
    by_cases hplace : place ∈ s.places paths
    · obtain ⟨p, hp, hlocate⟩ := Snapshot.exists_of_mem_places hplace
      have haccepted := haccepts p hp content (Snapshot.readFile_eq_ok.mpr ⟨place, hlocate, he⟩)
      rw [← hs.ofPath_eq hlocate he, iterate_rewritten haccepted, if_pos hplace,
        if_neg (List.count_pos_iff.mpr hplace).ne']
    · rw [if_neg hplace, List.count_eq_zero.mpr hplace]
      rfl
  · rfl

lemma readFile_rewrite (hs : s.Sound) (haccepts : Accepts s paths) (hp : p ∈ paths)
    (hread : s.readFile p = .ok content) :
    (setup.rewrite s paths).readFile p = .ok (rewritten setup.config (.ofPath p) content) := by
  obtain ⟨place, hplace, he⟩ := Snapshot.readFile_eq_ok.mp hread
  refine Snapshot.readFile_eq_ok.mpr ⟨place, ?_, ?_⟩
  · rw [rewrite, Snapshot.locate_mapContents, hplace]
  · rw [entry?_rewrite hs haccepts, he, hs.ofPath_eq hplace he]
    simp [Entry.mapContent, Snapshot.mem_places hp hplace]

lemma rewrite_rewrite (hs : s.Sound) (haccepts : Accepts s paths) :
    setup.rewrite (setup.rewrite s paths) paths = setup.rewrite s paths := by
  have hsound : (setup.rewrite s paths).Sound := hs.mapContents
  refine Snapshot.mapContents_self fun place content hfile => ?_
  by_cases hplace : place ∈ s.places paths
  · obtain ⟨p, hp, hlocate⟩ := Snapshot.exists_of_mem_places hplace
    have he := hsound.entry?_of_mem hfile
    rw [entry?_rewrite hs haccepts] at he
    obtain ⟨_ | _, hold, hmap⟩ := Option.map_eq_some_iff.mp he
    · next old =>
      have haccepted := haccepts p hp old (Snapshot.readFile_eq_ok.mpr ⟨place, hlocate, hold⟩)
      obtain rfl : rewritten setup.config (.ofPlace place) old = content := by
        simpa [Entry.mapContent, hplace] using hmap
      apply Function.iterate_fixed
      rw [← hs.ofPath_eq hlocate hold, rewritten_again haccepted]
    · cases hmap
  · have hnone : place ∉ (setup.rewrite s paths).places paths := by
      rwa [rewrite, Snapshot.places_mapContents]
    rw [List.count_eq_zero.mpr hnone]
    rfl

lemma prepare_congr {t : Snapshot} {config : Option String}
    (h : ∀ path ∈ config, t.find? (.ofText path) = s.find? (.ofText path)) :
    prepare t config = prepare s config := by
  have hload : load t config = load s config := by
    unfold load
    split
    · rfl
    · rfl
    · next path _ => rw [h path rfl]
  unfold prepare
  rw [hload]

lemma exists_prepare {path : Option String} {config : Value} {selection : Selection}
    (hload : load s path = (log, .ok config))
    (hplain : config.Plain) (hselection : selectionOf config = .ok selection) :
    ∃ fingerprint, prepare s path = (log, .ok ⟨config, fingerprint, selection⟩) := by
  obtain ⟨fingerprint, hfingerprint⟩ := Config.exists_fingerprint hplain .standard
  refine ⟨fingerprint, ?_⟩
  rw [prepare, hload]
  change (log, (ofConfig config).mapError Abort.setting) = _
  rw [ofConfig, hfingerprint, hselection]
  rfl

lemma exists_prepare_none (s : Snapshot) :
    ∃ fingerprint, prepare s none = ([], .ok ⟨Config.default, fingerprint, .standard⟩) :=
  exists_prepare rfl Config.plain_default rfl

end Setup

namespace Processed

lemma rewritten_ne {config : Value} (haccepted : Accepted (.ofPath p) content)
    (h : (ofContent config p content).result.changed) :
    rewritten config (.ofPath p) content ≠ content := by
  rw [ofContent_changed, Option.isSome_iff_exists] at h
  obtain ⟨text', hnew⟩ := h
  obtain ⟨text, l, htext, hl, hne, rfl⟩ := newText_eq_some.mp hnew
  intro hsame
  rw [rewritten_eq, hnew] at hsame
  have hbytes : Text.encodeUtf8 l.text = Text.encodeUtf8 text :=
    hsame.trans (Text.encodeUtf8_of_decodeUtf8 htext).symm
  have htexts := Text.encodeUtf8_inj.mp hbytes
  have hreturns := Source.notMem_of_label (haccepted text htext) (Text.notMem_unifyLines text) hl
  rw [htexts] at hreturns hne
  exact hne (Text.unifyLines_of_notMem hreturns).symm

end Processed

namespace Command

def checking (o : Options) : Options := { o with check := true }

def writing (o : Options) : Options := { o with dryRun := false, check := false }

def pending (setup : Setup) (s : Snapshot) (paths : List Path) : List Path :=
  paths.filter fun p => (judge setup.config s p).result.changed

def Failing (setup : Setup) (s : Snapshot) (paths : List Path) : Prop :=
  ∃ p ∈ paths, (judge setup.config s p).result.error.isSome

instance : Decidable (Failing setup s paths) :=
  inferInstanceAs (Decidable (∃ p ∈ paths, (judge setup.config s p).result.error.isSome))

lemma flatMap_linesFor :
    paths.flatMap (linesFor setup.config s) = (pending setup s paths).map pendingLine := by
  induction paths with
  | nil => rfl
  | cons p paths ih =>
    rw [List.flatMap_cons, ih, linesFor, pending, pending, List.filter_cons]
    split <;> simp

lemma mem_pending : p ∈ pending setup s paths ↔ p ∈ paths ∧ (judge setup.config s p).result.changed :=
  List.mem_filter

lemma label_eq_ok (hsetup : Setup.prepare s o.config = (log, .ok setup))
    (hsearch : setup.selection.refusal s o.paths = none) :
    label o s = .ok (setup.fingerprint, labelFiles o s setup log) := by
  unfold label
  rw [hsetup]
  simp only [hsearch]

lemma run_eq (hsetup : Setup.prepare s o.config = (log, .ok setup))
    (hsearch : setup.selection.refusal s o.paths = none) (clock : Clock) :
    run o clock s = finish o setup.fingerprint clock (labelFiles o s setup log) := by
  unfold run
  rw [label_eq_ok hsetup hsearch]

lemma finish_of_no_report (hreport : o.report = none) (fingerprint : String) (clock : Clock)
    (g : Progress) :
    finish o fingerprint clock g =
      { status := .ok (statusFor o ⟨fingerprint, g.results⟩)
        printed := g.printed ++ [summary (writes o) (Report.totals ⟨fingerprint, g.results⟩)]
        log := g.log
        snapshot := g.snapshot } := by
  unfold finish
  rw [hreport]

lemma statusFor_judged (o : Options) (fingerprint : String) (paths : List Path) :
    statusFor o ⟨fingerprint, paths.map fun p => (judge setup.config s p).result⟩ =
      if Failing setup s paths then .failures
      else if o.check ∧ pending setup s paths ≠ [] then .pending
      else .done := by
  unfold statusFor Report.failed Report.changed Failing pending
  congr 1
  · simp [Option.isSome_iff_ne_none]
  · congr 1
    simp

lemma labelFiles_preview (hwrites : writes o = false) (log : List LogEvent) :
    labelFiles o s setup log =
      { snapshot := s
        results := (setup.selection.discover s o.paths).map fun p => (judge setup.config s p).result
        log := log ++ (setup.selection.discover s o.paths).flatMap fun p => (judge setup.config s p).log
        printed := (setup.selection.discover s o.paths).flatMap (linesFor setup.config s) } := by
  unfold labelFiles
  rw [hwrites, through_false]
  simp

lemma labelFiles_snapshot (hs : s.Sound) (hwrites : writes o = true) (log : List LogEvent) :
    (labelFiles o s setup log).snapshot =
      setup.rewrite s (setup.selection.discover s o.paths) := by
  unfold labelFiles
  simp only [hwrites]
  rw [through_true_snapshot hs]
  rfl

section Prepared

variable (hs : s.Sound) (hsetup : Setup.prepare s o.config = (log, .ok setup))
  (hsearch : setup.selection.refusal s o.paths = none) (hreport : o.report = none)

include hs hsetup hsearch hreport in
lemma run_writing_snapshot (clock : Clock) :
    (run (writing o) clock s).snapshot = setup.rewrite s (setup.selection.discover s o.paths) := by
  rw [run_eq (o := writing o) hsetup hsearch, finish_of_no_report (o := writing o) hreport]
  exact labelFiles_snapshot (o := writing o) hs rfl log

include hsetup hsearch hreport in
lemma run_checking_status (clock : Clock) :
    (run (checking o) clock s).status = .ok (
      if Failing setup s (setup.selection.discover s o.paths) then .failures
      else if pending setup s (setup.selection.discover s o.paths) = [] then .done
      else .pending) := by
  have hwrites : writes (checking o) = false := by simp [writes, checking]
  rw [run_eq (o := checking o) hsetup hsearch, finish_of_no_report (o := checking o) hreport,
    labelFiles_preview hwrites]
  simp only [statusFor_judged]
  by_cases hnone : pending setup s (setup.selection.discover s o.paths) = []
  · simp [checking, hnone]
  · simp [checking, hnone]

end Prepared

lemma exists_text_of_mem_pending (hs : s.Sound) (haccepts : Setup.Accepts s paths)
    (hfiles : ∀ p ∈ paths, s.isFile p = .ok true) (hp : p ∈ pending setup s paths) :
    ∃ text, (judge setup.config s p).newText = some text ∧
      (setup.rewrite s paths).readFile p = .ok (Text.encodeUtf8 text) := by
  obtain ⟨hp, hchanged⟩ := mem_pending.mp hp
  obtain ⟨content, hread⟩ := Snapshot.isFile_iff_readFile.mp (hfiles p hp)
  rw [judge_of_readFile hread] at hchanged ⊢
  rw [ofContent_changed, Option.isSome_iff_exists] at hchanged
  obtain ⟨text, hnew⟩ := hchanged
  refine ⟨text, hnew, ?_⟩
  rw [Setup.readFile_rewrite hs haccepts hp hread, rewritten_eq, hnew]
  rfl

lemma entry?_rewrite_ne (hs : s.Sound) (haccepts : Setup.Accepts s paths)
    (hfiles : ∀ p ∈ paths, s.isFile p = .ok true) :
    Snapshot.entry? (setup.rewrite s paths) place ≠ s.entry? place ↔
      ∃ p ∈ pending setup s paths, s.locate p = .ok place := by
  rw [Setup.entry?_rewrite hs haccepts]
  constructor
  · intro hne
    rcases he : s.entry? place with _ | (content | _)
    · simp [he] at hne
    · by_cases hplace : place ∈ s.places paths
      · obtain ⟨p, hp, hlocate⟩ := Snapshot.exists_of_mem_places hplace
        have hread := Snapshot.readFile_eq_ok.mpr ⟨place, hlocate, he⟩
        refine ⟨p, mem_pending.mpr ⟨hp, ?_⟩, hlocate⟩
        rw [judge_of_readFile hread, ofContent_changed]
        by_contra hnone
        rw [Bool.not_eq_true, Option.isSome_eq_false_iff, Option.isNone_iff_eq_none] at hnone
        have hsame := rewritten_eq setup.config p content
        rw [hnone, hs.ofPath_eq hlocate he] at hsame
        simp [he, hplace, Entry.mapContent, hsame] at hne
      · simp [he, hplace, Entry.mapContent] at hne
    · simp [he, Entry.mapContent] at hne
  · rintro ⟨p, hp, hlocate⟩
    obtain ⟨hp, hchanged⟩ := mem_pending.mp hp
    obtain ⟨content, hread⟩ := Snapshot.isFile_iff_readFile.mp (hfiles p hp)
    obtain ⟨found, hfound, he⟩ := Snapshot.readFile_eq_ok.mp hread
    obtain rfl := Except.ok.inj (hlocate.symm.trans hfound)
    rw [judge_of_readFile hread] at hchanged
    have hne := rewritten_ne (haccepts p hp content hread) hchanged
    rw [hs.ofPath_eq hlocate he] at hne
    simpa [he, Entry.mapContent, Snapshot.mem_places hp hlocate] using hne

lemma judge_rewrite (hs : s.Sound) (haccepts : Setup.Accepts s paths)
    (hfiles : ∀ p ∈ paths, s.isFile p = .ok true) (hp : p ∈ paths) :
    (judge setup.config (setup.rewrite s paths) p).result.changed = false ∧
      ((judge setup.config (setup.rewrite s paths) p).result.error.isSome ↔
        (judge setup.config s p).result.error.isSome) := by
  obtain ⟨content, hread⟩ := Snapshot.isFile_iff_readFile.mp (hfiles p hp)
  rw [judge_of_readFile hread, judge_of_readFile (Setup.readFile_rewrite hs haccepts hp hread)]
  have hagain := @ofContent_rewritten setup.config p content (haccepts p hp content hread)
  rw [ofContent_changed, hagain.1]
  exact ⟨rfl, hagain.2⟩

lemma run_again (hs : s.Sound) (hsetup : Setup.prepare s o.config = (log, .ok setup))
    (hsearch : setup.selection.refusal s o.paths = none) (hreport : o.report = none)
    (haccepts : Setup.Accepts s (setup.selection.discover s o.paths))
    (hconfig : ∀ path ∈ o.config,
      (setup.rewrite s (setup.selection.discover s o.paths)).find? (.ofText path) = s.find? (.ofText path))
    (clock : Clock) :
    let found := setup.selection.discover s o.paths
    let after := setup.rewrite s found
    (Failing setup after found ↔ Failing setup s found) ∧
      (run (checking o) clock after).status = .ok (if Failing setup after found then .failures else .done) ∧
      (run (writing o) clock after).snapshot = after := by
  intro found after
  -- The second run is made ready just as the first was, and finds the same files.
  have hsetup' : Setup.prepare after o.config = (log, .ok setup) :=
    (Setup.prepare_congr hconfig).trans hsetup
  have hfound : setup.selection.discover after o.paths = found := Snapshot.discover_mapContents o.paths
  have hsearch' : setup.selection.refusal after o.paths = none :=
    (Snapshot.refusal_mapContents o.paths).trans hsearch
  have hsound : after.Sound := hs.mapContents
  have hfiles : ∀ p ∈ found, s.isFile p = .ok true := fun p => Selection.isFile_of_mem_discover hs
  have hjudge : ∀ p ∈ found, (judge setup.config after p).result.changed = false ∧
      ((judge setup.config after p).result.error.isSome ↔
        (judge setup.config s p).result.error.isSome) := fun p hp => judge_rewrite hs haccepts hfiles hp
  refine ⟨?_, ?_, ?_⟩
  · exact exists_congr fun p => and_congr_right fun hp => (hjudge p hp).2
  · rw [run_checking_status hsetup' hsearch' hreport, hfound]
    congr 1
    refine if_congr Iff.rfl rfl (if_pos ?_)
    exact List.filter_eq_nil_iff.mpr fun p hp => by simp [(hjudge p hp).1]
  · rw [run_writing_snapshot hsound hsetup' hsearch' hreport, hfound, Setup.rewrite_rewrite hs haccepts]

/-- A preview changes no file. It names the files that a run that writes changes, and what that leaves
in them is the text that the preview computed; the status of a check tells whether a file fails, or
else whether there is such a file. After that run, if it has not changed the configuration itself, a
check finds nothing left to do, and neither does a further run. -/
theorem preview_agrees (hs : s.Sound) (hsetup : Setup.prepare s o.config = (log, .ok setup))
    (hsearch : setup.selection.refusal s o.paths = none) (hreport : o.report = none)
    (haccepts : Setup.Accepts s (setup.selection.discover s o.paths)) (clock clock' : Clock) :
    let found := setup.selection.discover s o.paths
    let after := (run (writing o) clock s).snapshot
    (writes o = false → (run o clock s).snapshot = s ∧
      (run o clock s).printed = (pending setup s found).map pendingLine ++
        [summary false (Report.totals
          ⟨setup.fingerprint, found.map fun p => (judge setup.config s p).result⟩)]) ∧
    (∀ place, after.entry? place ≠ s.entry? place ↔
      ∃ p ∈ pending setup s found, s.locate p = .ok place) ∧
    (∀ p ∈ pending setup s found, ∃ text, (judge setup.config s p).newText = some text ∧
      after.readFile p = .ok (Text.encodeUtf8 text)) ∧
    ((run (checking o) clock s).status = .ok .failures ↔ Failing setup s found) ∧
    (¬ Failing setup s found →
      (run (checking o) clock s).status = .ok .pending ∧ (∃ place, after.entry? place ≠ s.entry? place) ∨
      (run (checking o) clock s).status = .ok .done ∧ ∀ place, after.entry? place = s.entry? place) ∧
    ((∀ path ∈ o.config, after.find? (.ofText path) = s.find? (.ofText path)) →
      (Failing setup after found ↔ Failing setup s found) ∧
      (run (checking o) clock' after).status =
        .ok (if Failing setup after found then .failures else .done) ∧
      (run (writing o) clock' after).snapshot = after) := by
  intro found after
  have hfiles : ∀ p ∈ found, s.isFile p = .ok true := fun p => Selection.isFile_of_mem_discover hs
  have hafter : after = setup.rewrite s found := run_writing_snapshot hs hsetup hsearch hreport clock
  have hchecking := run_checking_status hsetup hsearch hreport clock
  have hplaces : ∀ place, after.entry? place ≠ s.entry? place ↔
      ∃ p ∈ pending setup s found, s.locate p = .ok place := fun place =>
    hafter ▸ entry?_rewrite_ne hs haccepts hfiles
  refine ⟨fun hwrites => ?_, hplaces, ?_, ?_, fun hfine => ?_, fun hconfig => ?_⟩
  · rw [run_eq hsetup hsearch, finish_of_no_report hreport, labelFiles_preview hwrites, hwrites]
    refine ⟨rfl, ?_⟩
    rw [← flatMap_linesFor]
  · exact fun p hp => hafter ▸ exists_text_of_mem_pending hs haccepts hfiles hp
  · rw [hchecking]
    by_cases hfailing : Failing setup s found
    · exact iff_of_true (congrArg Except.ok (if_pos hfailing)) hfailing
    · refine iff_of_false ?_ hfailing
      rw [if_neg hfailing]
      split <;> simp
  · rw [hchecking, if_neg hfine]
    by_cases hnone : pending setup s found = []
    · right
      refine ⟨congrArg Except.ok (if_pos hnone), fun place => ?_⟩
      by_contra hne
      obtain ⟨p, hp, -⟩ := (hplaces place).mp hne
      simp [hnone] at hp
    · left
      obtain ⟨p, hp⟩ := List.exists_mem_of_ne_nil _ hnone
      obtain ⟨place, -, hplace, -⟩ := Snapshot.isFile_iff.mp (hfiles p (mem_pending.mp hp).1)
      exact ⟨congrArg Except.ok (if_neg hnone), place, (hplaces place).mpr ⟨p, hp, hplace⟩⟩
  · rw [hafter] at hconfig ⊢
    exact run_again hs hsetup hsearch hreport haccepts hconfig clock'

theorem preview_agrees_button :
    let s : Snapshot := {
      entries := [(["a.tsx"], .file (Text.encodeUtf8
        "import \x7b Button \x7d from '@patternfly/react-core';\nvar x = <Button />;\n".toList))]
      workingDirectory := [] }
    let o : Options := { paths := [.ofText "a.tsx"] }
    s.Sound ∧ o.report = none ∧
    ∃ log setup, Setup.prepare s o.config = (log, .ok setup) ∧
      setup.selection.refusal s o.paths = none ∧
      Setup.Accepts s (setup.selection.discover s o.paths) ∧
      (run (checking o) default s).status = .ok .pending ∧
      (run (checking o) default (run (writing o) default s).snapshot).status = .ok .done := by
  rw [String.toList_ofList]
  intro s o
  have hs : s.Sound := by decide
  obtain ⟨fingerprint, hsetup⟩ := Setup.exists_prepare_none s
  have hsearch : Selection.standard.refusal s o.paths = none := by decide
  obtain ⟨haccepts, hfine, hpending⟩ : Setup.Accepts s (Selection.standard.discover s o.paths) ∧
      ¬ Failing ⟨Config.default, "", .standard⟩ s (Selection.standard.discover s o.paths) ∧
      pending ⟨Config.default, "", .standard⟩ s (Selection.standard.discover s o.paths) ≠ [] := by
    decide +kernel
  obtain ⟨-, -, -, -, -, hlater⟩ := preview_agrees (o := o) hs hsetup hsearch rfl haccepts default default
  obtain ⟨hfails, hstatus, -⟩ := hlater (by simp [o])
  refine ⟨hs, rfl, [], _, hsetup, hsearch, haccepts, ?_, ?_⟩
  · rw [run_checking_status hsetup hsearch rfl]
    exact congrArg Except.ok ((if_neg hfine).trans (if_neg hpending))
  · exact hstatus.trans (congrArg Except.ok (if_neg fun h => hfine (hfails.mp h)))

def choosing (packages files rules : Value) : Value := .mapping (Value.textEntries [
  ("packages", packages), ("default_import_names", Config.texts Provenance.defaultNames),
  ("files", files), ("rules", rules)])

lemma plain_choosing {packages files rules : Value} (hpackages : packages.Plain) (hfiles : files.Plain)
    (hrules : rules.Plain) : (choosing packages files rules).Plain :=
  .mapping (by simp) (by simp [Config.texts, Value.plain_texts, hpackages, hfiles, hrules])

def packagesConfig (words : CodePoints) : Value :=
  choosing (.text words) (.mapping (Value.textEntries Config.defaultFiles))
    (.mapping (Value.textEntries Config.defaultRules))

lemma plain_packagesConfig (words : CodePoints) : (packagesConfig words).Plain :=
  plain_choosing (.text words) Config.plain_defaultFiles Config.plain_defaultRules

lemma withUser_packages (words : CodePoints) :
    Config.withUser (.mapping [(.text "packages", .text words)]) = .ok (packagesConfig words) := rfl

lemma load_user {text : List Char} {path : String} {user config : Value} (hpath : path ≠ "")
    (hfind : s.find? (.ofText path) = .ok (some (.file (Text.encodeUtf8 text)))) (hreturns : '\r' ∉ text)
    (hread : Yaml.read text = .ok user) (huser : Config.withUser user = .ok config) :
    Setup.load s (some path) = ([], .ok config) := by
  have hbytes : Config.ofBytes (Text.encodeUtf8 text) = .ok config := by
    rw [Config.ofBytes, Text.decodeUtf8_encodeUtf8]
    change ((Yaml.read (Text.unifyLines text)).mapError _).bind _ = _
    rw [Text.unifyLines_of_notMem hreturns, hread]
    simp only [Except.mapError, Except.bind, huser]
  rw [Setup.load, hfind]
  · simp only [hbytes]
    rfl
  · simpa using hpath

lemma exists_prepare_packages {text : List Char} {words : CodePoints} {path : String} (hpath : path ≠ "")
    (hfind : s.find? (.ofText path) = .ok (some (.file (Text.encodeUtf8 text)))) (hreturns : '\r' ∉ text)
    (hread : Yaml.read text = .ok (.mapping [(.text "packages", .text words)])) :
    ∃ fingerprint, Setup.prepare s (some path) =
      ([], .ok ⟨packagesConfig words, fingerprint, .standard⟩) :=
  Setup.exists_prepare (load_user hpath hfind hreturns hread (withUser_packages words))
    (plain_packagesConfig words) rfl

def ownText (labels : String) : List Char :=
  ("packages: <Button " ++ labels ++ "/>\n  import \x7b Button \x7d from 'Bu'\n").toList

def ownPackages (labels : String) : String :=
  "<Button " ++ labels ++ "/> import \x7b Button \x7d from 'Bu'"

def ownFiles (labels : String) : Snapshot where
  entries := [
    (["b.tsx"], .file (Text.encodeUtf8 "import \x7b Card \x7d from 'day';\nvar x = <Card />;\n".toList)),
    (["c.tsx"], .file (Text.encodeUtf8 (ownText labels)))]
  workingDirectory := []

def ownOptions : Options := { paths := [.ofText "b.tsx", .ofText "c.tsx"], config := some "c.tsx" }

def buttonLabels : String :=
  "data-role=\"button\" data-purpose=\"action\" data-variant=\"primary\" data-state=\"disabled\" "

lemma read_ownText :
    Yaml.read (ownText "") = .ok (.mapping [(.text "packages", .text (ownPackages ""))]) := by
  unfold ownText ownPackages CodePoints.ofString
  rw [String.toList_append, String.toList_append, String.toList_append, String.toList_append,
    String.toList_ofList, String.toList_ofList, String.toList_ofList, String.toList_ofList,
    String.toList_ofList, String.toList_ofList]
  apply Yaml.read_entry (n := 4) (s := ⟨⟨[], 51, 2, 0⟩, [], 0, -1, [], false, [], true⟩)
  case hscan => cbv
  all_goals decide

lemma read_ownText_labelled : Yaml.read (ownText buttonLabels) =
    .ok (.mapping [(.text "packages", .text (ownPackages buttonLabels))]) := by
  unfold ownText ownPackages buttonLabels CodePoints.ofString
  rw [String.toList_append, String.toList_append, String.toList_append, String.toList_append,
    String.toList_ofList, String.toList_ofList, String.toList_ofList, String.toList_ofList,
    String.toList_ofList, String.toList_ofList]
  apply Yaml.read_entry (n := 4) (s := ⟨⟨[], 137, 2, 0⟩, [], 0, -1, [], false, [], true⟩)
  case hscan => cbv
  case hwords =>
    simp only [Yaml.Tag.ofScalar, String.toList_ofList]
    decide +kernel
  all_goals decide +kernel

lemma exists_prepare_ownFiles {labels : String} (hreturns : '\r' ∉ labels.toList)
    (hread : Yaml.read (ownText labels) = .ok (.mapping [(.text "packages", .text (ownPackages labels))])) :
    ∃ fingerprint, Setup.prepare (ownFiles labels) ownOptions.config =
      ([], .ok ⟨packagesConfig (ownPackages labels), fingerprint, .standard⟩) := by
  have htext : '\r' ∉ ownText labels := by
    unfold ownText
    rw [String.toList_append, String.toList_append, String.toList_ofList, String.toList_ofList]
    simp [hreturns]
  apply exists_prepare_packages (by decide) ?_ htext hread
  simp [ownFiles]
  rfl

theorem preview_outdated :
    (ownFiles "").Sound ∧ ownOptions.report = none ∧
    (∃ log setup, Setup.prepare (ownFiles "") ownOptions.config = (log, .ok setup) ∧
      setup.selection.refusal (ownFiles "") ownOptions.paths = none ∧
      Setup.Accepts (ownFiles "") (setup.selection.discover (ownFiles "") ownOptions.paths)) ∧
    ∃ after, (run (writing ownOptions) default (ownFiles "")).snapshot = after ∧
      (run (checking ownOptions) default after).status = .ok .pending := by
  have hs : (ownFiles "").Sound := by decide
  obtain ⟨fingerprint, hsetup⟩ := exists_prepare_ownFiles (by decide) read_ownText
  have hreturns : '\r' ∉ buttonLabels.toList := by
    unfold buttonLabels
    rw [String.toList_ofList]
    decide
  obtain ⟨fingerprint', hsetup'⟩ := exists_prepare_ownFiles hreturns read_ownText_labelled
  have hsearch : ∀ labels, Selection.standard.refusal (ownFiles labels) ownOptions.paths = none :=
    fun _ => rfl
  obtain ⟨haccepts, hafter⟩ : Setup.Accepts (ownFiles "")
        (Selection.standard.discover (ownFiles "") ownOptions.paths) ∧
      Setup.rewrite ⟨packagesConfig (ownPackages ""), "", .standard⟩ (ownFiles "")
        (Selection.standard.discover (ownFiles "") ownOptions.paths) = ownFiles buttonLabels := by
    simp only [ownFiles, ownText, ownPackages, buttonLabels, CodePoints.ofString, String.toList_append]
    rw [String.toList_ofList, String.toList_ofList, String.toList_ofList, String.toList_ofList,
      String.toList_ofList, String.toList_ofList, String.toList_ofList]
    decide +kernel
  obtain ⟨hfine, hpending⟩ :
      ¬ Failing ⟨packagesConfig (ownPackages buttonLabels), "", .standard⟩ (ownFiles buttonLabels)
        (Selection.standard.discover (ownFiles buttonLabels) ownOptions.paths) ∧
      pending ⟨packagesConfig (ownPackages buttonLabels), "", .standard⟩ (ownFiles buttonLabels)
        (Selection.standard.discover (ownFiles buttonLabels) ownOptions.paths) ≠ [] := by
    simp only [ownFiles, ownText, ownPackages, buttonLabels, CodePoints.ofString, String.toList_append]
    rw [String.toList_ofList, String.toList_ofList, String.toList_ofList, String.toList_ofList,
      String.toList_ofList, String.toList_ofList]
    decide +kernel
  refine ⟨hs, rfl, ⟨[], _, hsetup, hsearch "", haccepts⟩, ownFiles buttonLabels, ?_, ?_⟩
  · exact (run_writing_snapshot hs hsetup (hsearch "") rfl default).trans hafter
  · rw [run_checking_status hsetup' (hsearch buttonLabels) rfl]
    exact congrArg Except.ok ((if_neg hfine).trans (if_neg hpending))

end Command

end MarkupLabels
