import Mathlib
import MarkupLabels.Proofs.Run.Preview

namespace MarkupLabels

namespace Source

variable {language : Language} {config : Value} {source : List Char} {first : Labelled}

def HoldsAttributes (before text : List Char) : Prop :=
  ∃ attributes : List Attribute, attributes ≠ [] ∧ Spaced before attributes text

/-- Insertions in front of the ends of opening tags of a source text. -/
structure BeforeTagEnds (language : Language) (source : List Char) (insertions : List Insertion) :
    Prop where
  sorted : insertions.Pairwise fun a b => a.offset < b.offset
  inside : ∀ i ∈ insertions, i.offset ≤ source.length
  endsTag : ∀ i ∈ insertions, EndsTagAt (lexemes language source) i.element i.offset
  holds : ∀ i ∈ insertions, HoldsAttributes (source.take i.offset) i.text

lemma BeforeTagEnds.deleteAll {insertions : List Insertion}
    (h : BeforeTagEnds language source insertions) :
    Insertion.deleteAll 0 (Insertion.insertAll 0 source insertions) insertions = source :=
  Insertion.deleteAll_insertAll (h.sorted.imp fun hlt => hlt.le) fun i hi =>
    ⟨Nat.zero_le _, by simpa using h.inside i hi⟩

lemma beforeTagEnds_insertions {added : Nat → List Attribute} (h : accepts language source)
    (hnamed : ∀ i, added i ≠ [] → (Document.read language source).isNamed i) :
    BeforeTagEnds language source (Progress.initial.insertions added (lexemes language source)) := by
  have hspelled : ∀ l ∈ lexemes language source, l.Spelled := fun l hl => spelled_of_mem_lexemes hl
  obtain ⟨hnodup, -⟩ := Document.tagEnds_of_accepts h
  have hlayout : ∀ t ∈ Progress.initial.tagEnds (lexemes language source),
      added t.element ≠ [] → t.layout.isSome := by
    intro t ht ha
    obtain ⟨u, hu, heq, hn⟩ := Document.exists_of_isNamed (hnamed t.element ha)
    obtain rfl := List.inj_on_of_nodup_map hnodup hu ht heq
    exact Progress.layout_of_named (by simp [Progress.initial]) ht hn
  have hspec := fun i (hi : i ∈ Progress.initial.insertions added (lexemes language source)) =>
    Progress.exists_of_mem_insertions hspelled hlayout hi
  refine ⟨?_, fun i hi => ?_, fun i hi => (hspec i hi).2.1, fun i hi => ⟨added i.element, ?_, ?_⟩⟩
  · exact List.pairwise_map.mpr ((Progress.tagEnds_pairwise hspelled).filter _)
  · obtain ⟨-, ⟨before, token, after, hls, -, hoffset, -⟩, -⟩ := hspec i hi
    have hlength := congrArg List.length (texts_lexemes language source)
    rw [hls, Lexeme.texts, List.flatMap_append, List.length_append] at hlength
    rw [Lexeme.texts] at hoffset
    omega
  · obtain ⟨t, ht, rfl⟩ := List.mem_map.mp hi
    simpa using (List.mem_filter.mp ht).2
  · have hspaced := (hspec i hi).2.2
    rwa [texts_lexemes] at hspaced

lemma insertions_of_label (h : accepts language source)
    (hlabel : label language config source = .ok first) :
    ∃ insertions, BeforeTagEnds language source insertions ∧
      first.text = Insertion.insertAll 0 source insertions := by
  obtain ⟨p, r, -, -, htext⟩ := exists_of_label h hlabel
  refine ⟨_, beforeTagEnds_insertions h fun i => isNamed_of_assigned (l := ⟨p, r, .standard⟩) h, ?_⟩
  have hwrite := Progress.insertAll_insertions
    ((⟨p, r, .standard⟩ : Labeller).assigned (Document.read language source).forest)
    .initial (lexemes language source)
  rw [texts_lexemes] at hwrite
  exact htext.trans hwrite.symm

end Source

namespace Snapshot

variable {s : Snapshot} {place q : List String} {e : Entry}

lemma lookup_setEntry_of_ne (h : q ≠ place) (entries : List (List String × Entry)) :
    (setEntry place e entries).lookup q = entries.lookup q := by
  induction entries with
  | nil => simp [setEntry, h]
  | cons entry entries ih =>
    obtain ⟨r, f⟩ := entry
    rw [setEntry]
    split
    · next hr =>
      subst hr
      rw [List.lookup_cons, List.lookup_cons, beq_eq_false_iff_ne.mpr h]
    · rw [List.lookup_cons, List.lookup_cons, ih]

lemma entry?_set_of_ne (h : q ≠ place) : Snapshot.entry? (s.set place e) q = s.entry? q := by
  unfold entry? set
  rw [lookup_setEntry_of_ne h]

lemma entry?_of_writeFile {t : Snapshot} {p : Path} {content : List UInt8}
    (h : s.writeFile p content = .ok t) (hplace : s.locate p ≠ .ok place) :
    t.entry? place = s.entry? place := by
  unfold writeFile at h
  cases hp : s.locate p with
  | error f => simp [hp, bind, Except.bind] at h
  | ok found =>
    have hne : place ≠ found := fun heq => hplace (heq ▸ hp)
    simp only [hp, bind, Except.bind] at h
    split at h
    · cases h
    · obtain rfl := Except.ok.inj h
      exact entry?_set_of_ne hne

end Snapshot

namespace Command

open Processed Progress Source

variable {s : Snapshot} {setup : Setup} {o : Options} {log : List LogEvent} {place : List String}

lemma finish_entry? {g : Progress} (hreport : ∀ r ∈ o.report, g.snapshot.locate r ≠ .ok place)
    (fingerprint : String) (clock : Clock) :
    (finish o fingerprint clock g).snapshot.entry? place = g.snapshot.entry? place := by
  unfold finish
  cases hr : o.report with
  | none => rfl
  | some r =>
    simp only
    split
    · rfl
    · next t hwrite => exact Snapshot.entry?_of_writeFile hwrite (hreport r hr)

lemma run_of_refusal {f : FileFault} (hsetup : Setup.prepare s o.config = (log, .ok setup))
    (hsearch : setup.selection.refusal s o.paths = some f) (clock : Clock) :
    run o clock s = {
      status := .error (.file f)
      printed := (labelFiles o s setup log).printed
      log := (labelFiles o s setup log).log
      snapshot := (labelFiles o s setup log).snapshot } := by
  unfold run label
  rw [hsetup]
  simp only [hsearch]

lemma entry?_run (hsetup : Setup.prepare s o.config = (log, .ok setup))
    (hreport : ∀ r ∈ o.report, (labelFiles o s setup log).snapshot.locate r ≠ .ok place) (clock : Clock) :
    (run o clock s).snapshot.entry? place = (labelFiles o s setup log).snapshot.entry? place := by
  cases hsearch : setup.selection.refusal s o.paths with
  | none => rw [run_eq hsetup hsearch, finish_entry? hreport]
  | some f => rw [run_of_refusal hsetup hsearch]

lemma exists_setup {clock : Clock} (hchanged : (run o clock s).snapshot.entry? place ≠ s.entry? place) :
    ∃ log setup, Setup.prepare s o.config = (log, .ok setup) := by
  rcases hsetup : Setup.prepare s o.config with ⟨log, _ | setup⟩
  · unfold run label at hchanged
    rw [hsetup] at hchanged
    exact absurd rfl hchanged
  · exact ⟨log, setup, rfl⟩

lemma exists_label_of_rewritten_ne {config : Value} {p : Path} {content : List UInt8}
    (h : rewritten config (.ofPath p) content ≠ content) :
    ∃ text l, Text.decodeUtf8 content = .ok text ∧
      Source.label (.ofPath p) config (Text.unifyLines text) = .ok l ∧
      rewritten config (.ofPath p) content = Text.encodeUtf8 l.text := by
  rw [rewritten_eq] at h ⊢
  cases hnew : (ofContent config p content).newText with
  | none => simp [hnew] at h
  | some new =>
    obtain ⟨text, l, htext, hl, -, rfl⟩ := newText_eq_some.mp hnew
    exact ⟨text, l, htext, hl, rfl⟩

/-- What a run that writes changes, but for its report, is a file that holds text, and it puts
attributes in front of the ends of opening tags. Without them the file is as it was, if its lines ended
in line feeds, and has these for other ends of lines if it had any. -/
theorem run_inserts (hs : s.Sound) (hwrites : writes o = true)
    (haccepts : ∀ log setup, Setup.prepare s o.config = (log, .ok setup) →
      Setup.Accepts s (setup.selection.discover s o.paths))
    (clock : Clock) (hreport : ∀ r ∈ o.report, s.locate r ≠ .ok place)
    (hchanged : (run o clock s).snapshot.entry? place ≠ s.entry? place) :
    ∃ old text insertions,
      s.entry? place = some (.file old) ∧ Text.decodeUtf8 old = .ok text ∧
      BeforeTagEnds (.ofPlace place) (Text.unifyLines text) insertions ∧
      (run o clock s).snapshot.entry? place = some (.file (Text.encodeUtf8
        (Insertion.insertAll 0 (Text.unifyLines text) insertions))) ∧
      Insertion.deleteAll 0 (Insertion.insertAll 0 (Text.unifyLines text) insertions) insertions =
        Text.unifyLines text ∧
      (Text.encodeUtf8 (Text.unifyLines text) = old ↔ '\r' ∉ text) := by
  obtain ⟨log, setup, hsetup⟩ := exists_setup hchanged
  have haccepted := haccepts log setup hsetup
  have hafter : (run o clock s).snapshot.entry? place =
      Snapshot.entry? (setup.rewrite s (setup.selection.discover s o.paths)) place := by
    have hsnapshot : (labelFiles o s setup log).snapshot =
        setup.rewrite s (setup.selection.discover s o.paths) := labelFiles_snapshot hs hwrites log
    rw [entry?_run hsetup, hsnapshot]
    rw [hsnapshot, Setup.rewrite]
    simpa using hreport
  rw [hafter, Setup.entry?_rewrite hs haccepted] at hchanged ⊢
  rcases hold : s.entry? place with _ | (old | _)
  · simp [hold] at hchanged
  · by_cases hplace : place ∈ s.places (setup.selection.discover s o.paths)
    · obtain ⟨p, hp, hlocate⟩ := Snapshot.exists_of_mem_places hplace
      have hread := Snapshot.readFile_eq_ok.mpr ⟨place, hlocate, hold⟩
      have hlanguage := hs.ofPath_eq hlocate hold
      rw [← hlanguage] at hchanged ⊢
      simp only [hold, Option.map_some, Entry.mapContent, if_pos hplace, ne_eq, Option.some.injEq,
        Entry.file.injEq] at hchanged ⊢
      obtain ⟨text, l, htext, hl, hrewritten⟩ := exists_label_of_rewritten_ne hchanged
      obtain ⟨insertions, hbefore, hinsert⟩ := insertions_of_label (haccepted p hp old hread text htext) hl
      refine ⟨old, text, insertions, rfl, htext, hbefore, ?_, hbefore.deleteAll, ?_⟩
      · rw [hrewritten, hinsert]
      · rw [← Text.encodeUtf8_of_decodeUtf8 htext, Text.encodeUtf8_inj, Text.unifyLines_eq_self]
    · simp [hold, hplace, Entry.mapContent] at hchanged
  · simp [hold, Entry.mapContent] at hchanged

def returnsText : List Char :=
  "import \x7b Button \x7d from '@patternfly/react-core';\r\nvar x = <Button />;\r\n".toList

def returnsFiles : Snapshot where
  entries := [(["a.tsx"], .file (Text.encodeUtf8 returnsText))]
  workingDirectory := []

lemma run_returnsFiles (clock : Clock) :
    (run { paths := [.ofText "a.tsx"] } clock returnsFiles).snapshot =
      { returnsFiles with entries := [(["a.tsx"], .file (Text.encodeUtf8 "import \x7b Button \x7d from '@patternfly/react-core';\nvar x = <Button data-role=\"button\" data-purpose=\"action\" data-variant=\"primary\" data-state=\"disabled\" />;\n".toList))] } := by
  obtain ⟨fingerprint, hsetup⟩ := Setup.exists_prepare_none returnsFiles
  have hs : returnsFiles.Sound := by decide
  refine (run_writing_snapshot (o := { paths := [.ofText "a.tsx"] }) hs hsetup rfl rfl clock).trans ?_
  change Setup.rewrite ⟨Config.default, "", .standard⟩ _ (Selection.standard.discover _ _) = _
  unfold returnsFiles returnsText
  rw [String.toList_ofList, String.toList_ofList]
  decide +kernel

theorem run_inserts_button :
    let o : Options := { paths := [.ofText "a.tsx"] }
    returnsFiles.Sound ∧ writes o = true ∧
    (∀ log setup, Setup.prepare returnsFiles o.config = (log, .ok setup) →
      Setup.Accepts returnsFiles (setup.selection.discover returnsFiles o.paths)) ∧
    (run o default returnsFiles).snapshot.entry? ["a.tsx"] ≠ returnsFiles.entry? ["a.tsx"] ∧
    ∃ insertions, BeforeTagEnds (.ofPlace ["a.tsx"]) (Text.unifyLines returnsText) insertions ∧
      (run o default returnsFiles).snapshot.entry? ["a.tsx"] = some (.file (Text.encodeUtf8
        (Insertion.insertAll 0 (Text.unifyLines returnsText) insertions))) := by
  intro o
  have hs : returnsFiles.Sound := by decide
  have haccepts : ∀ log setup, Setup.prepare returnsFiles o.config = (log, .ok setup) →
      Setup.Accepts returnsFiles (setup.selection.discover returnsFiles o.paths) := by
    intro log setup hsetup
    obtain ⟨fingerprint, hdefault⟩ := Setup.exists_prepare_none returnsFiles
    cases hdefault.symm.trans hsetup
    change Setup.Accepts _ (Selection.standard.discover _ _)
    unfold returnsFiles returnsText
    rw [String.toList_ofList]
    decide +kernel
  have hchanged : (run o default returnsFiles).snapshot.entry? ["a.tsx"] ≠
      returnsFiles.entry? ["a.tsx"] := by
    rw [run_returnsFiles]
    unfold returnsFiles returnsText
    rw [String.toList_ofList, String.toList_ofList]
    decide +kernel
  obtain ⟨old, text, insertions, hold, htext, hbefore, hnew, -⟩ :=
    run_inserts hs rfl haccepts default (by simp [o]) hchanged
  obtain rfl : Text.encodeUtf8 returnsText = old := by simpa [returnsFiles, Snapshot.entry?] using hold
  obtain rfl := Except.ok.inj ((Text.decodeUtf8_encodeUtf8 _).symm.trans htext)
  exact ⟨hs, rfl, haccepts, hchanged, insertions, hbefore, hnew⟩

theorem run_drops_returns :
    ∃ old new, returnsFiles.entry? ["a.tsx"] = some (.file old) ∧
      (run { paths := [.ofText "a.tsx"] } default returnsFiles).snapshot.entry? ["a.tsx"] =
        some (.file new) ∧ new ≠ old ∧ ¬ old.Sublist new := by
  rw [run_returnsFiles]
  unfold returnsFiles returnsText
  rw [String.toList_ofList, String.toList_ofList]
  refine ⟨_, _, rfl, rfl, by decide +kernel, fun h => ?_⟩
  exact absurd (h.subset (by decide +kernel : '\r'.toUInt8 ∈ _)) (by decide +kernel)

end Command

end MarkupLabels
