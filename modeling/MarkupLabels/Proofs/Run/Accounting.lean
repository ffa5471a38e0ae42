import Mathlib
import MarkupLabels.Proofs.Run.Isolation
import MarkupLabels.Proofs.Tree.Counts

namespace MarkupLabels

namespace Source

variable {language : Language} {config : Value} {source : List Char} {first : Labelled}

lemma Insertion.length_insertAll (position : Nat) (text : List Char) (insertions : List Insertion) :
    (insertAll position text insertions).length =
      text.length + (insertions.map (·.text.length)).sum := by
  induction insertions generalizing position text with
  | nil => rfl
  | cons i rest ih =>
    rw [insertAll, List.length_append, List.length_append, ih, List.map_cons, List.sum_cons,
      List.length_take, List.length_drop]
    omega

lemma Insertion.insertAll_ne_self {position : Nat} {text : List Char} {insertions : List Insertion}
    (h : ∀ i ∈ insertions, i.text ≠ []) : insertAll position text insertions ≠ text ↔ insertions ≠ [] := by
  cases insertions with
  | nil => simp [insertAll]
  | cons i rest =>
    refine iff_of_true (fun heq => ?_) (List.cons_ne_nil i rest)
    have hlength := congrArg List.length heq
    have hi := List.length_pos_of_ne_nil (h i List.mem_cons_self)
    rw [length_insertAll, List.map_cons, List.sum_cons] at hlength
    omega

lemma Spaced.ne_nil {before text : List Char} {a : Attribute} {more : List Attribute}
    (h : Spaced before (a :: more) text) : text ≠ [] := by
  obtain ⟨gap, rest, rfl, -⟩ := h
  have hmarkup : a.markup ≠ [] := by
    rcases markup_cases a with ⟨q, -, -, hm, -⟩ | ⟨-, -, hm, -⟩ <;> simp [hm]
  simp [hmarkup]

lemma BeforeTagEnds.text_ne_nil {insertions : List Insertion} (h : BeforeTagEnds language source insertions) :
    ∀ i ∈ insertions, i.text ≠ [] := by
  intro i hi
  obtain ⟨attributes, hne, hspaced⟩ := h.holds i hi
  obtain ⟨a, more, rfl⟩ := List.exists_cons_of_ne_nil hne
  exact hspaced.ne_nil

lemma insertions_elements (h : accepts language source) {added : Nat → List Attribute}
    (hnamed : ∀ i, added i ≠ [] → (Document.read language source).isNamed i) :
    ((Progress.initial.insertions added (lexemes language source)).map (·.element)).Perm
      ((List.range (Document.read language source).forest.size).filter fun i => added i ≠ []) := by
  obtain ⟨hnodup, hlt⟩ := Document.tagEnds_of_accepts h
  have helements : (Progress.initial.insertions added (lexemes language source)).map (·.element) =
      ((Document.read language source).tagEnds.map (·.element)).filter fun i => added i ≠ [] := by
    have hfilter : (fun t : TagEnd => !(added t.element).isEmpty) = fun t => decide (added t.element ≠ []) :=
      funext fun t => by cases added t.element <;> rfl
    rw [Progress.insertions, List.map_map, hfilter, List.filter_map]
    rfl
  rw [helements]
  apply (List.perm_ext_iff_of_nodup (hnodup.filter _) (List.nodup_range.filter _)).mpr
  intro i
  simp only [List.mem_filter, decide_eq_true_eq]
  refine and_congr_left fun ha => ?_
  rw [List.mem_range]
  constructor
  · intro hi
    obtain ⟨t, ht, rfl⟩ := List.mem_map.mp hi
    exact hlt t ht
  · intro _
    obtain ⟨t, ht, rfl, -⟩ := Document.exists_of_isNamed (hnamed i ha)
    exact List.mem_map_of_mem ht

/-- What the counts of a labelled text say: each element is counted once, and those that count as labelled
are those whose opening tags get an insertion. -/
structure Labelled.Accounts (language : Language) (source : List Char) (l : Labelled) : Prop where
  visited_eq : l.stats.visited = (Document.read language source).forest.size
  balanced : l.stats.Balanced
  insertions : ∃ insertions, BeforeTagEnds language source insertions ∧
    l.text = Insertion.insertAll 0 source insertions ∧ (insertions.map (·.element)).Nodup ∧
    insertions.length = l.stats.annotated
  changed_iff : l.text ≠ source ↔ 0 < l.stats.annotated

lemma label_accounts (h : accepts language source) (hlabel : label language config source = .ok first) :
    first.Accounts language source := by
  obtain ⟨p, r, hp, hr, hfault, hfirst⟩ := labelAll_of_label hlabel
  obtain ⟨p', r', hp', hr', htext⟩ := exists_of_label h hlabel
  obtain rfl := Except.ok.inj (hp.symm.trans hp')
  obtain rfl := Except.ok.inj (hr.symm.trans hr')
  have hnamed : ∀ i, (⟨p, r, .standard⟩ : Labeller).assigned (Document.read language source).forest i ≠ [] →
      (Document.read language source).isNamed i := fun i => isNamed_of_assigned h
  have hbefore := beforeTagEnds_insertions h hnamed
  have helements := insertions_elements h hnamed
  have hwrite := Progress.insertAll_insertions
    ((⟨p, r, .standard⟩ : Labeller).assigned (Document.read language source).forest)
    .initial (lexemes language source)
  rw [texts_lexemes] at hwrite
  have hinsert := htext.trans hwrite.symm
  obtain ⟨hvisited, hannotated⟩ := Labeller.labelAll_counts hfault
  have hstats : first.stats = Stats.ofOutcomes
      ((⟨p, r, .standard⟩ : Labeller).labelAll (Document.read language source).forest).outcomes :=
    congrArg Labelled.stats hfirst
  rw [← hstats] at hvisited hannotated
  have hlength := helements.length_eq
  rw [List.length_map, ← List.countP_eq_length_filter, ← hannotated] at hlength
  refine ⟨hvisited, Stats.ofOutcomes_balanced _,
    ⟨_, hbefore, hinsert, helements.nodup_iff.mpr (List.nodup_range.filter _), hlength⟩, ?_⟩
  rw [← hlength, List.length_pos_iff, hinsert]
  exact Insertion.insertAll_ne_self hbefore.text_ne_nil

lemma exists_label (h : accepts language source) (hconfig : UsableConfig config) :
    ∃ l, label language config source = .ok l := by
  obtain ⟨p, hp⟩ := hconfig.catalogs (Document.read language source)
  obtain ⟨r, hr, husable⟩ := hconfig.rules
  obtain ⟨text, hlabelled, -⟩ := read_labelled (l := ⟨p, r, .standard⟩) h rfl husable
  exact ⟨_, (label_eq hp hr).trans hlabelled⟩

end Source

variable {config : Value} {language : Language} {p : Path} {content : List UInt8} {s : Snapshot}
  {paths : List Path}

structure FileResult.Accounted (r : FileResult) : Prop where
  balanced : r.stats.Balanced
  failed : r.error.isSome → r.changed = false ∧ r.stats = 0

def FileResult.Truthful (r : FileResult) : Prop :=
  r.changed ↔ r.error = none ∧ 0 < r.stats.annotated

namespace Processed

lemma skipped_accounted (p : Path) (reason : String) : (skipped p reason).result.Accounted :=
  ⟨.zero, fun _ => ⟨rfl, rfl⟩⟩

lemma skipped_truthful (p : Path) (reason : String) : (skipped p reason).result.Truthful := by
  simp [FileResult.Truthful, skipped]

lemma ofContent_accounted (config : Value) (p : Path) (content : List UInt8) :
    (ofContent config p content).result.Accounted := by
  refine ⟨?_, fun h => ⟨(ofContent_failed h).2.1, (ofContent_failed h).1⟩⟩
  have hjudged := ofContent_judgement config p content
  generalize ofContent config p content = done at hjudged
  cases hjudged with
  | undecodable => exact .zero
  | faulty => exact .zero
  | labelled =>
    unfold labelled
    split <;> exact Stats.ofOutcomes_balanced _

lemma ofContent_truthful (h : Accepted (.ofPath p) content) :
    (ofContent config p content).result.Truthful := by
  have hjudged := ofContent_judgement config p content
  generalize ofContent config p content = done at hjudged
  unfold FileResult.Truthful
  cases hjudged with
  | undecodable => simp [skipped]
  | faulty => simp [failed]
  | labelled notes htext hl =>
    have hchanged := (Source.label_accounts (h _ htext) hl).changed_iff
    unfold labelled
    split
    · next hsame => simpa [hsame] using hchanged
    · next hne => simpa [hne] using hchanged

lemma accepted_rewritten (h : Accepted language content) :
    Accepted language (rewritten config language content) := by
  unfold rewritten
  cases htext : Text.decodeUtf8 content with
  | error f => exact h
  | ok text =>
    simp only
    cases hl : Source.label language config (Text.unifyLines text) with
    | error f => exact h
    | ok l =>
      simp only
      split
      · exact h
      · intro again hagain
        obtain rfl := Except.ok.inj ((Text.decodeUtf8_encodeUtf8 _).symm.trans hagain)
        have hreturns := Source.notMem_of_label (h text htext) (Text.notMem_unifyLines text) hl
        rw [Text.unifyLines_of_notMem hreturns]
        exact (Source.label_settled (h text htext) hl).1

end Processed

namespace Progress

open Processed

lemma visit_cases (config : Value) (writes : Bool) (s : Snapshot) (p : Path) :
    (∃ reason, (visit config writes s p).1 = skipped p reason) ∨
      ∃ content, s.readFile p = .ok content ∧ (visit config writes s p).1 = ofContent config p content := by
  unfold visit
  cases s.readFile p with
  | error f => exact .inl ⟨_, rfl⟩
  | ok content =>
    cases writes with
    | false => exact .inr ⟨content, rfl, rfl⟩
    | true =>
      simp only [if_true]
      unfold save
      split
      · exact .inr ⟨content, rfl, rfl⟩
      · split
        · exact .inr ⟨content, rfl, rfl⟩
        · exact .inl ⟨_, rfl⟩

lemma visit_accounted (config : Value) (writes : Bool) (s : Snapshot) (p : Path) :
    (visit config writes s p).1.result.Accounted := by
  rcases visit_cases config writes s p with ⟨reason, h⟩ | ⟨content, -, h⟩
  · rw [h]
    exact skipped_accounted p reason
  · rw [h]
    exact ofContent_accounted config p content

lemma visit_truthful {writes : Bool} (hp : p ∈ paths) (haccepts : Setup.Accepts s paths) :
    (visit config writes s p).1.result.Truthful := by
  rcases visit_cases config writes s p with ⟨reason, h⟩ | ⟨content, hread, h⟩
  · rw [h]
    exact skipped_truthful p reason
  · rw [h]
    exact ofContent_truthful (haccepts p hp content hread)

lemma visit_accepts (config : Value) (writes : Bool) (hs : s.Sound) (haccepts : Setup.Accepts s paths)
    (p : Path) : (visit config writes s p).2.Sound ∧ Setup.Accepts (visit config writes s p).2 paths := by
  cases writes with
  | false =>
    rw [visit_false]
    exact ⟨hs, haccepts⟩
  | true =>
    rw [visit_true hs]
    refine ⟨hs.mapContents, fun q hq content hread => ?_⟩
    obtain ⟨place, hplace, hentry⟩ := Snapshot.readFile_eq_ok.mp hread
    rw [Snapshot.locate_mapContents] at hplace
    rw [Snapshot.entry?_mapContents] at hentry
    obtain ⟨_ | _, hold, hmap⟩ := Option.map_eq_some_iff.mp hentry
    · next old =>
      have hq := haccepts q hq old (Snapshot.readFile_eq_ok.mpr ⟨place, hplace, hold⟩)
      obtain rfl : change config s p place old = content := by simpa [Entry.mapContent] using hmap
      unfold change
      split
      · rw [← hs.ofPath_eq hplace hold]
        exact accepted_rewritten hq
      · exact hq
    · cases hmap

lemma through_accounted {g : Progress} {writes : Bool} (h : ∀ r ∈ g.results, r.Accounted)
    (paths : List Path) : ∀ r ∈ (g.through config writes paths).results, r.Accounted := by
  induction paths generalizing g with
  | nil => exact h
  | cons p paths ih =>
    apply ih
    intro r hr
    rcases List.mem_append.mp hr with hr | hr
    · exact h r hr
    · obtain rfl := List.mem_singleton.mp hr
      exact visit_accounted config writes g.snapshot p

lemma through_truthful {g : Progress} {writes : Bool} (hs : g.snapshot.Sound)
    (haccepts : Setup.Accepts g.snapshot paths) (h : ∀ r ∈ g.results, r.Truthful) :
    ∀ r ∈ (g.through config writes paths).results, r.Truthful := by
  induction paths generalizing g with
  | nil => exact h
  | cons p paths ih =>
    obtain ⟨hsound, hlater⟩ := visit_accepts config writes hs haccepts p
    apply ih hsound fun q hq => hlater q (List.mem_cons_of_mem p hq)
    intro r hr
    rcases List.mem_append.mp hr with hr | hr
    · exact h r hr
    · obtain rfl := List.mem_singleton.mp hr
      exact visit_truthful List.mem_cons_self haccepts

end Progress

namespace Report

variable {r : Report}

structure Summed (r : Report) : Prop where
  files : r.totals.files = r.results.length
  changed : r.totals.changed = r.results.countP (·.changed)
  failed : r.totals.failed = r.results.countP (·.error.isSome)
  visited : r.totals.stats.visited = (r.results.map (·.stats.visited)).sum
  annotated : r.totals.stats.annotated = (r.results.map (·.stats.annotated)).sum
  unnamed : r.totals.stats.skippedUnnamed = (r.results.map (·.stats.skippedUnnamed)).sum
  foreign : r.totals.stats.skippedForeign = (r.results.map (·.stats.skippedForeign)).sum
  structural : r.totals.stats.skippedStructural = (r.results.map (·.stats.skippedStructural)).sum
  existing : r.totals.stats.skippedExisting = (r.results.map (·.stats.skippedExisting)).sum

lemma totals_stats (r : Report) : r.totals.stats = (r.results.map (·.stats)).sum := Stats.foldl_add _

lemma summed (r : Report) : r.Summed := by
  have hcount : ∀ count : Stats → Nat, count 0 = 0 → (∀ s t, count (s + t) = count s + count t) →
      count r.totals.stats = (r.results.map fun result => count result.stats).sum := by
    intro count hzero hadd
    rw [totals_stats, Stats.sum_count count hzero hadd, List.map_map]
    rfl
  exact
    { files := rfl
      changed := List.countP_eq_length_filter.symm
      failed := List.countP_eq_length_filter.symm
      visited := hcount Stats.visited rfl fun _ _ => rfl
      annotated := hcount Stats.annotated rfl fun _ _ => rfl
      unnamed := hcount Stats.skippedUnnamed rfl fun _ _ => rfl
      foreign := hcount Stats.skippedForeign rfl fun _ _ => rfl
      structural := hcount Stats.skippedStructural rfl fun _ _ => rfl
      existing := hcount Stats.skippedExisting rfl fun _ _ => rfl }

end Report

namespace Command

variable {o : Options} {g : Progress} {fingerprint : String}

lemma exists_of_label (h : label o s = .ok (fingerprint, g)) :
    ∃ log setup, Setup.prepare s o.config = (log, .ok setup) ∧ g = labelFiles o s setup log := by
  unfold label at h
  rcases hsetup : Setup.prepare s o.config with ⟨log, _ | setup⟩
  · simp [hsetup] at h
  · rw [hsetup] at h
    cases hsearch : setup.selection.refusal s o.paths with
    | none =>
      simp only [hsearch] at h
      obtain ⟨-, hg⟩ := Prod.mk.inj (Except.ok.inj h)
      exact ⟨log, setup, rfl, hg.symm⟩
    | some f => simp [hsearch] at h

/-- Labelling a text counts every element once, and counts as labelled those whose opening tags get an
insertion. In the report of a run the totals are sums, and so these counts add up too; nothing is both
changed and failed, and changed are the files that were labelled somewhere. -/
theorem counts_agree :
    (∀ language config source, Source.accepts language source → Source.UsableConfig config →
      ∃ l, Source.label language config source = .ok l ∧ l.Accounts language source) ∧
    ∀ o s fingerprint g, label o s = .ok (fingerprint, g) →
      let r : Report := ⟨fingerprint, g.results⟩
      (∀ clock, run o clock s = finish o fingerprint clock g) ∧ r.Summed ∧ r.totals.stats.Balanced ∧
      (∀ result ∈ r.results, result.Accounted ∧ ¬ (result.changed ∧ result.error.isSome)) ∧
      (s.Sound → (∀ log setup, Setup.prepare s o.config = (log, .ok setup) →
          Setup.Accepts s (setup.selection.discover s o.paths)) →
        (∀ result ∈ r.results, result.Truthful) ∧
        r.totals.changed = r.results.countP fun result =>
          result.error = none ∧ 0 < result.stats.annotated) := by
  refine ⟨fun language config source h hconfig => ?_, fun o s fingerprint g hlabel => ?_⟩
  · obtain ⟨l, hl⟩ := Source.exists_label h hconfig
    exact ⟨l, hl, Source.label_accounts h hl⟩
  intro r
  obtain ⟨log, setup, hsetup, rfl⟩ := exists_of_label hlabel
  have haccounted : ∀ result ∈ r.results, result.Accounted :=
    Progress.through_accounted (by simp) (setup.selection.discover s o.paths)
  refine ⟨fun clock => ?_, r.summed, ?_, fun result hr => ⟨haccounted result hr, fun hboth => ?_⟩,
    fun hs haccepts => ?_⟩
  · rw [run, hlabel]
  · rw [r.totals_stats]
    apply Stats.Balanced.sum
    intro stats hstats
    obtain ⟨result, hr, rfl⟩ := List.mem_map.mp hstats
    exact (haccounted result hr).balanced
  · have hfailed := (haccounted result hr).failed hboth.2
    rw [hfailed.1] at hboth
    exact absurd hboth.1 (by decide)
  · have htruthful : ∀ result ∈ r.results, result.Truthful :=
      Progress.through_truthful hs (haccepts log setup hsetup) (by simp)
    refine ⟨htruthful, ?_⟩
    rw [r.summed.changed]
    exact List.countP_congr fun result hr => by simpa [FileResult.Truthful] using htruthful result hr

theorem counts_agree_button :
    let source := "import \x7b Button \x7d from '@patternfly/react-core';\nvar x = <p><Button /></p>;\n".toList
    let s : Snapshot := {
      entries := [(["a.tsx"], .file [0xff]), (["b.tsx"], .file (Text.encodeUtf8 source))]
      workingDirectory := [] }
    let o : Options := { paths := [.ofText "a.tsx", .ofText "b.tsx"] }
    Source.accepts .tsx source ∧ Source.UsableConfig .null ∧ s.Sound ∧
    (∃ l, Source.label .tsx .null source = .ok l ∧ l.Accounts .tsx source) ∧
    ∃ fingerprint g, label o s = .ok (fingerprint, g) ∧
      Report.totals ⟨fingerprint, g.results⟩ =
        ⟨2, 1, 1, { visited := 2, annotated := 1, skippedForeign := 1 }⟩ ∧
      g.results.countP (fun result => result.error = none ∧ 0 < result.stats.annotated) = 1 := by
  rw [String.toList_ofList]
  intro source s o
  obtain ⟨haccepts, haccepted⟩ : Source.accepts .tsx source ∧
      Setup.Accepts s (Selection.standard.discover s o.paths) := by decide +kernel
  have hs : s.Sound := by decide
  obtain ⟨fingerprint, hsetup⟩ := Setup.exists_prepare_none s
  have hsearch : Selection.standard.refusal s o.paths = none := by decide
  have hlabel := label_eq_ok (o := o) hsetup hsearch
  have htotals : Report.totals ⟨fingerprint, (labelFiles o s ⟨Config.default, fingerprint, .standard⟩
      []).results⟩ = ⟨2, 1, 1, { visited := 2, annotated := 1, skippedForeign := 1 }⟩ := by
    change Report.totals ⟨"", (labelFiles o s ⟨Config.default, "", .standard⟩ []).results⟩ = _
    decide +kernel
  obtain ⟨-, -, -, -, hagrees⟩ := counts_agree.2 o s _ _ hlabel
  obtain ⟨-, hchanged⟩ := hagrees hs fun log setup hprepare => by
    obtain ⟨-, heq⟩ := Prod.mk.inj (hsetup.symm.trans hprepare)
    exact Except.ok.inj heq ▸ haccepted
  refine ⟨haccepts, Source.null_usable, hs, counts_agree.1 _ _ _ haccepts Source.null_usable,
    _, _, hlabel, htotals, ?_⟩
  rw [← hchanged, htotals]

end Command

end MarkupLabels
