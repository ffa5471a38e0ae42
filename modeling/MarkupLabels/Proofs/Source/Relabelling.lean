import Mathlib
import MarkupLabels.Proofs.Config.Usable
import MarkupLabels.Proofs.Source.Roundtrip
import MarkupLabels.Proofs.Tree.Markers
import MarkupLabels.Source.Labelled

namespace MarkupLabels.Source

section Names

variable {p : Progress} {l : Lexeme} {ls : List Lexeme} {i : Nat} {name : String}
  {language : Language} {source : List Char}

lemma name?_step (h : ∀ e ∈ p.openElements, e.Sound) (hname : (p.step l).forest.name? i = some name) :
    p.forest.name? i = some name ∨ ∃ t, p.tagEnd? l = some t ∧ t.element = i ∧ t.named := by
  have hclose : l.kind = .tagEnd ∨ l.kind = .selfClose → p.closeTag.forest.name? i = some name →
      p.forest.name? i = some name ∨ ∃ t, p.tagEnd? l = some t ∧ t.element = i ∧ t.named := by
    intro hk hname
    cases hes : p.openElements with
    | nil => exact .inl (by simpa [Progress.closeTag, hes] using hname)
    | cons e es =>
      by_cases hi : e.index = i
      · right
        refine ⟨⟨e.index, p.offset, l.text, e.named, p.layout e⟩, ?_, hi, ?_⟩
        · rcases hk with hk | hk <;> simp [Progress.tagEnd?, hk, hes]
        · refine (h e (by simp [hes])).named_of_name ?_
          simp only [Progress.closeTag, hes, ← hi, Forest.describe_name?_self] at hname
          cases hf : p.forest.elements[e.index]? <;> simp_all
      · left
        simpa [Progress.closeTag, hes, Forest.describe_name?_of_ne hi] using hname
  rw [Progress.step_forest] at hname
  cases hk : l.kind with
  | tagOpen =>
    simp only [hk] at hname
    exact .inl (Forest.name?_of_add rfl hname)
  | tagEnd => exact hclose (.inl hk) (by simpa only [hk] using hname)
  | selfClose => exact hclose (.inr hk) (by simpa only [hk] using hname)
  | _ => exact .inl (by simpa only [hk] using hname)

lemma name?_foldl (h : ∀ e ∈ p.openElements, e.Sound)
    (hname : (ls.foldl Progress.step p).forest.name? i = some name) :
    p.forest.name? i = some name ∨ ∃ t ∈ p.tagEnds ls, t.element = i ∧ t.named := by
  induction ls generalizing p with
  | nil => exact .inl hname
  | cons l ls ih =>
    rcases ih (Progress.step_sound h) hname with hstep | ⟨t, ht, hi, hn⟩
    · rcases name?_step h hstep with hp | ⟨t, ht, hi, hn⟩
      · exact .inl hp
      · exact .inr ⟨t, by simp [Progress.tagEnds, ht], hi, hn⟩
    · exact .inr ⟨t, by simp [Progress.tagEnds, ht], hi, hn⟩

lemma Document.isNamed_of_name? (h : accepts language source)
    (hname : ((read language source).forest.name? i).isSome) : (read language source).isNamed i := by
  obtain ⟨name, hname⟩ := Option.isSome_iff_exists.mp hname
  obtain ⟨t, ht, rfl, hn⟩ := (name?_foldl (p := .initial) (by simp [Progress.initial]) hname).resolve_left
    (by simp [Progress.initial, Forest.empty, Forest.name?])
  obtain ⟨hnodup, -⟩ := tagEnds_of_accepts h
  cases hfind : (read language source).tagEnd? t.element with
  | none => exact absurd (beq_self_eq_true t.element) (List.find?_eq_none.mp hfind t ht)
  | some u =>
    have hu : u.element = t.element := by simpa using List.find?_some hfind
    obtain rfl := List.inj_on_of_nodup_map hnodup (List.mem_of_find?_eq_some hfind) ht hu
    simpa [isNamed, hfind] using hn

end Names

section Configurations

variable {config : Value} {language : Language} {source : List Char} {p : Provenance} {r : Rules}

lemma label_eq (hp : (Document.read language source).provenance (effectiveConfig config) = .ok p)
    (hr : Rules.ofConfig config = .ok r) :
    label language config source =
      ((Document.read language source).labelWith ⟨p, r, .standard⟩).result := by
  unfold label Document.attempt
  rw [hp, hr]

lemma provenance_congr {d d' : Document} (h : d.imports = d'.imports) (config : Value) :
    d.provenance config = d'.provenance config := by
  unfold Document.provenance
  rw [h]

end Configurations

section Labels

variable {language : Language} {source : List Char} {l : Labeller}

lemma labelWith_result {d : Document} (h : (l.labelAll d.forest).fault = none) :
    (d.labelWith l).result = .ok
      { text := d.renderWith (l.labelAll d.forest).forest
        outcomes := (l.labelAll d.forest).outcomes } := by
  unfold Document.labelWith
  simp only [h]

lemma standard_attributeNames {name : String} (h : name ∈ Vocabulary.standard.names) :
    IsAttributeName name.toList := by
  have hall : Vocabulary.standard.names.all fun n => !n.toList.isEmpty && n.toList.all isTagNameChar := by
    decide
  have hname := List.all_eq_true.mp hall name h
  simp only [Bool.and_eq_true] at hname
  exact .of_all (by simpa using hname.1) hname.2

lemma isNamed_of_assigned (h : accepts language source) {i : Nat}
    (hi : l.assigned (Document.read language source).forest i ≠ []) :
    (Document.read language source).isNamed i := by
  refine Document.isNamed_of_name? h (l.name?_of_due fun hnone => hi ?_)
  rcases l.assigned_cases (Document.read language source).forest i with hi | hi
  · exact hi
  · rw [hi, hnone]

lemma read_labelled (h : accepts language source) (hv : l.vocabulary = .standard)
    (husable : l.rules.Usable) :
    ∃ text, ((Document.read language source).labelWith l).result = .ok
        { text, outcomes := (l.labelAll (Document.read language source).forest).outcomes } ∧
      accepts language text ∧
      (Document.read language text).imports = (Document.read language source).imports ∧
      (Document.read language text).forest = (Document.read language source).forest.extend fun i =>
        (l.assigned (Document.read language source).forest i).map Attribute.readBack := by
  obtain ⟨hforest, hfault, -⟩ := Labeller.labelAll_extend husable (Document.read language source).forest
  have hnamed : ∀ i, l.assigned (Document.read language source).forest i ≠ [] →
      (Document.read language source).isNamed i := fun i => isNamed_of_assigned h
  obtain ⟨haccepts, hread, himports⟩ := Document.read_write h hnamed fun i a ha =>
    standard_attributeNames (hv ▸ Labeller.mem_assigned ha)
  refine ⟨_, ?_, haccepts, himports, hread⟩
  rw [labelWith_result hfault, hforest, Document.renderWith_extend_eq_write h hnamed]

lemma labelWith_again {d : Document} {f : Forest} (husable : l.rules.Usable)
    (hd : d.forest = f.extend fun i => (l.assigned f i).map Attribute.readBack) :
    ∃ second, (d.labelWith l).result = .ok second ∧ second.text = d.source ∧
      second.stats = (Stats.ofOutcomes (l.labelAll f).outcomes).again := by
  obtain ⟨hforest, hfault, hstats⟩ := Labeller.labelAll_again
    (fun i => (l.assigned f i).map Attribute.readBack) husable f
    (fun i a ha => by
      obtain ⟨b, hb, rfl⟩ := List.mem_map.mp ha
      change l.vocabulary.isMarker b.name
      exact Labels.isMarker_of_mem_names (Labeller.mem_assigned hb))
    fun i hi => List.map_eq_nil_iff.mp hi
  rw [← hd] at hforest hfault hstats
  refine ⟨_, labelWith_result hfault, ?_, hstats⟩
  rw [hforest, Document.renderWith_self]

/-- A labelled text is labelled no further. It is accepted, and labelling it again changes nothing:
each element that was labelled counts among those that had labels, and all others count as before. -/
theorem label_again {config : Value} (h : accepts language source) (hconfig : UsableConfig config) :
    ∃ first second, label language config source = .ok first ∧ accepts language first.text ∧
      label language config first.text = .ok second ∧ second.text = first.text ∧
      second.stats.visited = first.stats.visited ∧
      second.stats.skippedUnnamed = first.stats.skippedUnnamed ∧
      second.stats.skippedForeign = first.stats.skippedForeign ∧
      second.stats.skippedStructural = first.stats.skippedStructural ∧
      second.stats.annotated = 0 ∧
      second.stats.skippedExisting = first.stats.skippedExisting + first.stats.annotated := by
  obtain ⟨p, hp⟩ := hconfig.catalogs (Document.read language source)
  obtain ⟨r, hr, husable⟩ := hconfig.rules
  obtain ⟨text, hfirst, haccepts, himports, hread⟩ :=
    read_labelled (l := ⟨p, r, .standard⟩) h rfl husable
  obtain ⟨second, hsecond, htext, hstats⟩ := labelWith_again husable hread
  have hp' := provenance_congr himports (effectiveConfig config)
  refine ⟨_, second, (label_eq hp hr).trans hfirst, haccepts,
    (label_eq (hp'.trans hp) hr).trans hsecond, htext.trans Document.read_source, ?_⟩
  rw [hstats]
  exact Stats.again_counts _

theorem label_again_button :
    let source := "import \x7b Button, CardBody \x7d from '@patternfly/react-core';\n<CardBody><Button variant='\"'\n  />x</CardBody>;\n".toList
    let config : Value := .mapping [(.text "rules",
      .mapping [(.text "skip_structural_children", .bool true)])]
    accepts .tsx source ∧ UsableConfig config ∧
      ∃ first second, label .tsx config source = .ok first ∧
        label .tsx config first.text = .ok second ∧ second.text = first.text ∧
        second.stats.annotated = 0 := by
  rw [String.toList_ofList]
  intro source config
  have h : accepts .tsx source := by decide +kernel
  have hconfig : UsableConfig config :=
    .of_texts rfl (.inl rfl) (.inl rfl) rfl (by simp [Value.lookup])
  obtain ⟨first, second, hfirst, -, hsecond, htext, -, -, -, -, hannotated, -⟩ := label_again h hconfig
  exact ⟨h, hconfig, first, second, hfirst, hsecond, htext, hannotated⟩

end Labels

end MarkupLabels.Source
