import Mathlib
import MarkupLabels.Proofs.Source.Roundtrip
import MarkupLabels.Proofs.Source.Settling

/-! Attributes may be added to a text in two steps: the text is the same as if all had been added at
once. Beside the reading of the text without attributes goes that of the text with those of the first
step, and where the ends of their tags meet, the layouts continue one another. -/

namespace MarkupLabels.Source

structure TagEnd.Continues (added : Nat → List Attribute) (t t' : TagEnd) : Prop where
  element : t'.element = t.element
  token : t'.token = t.token
  named : t'.named = t.named
  layout : added t.element ≠ [] → ∃ layout next, t.layout = some layout ∧ t'.layout = some next ∧
    layout.Continues t.token next

lemma columnAfter_congr {column column' : Nat} {t : List Char} (h : '\n' ∈ t) :
    columnAfter column t = columnAfter column' t := by
  obtain ⟨before, after, rfl⟩ := List.append_of_mem h
  rw [columnAfter_append, columnAfter_append]
  rfl

namespace Progress

section Again

variable {added again : Nat → List Attribute} {context : Context} {p q : Progress} {cs : List Char}
  {l : Lexeme} {e : OpenElement} {es : List OpenElement}

structure Beside (p q : Progress) : Prop where
  bare : p.bare = q.bare
  size : p.forest.size = q.forest.size
  column : '\n' ∈ p.gap → q.column = p.column

lemma layout_ownLine {attributes closer : Nat} (h : p.layout e = some (.ownLine attributes closer)) :
    '\n' ∈ p.gap ∧ p.column = closer := by
  unfold Progress.layout at h
  split at h
  · simp at h
  · split at h
    · split at h <;> simp_all
    · split at h <;> simp at h

lemma added_of_inserted {t : TagEnd} (h : p.numbering.inserted added l = [])
    (ht : p.tagEnd? l = some t) : added t.element = [] := by
  obtain ⟨hkind, e, es, hes, rfl⟩ := tagEnd?_eq_some ht
  have hl : l.kind.endsTag := by
    rcases hkind with hk | hk <;> simp [hk, LexemeKind.endsTag]
  rw [Writable.inserted_of_endsTag added hl hes, List.flatMap_eq_nil_iff] at h
  exact List.eq_nil_iff_forall_not_mem.mpr fun a ha => by simpa [attributeLexemes] using h a ha

namespace Beside

lemma step (h : Beside p q) (l : Lexeme) : Beside (p.step l) (q.step l) where
  bare := step_bare h.bare h.size
  size := by rw [step_size, step_size, h.size]
  column hgap := by
    change '\n' ∈ (if l.kind = .blank then p.gap ++ l.text else []) at hgap
    change columnAfter q.column l.text = columnAfter p.column l.text
    split at hgap
    · rcases List.mem_append.mp hgap with hgap | hgap
      · rw [h.column hgap]
      · exact columnAfter_congr hgap
    · simp at hgap

lemma tagEnd? (h : Beside p q) (l : Lexeme) :
    (p.tagEnd? l = none ∧ q.tagEnd? l = none) ∨ ∃ t t', p.tagEnd? l = some t ∧ q.tagEnd? l = some t' ∧
      t'.element = t.element ∧ t'.token = t.token ∧ t'.named = t.named := by
  cases hl : l.kind.endsTag with
  | false => exact .inl ⟨tagEnd?_eq_none hl, tagEnd?_eq_none hl⟩
  | true =>
    cases hes : p.openElements with
    | nil =>
      left
      unfold Progress.tagEnd?
      split <;> simp [hes, openElements_eq_nil h.bare hes]
    | cons e es =>
      obtain ⟨f, fs, hfs, hbare, -⟩ := exists_bare_cons h.bare hes
      have hindex : e.index = f.index := show e.bare.index = f.bare.index by rw [hbare]
      have hnamed : e.named = f.named := show e.bare.named = f.bare.named by rw [hbare]
      exact .inr ⟨_, _, tagEnd?_of_endsTag hl hes, tagEnd?_of_endsTag hl hfs, hindex.symm, rfl,
        hnamed.symm⟩

lemma exists_passes (language : Language) (outer : List Frame) {phase : TagPhase} {layout : Layout}
    {new : List Attribute} (h : Beside p q) (hl : l = ⟨.tagEnd, ['>']⟩ ∨ l = ⟨.selfClose, ['/', '>']⟩)
    (hes : p.openElements = e :: es) (hheld : ¬ e.isHeld) (hlayout : p.layout e = some layout)
    (hphase : phase.Named) (hnew : new ≠ []) (hnames : ∀ b ∈ new, IsAttributeName b.name.toList) :
    ∃ q' g gs next, Passes ⟨language, .tag phase, outer⟩ q (layout.insertion l.text new)
        ⟨language, .tag .attributes, outer⟩ q' ∧
      q'.openElements = g :: gs ∧ g.index = e.index ∧ g.named = e.named ∧ q'.layout g = some next ∧
      layout.Continues l.text next ∧ Beside (p.step l) (q'.step l) := by
  obtain ⟨f, fs, hfs, hbare, hbelow⟩ := exists_bare_cons h.bare hes
  have hindex : e.index = f.index := show e.bare.index = f.bare.index by rw [hbare]
  have hnamed : e.named = f.named := show e.bare.named = f.bare.named by rw [hbare]
  have hslot : e.slot = f.slot := show e.bare.slot = f.bare.slot by rw [hbare]
  have hline : ∀ attributes closer, layout = .ownLine attributes closer → q.column = closer := by
    rintro attributes closer rfl
    obtain ⟨hgap, hcolumn⟩ := layout_ownLine hlayout
    rw [h.column hgap, hcolumn]
  obtain ⟨q', hpasses, hbehind, hgap, hcolumn⟩ := exists_passes_insertion language outer l.text hfs
    (by simpa [OpenElement.isHeld, hslot] using hheld) hphase (layout_fits hlayout) hline hnew hnames
  obtain ⟨g, next, hg, hgindex, hgnamed, hnext, hcontinues⟩ :=
    hbehind.continues (layout_fits hlayout) (by rcases hl with hl | hl <;> simp [hl]) hgap hcolumn
  refine ⟨q', g, fs, next, hpasses, hg, hgindex.trans hindex.symm, hgnamed.trans hnamed.symm, hnext,
    hcontinues, ?_, ?_, ?_⟩
  · exact step_bare_endsTag (by rcases hl with hl | hl <;> simp [hl, LexemeKind.endsTag]) hes hg
      (hindex.trans hgindex.symm) hbelow
  · rw [step_size, step_size, h.size, hbehind.size]
  · -- The token is no blank, so no line has begun behind it.
    rcases hl with rfl | rfl <;> simp [Progress.step]

lemma nothing (h : Beside p q) (hagain : ∀ i, again i ≠ [] → added i ≠ [])
    (hnone : ∀ t, p.tagEnd? l = some t → added t.element = []) :
    q.insertionBefore again l = [] ∧ p.insertionBefore (fun i => added i ++ again i) l = [] ∧
      List.Forall₂ (TagEnd.Continues added) (p.tagEnd? l).toList (q.tagEnd? l).toList := by
  rcases h.tagEnd? l with ⟨hp, hq⟩ | ⟨t, t', hp, hq, helement, htoken, hnamed⟩
  · simp [insertionBefore, hp, hq]
  · have hadded : added t.element = [] := hnone t hp
    have hempty : again t.element = [] := by_contra fun hne => hagain _ hne hadded
    have hinsertion : ∀ u : TagEnd, u.insertion [] = [] := by
      intro u
      cases hu : u.layout <;> simp [TagEnd.insertion, hu, Layout.insertion]
    refine ⟨?_, ?_, ?_⟩
    · simp [insertionBefore, hq, helement, hempty, hinsertion]
    · simp [insertionBefore, hp, hadded, hempty, hinsertion]
    · rw [hp, hq]
      exact .cons ⟨helement, htoken, hnamed, fun hne => absurd hadded hne⟩ .nil

end Beside

lemma write_again (h : Writable added context p (context.lexemes cs)) (hbeside : Beside p q)
    (hagain : ∀ i, again i ≠ [] → added i ≠ []) :
    q.write again (context.lexemes (p.write added (context.lexemes cs))) =
        p.write (fun i => added i ++ again i) (context.lexemes cs) ∧
      List.Forall₂ (TagEnd.Continues added) (p.tagEnds (context.lexemes cs))
        (q.tagEnds (context.lexemes (p.write added (context.lexemes cs)))) := by
  -- Both texts are read side by side. The same lexeme comes next in both, but at the end of a tag
  -- that was given attributes these are passed over first.
  fun_induction Context.lexemes context cs generalizing p q
  case case1 => simp [write, Context.lexemes, tagEnds]
  case case2 context c rest kind n hread l ih =>
    rcases h.insertionBefore_cases with ⟨hnone, hinserted⟩ |
      ⟨phase, layout, e, hphase, hnamed, hl, hlayout, ha, hbefore, -, es, hes, hheld⟩
    · obtain ⟨hwrite, htagEnds⟩ := ih h.step (hbeside.step l)
      obtain ⟨hq, hp, hends⟩ := hbeside.nothing hagain fun t ht => added_of_inserted hinserted ht
      rw [write, hnone, List.nil_append, write, hp, List.nil_append, tagEnds]
      by_cases htag : l.kind = .blank ∧ ∃ phase, context.inner = .tag phase
      · obtain ⟨hk, phase, hphase⟩ := htag
        obtain ⟨language, inner, outer⟩ := context
        subst hphase
        have hpasses := Passes.blanks language phase outer q ((h.spelled l (by simp)).blanks hk)
        have hends : ∀ p : Progress, p.tagEnd? l = none := fun p =>
          tagEnd?_eq_none (by simp [hk, LexemeKind.endsTag])
        rw [Context.advance_of_blank hk] at hwrite htagEnds ⊢
        rw [hpasses.write, hpasses.tagEnds, ← step_eq_skip hk, hwrite, hends]
        exact ⟨rfl, htagEnds⟩
      · have hblank : kind = .blank → ∀ phase, context.inner ≠ .tag phase :=
          fun hk phase hphase => htag ⟨hk, phase, hphase⟩
        rw [lexemes_write hread hblank h, write, hq, List.nil_append, tagEnds, hwrite]
        exact ⟨rfl, List.rel_append hends htagEnds⟩
    · obtain ⟨language, inner, outer⟩ := context
      subst hphase
      have hends : l.kind.endsTag := by
        rcases hl with hl | hl <;> simp [hl, LexemeKind.endsTag]
      obtain ⟨q', g, gs, next, hpasses, hg, hindex, hgnamed, hnext, hcontinues, hbeside'⟩ :=
        hbeside.exists_passes language outer hl hes hheld hlayout (TagPhase.named_of_cases hnamed) ha
          (h.attributeNames e.index)
      obtain ⟨hwrite, htagEnds⟩ := ih h.step hbeside'
      have hp : p.insertionBefore (fun i => added i ++ again i) l =
          layout.insertion l.text (added e.index ++ again e.index) := by
        simp [insertionBefore, tagEnd?_of_endsTag hends hes, TagEnd.insertion, hlayout]
      have hq : q'.insertionBefore again l = next.insertion l.text (again e.index) := by
        simp [insertionBefore, tagEnd?_of_endsTag hends hg, TagEnd.insertion, hnext, hindex]
      rw [write, hbefore, write, hp, tagEnds, tagEnd?_of_endsTag hends hes, List.append_assoc,
        hpasses.write, hpasses.tagEnds, Context.lexemes_tagEnd phase hl, write, hq, tagEnds,
        tagEnd?_of_endsTag hends hg, hwrite, ← hcontinues.insertion_append ha]
      refine ⟨by simp only [List.append_assoc], .cons ⟨hindex, rfl, hgnamed, fun _ => ?_⟩ htagEnds⟩
      exact ⟨layout, next, hlayout, hnext, hcontinues⟩

end Again

end Progress

namespace Document

variable {language : Language} {source : List Char} {added again : Nat → List Attribute}

lemma tagEnd?_of_forall₂ {d later : Document} {i : Nat} {t : TagEnd}
    (h : List.Forall₂ (TagEnd.Continues added) d.tagEnds later.tagEnds) (ht : d.tagEnd? i = some t) :
    ∃ t', later.tagEnd? i = some t' ∧ t.Continues added t' := by
  unfold tagEnd? at ht ⊢
  generalize d.tagEnds = ts at h ht
  generalize later.tagEnds = ts' at h
  induction h with
  | nil => simp at ht
  | @cons u u' us us' hu hrest ih =>
    by_cases hi : u.element = i
    · obtain rfl : u = t := by simpa [hi] using ht
      exact ⟨u', by simp [hu.element, hi], hu⟩
    · obtain ⟨t', ht', hc⟩ := ih (by simpa [hi] using ht)
      exact ⟨t', by simpa [hu.element, hi] using ht', hc⟩

lemma write_write (h : accepts language source)
    (hnamed : ∀ i, added i ≠ [] → (read language source).isNamed i)
    (hnames : ∀ i, ∀ a ∈ added i, IsAttributeName a.name.toList)
    (hagain : ∀ i, again i ≠ [] → added i ≠ []) :
    Progress.initial.write again
        (lexemes language (Progress.initial.write added (lexemes language source))) =
      Progress.initial.write (fun i => added i ++ again i) (lexemes language source) ∧
    List.Forall₂ (TagEnd.Continues added) (read language source).tagEnds
      (read language (Progress.initial.write added (lexemes language source))).tagEnds := by
  have hwritable := writable_of_accepts h hnamed hnames
  have hbeside : Progress.Beside .initial .initial := ⟨rfl, rfl, fun _ => rfl⟩
  change _ ∧ List.Forall₂ _ (Progress.initial.tagEnds (lexemes language source))
    (Progress.initial.tagEnds (lexemes language (Progress.initial.write added (lexemes language source))))
  rcases lexemes_write_cases hwritable with ⟨hsource, htext⟩ | ⟨line, rest, hline, hsource, htext⟩
  · rw [htext]
    rw [hsource] at hwritable ⊢
    exact Progress.write_again hwritable hbeside hagain
  · rw [htext, hsource]
    rw [hsource] at hwritable
    have hstep := hwritable.step
    rw [hline] at hstep
    obtain ⟨hwrite, htagEnds⟩ := Progress.write_again hstep (hbeside.step ⟨.comment, line⟩) hagain
    refine ⟨?_, htagEnds⟩
    rw [Progress.write, Progress.write, hwrite]
    rfl

/-- Attributes may be added to a document in two steps. Where the elements that are given attributes
the second time were given some the first time, the text is that of a document which was given all of
them at once, and in each tag the layout that the first step found is found again behind its
attributes. -/
theorem renderWith_extend_append (h : accepts language source)
    (hnamed : ∀ i, added i ≠ [] → (read language source).isNamed i)
    (hnames : ∀ i, ∀ a ∈ added i, IsAttributeName a.name.toList)
    (hagain : ∀ i, again i ≠ [] → added i ≠ []) :
    let d := read language source
    let later := read language (d.renderWith (d.forest.extend added))
    later.renderWith (later.forest.extend again) =
        d.renderWith (d.forest.extend fun i => added i ++ again i) ∧
      later.forest = d.forest.extend (fun i => (added i).map Attribute.readBack) ∧
      ∀ i, added i ≠ [] → ∃ t t' layout next,
        d.tagEnd? i = some t ∧ later.tagEnd? i = some t' ∧
        t'.token = t.token ∧ t.layout = some layout ∧ t'.layout = some next ∧
        layout.Continues t.token next ∧
        t.insertion (added i ++ again i) = t.insertion (added i) ++ t'.insertion (again i) := by
  intro d later
  obtain ⟨haccepts, hforest, -⟩ := read_write h hnamed hnames
  obtain ⟨hwrite, htagEnds⟩ := write_write h hnamed hnames hagain
  rw [← renderWith_extend_eq_write h hnamed] at haccepts hforest hwrite htagEnds
  have hboth : ∀ i, added i ++ again i ≠ [] → d.isNamed i := fun i hi =>
    hnamed i fun hnone => hi (by simp [hnone, not_imp_comm.mp (hagain i) (by simpa using hnone)])
  have hends : ∀ i, added i ≠ [] → ∃ t t', d.tagEnd? i = some t ∧ later.tagEnd? i = some t' ∧
      t.named ∧ t.element = i ∧ t.Continues added t' := by
    intro i hi
    obtain ⟨t, ht, hname⟩ : ∃ t, d.tagEnd? i = some t ∧ t.named := by
      simpa [isNamed, Option.any_eq_true] using hnamed i hi
    obtain ⟨t', ht', hcontinues⟩ := tagEnd?_of_forall₂ htagEnds ht
    exact ⟨t, t', ht, ht', hname, by simpa using List.find?_some ht, hcontinues⟩
  have hlater : ∀ i, again i ≠ [] → later.isNamed i := by
    intro i hi
    obtain ⟨t, t', -, ht', hname, -, hcontinues⟩ := hends i (hagain i hi)
    simp [isNamed, ht', hcontinues.named, hname]
  refine ⟨?_, hforest, fun i hi => ?_⟩
  · rw [renderWith_extend_eq_write haccepts hlater, renderWith_extend_eq_write h hboth, hwrite]
  · obtain ⟨t, t', ht, ht', -, rfl, hcontinues⟩ := hends i hi
    obtain ⟨layout, next, hlayout, hnext, hgoes⟩ := hcontinues.layout hi
    refine ⟨t, t', layout, next, ht, ht', hcontinues.token, hlayout, hnext, hgoes, ?_⟩
    simp [TagEnd.insertion, hlayout, hnext, hcontinues.token, ← hgoes.insertion_append hi]

theorem renderWith_extend_append_layouts :
    let source := "<A b=\x7b<C/>\x7d\n  >x<D e />y</A>;\n".toList
    let added : Nat → List Attribute := fun i => if i < 3 then [⟨"f", some (.text "g\n")⟩] else []
    let again : Nat → List Attribute :=
      fun i => if i < 3 then [⟨"h-i", some (.text "it's \"j\"")⟩, ⟨"k", none⟩] else []
    let d := read .tsx source
    let later := read .tsx (d.renderWith (d.forest.extend added))
    accepts .tsx source ∧ (∀ i, added i ≠ [] → d.isNamed i) ∧
      (∀ i, ∀ a ∈ added i, IsAttributeName a.name.toList) ∧ (∀ i, again i ≠ [] → added i ≠ []) ∧
      later.renderWith (later.forest.extend again) =
        d.renderWith (d.forest.extend fun i => added i ++ again i) := by
  intro source added again d later
  have h : accepts .tsx source := by decide +kernel
  have hnamed : ∀ i, added i ≠ [] → d.isNamed i := by
    intro i hi
    have hlt : i < 3 := by
      by_contra hge
      exact hi (if_neg hge)
    have hall : ∀ i < 3, d.isNamed i := by decide +kernel
    exact hall i hlt
  have hnames : ∀ i, ∀ a ∈ added i, IsAttributeName a.name.toList := by
    intro i a ha
    have hname : a.name = "f" := by
      simp only [added] at ha
      split at ha <;> simp_all
    rw [hname]
    exact .of_all (by decide) (by decide)
  have hagain : ∀ i, again i ≠ [] → added i ≠ [] := by
    intro i hi
    simp only [again, added] at hi ⊢
    split at hi <;> simp_all
  exact ⟨h, hnamed, hnames, hagain, (renderWith_extend_append h hnamed hnames hagain).1⟩

end Document

end MarkupLabels.Source
