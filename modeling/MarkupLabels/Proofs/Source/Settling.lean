import Mathlib
import MarkupLabels.Proofs.Source.ReadBack

/-! Added attributes are passed over when a text is read, and behind them the end of the tag has the
layout that they were set in: more attributes go on as these did. -/

namespace MarkupLabels.Source

section Layouts

structure Layout.Continues (layout : Layout) (token : List Char) (next : Layout) : Prop where
  same : next = layout ∨ layout = .adjacent ∧ token = ['/', '>'] ∧ next = .spaced
  lead : layout.trail token ++ next.lead = layout.separator
  separator : next.separator = layout.separator
  trail : next.trail token = layout.trail token

lemma Layout.Continues.insertion_append {layout next : Layout} {token : List Char}
    {added : List Attribute} (h : layout.Continues token next) (hadded : added ≠ [])
    (again : List Attribute) :
    layout.insertion token added ++ next.insertion token again =
      layout.insertion token (added ++ again) := by
  obtain ⟨a, more, rfl⟩ := List.exists_cons_of_ne_nil hadded
  cases again with
  | nil => simp [insertion]
  | cons b rest =>
    simp only [insertion, List.cons_append, List.flatMap_append, List.flatMap_cons, List.append_assoc,
      h.separator, h.trail, ← h.lead]

lemma columnAfter_append (column : Nat) (t r : List Char) :
    columnAfter column (t ++ r) = columnAfter (columnAfter column t) r := List.foldl_append

lemma columnAfter_spaces (column n : Nat) : columnAfter column (spaces n) = column + n := by
  induction n generalizing column with
  | zero => rfl
  | succ n ih =>
    have hcons : columnAfter column (spaces (n + 1)) = columnAfter (column + 1) (spaces n) := rfl
    rw [hcons, ih]
    omega

lemma columnAfter_line (column n : Nat) : columnAfter column ('\n' :: spaces n) = n := by
  have hcons : columnAfter column ('\n' :: spaces n) = columnAfter 0 (spaces n) := rfl
  rw [hcons, columnAfter_spaces, Nat.zero_add]

end Layouts

namespace Progress

section Passing

variable {p q : Progress} {context context' context'' : Context} {language : Language}
  {phase : TagPhase} {outer : List Frame} {t u : List Char} {a : Attribute}

lemma skip_nil : p.skip [] = p := by
  simp [skip, columnAfter]

lemma skip_skip : (p.skip t).skip u = p.skip (t ++ u) := by
  simp [skip, columnAfter_append, Nat.add_assoc]

structure Passes (context : Context) (p : Progress) (t : List Char) (context' : Context)
    (q : Progress) : Prop where
  write : ∀ added r, p.write added (context.lexemes (t ++ r)) = t ++ q.write added (context'.lexemes r)
  tagEnds : ∀ r, p.tagEnds (context.lexemes (t ++ r)) = q.tagEnds (context'.lexemes r)

namespace Passes

lemma trans {q' : Progress} (h : Passes context p t context' q) (h' : Passes context' q u context'' q') :
    Passes context p (t ++ u) context'' q' where
  write added r := by rw [List.append_assoc, h.write, h'.write, List.append_assoc]
  tagEnds r := by rw [List.append_assoc, h.tagEnds, h'.tagEnds]

lemma takeWhile_blanks (p : Progress) (cs : List Char) :
    (∀ added, p.write added (Context.lexemes ⟨language, .tag phase, outer⟩ cs) =
      cs.takeWhile isBlank ++ (p.skip (cs.takeWhile isBlank)).write added
        (Context.lexemes ⟨language, .tag phase, outer⟩ (cs.dropWhile isBlank))) ∧
    p.tagEnds (Context.lexemes ⟨language, .tag phase, outer⟩ cs) =
      (p.skip (cs.takeWhile isBlank)).tagEnds
        (Context.lexemes ⟨language, .tag phase, outer⟩ (cs.dropWhile isBlank)) := by
  cases cs with
  | nil => simp [skip_nil]
  | cons c rest =>
    cases hc : isBlank c with
    | false => simp [hc, skip_nil]
    | true =>
      have hread : Context.read ⟨language, .tag phase, outer⟩ c rest =
          (.blank, runLength isBlank rest) := TagPhase.read_of_isBlank hc rest
      have hlexemes : Context.lexemes ⟨language, .tag phase, outer⟩ (c :: rest) =
          ⟨.blank, c :: rest.takeWhile isBlank⟩ ::
            Context.lexemes ⟨language, .tag phase, outer⟩ (rest.dropWhile isBlank) := by
        rw [Context.lexemes_eq, hread, take_runLength, runLength_drop, Context.advance_of_blank rfl]
      have hstep := step_eq_skip (p := p) (l := ⟨.blank, c :: rest.takeWhile isBlank⟩) rfl
      simp only [List.takeWhile_cons, List.dropWhile_cons, hc, if_true, hlexemes]
      refine ⟨fun added => ?_, ?_⟩
      · rw [Progress.write, hstep]
        rfl
      · rw [Progress.tagEnds, hstep]
        rfl

variable (language phase outer) in
lemma blanks (p : Progress) (h : ∀ c ∈ t, isBlank c) :
    Passes ⟨language, .tag phase, outer⟩ p t ⟨language, .tag phase, outer⟩ (p.skip t) := by
  -- Blanks are read with those behind them, so both sides are taken to the end of these.
  constructor
  · intro added r
    rw [(takeWhile_blanks p (t ++ r)).1, List.takeWhile_append_of_pos h, List.dropWhile_append_of_pos h,
      (takeWhile_blanks (p.skip t) r).1, skip_skip, List.append_assoc]
  · intro r
    rw [(takeWhile_blanks p (t ++ r)).2, List.takeWhile_append_of_pos h, List.dropWhile_append_of_pos h,
      (takeWhile_blanks (p.skip t) r).2, skip_skip]

lemma markup (p : Progress) (hphase : phase.Named) (ha : IsAttributeName a.name.toList) :
    Passes ⟨language, .tag phase, outer⟩ p a.markup ⟨language, .tag .attributes, outer⟩
      ((attributeLexemes a).foldl step p) := by
  have hends : ∀ l ∈ attributeLexemes a, l.kind.endsTag = false := fun l hl =>
    (attributeLexemes_kind hl).2.2.2
  have htexts : Lexeme.texts (attributeLexemes a) = a.markup := by
    rcases markup_cases a with ⟨q, -, -, hm, heq⟩ | ⟨-, -, hm, heq⟩ <;> rw [hm, heq] <;>
      simp [Lexeme.texts]
  constructor
  · intro added r
    rw [lexemes_markup hphase ha, write_append, write_of_not_endsTag hends, htexts]
  · intro r
    rw [lexemes_markup hphase ha, tagEnds_append, tagEnds_of_not_endsTag hends, List.nil_append]

end Passes

end Passing

section Settling

variable {p q : Progress} {language : Language} {phase : TagPhase} {outer : List Frame}
  {layout : Layout} {e f : OpenElement} {es : List OpenElement} {blanks token : List Char}
  {a : Attribute} {n : Nat} {ls : List Lexeme}

lemma foldl_gap (hne : ls ≠ []) (h : ∀ l ∈ ls, l.kind ≠ .blank) : (ls.foldl step p).gap = [] := by
  obtain ⟨before, l, rfl⟩ := List.eq_nil_or_concat' ls |>.resolve_left hne
  rw [List.foldl_concat]
  exact if_neg (h l (by simp))

structure Behind (layout : Layout) (e : OpenElement) (es : List OpenElement) (n : Nat)
    (q : Progress) : Prop where
  opened : ∃ f, q.openElements = f :: es ∧ f.index = e.index ∧ f.named = e.named ∧ ¬ f.isHeld ∧
    f.item = .attribute ∧ ∀ attributes closer, layout = .ownLine attributes closer →
      f.column = attributes
  size : q.forest.size = n

variable (language outer layout) in
lemma exists_passes_attribute (hes : q.openElements = e :: es) (hheld : ¬ e.isHeld)
    (hphase : phase.Named) (ha : IsAttributeName a.name.toList) (hblanks : ∀ c ∈ blanks, isBlank c)
    (hcolumn : ∀ attributes closer, layout = .ownLine attributes closer →
      columnAfter q.column blanks = attributes) :
    ∃ q', Passes ⟨language, .tag phase, outer⟩ q (blanks ++ a.markup)
        ⟨language, .tag .attributes, outer⟩ q' ∧
      Behind layout e es q.forest.size q' ∧ q'.gap = [] := by
  obtain ⟨hgain, hforest⟩ := foldl_attributeLexemes (p := q.skip blanks) (a := a) hes hheld
  refine ⟨(attributeLexemes a).foldl step (q.skip blanks),
    (Passes.blanks _ _ _ q hblanks).trans (Passes.markup _ hphase ha),
    ⟨⟨_, hgain, rfl, rfl, ?_, rfl, hcolumn⟩, ?_⟩,
    foldl_gap (by simp [attributeLexemes]) fun l hl => (attributeLexemes_kind hl).2.2.1⟩
  · simp [OpenElement.isHeld, OpenElement.gain]
  · rw [hforest]
    rfl

variable (language outer) in
lemma Behind.exists_passes_more (h : Behind layout e es n q) (hgap : q.gap = []) (more : List Attribute)
    (hnames : ∀ b ∈ more, IsAttributeName b.name.toList) :
    ∃ q', Passes ⟨language, .tag .attributes, outer⟩ q
        (more.flatMap fun b => layout.separator ++ b.markup) ⟨language, .tag .attributes, outer⟩ q' ∧
      Behind layout e es n q' ∧ q'.gap = [] := by
  -- Each attribute leaves the progress behind attributes again, with no blank read after it.
  induction more generalizing q with
  | nil => exact ⟨q, ⟨fun _ _ => rfl, fun _ => rfl⟩, h, hgap⟩
  | cons b more ih =>
    obtain ⟨f, hes, hindex, hnamed, hheld, -, -⟩ := h.opened
    obtain ⟨q₁, hpasses, ⟨⟨g, hg, hgindex, hgnamed, hgrest⟩, hsize⟩, hgap₁⟩ :=
      exists_passes_attribute language outer layout hes hheld (TagPhase.named_of_cases (.inr rfl))
        (hnames b (by simp)) layout.separator_blank (by
          rintro attributes closer rfl
          exact columnAfter_line _ _)
    obtain ⟨q₂, hpasses', hbehind, hgap₂⟩ := ih
      ⟨⟨g, hg, hgindex.trans hindex, hgnamed.trans hnamed, hgrest⟩, hsize.trans h.size⟩ hgap₁
      fun c hc => hnames c (List.mem_cons_of_mem _ hc)
    exact ⟨q₂, hpasses.trans hpasses', hbehind, hgap₂⟩

variable (language outer token) in
lemma exists_passes_insertion {new : List Attribute} (hes : q.openElements = e :: es)
    (hheld : ¬ e.isHeld) (hphase : phase.Named) (hfits : layout.Fits)
    (hcolumn : ∀ attributes closer, layout = .ownLine attributes closer → q.column = closer)
    (hnew : new ≠ []) (hnames : ∀ b ∈ new, IsAttributeName b.name.toList) :
    ∃ q', Passes ⟨language, .tag phase, outer⟩ q (layout.insertion token new)
        ⟨language, .tag .attributes, outer⟩ q' ∧
      Behind layout e es q.forest.size q' ∧ q'.gap = layout.trail token ∧
      ∀ attributes closer, layout = .ownLine attributes closer → q'.column = closer := by
  obtain ⟨a, more, rfl⟩ := List.exists_cons_of_ne_nil hnew
  obtain ⟨q₁, hfirst, hbehind₁, hgap₁⟩ :=
    exists_passes_attribute language outer layout hes hheld hphase
      (hnames a (by simp)) layout.lead_blank (by
        rintro attributes closer rfl
        rw [hcolumn _ _ rfl, Layout.lead, columnAfter_spaces]
        exact Nat.add_sub_cancel' hfits)
  obtain ⟨q₂, hmore, hbehind₂, hgap₂⟩ := hbehind₁.exists_passes_more language outer hgap₁ more
    fun b hb => hnames b (List.mem_cons_of_mem _ hb)
  refine ⟨q₂.skip (layout.trail token), ?_, ⟨hbehind₂.opened, hbehind₂.size⟩, ?_, ?_⟩
  · exact (hfirst.trans hmore).trans (Passes.blanks _ _ _ q₂ (layout.trail_blank token))
  · rw [skip, hgap₂, List.nil_append]
  · rintro attributes closer rfl
    exact columnAfter_line _ _

lemma Behind.continues (h : Behind layout e es n q) (hfits : layout.Fits)
    (htoken : token = ['>'] ∨ token = ['/', '>']) (hgap : q.gap = layout.trail token)
    (hcolumn : ∀ attributes closer, layout = .ownLine attributes closer → q.column = closer) :
    ∃ f next, q.openElements = f :: es ∧ f.index = e.index ∧ f.named = e.named ∧
      q.layout f = some next ∧ layout.Continues token next := by
  obtain ⟨f, hes, hindex, hnamed, -, hitem, hstart⟩ := h.opened
  cases layout with
  | adjacent =>
    rcases htoken with rfl | rfl
    · refine ⟨f, .adjacent, hes, hindex, hnamed, ?_, ⟨.inl rfl, rfl, rfl, rfl⟩⟩
      simp [Progress.layout, hitem, hgap, Layout.trail]
    · refine ⟨f, .spaced, hes, hindex, hnamed, ?_, ⟨.inr ⟨rfl, rfl, rfl⟩, rfl, rfl, rfl⟩⟩
      simp [Progress.layout, hitem, hgap, Layout.trail]
  | spaced =>
    refine ⟨f, .spaced, hes, hindex, hnamed, ?_, ⟨.inl rfl, rfl, rfl, rfl⟩⟩
    simp [Progress.layout, hitem, hgap, Layout.trail]
  | ownLine attributes closer =>
    have hfits : closer ≤ attributes := hfits
    refine ⟨f, .ownLine attributes closer, hes, hindex, hnamed, ?_, ⟨.inl rfl, ?_, rfl, rfl⟩⟩
    · simp [Progress.layout, hitem, hgap, Layout.trail, hstart _ _ rfl, hcolumn _ _ rfl, hfits]
    · simp [Layout.trail, Layout.lead, Layout.separator, spaces, List.replicate_append_replicate,
        Nat.add_sub_cancel' hfits]

end Settling

end Progress

end MarkupLabels.Source
