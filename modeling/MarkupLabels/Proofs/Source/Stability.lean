import Mathlib
import MarkupLabels.Proofs.Source.Rereading

/-! Every lexeme of a text is read again where attributes have been added behind it, and so the
whole text is read as before, with the attributes. -/

namespace MarkupLabels.Source

structure Numbering where
  count : Nat
  stack : List Nat

namespace Numbering

def step (s : Numbering) (l : Lexeme) : Numbering :=
  match l.kind with
  | .tagOpen => { count := s.count + 1, stack := s.count :: s.stack }
  | .selfClose | .closingEnd => { s with stack := s.stack.drop 1 }
  | _ => s

def inserted (added : Nat → List Attribute) (s : Numbering) (l : Lexeme) : List Lexeme :=
  if l.kind.endsTag then ((s.stack.head?.map added).getD []).flatMap attributeLexemes else []

def enrich (added : Nat → List Attribute) (s : Numbering) : List Lexeme → List Lexeme
  | [] => []
  | l :: rest => s.inserted added l ++ l :: (s.step l).enrich added rest

end Numbering

namespace Progress

def numbering (p : Progress) : Numbering :=
  { count := p.forest.size, stack := p.openElements.map (·.index) }

variable {p : Progress} {l : Lexeme} {ls : List Lexeme} {added : Nat → List Attribute}
  {context : Context} {cs : List Char}

lemma stepInner_indices (p : Progress) (l : Lexeme) :
    (p.stepInner l).openElements.map (·.index) = p.openElements.map (·.index) := by
  rw [stepInner_openElements]
  cases p.openElements with
  | nil => rfl
  | cons e es => simp [OpenElement.step_index]

lemma numbering_step (p : Progress) (l : Lexeme) : (p.step l).numbering = p.numbering.step l := by
  have hsize := p.step_size (l := l)
  obtain ⟨kind, text⟩ := l
  have hclose : p.closeTag.openElements.map (·.index) = p.openElements.map (·.index) := by
    cases h : p.openElements with
    | nil => simp [closeTag, h]
    | cons e es => simp [closeTag, h, OpenElement.start]
  have hstack : (p.step ⟨kind, text⟩).openElements.map (·.index) =
      (p.numbering.step ⟨kind, text⟩).stack := by
    change (p.enter ⟨kind, text⟩).openElements.map (·.index) = _
    cases kind <;> simp only [enter, Numbering.step, numbering, hclose, stepInner_indices, leave,
      List.map_drop, openTag, List.map_cons, stepInner_forest, OpenElement.start]
  have hcount : (p.step ⟨kind, text⟩).forest.size = (p.numbering.step ⟨kind, text⟩).count := by
    rw [hsize]
    cases kind <;> rfl
  exact congrArg₂ Numbering.mk hcount hstack

structure Writable (added : Nat → List Attribute) (context : Context) (p : Progress)
    (ls : List Lexeme) : Prop where
  admitted : context.admitsAll ls
  aligned : ∃ pending, Aligned false context.frames p.openElements pending
  sound : ∀ e ∈ p.openElements, e.Sound
  named : ∀ t ∈ p.tagEnds ls, added t.element ≠ [] → t.named
  spelled : ∀ l ∈ ls, l.Spelled
  attributeNames : ∀ i, ∀ a ∈ added i, IsAttributeName a.name.toList

namespace Writable

lemma admits (h : Writable added context p (l :: ls)) : context.admits l := by
  have := h.admitted
  simp only [Context.admitsAll, Bool.and_eq_true] at this
  exact this.1

lemma step (h : Writable added context p (l :: ls)) :
    Writable added (context.advance l) (p.step l) ls := by
  have ha := h.admitted
  simp only [Context.admitsAll, Bool.and_eq_true] at ha
  obtain ⟨pending, haligned⟩ := h.aligned
  obtain ⟨pending', -, haligned'⟩ := step_aligned ha.1 haligned
  exact
    { admitted := ha.2
      aligned := ⟨pending', haligned'⟩
      sound := step_sound h.sound
      named := fun t ht => h.named t (List.mem_append_right _ ht)
      spelled := fun m hm => h.spelled m (List.mem_cons_of_mem _ hm)
      attributeNames := h.attributeNames }

lemma endsTag (h : Writable added context p (l :: ls)) (hl : l.kind.endsTag) :
    ∃ phase e es, context.inner = .tag phase ∧ p.openElements = e :: es ∧ ¬ e.isHeld ∧
      (l = ⟨.tagEnd, ['>']⟩ ∨ l = ⟨.selfClose, ['/', '>']⟩) ∧
      (added e.index ≠ [] → e.named ∧ (phase = .named ∨ phase = .attributes)) := by
  have hadmits := h.admits
  have hspelled := (h.spelled l (by simp)).ends hl
  have hkind : l.kind = .tagEnd ∨ l.kind = .selfClose := by
    rcases hspelled with hl | hl <;> simp [hl]
  have hnamed := h.named
  obtain ⟨pending, haligned⟩ := h.aligned
  rw [Context.frames] at haligned
  unfold Context.admits at hadmits
  cases hinner : context.inner with
  | tag phase =>
    rw [hinner] at hadmits haligned
    generalize hes : p.openElements = es at haligned
    cases haligned with
    | @tag _ _ _ e es pending holds unnamed below =>
      refine ⟨phase, e, es, rfl, rfl, fun he => by simpa using holds he, hspelled, fun hadded => ?_⟩
      have htagEnd : p.tagEnd? l = some ⟨e.index, p.offset, l.text, e.named, p.layout e⟩ := by
        rcases hkind with hk | hk <;> simp [tagEnd?, hk, hes]
      have hname : e.named := hnamed ⟨e.index, p.offset, l.text, e.named, p.layout e⟩
        (by simp [tagEnds, htagEnd]) hadded
      refine ⟨hname, ?_⟩
      have hopened : phase ≠ .opened := fun hp => by simp [unnamed hp] at hname
      rcases hkind with hk | hk <;> simp only [TagPhase.admits, hk] at hadmits <;> simp_all
  | code k => rcases hkind with hk | hk <;> simp [hinner, Code.admits, hk] at hadmits
  | children => rcases hkind with hk | hk <;> simp [hinner, hk] at hadmits
  | closingTag => rcases hkind with hk | hk <;> simp [hinner, hk] at hadmits

lemma inserted_of_not_endsTag {s : Numbering} (hl : l.kind.endsTag = false) : s.inserted added l = [] := by
  simp [Numbering.inserted, hl]

lemma inserted_of_endsTag (added : Nat → List Attribute) {e : OpenElement} {es : List OpenElement}
    (hl : l.kind.endsTag) (hes : p.openElements = e :: es) :
    p.numbering.inserted added l = (added e.index).flatMap attributeLexemes := by
  simp [Numbering.inserted, hl, numbering, hes]

lemma insertionBefore_cases (h : Writable added context p (l :: ls)) :
    (p.insertionBefore added l = [] ∧ p.numbering.inserted added l = []) ∨
    ∃ phase layout e, context.inner = .tag phase ∧ (phase = .named ∨ phase = .attributes) ∧
      (l = ⟨.tagEnd, ['>']⟩ ∨ l = ⟨.selfClose, ['/', '>']⟩) ∧ p.layout e = some layout ∧
      added e.index ≠ [] ∧ p.insertionBefore added l = layout.insertion l.text (added e.index) ∧
      p.numbering.inserted added l = (added e.index).flatMap attributeLexemes ∧
      ∃ es, p.openElements = e :: es ∧ ¬ e.isHeld := by
  cases hl : l.kind.endsTag with
  | false =>
    left
    refine ⟨?_, inserted_of_not_endsTag hl⟩
    simp [insertionBefore, tagEnd?_eq_none hl]
  | true =>
    obtain ⟨phase, e, es, hinner, hes, hheld, hspelled, hname⟩ := h.endsTag hl
    have htagEnd : p.tagEnd? l = some ⟨e.index, p.offset, l.text, e.named, p.layout e⟩ := by
      rcases hspelled with rfl | rfl <;> simp [tagEnd?, hes]
    have hbefore : p.insertionBefore added l =
        TagEnd.insertion ⟨e.index, p.offset, l.text, e.named, p.layout e⟩ (added e.index) := by
      simp [insertionBefore, htagEnd]
    have hinserted := inserted_of_endsTag added hl hes
    by_cases hadded : added e.index = []
    · left
      rw [hbefore, hinserted, hadded]
      refine ⟨?_, rfl⟩
      cases hl : p.layout e <;> simp [TagEnd.insertion, Layout.insertion]
    · right
      obtain ⟨hnamed, hphase⟩ := hname hadded
      have hitem := (h.sound e (by simp [hes])).item_of_named hnamed
      obtain ⟨layout, hlayout⟩ : ∃ layout, p.layout e = some layout := by
        unfold Progress.layout
        repeat' split
        all_goals first | exact ⟨_, rfl⟩ | contradiction
      exact ⟨phase, layout, e, hinner, hphase, hspelled, hlayout, hadded,
        by simp [hbefore, TagEnd.insertion, hlayout], hinserted, es, hes, hheld⟩

lemma head_write (h : Writable added context p (context.lexemes cs))
    (hinner : ∀ phase, context.inner = .tag phase → ¬ phase.Named) :
    (p.write added (context.lexemes cs)).head? = cs.head? := by
  cases cs with
  | nil => simp [Context.lexemes, write]
  | cons c rest =>
    rw [Context.lexemes_eq] at h ⊢
    rcases h.insertionBefore_cases with ⟨hnone, -⟩ | ⟨phase, -, -, hphase, hnamed, -⟩
    · simp [write, hnone]
    · exact absurd (TagPhase.named_of_cases hnamed) (hinner phase hphase)

lemma follows_write (h : Writable added context p (context.lexemes cs)) (hgap : p.gap = []) :
    Follows cs (p.write added (context.lexemes cs)) := by
  cases cs with
  | nil => exact .inl (by simp [Context.lexemes, write])
  | cons c rest =>
    rw [Context.lexemes_eq] at h ⊢
    rcases h.insertionBefore_cases with ⟨hnone, -⟩ | ⟨-, layout, e, -, -, hl, hlayout, ha, hbefore, -⟩
    · exact .inl (by simp [write, hnone])
    · right
      obtain rfl : layout = .adjacent := (layout_gap hlayout).resolve_right (by simp [hgap])
      obtain ⟨a, more, hmore⟩ := List.exists_cons_of_ne_nil ha
      rw [write, hbefore, hmore]
      refine ⟨by simp [Layout.insertion, Layout.lead], ?_⟩
      rcases hl with hl | hl <;> have htext := congrArg Lexeme.text hl <;> simp_all

lemma colon_of_write {phase : TagPhase} (h : Writable added context p (context.lexemes cs))
    (hinner : context.inner = .tag phase)
    (hw : ((p.write added (context.lexemes cs)).dropWhile isBlank).head? = some ':') :
    (cs.dropWhile isBlank).head? = some ':' := by
  fun_induction Context.lexemes context cs generalizing p
  case case1 => exact hw
  case case2 context c rest kind n hread l ih =>
    rw [write, List.append_assoc] at hw
    rcases h.insertionBefore_cases with ⟨hnone, -⟩ | ⟨-, layout, e, -, -, -, -, ha, hbefore, -⟩
    · rw [hnone, List.nil_append] at hw
      by_cases hk : kind = .blank
      · obtain ⟨language, inner, outer⟩ := context
        subst hinner
        have hblanks := (h.spelled l (by simp)).blanks hk
        have hsplit : c :: rest = l.text ++ rest.drop n := by simp [l]
        rw [List.dropWhile_append_of_pos hblanks] at hw
        rw [hsplit, List.dropWhile_append_of_pos hblanks]
        exact ih h.step (by rw [Context.advance_of_blank hk]) hw
      · have hc : isBlank c = false := by
          refine Bool.eq_false_iff.mpr fun hc => hk ?_
          have hphase : context.read c rest = phase.read c rest := by simp [Context.read, hinner]
          rw [hphase, TagPhase.read_of_isBlank hc] at hread
          exact (Prod.mk.inj hread).1.symm
        have hhead : (c :: rest.take n ++ (p.step l).write added ((context.advance l).lexemes
            (rest.drop n))).dropWhile isBlank = c :: (rest.take n ++ (p.step l).write added
            ((context.advance l).lexemes (rest.drop n))) := List.dropWhile_cons_of_neg (by simp [hc])
        rw [hhead] at hw
        rw [List.dropWhile_cons_of_neg (by simp [hc])]
        exact hw
    · exfalso
      obtain ⟨a, more, hmore⟩ := List.exists_cons_of_ne_nil ha
      obtain ⟨d, name, hname, hd, -⟩ := (h.attributeNames e.index a (by simp [hmore])).exists_cons
      have hmarkup : ∃ tail, a.markup = d :: tail := by
        rcases markup_cases a with ⟨q, -, -, hm, -⟩ | ⟨-, -, hm, -⟩ <;>
          exact ⟨_, by rw [hm, hname, List.cons_append]⟩
      obtain ⟨tail, htail⟩ := hmarkup
      rw [hbefore, hmore, Layout.insertion, List.append_assoc, List.append_assoc, List.append_assoc,
        List.dropWhile_append_of_pos layout.lead_blank, htail] at hw
      have hblank := not_isBlank_of_isTagNameChar hd
      simp only [List.cons_append, List.dropWhile_cons, hblank, Bool.false_eq_true, if_false,
        List.head?_cons, Option.some.injEq] at hw
      exact absurd hd (by rw [hw]; decide)

section Reading

variable {c d : Char} {t r w : List Char} {language : Language} {outer : List Frame} {kind : LexemeKind}

lemma digit_of_write {k : Code} (hd : r.head?.any isDigit)
    (hw : p.write added (Context.lexemes ⟨language, .code k, outer⟩ ('.' :: r)) = '.' :: w) :
    w.head?.any isDigit := by
  obtain ⟨e, r, rfl⟩ : ∃ e r', r = e :: r' := by
    cases r with
    | nil => simp at hd
    | cons e r => exact ⟨e, r, rfl⟩
  have he : isDigit e := by simpa using hd
  have hread : Context.read ⟨language, .code k, outer⟩ '.' (e :: r) =
      (.number, (scan (scanNumber true) ((true && (e == 'e' || e == 'E'))) r).1 + 1) := by
    change k.read language '.' (e :: r) = _
    unfold Code.read
    rw [readSpace?_eq_none (by decide) (by decide)]
    have hname : isNameChar e := isNameChar_of_isDigit he
    simp [he, scan, scanNumber, hname]
  rw [Context.lexemes_eq, hread, write] at hw
  have hnone : p.insertionBefore added ⟨.number, '.' :: (e :: r).take
      ((scan (scanNumber true) (true && (e == 'e' || e == 'E')) r).1 + 1)⟩ = [] := by
    simp [insertionBefore, tagEnd?]
  rw [hnone] at hw
  simp only [List.take_succ_cons, List.nil_append, List.cons_append, List.cons.injEq, true_and] at hw
  simp [← hw, he]

lemma question_write {k : Code} (hread : k.read language '?' ('.' :: r) = (kind, 0))
    (hd : r.head?.any isDigit)
    (hw : p.write added ((Context.advance ⟨language, .code k, outer⟩ ⟨kind, ['?']⟩).lexemes ('.' :: r)) =
      '.' :: w) : w.head?.any isDigit := by
  have hclass : isDigit '?' = false ∧ isNameChar '?' = false := by decide
  have hkind : kind = .punctuation := by
    unfold Code.read at hread
    rw [readSpace?_eq_none (by decide) (by decide)] at hread
    simp only [hclass, Bool.false_eq_true, false_or, if_false] at hread
    exact (congrArg Prod.fst hread).symm
  subst hkind
  exact digit_of_write hd hw

lemma less_write {k : Code} (hangles : k.shape ≠ .angles) (hr : isTypeParameters r) :
    isTypeParameters (p.write added
      ((Context.advance ⟨language, .code k, outer⟩ ⟨.punctuation, ['<']⟩).lexemes r)) := by
  have hadvance : Context.advance ⟨language, .code k, outer⟩ ⟨.punctuation, ['<']⟩ =
      ⟨language, .code (k.see .typeMark), outer⟩ := by
    change Context.advancePunctuation ⟨language, .code k, outer⟩ k "<" = _
    simp [Context.advancePunctuation, hangles]
  simp only [isTypeParameters, decide_eq_true_eq] at hr ⊢
  rw [hadvance]
  exact Outlook.after_write_eq (o := .start) (by exact hangles) hr

lemma less_of_write (hnames : ∀ i, ∀ a ∈ added i, IsAttributeName a.name.toList)
    (hw : isTypeParameters (p.write added (context.lexemes r))) : isTypeParameters r := by
  simp only [isTypeParameters, decide_eq_true_eq] at hw ⊢
  by_contra hr
  refine Outlook.after_write_ne (p := p) hnames ?_ hw
  rwa [Context.texts_lexemes]

lemma code_write {k : Code} (hread : k.read language c (t ++ r) = (kind, t.length)) (hr : r ≠ [])
    (h : Writable added ⟨language, .code k, outer⟩ p
      (⟨kind, c :: t⟩ :: (Context.advance ⟨language, .code k, outer⟩ ⟨kind, c :: t⟩).lexemes r)) :
    k.read language c (t ++ (p.step ⟨kind, c :: t⟩).write added
      ((Context.advance ⟨language, .code k, outer⟩ ⟨kind, c :: t⟩).lexemes r)) = (kind, t.length) := by
  by_cases hc : c ∈ ['\x7d', ')', ']', '>']
  · exact Code.read_congr_closer hc hr hread
  · have hhead := h.step.head_write fun phase hphase hnamed =>
      hc (Context.closer_of_advance_tag (congrArg Prod.fst hread) h.admits hphase hnamed.1)
    obtain ⟨d, r, rfl⟩ := List.exists_cons_of_ne_nil hr
    obtain ⟨w, hw⟩ := List.head?_eq_some_iff.mp (hhead.trans List.head?_cons)
    rw [hw]
    refine Code.read_congr hread ?_ ?_ ?_
    · rintro rfl rfl rfl hd
      exact question_write hread hd hw
    · rintro rfl rfl rfl hangles hless
      rw [← hw]
      exact less_write hangles hless
    · rintro rfl rfl hless
      rw [← hw] at hless
      exact less_of_write h.attributeNames hless

lemma tag_write {phase : TagPhase} (hread : phase.read c (t ++ r) = (kind, t.length)) (hr : r ≠ [])
    (hkind : kind ≠ .blank)
    (h : Writable added ⟨language, .tag phase, outer⟩ p
      (⟨kind, c :: t⟩ :: (Context.advance ⟨language, .tag phase, outer⟩ ⟨kind, c :: t⟩).lexemes r)) :
    phase.read c (t ++ (p.step ⟨kind, c :: t⟩).write added
      ((Context.advance ⟨language, .tag phase, outer⟩ ⟨kind, c :: t⟩).lexemes r)) = (kind, t.length) := by
  have ha : phase.admits ⟨kind, c :: t⟩ := h.admits
  refine TagPhase.read_congr hread hr ?_ ?_ ?_ ?_ ?_
  · refine Bool.eq_false_iff.mpr fun hc => hkind ?_
    rw [TagPhase.read_of_isBlank hc] at hread
    exact (Prod.mk.inj hread).1.symm
  · rintro rfl rfl
    obtain rfl := TagPhase.read_slash hread
    simp [TagPhase.admits] at ha
  · rintro rfl
    simp only [TagPhase.admits, Bool.and_eq_true] at ha
    exact ha.2
  · refine h.step.follows_write ?_
    exact if_neg hkind
  · rintro rfl
    exact h.step.colon_of_write rfl

lemma children_write (hread : readChild c (t ++ r) = (kind, t.length)) (hr : r ≠ [])
    (h : Writable added ⟨language, .children, outer⟩ p
      (⟨kind, c :: t⟩ :: (Context.advance ⟨language, .children, outer⟩ ⟨kind, c :: t⟩).lexemes r)) :
    readChild c (t ++ (p.step ⟨kind, c :: t⟩).write added
      ((Context.advance ⟨language, .children, outer⟩ ⟨kind, c :: t⟩).lexemes r)) = (kind, t.length) := by
  have ha := h.admits
  have hhead := h.step.head_write (by
    intro phase hphase hnamed
    cases kind with
    | containerOpen use => simp [Context.advance, Context.push] at hphase
    | tagOpen =>
      obtain rfl : TagPhase.opened = phase := by simpa [Context.advance, Context.push] using hphase
      exact hnamed.1 rfl
    | closingOpen => simp [Context.advance] at hphase
    | content => simp [Context.advance] at hphase
    | _ => simp [Context.admits] at ha)
  obtain ⟨d, r, rfl⟩ := List.exists_cons_of_ne_nil hr
  obtain ⟨w, hw⟩ := List.head?_eq_some_iff.mp (hhead.trans List.head?_cons)
  rw [hw]
  exact readChild_congr hread

lemma closing_write (hread : readClosing c (t ++ r) = (kind, t.length)) (hr : r ≠ [])
    (h : Writable added ⟨language, .closingTag, outer⟩ p
      (⟨kind, c :: t⟩ :: (Context.advance ⟨language, .closingTag, outer⟩ ⟨kind, c :: t⟩).lexemes r)) :
    readClosing c (t ++ (p.step ⟨kind, c :: t⟩).write added
      ((Context.advance ⟨language, .closingTag, outer⟩ ⟨kind, c :: t⟩).lexemes r)) =
        (kind, t.length) := by
  have ha := h.admits
  by_cases hk : kind = .closingEnd
  · subst hk
    obtain ⟨rfl, hlength⟩ := readClosing_end hread
    rw [readClosing_greater, hlength]
  · have hhead := h.step.head_write (by
      intro phase hphase hnamed
      have hsame : (Context.advance ⟨language, .closingTag, outer⟩ ⟨kind, c :: t⟩).inner =
          .closingTag := by
        cases kind with
        | blank | comment => rw [Context.advance_space (by simp) (by simp)]
        | closingName => rfl
        | closingEnd => exact absurd rfl hk
        | _ => simp [Context.admits] at ha
      simp [hsame] at hphase)
    obtain ⟨d, r, rfl⟩ := List.exists_cons_of_ne_nil hr
    obtain ⟨w, hw⟩ := List.head?_eq_some_iff.mp (hhead.trans List.head?_cons)
    rw [hw]
    exact readClosing_congr hread

lemma read_write (hread : context.read c (t ++ r) = (kind, t.length)) (hr : r ≠ [])
    (hkind : kind = .blank → ∀ phase, context.inner ≠ .tag phase)
    (h : Writable added context p
      (⟨kind, c :: t⟩ :: (context.advance ⟨kind, c :: t⟩).lexemes r)) :
    context.read c (t ++ (p.step ⟨kind, c :: t⟩).write added
      ((context.advance ⟨kind, c :: t⟩).lexemes r)) = (kind, t.length) := by
  obtain ⟨language, inner, outer⟩ := context
  cases inner with
  | code k => exact code_write hread hr h
  | tag phase => exact tag_write hread hr (fun hk => hkind hk phase rfl) h
  | children => exact children_write hread hr h
  | closingTag => exact closing_write hread hr h

end Reading

end Writable

end Progress

end MarkupLabels.Source
