import Mathlib
import MarkupLabels.Proofs.Source.Rendering
import MarkupLabels.Proofs.Source.Stability

/-! A text is read as before where attributes have been added: the lexemes are those it had, with the
lexemes of the attributes in front of the ends of their tags. Blanks in tags are left out of account,
since they change with the attributes. -/

namespace MarkupLabels.Source

section Reading

variable {added : Nat → List Attribute} {context : Context} {p : Progress} {cs : List Char}

namespace Context

variable {language : Language} {phase : TagPhase} {outer : List Frame} {l : Lexeme}

lemma lexemes_tagEnd (phase : TagPhase)
    (hl : l = ⟨.tagEnd, ['>']⟩ ∨ l = ⟨.selfClose, ['/', '>']⟩) (w : List Char) :
    lexemes ⟨language, .tag .attributes, outer⟩ (l.text ++ w) =
      l :: (advance ⟨language, .tag phase, outer⟩ l).lexemes w := by
  have hchar : isTagNameChar '>' = false ∧ isTagNameChar '/' = false ∧ isBlank '/' = false := by decide
  rcases hl with rfl | rfl
  · have hread : Context.read ⟨language, .tag .attributes, outer⟩ '>' ([] ++ w) =
        (.tagEnd, ([] : List Char).length) := by
      change TagPhase.attributes.read '>' w = _
      unfold TagPhase.read
      rw [readSpace?_eq_none (by decide) (by decide)]
      simp [hchar]
    exact lexemes_cons hread
  · have hread : Context.read ⟨language, .tag .attributes, outer⟩ '/' (['>'] ++ w) =
        (.selfClose, ['>'].length) := by
      change TagPhase.attributes.read '/' ('>' :: w) = _
      unfold TagPhase.read readSpace?
      simp [hchar]
    refine (lexemes_cons hread).trans (congrArg _ ?_)
    cases outer <;> rfl

lemma reading_tagEnd (hl : l = ⟨.tagEnd, ['>']⟩ ∨ l = ⟨.selfClose, ['/', '>']⟩) (w : List Char) :
    reading ⟨language, .tag .attributes, outer⟩ (l.text ++ w) =
      l :: (advance ⟨language, .tag phase, outer⟩ l).reading w := by
  have hk : l.kind ≠ .blank := by
    rcases hl with rfl | rfl <;> simp
  rw [reading, lexemes_tagEnd phase hl, tidy_cons _ hk, reading]
  rcases hl with rfl | rfl
  · rfl
  · cases outer <;> rfl

lemma tidy_cons_of_blank (ls : List Lexeme)
    (hl : l.kind = .blank → ∀ phase, context.inner ≠ .tag phase) :
    context.tidy (l :: ls) = l :: (context.advance l).tidy ls := by
  by_cases hk : l.kind = .blank
  · rw [tidy]
    split
    · next phase hphase => exact absurd hphase (hl hk phase)
    · rfl
  · exact tidy_cons ls hk

lemma tidy_blank (ls : List Lexeme) (hl : l.kind = .blank) :
    tidy ⟨language, .tag phase, outer⟩ (l :: ls) = tidy ⟨language, .tag phase, outer⟩ ls := by
  rw [tidy]
  exact if_pos hl

end Context

namespace Progress

lemma lexemes_write {c : Char} {rest : List Char} {kind : LexemeKind} {n : Nat}
    (hread : context.read c rest = (kind, n))
    (hblank : kind = .blank → ∀ phase, context.inner ≠ .tag phase)
    (h : Writable added context p (⟨kind, c :: rest.take n⟩ ::
      (context.advance ⟨kind, c :: rest.take n⟩).lexemes (rest.drop n))) :
    context.lexemes (c :: rest.take n ++ (p.step ⟨kind, c :: rest.take n⟩).write added
        ((context.advance ⟨kind, c :: rest.take n⟩).lexemes (rest.drop n))) =
      ⟨kind, c :: rest.take n⟩ :: (context.advance ⟨kind, c :: rest.take n⟩).lexemes
        ((p.step ⟨kind, c :: rest.take n⟩).write added
          ((context.advance ⟨kind, c :: rest.take n⟩).lexemes (rest.drop n))) := by
  by_cases hr : rest.drop n = []
  · have hrest : rest.take n = rest := List.take_of_length_le (List.drop_eq_nil_iff.mp hr)
    have hnil : ∀ context : Context, context.lexemes [] = [] := fun context => by
      rw [Context.lexemes]
    rw [hr, hrest, hnil, write, List.append_nil, hnil, Context.lexemes_eq, hread, hrest, hr, hnil]
  · have hlength : (rest.take n).length = n :=
      List.length_take_of_le (le_of_not_ge fun hge => hr (List.drop_eq_nil_iff.mpr hge))
    have hsplit : context.read c (rest.take n ++ rest.drop n) = (kind, (rest.take n).length) := by
      rw [List.take_append_drop, hread, hlength]
    exact Context.lexemes_cons (Writable.read_write hsplit hr hblank h)

lemma reading_write (h : Writable added context p (context.lexemes cs)) :
    context.reading (p.write added (context.lexemes cs)) =
      p.numbering.enrich added (context.reading cs) := by
  fun_induction Context.lexemes context cs generalizing p
  case case1 => simp [write, Context.reading, Context.lexemes, Context.tidy, Numbering.enrich]
  case case2 context c rest kind n hread l ih =>
    have ih := ih h.step
    have hlexemes : context.reading (c :: rest) =
        context.tidy (l :: (context.advance l).lexemes (rest.drop n)) := by
      rw [Context.reading, Context.lexemes_eq, hread]
    rw [numbering_step] at ih
    rw [hlexemes, write]
    -- Nothing is inserted in front of the lexeme, or the lexeme ends a tag.
    rcases h.insertionBefore_cases with ⟨hnone, hinserted⟩ |
      ⟨phase, layout, e, hphase, hnamed, hl, -, ha, hbefore, hinserted, -⟩
    · rw [hnone, List.nil_append]
      by_cases htag : l.kind = .blank ∧ ∃ phase, context.inner = .tag phase
      · obtain ⟨hk, phase, hphase⟩ := htag
        obtain ⟨language, inner, outer⟩ := context
        subst hphase
        have hstep : p.numbering.step l = p.numbering := by simp [Numbering.step, hk]
        rw [Context.advance_of_blank hk] at ih ⊢
        rw [Context.tidy_blank _ hk, Context.reading_blanks ((h.spelled l (by simp)).blanks hk), ih,
          hstep]
        rfl
      · have hblank : kind = .blank → ∀ phase, context.inner ≠ .tag phase :=
          fun hk phase hphase => htag ⟨hk, phase, hphase⟩
        rw [Context.tidy_cons_of_blank _ hblank, Numbering.enrich, hinserted, List.nil_append,
          Context.reading, lexemes_write hread hblank h, Context.tidy_cons_of_blank _ hblank]
        exact congrArg _ ih
    · obtain ⟨language, inner, outer⟩ := context
      subst hphase
      have hk : l.kind ≠ .blank := by
        rcases hl with hl | hl <;> simp [hl]
      rw [hbefore, Context.tidy_cons _ hk, Numbering.enrich, hinserted, List.append_assoc,
        reading_insertion layout l.text (TagPhase.named_of_cases hnamed) ha (h.attributeNames e.index),
        Context.reading_tagEnd hl, ih]
      rfl

end Progress

end Reading

section Texts

variable {language : Language} {source w : List Char} {added : Nat → List Attribute}

def tidied (language : Language) (source : List Char) : List Lexeme :=
  (Context.initial language).tidy (lexemes language source)

lemma interpreterLine_eq_zero (h : startsWith source ['#', '!'] = false) : interpreterLine source = 0 := by
  simp [interpreterLine, h]

lemma lexemes_of_not_startsWith (h : startsWith source ['#', '!'] = false) :
    lexemes language source = (Context.initial language).lexemes source := by
  simp [lexemes, interpreterLine_eq_zero h]

lemma lexemes_interpreter {line : List Char} (hline : ∀ c ∈ line, isLineEnd c = false)
    (hstart : startsWith line ['#', '!']) (hw : ∀ c ∈ w.head?, isLineEnd c = true) :
    lexemes language (line ++ w) = ⟨.comment, line⟩ :: (Context.initial language).lexemes w := by
  have hstart' : startsWith (line ++ w) ['#', '!'] := by
    match line with
    | c :: d :: line => simpa [startsWith] using hstart
    | [c] => simp [startsWith] at hstart
    | [] => simp [startsWith] at hstart
  have hne : line.length ≠ 0 := by
    intro hzero
    rw [List.length_eq_zero_iff.mp hzero] at hstart
    simp [startsWith] at hstart
  have hlength : interpreterLine (line ++ w) = line.length := by
    rw [interpreterLine, if_pos hstart']
    refine runLength_eq_length_iff.mpr ⟨fun c hc => by simp [hline c hc], fun c hc => ?_⟩
    simp [hw c hc]
  simp only [lexemes, hlength]
  rw [if_neg hne]
  simp

lemma exists_interpreter (h : startsWith source ['#', '!']) :
    ∃ line rest, source = line ++ rest ∧ (∀ c ∈ line, isLineEnd c = false) ∧
      startsWith line ['#', '!'] ∧ ∀ c ∈ rest.head?, isLineEnd c = true := by
  refine ⟨source.takeWhile (!isLineEnd ·), source.dropWhile (!isLineEnd ·),
    List.takeWhile_append_dropWhile.symm, ?_, ?_, ?_⟩
  · exact fun c hc => by simpa using List.mem_takeWhile_imp hc
  · match source with
    | c :: d :: source =>
      obtain ⟨rfl, rfl⟩ : c = '#' ∧ d = '!' := by simpa [startsWith] using h
      have hmarks : isLineEnd '#' = false ∧ isLineEnd '!' = false := by decide
      simp [startsWith, hmarks]
    | [c] => simp [startsWith] at h
    | [] => simp [startsWith] at h
  · exact fun c hc => by simpa using head_dropWhile hc

lemma advance_line {line : List Char} (hline : ∀ c ∈ line, isLineEnd c = false) :
    (Context.initial language).advance ⟨.comment, line⟩ = Context.initial language := by
  change (Context.initial language).advanceBlank line = _
  have hany : line.any isLineEnd = false := by simpa using hline
  simp [Context.advanceBlank, Context.mapCode, Context.initial, Code.inside, hany]

lemma writable_of_accepts (h : accepts language source)
    (hnamed : ∀ i, added i ≠ [] → (Document.read language source).isNamed i)
    (hnames : ∀ i, ∀ a ∈ added i, IsAttributeName a.name.toList) :
    Progress.Writable added (Context.initial language) .initial (lexemes language source) := by
  obtain ⟨hnodup, -⟩ := Document.tagEnds_of_accepts h
  refine ⟨h, ⟨[], .program⟩, by simp [Progress.initial], ?_, fun l hl => spelled_of_mem_lexemes hl, hnames⟩
  intro t ht ha
  obtain ⟨t', ht', heq, hn⟩ := Document.exists_of_isNamed (hnamed t.element ha)
  obtain rfl := List.inj_on_of_nodup_map hnodup ht' ht heq
  exact hn

lemma startsWith_marks_iff :
    startsWith source ['#', '!'] ↔ source.head? = some '#' ∧ source.tail.head? = some '!' := by
  match source with
  | [] => simp [startsWith]
  | [c] => simp [startsWith]
  | c :: d :: rest => simp [startsWith]

lemma startsWith_write (h : Progress.Writable added (Context.initial language) .initial
      ((Context.initial language).lexemes source))
    (hstart : startsWith source ['#', '!'] = false) :
    startsWith (Progress.initial.write added ((Context.initial language).lexemes source)) ['#', '!'] =
      false := by
  have hhead := h.head_write (by simp [Context.initial])
  refine Bool.eq_false_iff.mpr fun hw => ?_
  obtain ⟨hmark, hbang⟩ := startsWith_marks_iff.mp hw
  rw [hhead] at hmark
  obtain ⟨rest, rfl⟩ := List.head?_eq_some_iff.mp hmark
  -- A hash sign is read as a word, and what stands behind it begins as before.
  have hread : (Context.initial language).read '#' rest = (.word, runLength isNameChar rest) := by
    have hclass : isDigit '#' = false ∧ isNameChar '#' = false := by decide
    change (Code.inside .program .start false).read language '#' rest = _
    unfold Code.read
    rw [readSpace?_eq_none (by decide) (by decide)]
    simp only [hclass, Bool.false_eq_true, false_or, if_false]
    rfl
  rw [Context.lexemes_eq, hread] at h hbang
  have hstep := h.step.head_write (by simp [Context.advance, Context.initial, Context.mapCode])
  have hsame : (rest.take (runLength isNameChar rest) ++
      (Progress.initial.step ⟨.word, '#' :: rest.take (runLength isNameChar rest)⟩).write added
        (((Context.initial language).advance
          ⟨.word, '#' :: rest.take (runLength isNameChar rest)⟩).lexemes
            (rest.drop (runLength isNameChar rest)))).head? = rest.head? := by
    rw [List.head?_append, hstep, ← List.head?_append, List.take_append_drop]
  have hnone : Progress.initial.insertionBefore added
      ⟨.word, '#' :: rest.take (runLength isNameChar rest)⟩ = [] := by
    simp [Progress.insertionBefore, Progress.tagEnd?]
  rw [Progress.write, hnone, List.nil_append, List.cons_append, List.tail_cons, hsame] at hbang
  have hyes := startsWith_marks_iff.mpr ⟨hmark, hbang⟩
  simp [hstart] at hyes

lemma lexemes_write_cases (h : Progress.Writable added (Context.initial language) .initial
      (lexemes language source)) :
    (lexemes language source = (Context.initial language).lexemes source ∧
      lexemes language (Progress.initial.write added (lexemes language source)) =
        (Context.initial language).lexemes
          (Progress.initial.write added (lexemes language source))) ∨
    ∃ line rest, (Context.initial language).advance ⟨.comment, line⟩ = Context.initial language ∧
      lexemes language source = ⟨.comment, line⟩ :: (Context.initial language).lexemes rest ∧
      lexemes language (Progress.initial.write added (lexemes language source)) =
        ⟨.comment, line⟩ :: (Context.initial language).lexemes
          ((Progress.initial.step ⟨.comment, line⟩).write added
            ((Context.initial language).lexemes rest)) := by
  cases hstart : startsWith source ['#', '!'] with
  | false =>
    left
    rw [lexemes_of_not_startsWith hstart] at h ⊢
    exact ⟨rfl, lexemes_of_not_startsWith (startsWith_write h hstart)⟩
  | true =>
    right
    obtain ⟨line, rest, rfl, hline, hmarks, hrest⟩ := exists_interpreter hstart
    rw [lexemes_interpreter hline hmarks hrest] at h ⊢
    have hstep := h.step
    rw [advance_line hline] at hstep
    have hhead := hstep.head_write (by simp [Context.initial])
    have hwrite : Progress.initial.write added (⟨.comment, line⟩ :: (Context.initial language).lexemes rest) =
        line ++ (Progress.initial.step ⟨.comment, line⟩).write added
          ((Context.initial language).lexemes rest) := by
      simp [Progress.write, Progress.insertionBefore, Progress.tagEnd?]
    refine ⟨line, rest, advance_line hline, rfl, ?_⟩
    rw [hwrite, lexemes_interpreter hline hmarks (by rwa [hhead])]

lemma tidied_write (h : accepts language source)
    (hnamed : ∀ i, added i ≠ [] → (Document.read language source).isNamed i)
    (hnames : ∀ i, ∀ a ∈ added i, IsAttributeName a.name.toList) :
    tidied language (Progress.initial.write added (lexemes language source)) =
      Progress.initial.numbering.enrich added (tidied language source) := by
  have hwritable := writable_of_accepts h hnamed hnames
  rcases lexemes_write_cases hwritable with ⟨hsource, htext⟩ | ⟨line, rest, hline, hsource, htext⟩
  · rw [tidied, htext, tidied]
    rw [hsource] at hwritable ⊢
    exact Progress.reading_write hwritable
  · rw [tidied, htext, tidied, hsource, Context.tidy_cons _ (by simp), Context.tidy_cons _ (by simp),
      hline, Numbering.enrich]
    rw [hsource] at hwritable
    have hstep := hwritable.step
    rw [hline] at hstep
    have hreading := Progress.reading_write hstep
    rw [Progress.numbering_step] at hreading
    exact congrArg _ hreading

end Texts

end MarkupLabels.Source
