import Mathlib
import MarkupLabels.Proofs.Source.LastItems
import MarkupLabels.Proofs.Source.Rendering

namespace MarkupLabels.Source

section Lines

def lineBefore (text : List Char) (place : Nat) : List Char := (text.take place).rtakeWhile (· ≠ '\n')

def lineBehind (text : List Char) (place : Nat) : List Char := (text.drop place).takeWhile (· ≠ '\n')

def columnAt (text : List Char) (place : Nat) : Nat := (lineBefore text place).length

def lineAt (text : List Char) (place : Nat) : Nat := (text.take place).count '\n'

structure BeginsLine (text : List Char) (place column : Nat) (piece : List Char) : Prop where
  holds : piece <+: text.drop place
  column_eq : columnAt text place = column
  blank : ∀ c ∈ lineBefore text place, isBlank c

variable {text upper lower indent piece token : List Char} {lines : List (List Char × List Char)}
  {column closer q r : Nat}

lemma lineBefore_append (upper lower : List Char) :
    lineBefore (upper ++ lower) upper.length = upper.rtakeWhile (· ≠ '\n') := by
  rw [lineBefore, List.take_left]

lemma lineAt_append (upper lower : List Char) :
    lineAt (upper ++ lower) upper.length = upper.count '\n' := by
  rw [lineAt, List.take_left]

lemma lineAt_mono (text : List Char) (h : q ≤ r) : lineAt text q ≤ lineAt text r :=
  (List.take_prefix_take_left h).sublist.count_le _

lemma columnAfter_eq (text : List Char) : columnAfter 0 text = (text.rtakeWhile (· ≠ '\n')).length := by
  induction text using List.reverseRecOn with
  | nil => rfl
  | append_singleton text c ih =>
    rw [columnAfter_append, ih, List.rtakeWhile_concat]
    by_cases hc : c = '\n' <;> simp [columnAfter, hc]

lemma columnAt_append (upper lower : List Char) :
    columnAt (upper ++ lower) upper.length = columnAfter 0 upper := by
  rw [columnAt, lineBefore_append, columnAfter_eq]

lemma rtakeWhile_line (upper : List Char) (h : '\n' ∉ indent) :
    (upper ++ '\n' :: indent).rtakeWhile (· ≠ '\n') = indent := by
  have hindent : ∀ c ∈ indent.reverse, decide (c ≠ '\n') = true := by
    intro c hc
    simpa using ne_of_mem_of_not_mem (List.mem_reverse.mp hc) h
  rw [List.rtakeWhile, List.reverse_append, List.reverse_cons, List.append_assoc,
    List.takeWhile_append_of_pos hindent]
  simp

lemma exists_lastLine (h : '\n' ∈ text) :
    ∃ upper indent, '\n' ∉ indent ∧ text = upper ++ '\n' :: indent := by
  obtain ⟨as, bs, heq, has⟩ := List.eq_append_cons_of_mem (List.mem_reverse.mpr h)
  exact ⟨bs.reverse, as.reverse, by simpa using has, by rw [← text.reverse_reverse, heq]; simp⟩

lemma BeginsLine.of_indent (upper piece lower : List Char) (hblank : ∀ c ∈ indent, isBlank c)
    (hline : '\n' ∉ indent) :
    BeginsLine (upper ++ '\n' :: indent ++ (piece ++ lower)) (upper ++ '\n' :: indent).length indent.length
      piece where
  holds := by
    rw [List.drop_left]
    exact List.prefix_append _ _
  column_eq := by rw [columnAt, lineBefore_append, rtakeWhile_line upper hline]
  blank := by rwa [lineBefore_append, rtakeWhile_line upper hline]

def stacked (lines : List (List Char × List Char)) : List Char :=
  lines.flatMap fun line => '\n' :: line.1 ++ line.2

structure Indents (column : Nat) (indent : List Char) : Prop where
  length_eq : indent.length = column
  blank : ∀ c ∈ indent, isBlank c
  line : '\n' ∉ indent

lemma Indents.spaces (n : Nat) : Indents n (spaces n) where
  length_eq := List.length_replicate
  blank _ := Layout.isBlank_of_mem_spaces
  line h := absurd (List.eq_of_mem_replicate h) (by decide)

lemma Indents.append {n : Nat} (h : Indents column indent) :
    Indents (column + n) (indent ++ Source.spaces n) where
  length_eq := by rw [List.length_append, h.length_eq, (Indents.spaces n).length_eq]
  blank c hc := (List.mem_append.mp hc).elim (h.blank c) ((Indents.spaces n).blank c)
  line hc := (List.mem_append.mp hc).elim h.line (Indents.spaces n).line

lemma exists_places (upper lower : List Char) (h : ∀ line ∈ lines, Indents column line.1) :
    ∃ places,
      List.Forall₂ (fun line q => BeginsLine (upper ++ stacked lines ++ lower) q column line.2)
        lines places ∧
      (places.Pairwise fun q r => lineAt (upper ++ stacked lines ++ lower) q <
        lineAt (upper ++ stacked lines ++ lower) r) ∧
      ∀ q ∈ places, upper.count '\n' < lineAt (upper ++ stacked lines ++ lower) q ∧
        q ≤ (upper ++ stacked lines).length := by
  induction lines generalizing upper with
  | nil => exact ⟨[], .nil, .nil, by simp⟩
  | cons line lines ih =>
    obtain ⟨indent, piece⟩ := line
    have hindent := h (indent, piece) List.mem_cons_self
    obtain ⟨places, hbegins, hlines, hlater⟩ := ih (upper ++ '\n' :: indent ++ piece)
      fun line hline => h line (List.mem_cons_of_mem _ hline)
    have hstacked : upper ++ stacked ((indent, piece) :: lines) =
        upper ++ '\n' :: indent ++ piece ++ stacked lines := by
      simp [stacked]
    rw [← hstacked] at hbegins hlines hlater
    have htext : upper ++ stacked ((indent, piece) :: lines) ++ lower =
        upper ++ '\n' :: indent ++ (piece ++ (stacked lines ++ lower)) := by
      simp [stacked]
    have hfirst := BeginsLine.of_indent upper piece (stacked lines ++ lower) hindent.blank hindent.line
    have hline := lineAt_append (upper ++ '\n' :: indent) (piece ++ (stacked lines ++ lower))
    rw [← htext] at hfirst hline
    generalize upper ++ stacked ((indent, piece) :: lines) ++ lower = text at *
    simp only [List.count_append, List.count_cons_self] at hline hlater
    refine ⟨(upper ++ '\n' :: indent).length :: places, .cons (hindent.length_eq ▸ hfirst) hbegins,
      List.pairwise_cons.mpr ⟨fun q hq => ?_, hlines⟩,
      List.forall_mem_cons.mpr ⟨⟨?_, ?_⟩, fun q hq => ⟨?_, ?_⟩⟩⟩
    · have := (hlater q hq).1
      omega
    · omega
    · rw [hstacked]
      simp only [List.length_append]
      omega
    · have := (hlater q hq).1
      omega
    · exact (hlater q hq).2

lemma exists_lines (upper token lower : List Char) (h : ∀ line ∈ lines, Indents column line.1)
    (htext : text = upper ++ stacked lines ++ '\n' :: spaces closer ++ (token ++ lower)) :
    ∃ places closing, List.Forall₂ (fun line q => BeginsLine text q column line.2) lines places ∧
      BeginsLine text closing closer token ∧
      ((places ++ [closing]).Pairwise fun q r => lineAt text q < lineAt text r) ∧
      text.drop (closing + token.length) = lower := by
  obtain ⟨places, hbegins, hlines, hlater⟩ :=
    exists_places upper ('\n' :: spaces closer ++ (token ++ lower)) h
  have hlast := BeginsLine.of_indent (upper ++ stacked lines) token lower (Indents.spaces closer).blank
    (Indents.spaces closer).line
  have hline := lineAt_append (upper ++ stacked lines ++ '\n' :: spaces closer) (token ++ lower)
  have hupper := lineAt_append (upper ++ stacked lines) ('\n' :: spaces closer ++ (token ++ lower))
  rw [← List.append_assoc (upper ++ stacked lines), ← htext] at hbegins hlines hlater hupper
  rw [← htext] at hlast hline
  rw [(Indents.spaces closer).length_eq] at hlast
  refine ⟨places, (upper ++ stacked lines ++ '\n' :: spaces closer).length, hbegins, hlast, ?_, ?_⟩
  · refine List.pairwise_append.mpr ⟨hlines, List.pairwise_singleton _ _, fun q hq r hr => ?_⟩
    obtain rfl := List.mem_singleton.mp hr
    have hle := lineAt_mono text (hlater q hq).2
    rw [hline, List.count_append, List.count_cons_self]
    omega
  · rw [htext, ← List.drop_drop, List.drop_left, List.drop_left]

lemma Layout.insertion_eq_stacked {attributes : Nat} (token : List Char) (a : Attribute)
    (more : List Attribute) :
    '\n' :: indent ++ (Layout.ownLine attributes closer).insertion token (a :: more) =
      stacked ((indent ++ spaces (attributes - closer), a.markup) ::
        more.map fun b => (spaces attributes, b.markup)) ++ '\n' :: spaces closer := by
  simp [insertion, lead, separator, trail, stacked, List.flatMap_map]

lemma Layout.spaces_replacement {attributes : Nat} (token : List Char) {added : List Attribute}
    (hadded : added ≠ []) (h : closer ≤ attributes) :
    spaces closer ++ (Layout.ownLine attributes closer).replacement token (added.map Attribute.markup) =
      ['\n'].intercalate
        ((added.map fun a => spaces attributes ++ a.markup) ++ [spaces closer ++ token]) := by
  have hmarkups : (added.map Attribute.markup).map (spaces attributes ++ ·) =
      added.map fun a => spaces attributes ++ a.markup := List.map_map
  have hlength : closer ≤ (spaces attributes).length := by simpa [spaces] using h
  have htake : (spaces attributes).take closer = spaces closer := by simp [spaces, h]
  -- The first of the lines begins with more spaces than are cut off.
  obtain ⟨rest, hrest⟩ : ∃ rest, ['\n'].intercalate ((added.map fun a => spaces attributes ++ a.markup) ++
      [spaces closer ++ token]) = spaces attributes ++ rest := by
    obtain ⟨a, more, rfl⟩ := List.exists_cons_of_ne_nil hadded
    rw [← hmarkups, lines_eq, List.map_cons, List.flatMap_cons, List.append_assoc, List.append_assoc,
      List.append_assoc]
    exact ⟨_, rfl⟩
  rw [replacement, hmarkups, hrest, List.drop_append_of_le_length hlength, ← htake, ← List.append_assoc,
    List.take_append_drop]

end Lines

section Writing

variable {added : Nat → List Attribute} {p : Progress} {ls : List Lexeme} {front : List Char}

lemma Progress.gap_suffix_write (added : Nat → List Attribute) (ls : List Lexeme) (hgap : p.gap <:+ front) :
    (ls.foldl step p).gap <:+ front ++ p.write added ls := by
  induction ls generalizing p front with
  | nil => simpa [write] using hgap
  | cons l ls ih =>
    rw [List.foldl_cons, write, ← List.append_assoc]
    refine ih ?_
    change (if l.kind = .blank then p.gap ++ l.text else []) <:+ _
    split
    · next hl =>
      obtain ⟨before, rfl⟩ := hgap
      exact ⟨before, by simp [insertionBefore, tagEnd?_eq_none, LexemeKind.endsTag, hl]⟩
    · exact List.nil_suffix

lemma Progress.takeWhile_write (hspelled : ∀ l ∈ ls, l.Spelled)
    (h : ∀ c ∈ (Lexeme.texts ls).takeWhile (· ≠ '\n'), isBlank c) :
    (p.write added ls).takeWhile (· ≠ '\n') = (Lexeme.texts ls).takeWhile (· ≠ '\n') := by
  induction ls generalizing p with
  | nil => rfl
  | cons l ls ih =>
    have htexts : Lexeme.texts (l :: ls) = l.text ++ Lexeme.texts ls := rfl
    have hends : l.kind.endsTag = false := by
      by_contra hends
      rcases (hspelled l (by simp)).ends (by simpa using hends) with rfl | rfl
      · exact absurd (h '>' (by simp [htexts])) (by decide)
      · exact absurd (h '/' (by simp [htexts])) (by decide)
    have hbefore : p.insertionBefore added l = [] := by simp [insertionBefore, tagEnd?_eq_none hends]
    rw [write, hbefore, List.nil_append, htexts]
    rw [htexts, List.takeWhile_append] at h
    rw [List.takeWhile_append, List.takeWhile_append]
    split at h
    · next hlength =>
      rw [if_pos hlength, if_pos hlength, ih (fun m hm => hspelled m (List.mem_cons_of_mem _ hm))
        fun c hc => h c (List.mem_append_right _ hc)]
    · next hlength => rw [if_neg hlength, if_neg hlength]

end Writing

namespace OpeningTag

section Places

variable {ls : List Lexeme} (t : OpeningTag ls)

def last? : Option Lexeme := (solid t.inside.surface).getLast?

def lastPlace : Nat := (Lexeme.texts (t.start ++ t.inside.surface.rdropWhile (·.kind = .blank))).length

def attributePlace : Nat := (Lexeme.texts (t.start ++ beforeLastName t.inside.surface)).length

def place : Nat := (Lexeme.texts (t.start ++ t.inside.lexemes)).length

def column (source : List Char) : Nat :=
  if t.last?.any (·.kind.endsAttribute) then
    max (columnAt source t.attributePlace) (columnAt source t.place)
  else columnAt source t.place + 2

lemma closer_le_column (source : List Char) : columnAt source t.place ≤ t.column source := by
  unfold column
  split
  · exact Nat.le_max_right _ _
  · exact Nat.le_add_right _ _

lemma split_eq : t.start ++ t.inside.lexemes ++ t.token :: t.after = ls := by
  simp [← t.lexemes_eq, start]

lemma progress_gap : t.progress.gap = trailing t.inside.surface := by
  rw [progress, List.foldl_append, start, List.foldl_concat]
  have hopened : ((t.front.foldl Progress.step .initial).step ⟨.tagOpen, t.opening⟩).gap = trailing [] := rfl
  exact Progress.foldl_nesting_gap t.inside hopened

lemma progress_offset : t.progress.offset = t.place := by
  rw [progress, Progress.foldl_step_offset, place]
  exact Nat.zero_add _

variable {source : List Char} (hsource : Lexeme.texts ls = source)

include hsource

lemma source_eq :
    source = Lexeme.texts (t.start ++ t.inside.lexemes) ++ (t.token.text ++ Lexeme.texts t.after) := by
  have htexts : Lexeme.texts ls = Lexeme.texts (t.start ++ t.inside.lexemes ++ t.token :: t.after) :=
    congrArg Lexeme.texts t.split_eq.symm
  rw [← hsource, htexts, texts_append]
  rfl

lemma exists_source_eq {seen : List Lexeme} (h : seen <+: t.inside.surface) :
    ∃ lower, source = Lexeme.texts (t.start ++ seen) ++ lower := by
  obtain ⟨more, hmore⟩ := h
  refine ⟨Lexeme.texts more ++ (t.token.text ++ Lexeme.texts t.after), ?_⟩
  rw [t.source_eq hsource, texts_append, ← t.inside.texts_surface, ← hmore, texts_append, texts_append]
  simp only [List.append_assoc]

lemma columnAt_attributePlace : columnAt source t.attributePlace =
    columnAfter (columnAfter 0 (Lexeme.texts t.start)) (Lexeme.texts (beforeLastName t.inside.surface)) := by
  obtain ⟨lower, hlower⟩ := t.exists_source_eq hsource (beforeLastName_isPrefix t.inside.surface)
  rw [hlower, attributePlace, columnAt_append, texts_append, columnAfter_append]

lemma columnAt_place : columnAt source t.place = t.progress.column := by
  rw [t.source_eq hsource, place, columnAt_append, progress, Progress.foldl_step_column]
  rfl

lemma newline_mem_gap (h : lineAt source t.lastPlace < lineAt source t.place) : '\n' ∈ t.progress.gap := by
  have habove := List.rdropWhile_prefix (·.kind = .blank) t.inside.surface
  obtain ⟨lower, hlower⟩ := t.exists_source_eq hsource habove
  have hlast : lineAt source t.lastPlace =
      (Lexeme.texts (t.start ++ t.inside.surface.rdropWhile (·.kind = .blank))).count '\n' := by
    rw [hlower, lastPlace, lineAt_append]
  have hplace : lineAt source t.place = (Lexeme.texts (t.start ++ t.inside.lexemes)).count '\n' := by
    rw [t.source_eq hsource, place, lineAt_append]
  have hsplit : Lexeme.texts (t.start ++ t.inside.lexemes) =
      Lexeme.texts (t.start ++ t.inside.surface.rdropWhile (·.kind = .blank)) ++ t.progress.gap := by
    rw [texts_append, texts_append, progress_gap, trailing, List.append_assoc,
      ← texts_append (List.rdropWhile _ _), List.rdropWhile_append_rtakeWhile, t.inside.texts_surface]
  rw [hlast, hplace, hsplit, List.count_append] at h
  exact List.count_pos_iff.mp (by omega)

lemma drop_token : source.drop (t.place + t.token.text.length) = Lexeme.texts t.after := by
  rw [t.source_eq hsource, place, ← List.drop_drop, List.drop_left, List.drop_left]

lemma exists_line (hspelled : ∀ l ∈ ls, l.Spelled) (added : Nat → List Attribute)
    (h : '\n' ∈ t.progress.gap) :
    ∃ upper indent, Indents (columnAt source t.place) indent ∧ lineBefore source t.place = indent ∧
      Progress.initial.write added (t.start ++ t.inside.lexemes) = upper ++ '\n' :: indent := by
  obtain ⟨front, indent, hline, hgap⟩ := exists_lastLine h
  have hinside : ∀ l ∈ t.start ++ t.inside.lexemes, l.Spelled := fun l hl =>
    hspelled l (t.split_eq ▸ List.mem_append_left _ hl)
  obtain ⟨⟨before, hbefore⟩, hblank⟩ := Progress.gap_suffix (p := .initial) [] hinside List.nil_suffix
    (by simp [Progress.initial])
  have hinitial : Progress.initial.gap <:+ [] := List.nil_suffix
  obtain ⟨upper, hupper⟩ := Progress.gap_suffix_write added (t.start ++ t.inside.lexemes) hinitial
  change before ++ t.progress.gap = _ at hbefore
  change upper ++ t.progress.gap = _ at hupper
  rw [hgap, ← List.append_assoc, List.nil_append] at hbefore hupper
  have hlineBefore : lineBefore source t.place = indent := by
    rw [t.source_eq hsource, place, lineBefore_append, ← hbefore, rtakeWhile_line _ hline]
  refine ⟨upper ++ front, indent, ⟨by rw [columnAt, hlineBefore], fun c hc => hblank c ?_, hline⟩,
    hlineBefore, hupper.symm⟩
  change c ∈ t.progress.gap
  simp [hgap, hc]

lemma layout_eq {e : OpenElement} (hlast : t.last?.isSome)
    (hearlier : lineAt source t.lastPlace < lineAt source t.place)
    (hknows : e.Knows (columnAfter 0 (Lexeme.texts t.start)) t.inside.surface) :
    t.progress.layout e = some (.ownLine (t.column source) (columnAt source t.place)) := by
  obtain ⟨l, hl⟩ := Option.isSome_iff_exists.mp hlast
  have hgap := t.newline_mem_gap hsource hearlier
  rw [last?] at hl
  unfold OpenElement.Knows at hknows
  simp only [hl, ← t.columnAt_attributePlace hsource] at hknows
  rw [t.columnAt_place hsource, column, last?, hl, Option.any_some, t.columnAt_place hsource]
  split at hknows
  · next hends => simp [Progress.layout, hgap, hknows, hends]
  · next hends => simp [Progress.layout, hgap, hknows, hends]

end Places

end OpeningTag

namespace Document

variable {language : Language} {source : List Char} {added : Nat → List Attribute}

lemma tagEnd?_openingTag (h : accepts language source) (t : OpeningTag (lexemes language source))
    {e : OpenElement} {es : List OpenElement} (hes : t.progress.openElements = e :: es)
    (hindex : e.index = t.element) :
    (read language source).tagEnd? t.element =
      some ⟨t.element, t.place, t.token.text, e.named, t.progress.layout e⟩ := by
  have hmem : (⟨t.element, t.place, t.token.text, e.named, t.progress.layout e⟩ : TagEnd) ∈
      (read language source).tagEnds := by
    have hsplit : (read language source).tagEnds =
        Progress.initial.tagEnds (t.start ++ t.inside.lexemes ++ t.token :: t.after) :=
      congrArg Progress.initial.tagEnds t.split_eq.symm
    rw [hsplit, Progress.tagEnds_append, Progress.tagEnds]
    change _ ∈ _ ++ ((t.progress.tagEnd? t.token).toList ++ _)
    rw [Progress.tagEnd?_of_endsTag t.endsTag hes, hindex, t.progress_offset]
    simp
  cases hfind : (read language source).tagEnd? t.element with
  | none => simpa using List.find?_eq_none.mp hfind _ hmem
  | some u =>
    have helement : u.element = t.element := by simpa using List.find?_some hfind
    rw [List.inj_on_of_nodup_map (tagEnds_of_accepts h).1 (List.mem_of_find?_eq_some hfind) hmem helement]

lemma render_openingTag (h : accepts language source) (t : OpeningTag (lexemes language source))
    {e : OpenElement} {es : List OpenElement} {layout : Layout} (hes : t.progress.openElements = e :: es)
    (hindex : e.index = t.element) (hlayout : t.progress.layout e = some layout) :
    (read language source).render added =
      Progress.initial.write added (t.start ++ t.inside.lexemes) ++
        (layout.insertion t.token.text (added t.element) ++
          (t.token.text ++ (t.progress.step t.token).write added t.after)) := by
  obtain ⟨hnodup, hlt⟩ := tagEnds_of_accepts h
  have hrender : (read language source).render added =
      Progress.initial.write added (t.start ++ t.inside.lexemes ++ t.token :: t.after) :=
    (render_eq_write language added (fun l hl => spelled_of_mem_lexemes hl) hnodup hlt).trans
      (congrArg _ t.split_eq.symm)
  have hbefore : t.progress.insertionBefore added t.token =
      layout.insertion t.token.text (added t.element) := by
    simp [Progress.insertionBefore, Progress.tagEnd?_of_endsTag t.endsTag hes, TagEnd.insertion, hlayout,
      hindex]
  rw [hrender, Progress.write_append, Progress.write, ← hbefore, List.append_assoc]
  rfl

/-- Every element that is read has its opening tag. Where a tag ends on a later line than its last item,
only blanks stand in front of its end there. What the edit cuts off are spaces, each of the added
attributes begins a line, all in one column, and the end of the tag begins a line in its old column. It
stands alone there if it did. -/
theorem render_ownLines (h : accepts language source) :
    let d := read language source
    (∀ i < d.forest.size, ∃ t : OpeningTag (lexemes language source), t.element = i) ∧
    ∀ (t : OpeningTag (lexemes language source)) (added : Nat → List Attribute),
      let new := d.render added
      let closer := columnAt source t.place
      let behind := lineBehind source (t.place + t.token.text.length)
      Assigns t.inside.surface → t.last?.isSome → lineAt source t.lastPlace < lineAt source t.place →
      added t.element ≠ [] →
      (∀ c ∈ lineBefore source t.place, isBlank c) ∧
      (∃ text, (d.tagEnd? t.element).bind (·.edit? (added t.element)) =
          some ⟨t.place, t.place + t.token.text.length, text⟩ ∧
        spaces closer ++ text = ['\n'].intercalate
          (((added t.element).map fun a => spaces (t.column source) ++ a.markup) ++
            [spaces closer ++ t.token.text])) ∧
      ∃ places closing,
        List.Forall₂ (fun a q => BeginsLine new q (t.column source) a.markup) (added t.element) places ∧
        BeginsLine new closing closer t.token.text ∧
        ((places ++ [closing]).Pairwise fun q r => lineAt new q < lineAt new r) ∧
        ((∀ c ∈ behind, isBlank c) → lineBehind new (closing + t.token.text.length) = behind) := by
  refine ⟨fun i hi => exists_openingTag h hi, fun t added => ?_⟩
  intro new closer behind hassigns hlast hearlier hadded
  have hspelled : ∀ l ∈ lexemes language source, l.Spelled := fun l hl => spelled_of_mem_lexemes hl
  have hsource : Lexeme.texts (lexemes language source) = source := texts_lexemes language source
  obtain ⟨e, es, hes, hindex, hknows⟩ := t.exists_knows h hassigns
  have hlayout := t.layout_eq hsource hlast hearlier hknows
  have hle := t.closer_le_column source
  obtain ⟨upper, indent, hindent, hbefore, hupper⟩ := t.exists_line hsource hspelled added
    (t.newline_mem_gap hsource hearlier)
  refine ⟨hbefore ▸ hindent.blank, ⟨_, ?_, Layout.spaces_replacement t.token.text hadded hle⟩, ?_⟩
  · rw [tagEnd?_openingTag h t hes hindex, hlayout, Option.bind_some, TagEnd.edit?,
      if_neg (by simpa using hadded)]
    rfl
  obtain ⟨a, more, ha⟩ := List.exists_cons_of_ne_nil hadded
  let lines := (indent ++ spaces (t.column source - closer), a.markup) ::
    more.map fun b => (spaces (t.column source), b.markup)
  have hlines : ∀ line ∈ lines, Indents (t.column source) line.1 := by
    refine List.forall_mem_cons.mpr ⟨?_, List.forall_mem_map.mpr fun b _ => .spaces _⟩
    have hfirst := hindent.append (n := t.column source - closer)
    rwa [Nat.add_sub_cancel' hle] at hfirst
  have hpieces : lines.map Prod.snd = (added t.element).map Attribute.markup := by
    simp [lines, ha]
  have hnew : new = upper ++ stacked lines ++ '\n' :: spaces closer ++
      (t.token.text ++ (t.progress.step t.token).write added t.after) := by
    rw [List.append_assoc upper, ← Layout.insertion_eq_stacked t.token.text, ← ha,
      ← List.append_assoc upper, ← hupper, List.append_assoc]
    exact render_openingTag h t hes hindex hlayout
  obtain ⟨places, closing, hbegins, hclosing, hordered, hdrop⟩ :=
    exists_lines upper t.token.text _ hlines hnew
  refine ⟨places, closing, ?_, hclosing, hordered, fun hblank => ?_⟩
  · have hmarkups : List.Forall₂ (fun piece q => BeginsLine new q (t.column source) piece)
        (lines.map Prod.snd) places := List.forall₂_map_left_iff.mpr hbegins
    rw [hpieces] at hmarkups
    exact List.forall₂_map_left_iff.mp hmarkups
  · simp only [behind, lineBehind, t.drop_token hsource] at hblank ⊢
    rw [hdrop]
    exact Progress.takeWhile_write (fun l hl => hspelled l (t.split_eq ▸ by simp [hl])) hblank

theorem render_ownLines_value :
    let source := "x = <A\n    b=\x7b<C/>\x7d\n  />;\n".toList
    let added : Nat → List Attribute :=
      fun i => if i = 0 then [⟨"k", some (.text "v\nw")⟩, ⟨"m", none⟩] else []
    let new := (read .tsx source).render added
    accepts .tsx source ∧ ∃ t : OpeningTag (lexemes .tsx source),
      Assigns t.inside.surface ∧ t.last?.isSome ∧ lineAt source t.lastPlace < lineAt source t.place ∧
      added t.element ≠ [] ∧ t.column source = 4 ∧ columnAt source t.place = 2 ∧
      ∃ places closing,
        List.Forall₂ (fun a q => BeginsLine new q 4 a.markup) (added t.element) places ∧
        BeginsLine new closing 2 t.token.text ∧
        (places ++ [closing]).Pairwise fun q r => lineAt new q < lineAt new r := by
  intro source added new
  have h : accepts .tsx source := by decide +kernel
  let t : OpeningTag (lexemes .tsx source) := {
    front := [⟨.word, ['x']⟩, ⟨.blank, [' ']⟩, ⟨.punctuation, ['=']⟩, ⟨.blank, [' ']⟩]
    opening := ['<']
    inside := .token ⟨.tagName, ['A']⟩ rfl <| .token ⟨.blank, "\n    ".toList⟩ rfl <|
      .token ⟨.attributeName, ['b']⟩ rfl <| .token ⟨.equals, ['=']⟩ rfl <|
      .token ⟨.containerOpen .value, ['\x7b']⟩ rfl <|
      .closed ['<'] (.token ⟨.tagName, ['C']⟩ rfl .nil) ['/', '>'] <|
      .token ⟨.containerClose .value, ['\x7d']⟩ rfl <| .token ⟨.blank, "\n  ".toList⟩ rfl .nil
    token := ⟨.selfClose, ['/', '>']⟩
    after := [⟨.punctuation, [';']⟩, ⟨.blank, ['\n']⟩]
    endsTag := rfl
    lexemes_eq := by decide +kernel }
  have hassigns : Assigns t.inside.surface := by decide
  have hlast : t.last?.isSome := by decide
  have hearlier : lineAt source t.lastPlace < lineAt source t.place := by decide
  have hadded : added t.element ≠ [] := by decide
  have hcolumn : t.column source = 4 := by decide
  have hcloser : columnAt source t.place = 2 := by decide
  obtain ⟨-, -, places, closing, hbegins, hclosing, hordered, -⟩ :=
    (render_ownLines h).2 t added hassigns hlast hearlier hadded
  exact ⟨h, t, hassigns, hlast, hearlier, hadded, hcolumn, hcloser, places, closing, hcolumn ▸ hbegins,
    hcloser ▸ hclosing, hordered⟩

end Document

end MarkupLabels.Source
