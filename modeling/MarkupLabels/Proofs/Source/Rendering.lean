import Mathlib
import MarkupLabels.Proofs.Source.Edits
import MarkupLabels.Proofs.Source.OpenTags
import MarkupLabels.Proofs.Tree.Extension

namespace MarkupLabels.Source

structure Insertion where
  element : Nat
  offset : Nat
  text : List Char

namespace Insertion

def insertAll (position : Nat) (text : List Char) : List Insertion → List Char
  | [] => text
  | i :: rest =>
    text.take (i.offset - position) ++ i.text ++
      insertAll i.offset (text.drop (i.offset - position)) rest

def deleteAll (position : Nat) (text : List Char) : List Insertion → List Char
  | [] => text
  | i :: rest =>
    text.take (i.offset - position) ++
      deleteAll i.offset (text.drop (i.offset - position + i.text.length)) rest

lemma deleteAll_insertAll {position : Nat} {text : List Char} {insertions : List Insertion}
    (hsorted : insertions.Pairwise fun a b => a.offset ≤ b.offset)
    (hinside : ∀ i ∈ insertions, position ≤ i.offset ∧ i.offset ≤ position + text.length) :
    deleteAll position (insertAll position text insertions) insertions = text := by
  induction insertions generalizing position text with
  | nil => rfl
  | cons i rest ih =>
    obtain ⟨hlater, hsorted⟩ := List.pairwise_cons.mp hsorted
    obtain ⟨hstart, hstop⟩ := hinside i (by simp)
    have hfront : (text.take (i.offset - position)).length = i.offset - position := by
      rw [List.length_take]
      omega
    have hlaterInside : ∀ j ∈ rest, i.offset ≤ j.offset ∧
        j.offset ≤ i.offset + (text.drop (i.offset - position)).length := by
      intro j hj
      obtain ⟨-, hjstop⟩ := hinside j (List.mem_cons_of_mem _ hj)
      have := hlater j hj
      rw [List.length_drop]
      omega
    have hih := ih hsorted hlaterInside
    rw [insertAll, deleteAll]
    generalize insertAll i.offset (text.drop (i.offset - position)) rest = later at hih ⊢
    rw [List.append_assoc, List.take_append_of_le_length hfront.ge, List.take_take, Nat.min_self,
      ← List.drop_drop, List.drop_append_of_le_length hfront.ge, List.drop_of_length_le hfront.le,
      List.nil_append, List.drop_left, hih, List.take_append_drop]

lemma insertAll_append {position : Nat} {t r : List Char} {insertions : List Insertion}
    (h : ∀ i ∈ insertions.head?, position + t.length ≤ i.offset) :
    insertAll position (t ++ r) insertions = t ++ insertAll (position + t.length) r insertions := by
  cases insertions with
  | nil => rfl
  | cons i rest =>
    have hi : position + t.length ≤ i.offset := h i (by simp)
    rw [insertAll, insertAll, List.take_append, List.drop_append, List.take_of_length_le (by omega),
      List.drop_of_length_le (by omega), Nat.sub_sub]
    simp

end Insertion

/-- A text holds attributes and blanks. In front of each attribute there is a blank, which for the
first may be the last character before the text. -/
def Spaced (before : List Char) : List Attribute → List Char → Prop
  | [], text => ∀ c ∈ text, isBlank c
  | a :: more, text =>
    ∃ gap rest, text = gap ++ a.markup ++ rest ∧ (∀ c ∈ gap, isBlank c) ∧
      (∃ c, (before ++ gap).getLast? = some c ∧ isBlank c) ∧ Spaced a.markup more rest

def EndsTagAt (ls : List Lexeme) (element offset : Nat) : Prop :=
  ∃ before token after, ls = before ++ token :: after ∧
    (token = ⟨.tagEnd, ['>']⟩ ∨ token = ⟨.selfClose, ['/', '>']⟩) ∧
    (Lexeme.texts before).length = offset ∧
    (before.foldl Progress.step .initial).openElements.head?.map (·.index) = some element

namespace Layout

lemma exists_blank_getLast {before gap : List Char} (hgap : ∀ c ∈ gap, isBlank c) (hne : gap ≠ []) :
    ∃ c, (before ++ gap).getLast? = some c ∧ isBlank c := by
  refine ⟨gap.getLast hne, ?_, hgap _ (List.getLast_mem hne)⟩
  rw [List.getLast?_append_of_ne_nil _ hne, List.getLast?_eq_some_getLast hne]

lemma spaced_more (layout : Layout) (token before : List Char) (more : List Attribute) :
    Spaced before more
      (more.flatMap (fun b => layout.separator ++ b.markup) ++ layout.trail token) := by
  induction more generalizing before with
  | nil => exact layout.trail_blank token
  | cons b more ih =>
    refine ⟨layout.separator, _, ?_, layout.separator_blank,
      exists_blank_getLast layout.separator_blank layout.separator_ne_nil, ih b.markup⟩
    simp

lemma spaced_insertion (layout : Layout) (token before : List Char) (added : List Attribute)
    (hne : added ≠ [])
    (hbefore : layout = .adjacent ∨ ∃ c, before.getLast? = some c ∧ isBlank c) :
    Spaced before added (layout.insertion token added) := by
  obtain ⟨a, more, rfl⟩ := List.exists_cons_of_ne_nil hne
  refine ⟨layout.lead, more.flatMap (fun b => layout.separator ++ b.markup) ++ layout.trail token,
    by simp [insertion], layout.lead_blank, ?_, layout.spaced_more token _ more⟩
  by_cases hlead : layout.lead = []
  · rcases hbefore with rfl | hbefore
    · simp [lead] at hlead
    · rwa [hlead, List.append_nil]
  · exact exists_blank_getLast layout.lead_blank hlead

lemma insertion_ne_nil (layout : Layout) (token : List Char) {added : List Attribute}
    (hne : added ≠ []) : layout.insertion token added ≠ [] := by
  obtain ⟨a, more, rfl⟩ := List.exists_cons_of_ne_nil hne
  have hmarkup : a.markup ≠ [] := by
    unfold Attribute.markup
    simp only
    split
    · simp
    · split <;> simp
  simp [insertion, hmarkup]

end Layout

namespace Progress

variable {added : Nat → List Attribute} {p : Progress} {ls : List Lexeme} {l : Lexeme} {t : TagEnd}

def insertions (added : Nat → List Attribute) (p : Progress) (ls : List Lexeme) : List Insertion :=
  ((p.tagEnds ls).filter fun t => !(added t.element).isEmpty).map fun t =>
    { element := t.element, offset := t.offset, text := t.insertion (added t.element) }

lemma insertAll_insertions (added : Nat → List Attribute) (p : Progress) (ls : List Lexeme) :
    Insertion.insertAll p.offset (Lexeme.texts ls) (p.insertions added ls) = p.write added ls := by
  induction ls generalizing p with
  | nil => rfl
  | cons l ls ih =>
    have htexts : Lexeme.texts (l :: ls) = l.text ++ Lexeme.texts ls := rfl
    have hlater : ∀ i ∈ ((p.step l).insertions added ls).head?, p.offset + l.text.length ≤ i.offset := by
      intro i hi
      obtain ⟨t, ht, rfl⟩ := List.mem_map.mp (List.mem_of_mem_head? hi)
      exact offset_le_of_mem_tagEnds (List.mem_of_mem_filter ht)
    have hcopy : Insertion.insertAll p.offset (Lexeme.texts (l :: ls)) ((p.step l).insertions added ls) =
        l.text ++ (p.step l).write added ls := by
      rw [htexts, Insertion.insertAll_append hlater, ← step_offset, ih]
    cases ht : p.tagEnd? l with
    | none =>
      have hsame : p.insertions added (l :: ls) = (p.step l).insertions added ls := by
        simp [insertions, tagEnds, ht]
      rw [hsame, hcopy, write]
      simp [insertionBefore, ht]
    | some t =>
      have hbefore : p.insertionBefore added l = t.insertion (added t.element) := by
        simp [insertionBefore, ht]
      obtain ⟨-, e, rest, -, rfl⟩ := tagEnd?_eq_some ht
      rw [write, hbefore]
      by_cases ha : added e.index = []
      · have hsame : p.insertions added (l :: ls) = (p.step l).insertions added ls := by
          simp [insertions, tagEnds, ht, ha]
        rw [hsame, hcopy]
        cases hl : p.layout e <;> simp [TagEnd.insertion, Layout.insertion, ha]
      · have hcons : p.insertions added (l :: ls) =
            { element := e.index, offset := p.offset,
              text := TagEnd.insertion ⟨e.index, p.offset, l.text, e.named, p.layout e⟩
                (added e.index) } :: (p.step l).insertions added ls := by
          simp [insertions, tagEnds, ht, ha]
        rw [hcons, Insertion.insertAll]
        simp only [Nat.sub_self, List.take_zero, List.nil_append, List.drop_zero]
        rw [hcopy, List.append_assoc]

lemma gap_suffix (front : List Char) (hspelled : ∀ l ∈ ls, l.Spelled) (hgap : p.gap <:+ front)
    (hblank : ∀ c ∈ p.gap, isBlank c) :
    (ls.foldl step p).gap <:+ front ++ Lexeme.texts ls ∧ ∀ c ∈ (ls.foldl step p).gap, isBlank c := by
  induction ls generalizing p front with
  | nil => simpa [Lexeme.texts] using And.intro hgap hblank
  | cons l ls ih =>
    have htexts : front ++ Lexeme.texts (l :: ls) = (front ++ l.text) ++ Lexeme.texts ls := by
      simp [Lexeme.texts]
    have hstep : (p.step l).gap = if l.kind = .blank then p.gap ++ l.text else [] := rfl
    rw [htexts, List.foldl_cons]
    refine ih _ (fun m hm => hspelled m (List.mem_cons_of_mem _ hm)) ?_ ?_
    · obtain ⟨start, rfl⟩ := hgap
      rw [hstep]
      split
      · exact ⟨start, by simp⟩
      · exact List.nil_suffix
    · rw [hstep]
      split
      · next hk =>
        intro c hc
        rcases List.mem_append.mp hc with hc | hc
        · exact hblank c hc
        · exact (hspelled l (by simp)).blanks hk c hc
      · simp

lemma tagEnds_pairwise (hspelled : ∀ l ∈ ls, l.Spelled) :
    (p.tagEnds ls).Pairwise fun a b => a.offset < b.offset := by
  induction ls generalizing p with
  | nil => exact List.Pairwise.nil
  | cons l ls ih =>
    rw [tagEnds]
    refine List.pairwise_append.mpr ⟨?_, ih fun m hm => hspelled m (List.mem_cons_of_mem _ hm), ?_⟩
    · cases p.tagEnd? l <;> simp
    · intro a ha b hb
      obtain ⟨hkind, e, rest, -, rfl⟩ := tagEnd?_eq_some (Option.mem_toList.mp ha)
      have hlength : 0 < l.text.length := by
        rcases (hspelled l (by simp)).ends (by rcases hkind with h | h <;>
          simp [h, LexemeKind.endsTag]) with rfl | rfl <;> simp
      have := offset_le_of_mem_tagEnds hb
      rw [step_offset] at this
      change p.offset < b.offset
      omega

lemma exists_of_mem_insertions (hspelled : ∀ l ∈ ls, l.Spelled)
    (hlayout : ∀ t ∈ initial.tagEnds ls, added t.element ≠ [] → t.layout.isSome) {i : Insertion}
    (hi : i ∈ initial.insertions added ls) :
    i.text ≠ [] ∧ EndsTagAt ls i.element i.offset ∧
      Spaced ((Lexeme.texts ls).take i.offset) (added i.element) i.text := by
  obtain ⟨t, ht, rfl⟩ := List.mem_map.mp hi
  obtain ⟨ht, ha⟩ := List.mem_filter.mp ht
  have ha : added t.element ≠ [] := by simpa using ha
  obtain ⟨layout, hl⟩ := Option.isSome_iff_exists.mp (hlayout t ht ha)
  obtain ⟨before, token, after, rfl, htoken⟩ := exists_of_mem_tagEnds ht
  obtain ⟨hkind, e, rest, hes, rfl⟩ := tagEnd?_eq_some htoken
  have hends := (hspelled token (by simp)).ends
    (by rcases hkind with h | h <;> simp [h, LexemeKind.endsTag])
  have hoffset : (before.foldl step initial).offset = (Lexeme.texts before).length := by
    rw [foldl_step_offset]
    simp [initial]
  have htext : TagEnd.insertion ⟨e.index, (before.foldl step initial).offset, token.text, e.named,
      (before.foldl step initial).layout e⟩ (added e.index) =
        layout.insertion token.text (added e.index) := by
    simp only at hl
    simp [TagEnd.insertion, hl]
  have htake : (Lexeme.texts (before ++ token :: after)).take (before.foldl step initial).offset =
      Lexeme.texts before := by
    rw [hoffset]
    simp [Lexeme.texts]
  refine ⟨?_, ⟨before, token, after, rfl, hends, hoffset.symm, by simp [hes]⟩, ?_⟩
  · exact htext ▸ layout.insertion_ne_nil token.text ha
  · simp only at ha ⊢
    rw [htext, htake]
    refine layout.spaced_insertion _ _ _ ha ?_
    obtain ⟨hsuffix, hblank⟩ := gap_suffix (p := initial) []
      (fun l hl => hspelled l (List.mem_append_left _ hl)) List.nil_suffix (by simp [initial])
    refine (layout_gap hl).imp_right fun hgap => ?_
    obtain ⟨start, hstart⟩ := hsuffix
    rw [List.nil_append] at hstart
    rw [← hstart]
    exact Layout.exists_blank_getLast hblank hgap

end Progress

namespace Document

variable {language : Language} {source : List Char} {added : Nat → List Attribute} {i : Nat}

lemma tagEnds_of_accepts (h : accepts language source) :
    ((read language source).tagEnds.map (·.element)).Nodup ∧
      ∀ t ∈ (read language source).tagEnds, t.element < (read language source).forest.size := by
  constructor
  · exact (Progress.tagEnds_nodup (p := .initial) h .program List.nodup_nil (by simp)).1
  · exact fun t ht => Progress.element_lt (by simp [Progress.initial]) ht

lemma exists_of_isNamed {d : Document} (h : d.isNamed i) :
    ∃ t ∈ d.tagEnds, t.element = i ∧ t.named := by
  cases ht : d.tagEnd? i with
  | none => simp [isNamed, ht] at h
  | some t =>
    exact ⟨t, List.mem_of_find?_eq_some ht, by simpa using List.find?_some ht,
      by simpa [isNamed, ht] using h⟩

lemma addedIn_extend {d : Document} (h : ∀ i, added i ≠ [] → i < d.forest.size) :
    d.addedIn (d.forest.extend added) = added := by
  funext i
  by_cases hi : i < d.forest.size
  · simp [addedIn, Forest.extend_attributes hi]
  · have ha : added i = [] := by_contra fun ha => hi (h i ha)
    have hnone : (d.forest.extend added).attributes i = [] := by
      simp [Forest.attributes, List.getElem?_eq_none (show d.forest.elements.length ≤ i by
        simpa [Forest.size] using hi)]
    rw [addedIn, hnone, ha, List.drop_nil]

lemma renderWith_self (d : Document) : d.renderWith d.forest = d.source := by
  have hedits : d.edits (d.addedIn d.forest) = [] := by
    simp [edits, addedIn, TagEnd.edit?]
  simp [renderWith, render, hedits]

lemma lt_size_of_isNamed (h : accepts language source) (hi : (read language source).isNamed i) :
    i < (read language source).forest.size := by
  obtain ⟨t, ht, rfl, -⟩ := exists_of_isNamed hi
  exact (tagEnds_of_accepts h).2 t ht

lemma read_source : (read language source).source = source := texts_lexemes language source

lemma renderWith_extend_eq_write (h : accepts language source)
    (hnamed : ∀ i, added i ≠ [] → (read language source).isNamed i) :
    (read language source).renderWith ((read language source).forest.extend added) =
      Progress.initial.write added (lexemes language source) := by
  obtain ⟨hnodup, hlt⟩ := tagEnds_of_accepts h
  rw [renderWith, addedIn_extend fun i hi => lt_size_of_isNamed h (hnamed i hi)]
  exact render_eq_write language added (fun l hl => spelled_of_mem_lexemes hl) hnodup hlt

/-- Rendering a document whose elements were given attributes inserts one text for each of them, in
front of the token that ends its tag, and nothing else. -/
theorem renderWith_extend_insertions (h : accepts language source)
    (hnamed : ∀ i, added i ≠ [] → (read language source).isNamed i) :
    ∃ insertions : List Insertion,
      (read language source).renderWith ((read language source).forest.extend added) =
        Insertion.insertAll 0 source insertions ∧
      Insertion.deleteAll 0 ((read language source).renderWith
        ((read language source).forest.extend added)) insertions = source ∧
      (insertions.Pairwise fun a b => a.offset < b.offset) ∧
      (∀ i, (insertions.map (·.element)).count i = if added i = [] then 0 else 1) ∧
      (∀ s ∈ insertions, s.text ≠ [] ∧ EndsTagAt (lexemes language source) s.element s.offset ∧
        Spaced (source.take s.offset) (added s.element) s.text) ∧
      (read language source).renderWith (read language source).forest = source := by
  have hspelled : ∀ l ∈ lexemes language source, l.Spelled := fun l hl => spelled_of_mem_lexemes hl
  obtain ⟨hnodup, hlt⟩ := tagEnds_of_accepts h
  have hwrite := Progress.insertAll_insertions added .initial (lexemes language source)
  rw [texts_lexemes, ← renderWith_extend_eq_write h hnamed] at hwrite
  -- A tag that gets attributes has a name, so something has been read of it and it has a layout.
  have hlayout : ∀ t ∈ Progress.initial.tagEnds (lexemes language source),
      added t.element ≠ [] → t.layout.isSome := by
    intro t ht ha
    obtain ⟨t', ht', heq, hn⟩ := exists_of_isNamed (hnamed t.element ha)
    obtain rfl := List.inj_on_of_nodup_map hnodup ht' ht heq
    exact Progress.layout_of_named (by simp [Progress.initial]) ht hn
  have hsorted : (Progress.initial.insertions added (lexemes language source)).Pairwise
      fun a b => a.offset < b.offset :=
    List.pairwise_map.mpr ((Progress.tagEnds_pairwise hspelled).filter _)
  have helements : (Progress.initial.insertions added (lexemes language source)).map (·.element) =
      ((read language source).tagEnds.map (·.element)).filter fun i => !(added i).isEmpty := by
    rw [Progress.insertions, List.map_map, List.filter_map]
    rfl
  refine ⟨Progress.initial.insertions added (lexemes language source), hwrite.symm, ?_, ?_, ?_, ?_, ?_⟩
  · rw [← hwrite]
    refine Insertion.deleteAll_insertAll (hsorted.imp fun h => h.le) fun i hi => ?_
    obtain ⟨-, ⟨before, token, after, hls, -, hoffset, -⟩, -⟩ :=
      Progress.exists_of_mem_insertions hspelled hlayout hi
    have hlength := congrArg List.length (texts_lexemes language source)
    rw [hls, Lexeme.texts, List.flatMap_append, List.length_append] at hlength
    rw [Lexeme.texts] at hoffset
    omega
  · exact hsorted
  · intro i
    rw [List.Nodup.count (by rw [helements]; exact hnodup.filter _), helements]
    by_cases ha : added i = []
    · simp [ha]
    · obtain ⟨t, ht, rfl, -⟩ := exists_of_isNamed (hnamed i ha)
      have hmem : t.element ∈ (read language source).tagEnds.map (·.element) :=
        List.mem_map_of_mem ht
      simp [ha, hmem]
  · intro s hs
    have hs' := Progress.exists_of_mem_insertions hspelled hlayout hs
    rwa [texts_lexemes] at hs'
  · rw [renderWith_self, read_source]

theorem renderWith_extend_insertions_nested :
    let source := "  <A b=\x7b<C/>\x7d\n  />\n".toList
    let added : Nat → List Attribute := fun i => if i < 2 then [⟨"d", some (.text "e")⟩] else []
    accepts .tsx source ∧
      (∀ i, added i ≠ [] → (read .tsx source).isNamed i) ∧
      ∃ insertions : List Insertion, (read .tsx source).renderWith
        ((read .tsx source).forest.extend added) = Insertion.insertAll 0 source insertions := by
  intro source added
  have h : accepts .tsx source := by decide +kernel
  have hnamed : ∀ i, added i ≠ [] → (read .tsx source).isNamed i := by
    intro i hi
    have hlt : i < 2 := by
      by_contra hge
      exact hi (if_neg hge)
    have hboth : (read .tsx source).isNamed 0 ∧ (read .tsx source).isNamed 1 := by
      constructor <;> decide +kernel
    obtain rfl | rfl : i = 0 ∨ i = 1 := by omega
    · exact hboth.1
    · exact hboth.2
  obtain ⟨insertions, hrender, -⟩ := renderWith_extend_insertions h hnamed
  exact ⟨h, hnamed, insertions, hrender⟩

end Document

end MarkupLabels.Source
