import Mathlib
import MarkupLabels.Source.Insertion
import MarkupLabels.Proofs.Source.Tokens

/-! The text of a document is written as its lexemes are read: each is copied, and the attributes of
an element are put in front of the token that ends its tag. Making the edits comes to the same. -/

namespace MarkupLabels.Source

namespace Layout

def lead : Layout → List Char
  | .adjacent => [' ']
  | .spaced => []
  | .ownLine attributes closer => spaces (attributes - closer)

def separator : Layout → List Char
  | .ownLine attributes _ => '\n' :: spaces attributes
  | _ => [' ']

def trail (token : List Char) : Layout → List Char
  | .adjacent => if token = ['>'] then [] else [' ']
  | .spaced => [' ']
  | .ownLine _ closer => '\n' :: spaces closer

def insertion (layout : Layout) (token : List Char) : List Attribute → List Char
  | [] => []
  | a :: more =>
    layout.lead ++ a.markup ++ more.flatMap (fun b => layout.separator ++ b.markup) ++
      layout.trail token

lemma isBlank_space : isBlank ' ' = true := by decide

lemma isBlank_newline : isBlank '\n' = true := by decide

lemma isBlank_of_mem_spaces {n : Nat} {c : Char} (h : c ∈ spaces n) : isBlank c := by
  obtain rfl := List.eq_of_mem_replicate h
  exact isBlank_space

lemma lead_blank (layout : Layout) : ∀ c ∈ layout.lead, isBlank c := by
  cases layout with
  | adjacent => simp [lead, isBlank_space]
  | spaced => simp [lead]
  | ownLine attributes closer => exact fun c => isBlank_of_mem_spaces

lemma separator_blank (layout : Layout) : ∀ c ∈ layout.separator, isBlank c := by
  cases layout with
  | adjacent => simp [separator, isBlank_space]
  | spaced => simp [separator, isBlank_space]
  | ownLine attributes closer =>
    rintro c (_ | ⟨_, hc⟩)
    · exact isBlank_newline
    · exact isBlank_of_mem_spaces hc

lemma separator_ne_nil (layout : Layout) : layout.separator ≠ [] := by
  cases layout <;> simp [separator]

lemma trail_blank (layout : Layout) (token : List Char) : ∀ c ∈ layout.trail token, isBlank c := by
  cases layout with
  | adjacent =>
    simp only [trail]
    split <;> simp [isBlank_space]
  | spaced => simp [trail, isBlank_space]
  | ownLine attributes closer =>
    rintro c (_ | ⟨_, hc⟩)
    · exact isBlank_newline
    · exact isBlank_of_mem_spaces hc

def Fits : Layout → Prop
  | .ownLine attributes closer => closer ≤ attributes
  | _ => True

lemma lines_eq (column : Nat) (markups : List (List Char)) (last : List Char) :
    ['\n'].intercalate (markups.map (spaces column ++ ·) ++ [last]) =
      markups.flatMap (fun m => spaces column ++ m ++ ['\n']) ++ last := by
  induction markups with
  | nil => simp
  | cons m markups ih =>
    rw [List.map_cons, List.cons_append, List.intercalate_cons_of_ne_nil (by simp), ih]
    simp

lemma intercalate_markups (separator : List Char) (a : Attribute) (more : List Attribute) :
    separator.intercalate ((a :: more).map Attribute.markup) =
      a.markup ++ more.flatMap fun b => separator ++ b.markup := by
  induction more generalizing a with
  | nil => simp
  | cons b more ih =>
    rw [List.map_cons, List.intercalate_cons_of_ne_nil (by simp), ih]
    simp

lemma lines_shift (column : Nat) (a : Attribute) (more : List Attribute) :
    (a :: more).flatMap (fun b => spaces column ++ b.markup ++ ['\n']) =
      spaces column ++ a.markup ++ more.flatMap (fun b => '\n' :: spaces column ++ b.markup) ++
        ['\n'] := by
  induction more generalizing a with
  | nil => simp
  | cons b more ih =>
    rw [List.flatMap_cons, ih]
    simp

lemma replacement_eq (layout : Layout) (token : List Char) (added : List Attribute)
    (hfits : layout.Fits) (hadded : added ≠ []) :
    layout.replacement token (added.map Attribute.markup) = layout.insertion token added ++ token := by
  obtain ⟨a, more, rfl⟩ := List.exists_cons_of_ne_nil hadded
  cases layout with
  | adjacent =>
    simp only [replacement, intercalate_markups]
    simp [insertion, lead, separator, trail]
  | spaced =>
    simp only [replacement, intercalate_markups]
    simp [insertion, lead, separator, trail]
  | ownLine attributes closer =>
    have hlines := lines_eq attributes ((a :: more).map Attribute.markup) (spaces closer ++ token)
    rw [List.flatMap_map, lines_shift] at hlines
    have hcut : (spaces attributes).drop closer = spaces (attributes - closer) := by
      simp [spaces]
    have hlength : closer ≤ (spaces attributes).length := by simpa [spaces, Fits] using hfits
    simp only [replacement, hlines, List.append_assoc, List.drop_append_of_le_length hlength, hcut]
    simp [insertion, lead, separator, trail]

end Layout

def TagEnd.insertion (t : TagEnd) (added : List Attribute) : List Char :=
  (t.layout.map fun layout => layout.insertion t.token added).getD []

namespace Progress

def insertionBefore (added : Nat → List Attribute) (p : Progress) (l : Lexeme) : List Char :=
  ((p.tagEnd? l).map fun t => t.insertion (added t.element)).getD []

def write (added : Nat → List Attribute) (p : Progress) : List Lexeme → List Char
  | [] => []
  | l :: rest => p.insertionBefore added l ++ l.text ++ (p.step l).write added rest

variable {added : Nat → List Attribute} {p : Progress} {l : Lexeme} {ls : List Lexeme} {t : TagEnd}

lemma layout_fits {e : OpenElement} {layout : Layout} (h : p.layout e = some layout) :
    layout.Fits := by
  unfold Progress.layout at h
  split at h
  · simp at h
  · split at h
    · split at h <;> obtain rfl := Option.some.inj h
      · exact Nat.le_max_right _ _
      · exact Nat.le_add_right _ _
    · split at h <;> obtain rfl := Option.some.inj h <;> trivial

lemma layout_gap {e : OpenElement} {layout : Layout} (h : p.layout e = some layout) :
    layout = .adjacent ∨ p.gap ≠ [] := by
  by_cases hgap : p.gap = []
  · left
    unfold Progress.layout at h
    split at h
    · simp at h
    · simpa [hgap, eq_comm] using h
  · exact .inr hgap

lemma step_offset : (p.step l).offset = p.offset + l.text.length := rfl

lemma tagEnd?_eq_some (h : p.tagEnd? l = some t) :
    (l.kind = .tagEnd ∨ l.kind = .selfClose) ∧ ∃ e rest, p.openElements = e :: rest ∧
      t = { element := e.index, offset := p.offset, token := l.text, named := e.named,
            layout := p.layout e } := by
  unfold tagEnd? at h
  split at h
  · next hk =>
    cases ho : p.openElements with
    | nil => simp [ho] at h
    | cons e rest => exact ⟨.inl hk, e, rest, rfl, by simpa [ho, eq_comm] using h⟩
  · next hk =>
    cases ho : p.openElements with
    | nil => simp [ho] at h
    | cons e rest => exact ⟨.inr hk, e, rest, rfl, by simpa [ho, eq_comm] using h⟩
  · simp at h

lemma tagEnd?_eq_none (hl : l.kind.endsTag = false) : p.tagEnd? l = none := by
  unfold tagEnd?
  split <;> simp_all [LexemeKind.endsTag]

lemma tagEnd?_of_endsTag {e : OpenElement} {es : List OpenElement} (hl : l.kind.endsTag)
    (hes : p.openElements = e :: es) :
    p.tagEnd? l = some ⟨e.index, p.offset, l.text, e.named, p.layout e⟩ := by
  unfold LexemeKind.endsTag at hl
  unfold tagEnd?
  split at hl <;> simp_all

lemma tagEnds_append (p : Progress) (as bs : List Lexeme) :
    p.tagEnds (as ++ bs) = p.tagEnds as ++ (as.foldl step p).tagEnds bs := by
  induction as generalizing p with
  | nil => rfl
  | cons l as ih => rw [List.cons_append, tagEnds, ih, tagEnds, List.foldl_cons, List.append_assoc]

lemma write_append (p : Progress) (as bs : List Lexeme) :
    p.write added (as ++ bs) = p.write added as ++ (as.foldl step p).write added bs := by
  induction as generalizing p with
  | nil => rfl
  | cons l as ih => simp only [List.cons_append, write, ih, List.foldl_cons, List.append_assoc]

lemma tagEnds_of_not_endsTag (h : ∀ l ∈ ls, l.kind.endsTag = false) : p.tagEnds ls = [] := by
  induction ls generalizing p with
  | nil => rfl
  | cons l ls ih =>
    rw [tagEnds, tagEnd?_eq_none (h l (by simp)), ih fun m hm => h m (List.mem_cons_of_mem _ hm)]
    rfl

lemma write_of_not_endsTag (h : ∀ l ∈ ls, l.kind.endsTag = false) :
    p.write added ls = Lexeme.texts ls := by
  induction ls generalizing p with
  | nil => rfl
  | cons l ls ih =>
    rw [write, insertionBefore, tagEnd?_eq_none (h l (by simp)),
      ih fun m hm => h m (List.mem_cons_of_mem _ hm)]
    rfl

lemma offset_le_of_mem_tagEnds (h : t ∈ p.tagEnds ls) : p.offset ≤ t.offset := by
  induction ls generalizing p with
  | nil => simp [tagEnds] at h
  | cons l ls ih =>
    rw [tagEnds, List.mem_append] at h
    rcases h with h | h
    · obtain ⟨-, e, rest, -, rfl⟩ := tagEnd?_eq_some (Option.mem_toList.mp h)
      exact le_rfl
    · have := ih h
      rw [step_offset] at this
      omega

end Progress

namespace TagEnd

lemma edit?_eq (t : TagEnd) (added : List Attribute) (hfits : ∀ layout ∈ t.layout, layout.Fits) :
    t.edit? added = if added = [] then none else t.layout.map fun _ =>
      { start := t.offset
        stop := t.offset + t.token.length
        text := t.insertion added ++ t.token } := by
  unfold edit?
  by_cases ha : added = []
  · simp [ha]
  · rw [if_neg (by simpa using ha), if_neg ha]
    cases hl : t.layout with
    | none => rfl
    | some layout =>
      simp [insertion, hl, layout.replacement_eq t.token added (hfits layout (by simp [hl])) ha]

end TagEnd

lemma Edit.makeAll_append {position : Nat} {t r : List Char} {edits : List Edit}
    (h : ∀ e ∈ edits.head?, position + t.length ≤ e.start ∧ e.start ≤ e.stop) :
    Edit.makeAll position (t ++ r) edits = t ++ Edit.makeAll (position + t.length) r edits := by
  cases edits with
  | nil => rfl
  | cons e edits =>
    obtain ⟨hstart, hstop⟩ := h e (by simp)
    have htake : (t ++ r).take (e.start - position) =
        t ++ r.take (e.start - (position + t.length)) := by
      rw [List.take_append, List.take_of_length_le (by omega), Nat.sub_sub]
    have hdrop : (t ++ r).drop (e.stop - position) = r.drop (e.stop - (position + t.length)) := by
      rw [List.drop_append, List.drop_of_length_le (by omega), List.nil_append, Nat.sub_sub]
    simp only [Edit.makeAll, htake, hdrop, if_neg (show ¬ e.start < position by omega),
      if_neg (show ¬ e.start < position + t.length by omega), List.append_assoc]

lemma Edit.makeAll_here {t r : List Char} {e : Edit} {edits : List Edit}
    (h : e.stop = e.start + t.length) :
    Edit.makeAll e.start (t ++ r) (e :: edits) = e.text ++ Edit.makeAll (e.start + t.length) r edits := by
  simp [Edit.makeAll, h]

namespace Progress

variable {added : Nat → List Attribute} {p : Progress} {ls : List Lexeme}

def editsIn (added : Nat → List Attribute) (p : Progress) (ls : List Lexeme) : List Edit :=
  (p.tagEnds ls).filterMap fun t => t.edit? (added t.element)

lemma edit?_of_tagEnd? (added : Nat → List Attribute) {l : Lexeme} {t : TagEnd} (h : p.tagEnd? l = some t) :
    (∃ e, t.edit? (added t.element) = some e ∧ e.start = p.offset ∧ e.stop = p.offset + l.text.length ∧
      e.text = p.insertionBefore added l ++ l.text) ∨
    (t.edit? (added t.element) = none ∧ p.insertionBefore added l = []) := by
  have hbefore : p.insertionBefore added l = t.insertion (added t.element) := by
    simp [insertionBefore, h]
  obtain ⟨-, e, rest, -, rfl⟩ := tagEnd?_eq_some h
  rw [hbefore, TagEnd.edit?_eq _ _ fun layout hl => layout_fits hl]
  by_cases ha : added e.index = []
  · right
    cases hl : p.layout e <;> simp [ha, TagEnd.insertion, Layout.insertion]
  · cases hl : p.layout e with
    | none => exact .inr (by simp [TagEnd.insertion])
    | some layout => exact .inl (by simp [ha])

lemma le_start_of_mem_editsIn (added : Nat → List Attribute) {e : Edit} (h : e ∈ p.editsIn added ls) :
    p.offset ≤ e.start ∧ e.start ≤ e.stop := by
  obtain ⟨t, ht, he⟩ := List.mem_filterMap.mp h
  have hoffset := offset_le_of_mem_tagEnds ht
  have hstart : e.start = t.offset ∧ e.stop = t.offset + t.token.length := by
    unfold TagEnd.edit? at he
    split at he
    · simp at he
    · obtain ⟨layout, -, rfl⟩ := Option.map_eq_some_iff.mp he
      exact ⟨rfl, rfl⟩
  omega

lemma makeAll_editsIn (added : Nat → List Attribute) (p : Progress) (ls : List Lexeme) :
    Edit.makeAll p.offset (Lexeme.texts ls) (p.editsIn added ls) = p.write added ls := by
  -- Text in front of the next edit is copied, and an edit is made only where a lexeme ends a tag.
  induction ls generalizing p with
  | nil => rfl
  | cons l ls ih =>
    have htexts : Lexeme.texts (l :: ls) = l.text ++ Lexeme.texts ls := rfl
    have hlater : ∀ e ∈ ((p.step l).editsIn added ls).head?,
        p.offset + l.text.length ≤ e.start ∧ e.start ≤ e.stop :=
      fun e he => le_start_of_mem_editsIn added (List.mem_of_mem_head? he)
    have hnone : p.insertionBefore added l = [] →
        Edit.makeAll p.offset (Lexeme.texts (l :: ls)) ((p.step l).editsIn added ls) =
          p.write added (l :: ls) := by
      intro hempty
      rw [htexts, Edit.makeAll_append hlater, ← step_offset, ih, write, hempty, List.nil_append]
    cases ht : p.tagEnd? l with
    | none =>
      have hedits : p.editsIn added (l :: ls) = (p.step l).editsIn added ls := by
        simp [editsIn, tagEnds, ht]
      rw [hedits, hnone (by simp [insertionBefore, ht])]
    | some t =>
      rcases edit?_of_tagEnd? added ht with ⟨e, he, hstart, hstop, htext⟩ | ⟨he, hempty⟩
      · have hedits : p.editsIn added (l :: ls) = e :: (p.step l).editsIn added ls := by
          simp [editsIn, tagEnds, ht, he]
        rw [hedits, htexts, ← hstart, Edit.makeAll_here (by rw [hstart, hstop]), hstart, htext,
          ← step_offset, ih, write]
      · have hedits : p.editsIn added (l :: ls) = (p.step l).editsIn added ls := by
          simp [editsIn, tagEnds, ht, he]
        rw [hedits, hnone hempty]

end Progress

end MarkupLabels.Source
