import Mathlib
import MarkupLabels.Proofs.Source.OpenTags
import MarkupLabels.Proofs.Source.Rereading

namespace MarkupLabels.Source

namespace OpenElement

def bare (e : OpenElement) : OpenElement := { e with column := 0 }

variable {e f : OpenElement} {column : Nat} {l : Lexeme}

lemma step_bare : (e.step column l).bare = (e.bare.step 0 l).bare := by
  unfold step setValue bare
  repeat' split
  all_goals simp_all

lemma step_blank (hl : l.kind = .blank) : e.step column l = e := by
  unfold step
  rw [hl]
  cases e.slot <;> rfl

end OpenElement

namespace Progress

variable {p q : Progress} {l : Lexeme} {ls : List Lexeme}

def bare (p : Progress) : List OpenElement := p.openElements.map (·.bare)

lemma openElements_eq_nil (h : p.bare = q.bare) (hp : p.openElements = []) : q.openElements = [] := by
  unfold bare at h
  rwa [hp, List.map_nil, eq_comm, List.map_eq_nil_iff] at h

lemma exists_bare_cons {e : OpenElement} {es : List OpenElement} (h : p.bare = q.bare)
    (hp : p.openElements = e :: es) :
    ∃ f fs, q.openElements = f :: fs ∧ e.bare = f.bare ∧ es.map (·.bare) = fs.map (·.bare) := by
  unfold bare at h
  rw [hp, List.map_cons, eq_comm, List.map_eq_cons_iff] at h
  obtain ⟨f, fs, hq, hbare, hbelow⟩ := h
  exact ⟨f, fs, hq, hbare.symm, hbelow.symm⟩

lemma stepInner_bare (h : p.bare = q.bare) : (p.stepInner l).bare = (q.stepInner l).bare := by
  unfold bare
  rw [stepInner_openElements, stepInner_openElements]
  cases hp : p.openElements with
  | nil => simp [openElements_eq_nil h hp]
  | cons e es =>
    obtain ⟨f, fs, hq, hbare, hbelow⟩ := exists_bare_cons h hp
    rw [hq, List.modifyHead_cons, List.modifyHead_cons, List.map_cons, List.map_cons, hbelow,
      OpenElement.step_bare, hbare, ← OpenElement.step_bare]

lemma closeTag_bare (h : p.bare = q.bare) : p.closeTag.bare = q.closeTag.bare := by
  cases hp : p.openElements with
  | nil => simp [closeTag, hp, openElements_eq_nil h hp, bare]
  | cons e es =>
    obtain ⟨f, fs, hq, hbare, hbelow⟩ := exists_bare_cons h hp
    have hindex : e.index = f.index := show e.bare.index = f.bare.index by rw [hbare]
    simp [closeTag, hp, hq, bare, hbelow, hindex]

lemma closeTag_forest (h : p.bare = q.bare) (hforest : p.forest = q.forest) :
    p.closeTag.forest = q.closeTag.forest := by
  cases hp : p.openElements with
  | nil => simp [closeTag, hp, openElements_eq_nil h hp, hforest]
  | cons e es =>
    obtain ⟨f, fs, hq, hbare, -⟩ := exists_bare_cons h hp
    have hindex : e.index = f.index := show e.bare.index = f.bare.index by rw [hbare]
    have hname : e.name = f.name := show e.bare.name = f.bare.name by rw [hbare]
    have hattributes : e.attributes = f.attributes :=
      show e.bare.attributes = f.bare.attributes by rw [hbare]
    simp [closeTag, hp, hq, hindex, hname, hattributes, hforest]

lemma step_bare (h : p.bare = q.bare) (hsize : p.forest.size = q.forest.size) :
    (p.step l).bare = (q.step l).bare := by
  change (p.enter l).bare = (q.enter l).bare
  unfold enter
  split
  · have hinner := stepInner_bare (l := l) h
    unfold bare at hinner ⊢
    simp [openTag, stepInner_forest, hinner, hsize]
  · exact closeTag_bare h
  · have hclose := closeTag_bare h
    unfold bare at hclose ⊢
    simp [leave, hclose]
  · unfold bare at h ⊢
    simp [leave, h]
  · exact stepInner_bare h

lemma step_bare_endsTag {e f : OpenElement} {es fs : List OpenElement} (hl : l.kind.endsTag)
    (hp : p.openElements = e :: es) (hq : q.openElements = f :: fs) (hindex : e.index = f.index)
    (hbelow : es.map (·.bare) = fs.map (·.bare)) : (p.step l).bare = (q.step l).bare := by
  have hclose : p.closeTag.bare = q.closeTag.bare := by
    simp [closeTag, bare, hp, hq, hindex, hbelow]
  change (p.enter l).bare = (q.enter l).bare
  unfold LexemeKind.endsTag at hl
  split at hl
  · next hk => simpa only [enter, hk] using hclose
  · next hk =>
    unfold bare at hclose ⊢
    simp only [enter, hk, leave, List.map_drop, hclose]
  · simp at hl

lemma head_index (h : p.bare = q.bare) :
    p.openElements.head?.map (·.index) = q.openElements.head?.map (·.index) := by
  have hindex : ∀ p : Progress, p.openElements.head?.map (·.index) = p.bare.head?.map (·.index) := by
    intro p
    unfold bare
    cases p.openElements <;> rfl
  rw [hindex, hindex, h]

lemma step_forest_congr (h : p.bare = q.bare) (hforest : p.forest = q.forest) :
    (p.step l).forest = (q.step l).forest := by
  rw [step_forest, step_forest, closeTag_forest h hforest, hforest, head_index h]

lemma foldl_step_forest (h : p.bare = q.bare) (hforest : p.forest = q.forest) :
    (ls.foldl step p).forest = (ls.foldl step q).forest := by
  induction ls generalizing p q with
  | nil => exact hforest
  | cons l ls ih => exact ih (step_bare h (by rw [hforest])) (step_forest_congr h hforest)

def skip (p : Progress) (blanks : List Char) : Progress :=
  { p with
    offset := p.offset + blanks.length
    column := columnAfter p.column blanks
    gap := p.gap ++ blanks }

lemma step_eq_skip (hl : l.kind = .blank) : p.step l = p.skip l.text := by
  have hinner : p.enter l = p.stepInner l := by
    unfold enter
    rw [hl]
  have henter : p.enter l = p := by
    rw [hinner]
    unfold stepInner
    split
    · rfl
    · next e es hes => rw [OpenElement.step_blank hl, ← hes]
  rw [step, henter, if_pos hl]
  rfl

lemma step_blank (hl : l.kind = .blank) : (p.step l).bare = p.bare ∧ (p.step l).forest = p.forest := by
  rw [step_eq_skip hl]
  exact ⟨rfl, rfl⟩

end Progress

def solid (ls : List Lexeme) : List Lexeme := ls.filter (·.kind != .blank)

section Solid

variable {p : Progress} {l : Lexeme} {ls ms : List Lexeme} {context : Context} {language : Language}

lemma foldl_step_solid (p : Progress) (ls : List Lexeme) :
    ((solid ls).foldl Progress.step p).forest = (ls.foldl Progress.step p).forest := by
  induction ls generalizing p with
  | nil => rfl
  | cons l ls ih =>
    by_cases hl : l.kind = .blank
    · have hsolid : solid (l :: ls) = solid ls := by simp [solid, hl]
      obtain ⟨hbare, hforest⟩ := Progress.step_blank (p := p) hl
      rw [hsolid, List.foldl_cons, ← ih]
      exact Progress.foldl_step_forest hbare.symm hforest.symm
    · have hsolid : solid (l :: ls) = l :: solid ls := by simp [solid, hl]
      rw [hsolid, List.foldl_cons, List.foldl_cons, ih]

lemma ofLexemes_solid (comments : List Lexeme) (ls : List Lexeme) :
    NotedLexeme.ofLexemes comments (solid ls) = NotedLexeme.ofLexemes comments ls := by
  induction ls generalizing comments with
  | nil => rfl
  | cons l ls ih =>
    by_cases hl : l.kind = .blank
    · have hsolid : solid (l :: ls) = solid ls := by simp [solid, hl]
      rw [hsolid, ih]
      simp [NotedLexeme.ofLexemes, Lexeme.isSignificant, hl]
    · have hsolid : solid (l :: ls) = l :: solid ls := by simp [solid, hl]
      rw [hsolid, NotedLexeme.ofLexemes, NotedLexeme.ofLexemes, ih, ih]

lemma solid_tidy (context : Context) (ls : List Lexeme) : solid (context.tidy ls) = solid ls := by
  induction ls generalizing context with
  | nil => rfl
  | cons l ls ih =>
    have hcons : ∀ ms, solid (l :: ms) = (if l.kind = .blank then [] else [l]) ++ solid ms := by
      intro ms
      by_cases hl : l.kind = .blank <;> simp [solid, hl]
    rw [Context.tidy]
    split
    · split
      · next hl => rw [ih, hcons, if_pos hl, List.nil_append]
      · rw [hcons, hcons, ih]
    · rw [hcons, hcons, ih]

lemma ofLexemes_congr (language : Language) (h : solid ls = solid ms) :
    (Document.ofLexemes language ls).forest = (Document.ofLexemes language ms).forest ∧
      (Document.ofLexemes language ls).imports = (Document.ofLexemes language ms).imports := by
  constructor
  · have hforest : ∀ ls : List Lexeme, (Document.ofLexemes language ls).forest =
        ((solid ls).foldl Progress.step .initial).forest := fun ls =>
      (foldl_step_solid .initial ls).symm
    rw [hforest, hforest, h]
  · change importRecords language (NotedLexeme.ofLexemes [] ls) =
      importRecords language (NotedLexeme.ofLexemes [] ms)
    rw [← ofLexemes_solid, h, ofLexemes_solid]

lemma admitsAll_tidy (context : Context) (ls : List Lexeme) :
    context.admitsAll (context.tidy ls) = context.admitsAll ls := by
  induction ls generalizing context with
  | nil => rfl
  | cons l ls ih =>
    rw [Context.tidy]
    split
    · next phase hphase =>
      split
      · next hl =>
        obtain ⟨language, inner, outer⟩ := context
        subst hphase
        have hadmits : Context.admits ⟨language, .tag phase, outer⟩ l := by
          simp [Context.admits, TagPhase.admits, hl]
        rw [ih, Context.admitsAll, hadmits, Context.advance_of_blank hl, Bool.true_and]
      · rw [Context.admitsAll, Context.admitsAll, ih]
    · rw [Context.admitsAll, Context.admitsAll, ih]

end Solid

end MarkupLabels.Source
