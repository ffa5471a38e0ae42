import Mathlib
import MarkupLabels.Proofs.Source.Nesting
import MarkupLabels.Proofs.Source.Settling

/-! What stands directly in a tag, a whole element in it taken as one. Reading a whole element moves the
element around it as one lexeme does, and gives the frames around it back. -/

namespace MarkupLabels.Source

namespace Nesting

def surface : Nesting → List Lexeme
  | nil => []
  | token l _ rest => l :: rest.surface
  | closed opening tag closing rest =>
    ⟨.tagOpen, opening ++ (Lexeme.texts tag.lexemes ++ closing)⟩ :: rest.surface
  | paired opening tag tagEnd content closing rest =>
    ⟨.tagOpen, opening ++ (Lexeme.texts tag.lexemes ++ (tagEnd ++
      (Lexeme.texts content.lexemes ++ closing)))⟩ :: rest.surface

lemma texts_surface (t : Nesting) : Lexeme.texts t.surface = Lexeme.texts t.lexemes := by
  induction t with
  | nil => rfl
  | token l h rest ih => simpa [surface, lexemes, Lexeme.texts] using ih
  | closed opening tag closing rest _ ih =>
    simp only [Lexeme.texts] at ih
    simp [surface, lexemes, Lexeme.texts, ih]
  | paired opening tag tagEnd content closing rest _ _ ih =>
    simp only [Lexeme.texts] at ih
    simp [surface, lexemes, Lexeme.texts, ih]

end Nesting

def trailing (ls : List Lexeme) : List Char := Lexeme.texts (ls.rtakeWhile (·.kind = .blank))

lemma trailing_concat (ls : List Lexeme) (l : Lexeme) :
    trailing (ls ++ [l]) = if l.kind = .blank then trailing ls ++ l.text else [] := by
  unfold trailing
  rw [List.rtakeWhile_concat]
  split <;> simp_all [Lexeme.texts]

def Frame.completed : Frame → Frame
  | .code k => .code (k.see .operand)
  | .tag _ => .tag .attributes
  | f => f

inductive Over (below : List Frame) : List Frame → Prop
  | markup {f : Frame} (h : f.inTag?.isSome) : Over below (f :: below)
  | code (k : Code) {fs : List Frame} (h : Over below fs) : Over below (.code k :: fs)

inductive Code.Moves (k : Code) (l : Lexeme) (outer : List Frame) : List Frame → Prop
  | stays {k' : Code} (hl : l.kind.isMarkup = false) (h : k'.shape = k.shape) :
    Moves k l outer (.code k' :: outer)
  | opens {k' inside : Code} (hl : l.kind.isMarkup = false) (h : k'.shape = k.shape)
    (hinside : ∀ use, inside.shape ≠ .container use) :
    Moves k l outer (.code inside :: .code k' :: outer)
  | closes (hl : l.kind.isMarkup = false) (hspace : l.isSignificant)
    (h : ∀ use, k.shape ≠ .container use) : Moves k l outer outer
  | container {use : ContainerUse} (hl : l.kind = .containerClose use) (h : k.shape = .container use) :
    Moves k l outer (outer.modifyHead Frame.completed)

namespace Context

variable {c c' : Context} {k : Code} {l : Lexeme} {below fs more : List Frame} {ls ms : List Lexeme}
  {language : Language} {outer : List Frame} {text : List Char}

lemma complete_frames (c : Context) : c.complete.frames = c.frames.modifyHead Frame.completed := by
  obtain ⟨language, inner, outer⟩ := c
  cases inner <;> rfl

lemma pop_frames_of_ne_nil (h : c.outer ≠ []) : c.pop.frames = c.outer := by
  obtain ⟨f, fs, hf⟩ := List.exists_cons_of_ne_nil h
  rw [pop_frames f fs hf, hf]

lemma admitsAll_behind (h : c.admitsAll (ls ++ ms)) : (ls.foldl advance c).admitsAll ms := by
  induction ls generalizing c with
  | nil => exact h
  | cons l ls ih =>
    rw [List.cons_append, admitsAll, Bool.and_eq_true] at h
    exact ih h.2

lemma admits_of_admitsAll (h : c.admitsAll (l :: ls)) : c.admits l := by
  rw [admitsAll, Bool.and_eq_true] at h
  exact h.1

lemma code_moves (language : Language) (ha : k.admits l) (hl : l.kind.delimits = false)
    (houter : outer ≠ []) :
    k.Moves l outer (advance ⟨language, .code k, outer⟩ l).frames := by
  have hstep := codeStep_advance (c := ⟨language, .code k, outer⟩) rfl ha (LexemeKind.ne_tagOpen hl)
  have hpop : (pop ⟨language, .code k, outer⟩).frames = outer := pop_frames_of_ne_nil houter
  generalize advance ⟨language, .code k, outer⟩ l = c' at hstep ⊢
  cases hstep with
  | stays hmarkup hshape => exact .stays hmarkup hshape
  | opens hmarkup hshape hinside => exact .opens hmarkup hshape hinside
  | closes hmarkup hspace hshape =>
    rw [hpop]
    exact .closes hmarkup hspace hshape
  | container hkind hshape =>
    rw [complete_frames, hpop]
    exact .container hkind hshape

end Context

namespace Over

variable {c c' : Context} {l : Lexeme} {below fs : List Frame} {text : List Char} {more : List Lexeme}

lemma ne_nil (h : Over below fs) : fs ≠ [] := by
  cases h <;> simp

lemma completed (h : Over below fs) : Over below (fs.modifyHead Frame.completed) := by
  cases h with
  | @markup f h =>
    refine .markup ?_
    cases f <;> simp_all [Frame.completed, Frame.inTag?]
  | code k h => exact .code _ h

lemma token (h : Over below c.frames) (ha : c.admits l) (hl : l.kind.delimits = false) :
    Over below (c.advance l).frames := by
  obtain ⟨language, inner, outer⟩ := c
  cases h with
  | markup h =>
    obtain ⟨f, hf, hframes | ⟨k, hframes⟩⟩ := Context.advance_markup h ha hl
    · rw [hframes]
      exact .markup (hf ▸ h)
    · rw [hframes]
      exact .code k (.markup (hf ▸ h))
  | code k hbelow =>
    have hmoves := Context.code_moves language ha hl hbelow.ne_nil
    generalize (Context.advance ⟨language, .code k, outer⟩ l).frames = fs at hmoves
    cases hmoves with
    | stays => exact .code _ hbelow
    | opens => exact .code _ (.code _ hbelow)
    | closes => exact hbelow
    | container => exact hbelow.completed

lemma tag_of_endsTag (h : Over below c.frames) (ha : c.admits l) (hl : l.kind.endsTag) :
    ∃ phase, c.inner = .tag phase ∧ c.outer = below ∧ phase.admits l := by
  obtain ⟨language, inner, outer⟩ := c
  obtain ⟨kind, text⟩ := l
  cases inner with
  | tag phase =>
    cases h with
    | markup h => exact ⟨phase, rfl, rfl, ha⟩
  | code k => cases kind <;> simp_all [Context.admits, Code.admits, LexemeKind.endsTag]
  | children => cases kind <;> simp_all [Context.admits, LexemeKind.endsTag]
  | closingTag => cases kind <;> simp_all [Context.admits, LexemeKind.endsTag]

lemma selfClose (h : Over below c.frames) (ha : c.admits ⟨.selfClose, text⟩) (hbelow : below ≠ []) :
    (c.advance ⟨.selfClose, text⟩).frames = below.modifyHead Frame.completed := by
  obtain ⟨phase, -, rfl, -⟩ := h.tag_of_endsTag ha rfl
  change c.pop.complete.frames = _
  rw [Context.complete_frames, Context.pop_frames_of_ne_nil hbelow]

lemma tagEnd (h : Over below c.frames) (ha : c.admits ⟨.tagEnd, text⟩) :
    Over below (c.advance ⟨.tagEnd, text⟩).frames := by
  obtain ⟨phase, -, rfl, -⟩ := h.tag_of_endsTag ha rfl
  exact .markup rfl

lemma closingEnd (h : Over below c.frames) (ha : c.admits ⟨.closingEnd, text⟩) (hbelow : below ≠ []) :
    (c.advance ⟨.closingEnd, text⟩).frames = below.modifyHead Frame.completed := by
  obtain rfl : c.outer = below := by
    obtain ⟨language, inner, outer⟩ := c
    cases h with
    | markup h => rfl
    | code k h => simp [Context.admits, Code.admits] at ha
  change c.pop.complete.frames = _
  rw [Context.complete_frames, Context.pop_frames_of_ne_nil hbelow]

end Over

namespace Nesting

def Keeps (t : Nesting) : Prop :=
  ∀ {c : Context} {below : List Frame} {more : List Lexeme}, c.admitsAll (t.lexemes ++ more) →
    Over below c.frames → Over below (t.lexemes.foldl Context.advance c).frames

variable {c : Context} {tag content : Nesting} {opening closing tagEnd : List Char} {more : List Lexeme}

lemma Keeps.closed (htag : tag.Keeps)
    (ha : c.admitsAll (⟨.tagOpen, opening⟩ :: (tag.lexemes ++ ⟨.selfClose, closing⟩ :: more))) :
    let after := (tag.lexemes.foldl Context.advance (c.advance ⟨.tagOpen, opening⟩)).advance
      ⟨.selfClose, closing⟩
    after.admitsAll more ∧ after.frames = c.frames.modifyHead Frame.completed := by
  rw [Context.admitsAll, Bool.and_eq_true] at ha
  have hbehind := Context.admitsAll_behind ha.2
  have hover : Over c.frames (c.advance ⟨.tagOpen, opening⟩).frames := .markup rfl
  refine ⟨?_, (htag ha.2 hover).selfClose (Context.admits_of_admitsAll hbehind) (by simp [Context.frames])⟩
  rw [Context.admitsAll, Bool.and_eq_true] at hbehind
  exact hbehind.2

lemma Keeps.paired (htag : tag.Keeps) (hcontent : content.Keeps)
    (ha : c.admitsAll (⟨.tagOpen, opening⟩ :: (tag.lexemes ++ ⟨.tagEnd, tagEnd⟩ ::
      (content.lexemes ++ ⟨.closingEnd, closing⟩ :: more)))) :
    let inside := (tag.lexemes.foldl Context.advance (c.advance ⟨.tagOpen, opening⟩)).advance
      ⟨.tagEnd, tagEnd⟩
    let after := (content.lexemes.foldl Context.advance inside).advance ⟨.closingEnd, closing⟩
    after.admitsAll more ∧ after.frames = c.frames.modifyHead Frame.completed := by
  rw [Context.admitsAll, Bool.and_eq_true] at ha
  have hbehind := Context.admitsAll_behind ha.2
  have hover : Over c.frames (c.advance ⟨.tagOpen, opening⟩).frames := .markup rfl
  have hinside := (htag ha.2 hover).tagEnd (Context.admits_of_admitsAll hbehind)
  rw [Context.admitsAll, Bool.and_eq_true] at hbehind
  have hend := Context.admitsAll_behind hbehind.2
  refine ⟨?_, (hcontent hbehind.2 hinside).closingEnd (Context.admits_of_admitsAll hend)
    (by simp [Context.frames])⟩
  rw [Context.admitsAll, Bool.and_eq_true] at hend
  exact hend.2

lemma keeps (t : Nesting) : t.Keeps := by
  induction t with
  | nil => exact fun _ h => h
  | token l hl rest ih =>
    intro c below more ha h
    have hadmits := Context.admits_of_admitsAll ha
    rw [lexemes, List.cons_append, Context.admitsAll, Bool.and_eq_true] at ha
    exact ih ha.2 (h.token hadmits hl)
  | closed opening tag closing rest ihTag ihRest =>
    intro c below more ha h
    rw [lexemes, List.cons_append, List.append_assoc] at ha
    obtain ⟨hrest, hframes⟩ := ihTag.closed ha
    rw [lexemes, List.foldl_cons, List.foldl_append, List.foldl_cons]
    exact ihRest hrest (hframes ▸ h.completed)
  | paired opening tag tagEnd content closing rest ihTag ihContent ihRest =>
    intro c below more ha h
    rw [lexemes, List.cons_append, List.append_assoc, List.cons_append, List.append_assoc] at ha
    obtain ⟨hrest, hframes⟩ := ihTag.paired ihContent ha
    rw [lexemes, List.foldl_cons, List.foldl_append, List.foldl_cons, List.foldl_append, List.foldl_cons]
    exact ihRest hrest (hframes ▸ h.completed)

end Nesting

namespace Progress

variable {p : Progress} {e : OpenElement} {es : List OpenElement} {l : Lexeme}

lemma step_openElements (hl : l.kind.delimits = false) :
    (p.step l).openElements = p.openElements.modifyHead (·.step p.column l) := by
  rw [← stepInner_openElements]
  change (p.enter l).openElements = _
  unfold enter
  cases hk : l.kind <;> simp_all [LexemeKind.delimits]

lemma step_tagOpen_below (opening : List Char) :
    (p.step ⟨.tagOpen, opening⟩).openElements.drop 1 =
      p.openElements.modifyHead (·.step p.column ⟨.tagOpen, opening⟩) := by
  rw [openTag_openElements, List.drop_succ_cons, List.drop_zero, stepInner_openElements]

lemma closeTag_below (p : Progress) : p.closeTag.openElements.drop 1 = p.openElements.drop 1 := by
  unfold closeTag
  split
  · rfl
  · next h => simp [h]

lemma step_tagEnd_below (text : List Char) :
    (p.step ⟨.tagEnd, text⟩).openElements.drop 1 = p.openElements.drop 1 := p.closeTag_below

lemma step_selfClose_openElements (text : List Char) :
    (p.step ⟨.selfClose, text⟩).openElements = p.openElements.drop 1 := p.closeTag_below

lemma step_closingEnd_openElements (text : List Char) :
    (p.step ⟨.closingEnd, text⟩).openElements = p.openElements.drop 1 := rfl

lemma foldl_nesting_below (t : Nesting) (p : Progress) :
    (t.lexemes.foldl step p).openElements.drop 1 = p.openElements.drop 1 := by
  have hmodify : ∀ (g : OpenElement → OpenElement) es, (List.modifyHead g es).drop 1 = es.drop 1 := by
    intro g es
    cases es <;> rfl
  induction t generalizing p with
  | nil => rfl
  | token l h rest ih => rw [Nesting.lexemes, List.foldl_cons, ih, step_openElements h, hmodify]
  | closed opening tag closing rest ihTag ihRest =>
    rw [Nesting.lexemes, List.foldl_cons, List.foldl_append, List.foldl_cons, ihRest,
      step_selfClose_openElements, ihTag, step_tagOpen_below, hmodify]
  | paired opening tag tagEnd content closing rest ihTag ihContent ihRest =>
    rw [Nesting.lexemes, List.foldl_cons, List.foldl_append, List.foldl_cons, List.foldl_append,
      List.foldl_cons, ihRest, step_closingEnd_openElements, ihContent, step_tagEnd_below, ihTag,
      step_tagOpen_below, hmodify]

lemma foldl_closed_openElements (tag : Nesting) (p : Progress) (opening closing : List Char) :
    ((tag.lexemes.foldl step (p.step ⟨.tagOpen, opening⟩)).step ⟨.selfClose, closing⟩).openElements =
      p.openElements.modifyHead (·.step p.column ⟨.tagOpen, opening⟩) := by
  rw [step_selfClose_openElements, foldl_nesting_below, step_tagOpen_below]

lemma foldl_paired_openElements (tag content : Nesting) (p : Progress)
    (opening tagEnd closing : List Char) :
    ((content.lexemes.foldl step ((tag.lexemes.foldl step (p.step ⟨.tagOpen, opening⟩)).step
      ⟨.tagEnd, tagEnd⟩)).step ⟨.closingEnd, closing⟩).openElements =
        p.openElements.modifyHead (·.step p.column ⟨.tagOpen, opening⟩) := by
  rw [step_closingEnd_openElements, foldl_nesting_below, step_tagEnd_below, foldl_nesting_below,
    step_tagOpen_below]

lemma foldl_step_size (p : Progress) (ls : List Lexeme) :
    (ls.foldl step p).forest.size = p.forest.size + ls.countP (·.kind = .tagOpen) := by
  induction ls generalizing p with
  | nil => rfl
  | cons l ls ih =>
    rw [List.foldl_cons, ih, step_size, List.countP_cons, Nat.add_assoc, Nat.add_comm (ls.countP _)]
    simp

lemma foldl_step_column (p : Progress) (ls : List Lexeme) :
    (ls.foldl step p).column = columnAfter p.column (Lexeme.texts ls) := by
  induction ls generalizing p with
  | nil => rfl
  | cons l ls ih =>
    rw [List.foldl_cons, ih, Lexeme.texts, Lexeme.texts, List.flatMap_cons]
    exact List.foldl_append.symm

lemma foldl_closed_column (tag : Nesting) (p : Progress) (opening closing : List Char) :
    ((tag.lexemes.foldl step (p.step ⟨.tagOpen, opening⟩)).step ⟨.selfClose, closing⟩).column =
      columnAfter p.column (opening ++ (Lexeme.texts tag.lexemes ++ closing)) := by
  rw [columnAfter_append, columnAfter_append]
  exact congrArg (columnAfter · closing) (foldl_step_column _ _)

lemma foldl_paired_column (tag content : Nesting) (p : Progress) (opening tagEnd closing : List Char) :
    ((content.lexemes.foldl step ((tag.lexemes.foldl step (p.step ⟨.tagOpen, opening⟩)).step
      ⟨.tagEnd, tagEnd⟩)).step ⟨.closingEnd, closing⟩).column =
        columnAfter p.column (opening ++ (Lexeme.texts tag.lexemes ++ (tagEnd ++
          (Lexeme.texts content.lexemes ++ closing)))) := by
  have htag := foldl_step_column (p.step ⟨.tagOpen, opening⟩) tag.lexemes
  rw [columnAfter_append, columnAfter_append, columnAfter_append, columnAfter_append]
  change columnAfter (List.foldl step _ _).column closing = _
  rw [foldl_step_column]
  change columnAfter (columnAfter (columnAfter (List.foldl step _ _).column tagEnd) _) closing = _
  rw [htag]
  rfl

lemma foldl_nesting_gap (t : Nesting) {seen : List Lexeme} (h : p.gap = trailing seen) :
    (t.lexemes.foldl step p).gap = trailing (seen ++ t.surface) := by
  induction t generalizing p seen with
  | nil => simpa [Nesting.surface, Nesting.lexemes] using h
  | token l hl rest ih =>
    rw [Nesting.lexemes, List.foldl_cons, Nesting.surface, List.append_cons]
    apply ih
    rw [trailing_concat, ← h]
    rfl
  | closed opening tag closing rest ihTag ihRest =>
    rw [Nesting.lexemes, List.foldl_cons, List.foldl_append, List.foldl_cons, Nesting.surface,
      List.append_cons]
    apply ihRest
    rw [trailing_concat]
    rfl
  | paired opening tag tagEnd content closing rest ihTag ihContent ihRest =>
    rw [Nesting.lexemes, List.foldl_cons, List.foldl_append, List.foldl_cons, List.foldl_append,
      List.foldl_cons, Nesting.surface, List.append_cons]
    apply ihRest
    rw [trailing_concat]
    rfl

end Progress

section OpeningTags

structure OpeningTag (ls : List Lexeme) where
  front : List Lexeme
  opening : List Char
  inside : Nesting
  token : Lexeme
  after : List Lexeme
  endsTag : token.kind.endsTag
  lexemes_eq : front ++ ⟨.tagOpen, opening⟩ :: (inside.lexemes ++ token :: after) = ls

def OpeningTag.element {ls : List Lexeme} (t : OpeningTag ls) : Nat := t.front.countP (·.kind = .tagOpen)

lemma OpeningTag.exists_within {ls all : List Lexeme} {i : Nat} (t : OpeningTag ls)
    (before behind : List Lexeme) (hi : before.countP (·.kind = .tagOpen) + t.element = i)
    (h : before ++ (ls ++ behind) = all) : ∃ t' : OpeningTag all, t'.element = i := by
  obtain ⟨front, opening, inside, token, after, endsTag, rfl⟩ := t
  exact ⟨⟨before ++ front, opening, inside, token, after ++ behind, endsTag, by simp [← h]⟩,
    List.countP_append.trans hi⟩

namespace Nesting

lemma countP_lexemes (t : Nesting) : t.lexemes.countP (·.kind = .tagOpen) = t.size := by
  induction t with
  | nil => rfl
  | token l h rest ih =>
    simp [lexemes, size, LexemeKind.ne_tagOpen h, ih]
  | closed opening tag closing rest ihTag ihRest =>
    simp only [lexemes, size, List.countP_cons, List.countP_append, ihTag, ihRest]
    simp
    omega
  | paired opening tag tagEnd content closing rest ihTag ihContent ihRest =>
    simp only [lexemes, size, List.countP_cons, List.countP_append, ihTag, ihContent, ihRest]
    simp
    omega

lemma exists_openingTag (t : Nesting) {i : Nat} (hi : i < t.size) :
    ∃ o : OpeningTag t.lexemes, o.element = i := by
  -- The elements come in the order of their tags: one in the tag of the first comes before one in its
  -- content, and that before one behind it.
  induction t generalizing i with
  | nil => simp [size] at hi
  | token l h rest ih =>
    obtain ⟨o, ho⟩ := ih hi
    exact o.exists_within [l] [] (by simp [LexemeKind.ne_tagOpen h, ho]) (by simp [lexemes])
  | closed opening tag closing rest ihTag ihRest =>
    rw [size] at hi
    obtain rfl | hpos := i.eq_zero_or_pos
    · exact ⟨⟨[], opening, tag, ⟨.selfClose, closing⟩, rest.lexemes, rfl, rfl⟩, rfl⟩
    by_cases htag : i - 1 < tag.size
    · obtain ⟨o, ho⟩ := ihTag htag
      refine o.exists_within [⟨.tagOpen, opening⟩] (⟨.selfClose, closing⟩ :: rest.lexemes) ?_ rfl
      simp [ho]
      omega
    · obtain ⟨o, ho⟩ := ihRest (i := i - 1 - tag.size) (by omega)
      refine o.exists_within (⟨.tagOpen, opening⟩ :: (tag.lexemes ++ [⟨.selfClose, closing⟩])) [] ?_
        (by simp [lexemes])
      simp [List.countP_append, countP_lexemes, ho]
      omega
  | paired opening tag tagEnd content closing rest ihTag ihContent ihRest =>
    rw [size] at hi
    obtain rfl | hpos := i.eq_zero_or_pos
    · exact ⟨⟨[], opening, tag, ⟨.tagEnd, tagEnd⟩,
        content.lexemes ++ ⟨.closingEnd, closing⟩ :: rest.lexemes, rfl, rfl⟩, rfl⟩
    by_cases htag : i - 1 < tag.size
    · obtain ⟨o, ho⟩ := ihTag htag
      refine o.exists_within [⟨.tagOpen, opening⟩] (⟨.tagEnd, tagEnd⟩ ::
        (content.lexemes ++ ⟨.closingEnd, closing⟩ :: rest.lexemes)) ?_ rfl
      simp [ho]
      omega
    by_cases hcontent : i - 1 - tag.size < content.size
    · obtain ⟨o, ho⟩ := ihContent hcontent
      refine o.exists_within (⟨.tagOpen, opening⟩ :: (tag.lexemes ++ [⟨.tagEnd, tagEnd⟩]))
        (⟨.closingEnd, closing⟩ :: rest.lexemes) ?_ (by simp [lexemes])
      simp [List.countP_append, countP_lexemes, ho]
      omega
    · obtain ⟨o, ho⟩ := ihRest (i := i - 1 - tag.size - content.size) (by omega)
      refine o.exists_within (⟨.tagOpen, opening⟩ :: (tag.lexemes ++ ⟨.tagEnd, tagEnd⟩ ::
        (content.lexemes ++ [⟨.closingEnd, closing⟩]))) [] ?_ (by simp [lexemes])
      simp [List.countP_append, countP_lexemes, ho]
      omega

end Nesting

lemma Document.exists_openingTag {language : Language} {source : List Char} (h : accepts language source)
    {i : Nat} (hi : i < (read language source).forest.size) :
    ∃ t : OpeningTag (lexemes language source), t.element = i := by
  obtain ⟨t, ht⟩ := exists_nesting h
  rw [read, ← ht, ofLexemes_size] at hi
  rw [← ht]
  exact t.exists_openingTag hi

end OpeningTags

end MarkupLabels.Source
