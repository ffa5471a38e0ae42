import Mathlib
import MarkupLabels.Proofs.Source.Surfaces

/-! The last item of a tag. What an element knows of it at the end of its tag is what the last lexeme says
that stands directly in the tag: it ends an attribute or not, and the attribute begins with the last name. -/

namespace MarkupLabels.Source

def LexemeKind.endsAttribute : LexemeKind → Bool
  | .attributeName | .attributeString | .containerClose .value | .tagOpen => true
  | _ => false

def beforeLastName (ls : List Lexeme) : List Lexeme := (ls.rdropWhile (·.kind ≠ .attributeName)).dropLast

def BehindName (ls : List Lexeme) : Prop :=
  (ls.filter (·.isSignificant)).getLast?.map (·.kind) = some .attributeName

def Assigns (ls : List Lexeme) : Prop :=
  ∀ n, (h : n < ls.length) → ls[n].kind = .equals → BehindName (ls.take n)

instance (ls : List Lexeme) : Decidable (BehindName ls) := decEq _ _

instance (ls : List Lexeme) : Decidable (Assigns ls) :=
  inferInstanceAs (Decidable (∀ n, (h : n < ls.length) → ls[n].kind = .equals → BehindName (ls.take n)))

variable {ls seen : List Lexeme} {l : Lexeme} {e : OpenElement} {column : Nat} {outer fs : List Frame}

lemma beforeLastName_isPrefix (ls : List Lexeme) : beforeLastName ls <+: ls :=
  have hname := List.dropLast_prefix (ls.rdropWhile _)
  have hbehind := List.rdropWhile_prefix _ ls
  hname.trans hbehind

lemma beforeLastName_concat (ls : List Lexeme) (l : Lexeme) :
    beforeLastName (ls ++ [l]) = if l.kind = .attributeName then ls else beforeLastName ls := by
  unfold beforeLastName
  by_cases hl : l.kind = .attributeName
  · rw [List.rdropWhile_concat_neg _ _ _ (by simp [hl]), if_pos hl, List.dropLast_concat]
  · rw [List.rdropWhile_concat_pos _ _ _ (by simp [hl]), if_neg hl]

lemma behindName_concat_significant (hl : l.isSignificant) :
    BehindName (ls ++ [l]) ↔ l.kind = .attributeName := by
  simp [BehindName, List.filter_append, hl]

lemma behindName_concat_space (hl : l.isSignificant = false) :
    BehindName (ls ++ [l]) ↔ BehindName ls := by
  simp [BehindName, List.filter_append, hl]

lemma Assigns.behindName {after : List Lexeme} (h : Assigns (ls ++ l :: after)) (hl : l.kind = .equals) :
    BehindName ls := by
  simpa [hl] using h ls.length (by simp)

lemma texts_append (as bs : List Lexeme) : Lexeme.texts (as ++ bs) = Lexeme.texts as ++ Lexeme.texts bs :=
  List.flatMap_append

lemma texts_concat (ls : List Lexeme) (l : Lexeme) :
    Lexeme.texts (ls ++ [l]) = Lexeme.texts ls ++ l.text := by
  simp [Lexeme.texts]

lemma solid_concat (ls : List Lexeme) (l : Lexeme) :
    solid (ls ++ [l]) = solid ls ++ if l.kind = .blank then [] else [l] := by
  by_cases hl : l.kind = .blank <;> simp [solid, List.filter_append, hl]

def OpenElement.Knows (e : OpenElement) (column : Nat) (seen : List Lexeme) : Prop :=
  match (solid seen).getLast? with
  | none => e.item = .nothing
  | some l =>
    if l.kind.endsAttribute then
      e.item = .attribute ∧ e.column = columnAfter column (Lexeme.texts (beforeLastName seen))
    else e.item = .other

namespace OpenElement.Knows

lemma blank {f : OpenElement} (h : e.Knows column seen) (hl : l.kind = .blank) (hitem : f.item = e.item)
    (hcolumn : f.column = e.column) : f.Knows column (seen ++ [l]) := by
  unfold Knows at h ⊢
  rw [solid_concat, if_pos hl, List.append_nil, hitem, hcolumn, beforeLastName_concat, if_neg (by simp [hl])]
  exact h

lemma other (hl : l.kind ≠ .blank) (hends : l.kind.endsAttribute = false) (hitem : e.item = .other) :
    e.Knows column (seen ++ [l]) := by
  unfold Knows
  rw [solid_concat, if_neg hl, List.getLast?_concat]
  simp [hends, hitem]

lemma ends (hends : l.kind.endsAttribute) (hitem : e.item = .attribute)
    (hcolumn : e.column = columnAfter column (Lexeme.texts (beforeLastName (seen ++ [l])))) :
    e.Knows column (seen ++ [l]) := by
  have hl : l.kind ≠ .blank := by
    intro hl
    simp [hl, LexemeKind.endsAttribute] at hends
  unfold Knows
  rw [solid_concat, if_neg hl, List.getLast?_concat]
  simp [hends, hitem, hcolumn]

end OpenElement.Knows

inductive CodeOver (bottom : Shape) (below : List Frame) : List Frame → Prop
  | bottom {k : Code} (h : k.shape = bottom) : CodeOver bottom below (.code k :: below)
  | inner {k : Code} {fs : List Frame} (hk : ∀ use, k.shape ≠ .container use)
    (h : CodeOver bottom below fs) : CodeOver bottom below (.code k :: fs)

inductive Stands (outer : List Frame) (column : Nat) : List Frame → OpenElement → List Lexeme → Prop
  | name {phase : TagPhase} {e : OpenElement} {seen : List Lexeme}
    (hphase : phase ≠ .equals ∧ phase ≠ .attributes) (hslot : e.slot = .closed)
    (hknows : e.Knows column seen) : Stands outer column (.tag phase :: outer) e seen
  | attributes {e : OpenElement} {seen : List Lexeme}
    (hslot : e.slot = .closed ∨ ∃ commented, e.slot = .named commented ∧
      e.column = columnAfter column (Lexeme.texts (beforeLastName seen)))
    (hnamed : BehindName seen → e.slot ≠ .closed)
    (hknows : e.Knows column seen) : Stands outer column (.tag .attributes :: outer) e seen
  | equals {e : OpenElement} {seen : List Lexeme} (hslot : ∃ commented, e.slot = .valued commented)
    (hitem : e.item = .attribute)
    (hcolumn : e.column = columnAfter column (Lexeme.texts (beforeLastName seen))) :
    Stands outer column (.tag .equals :: outer) e seen
  | value {fs : List Frame} {e : OpenElement} {seen : List Lexeme}
    (hslot : ∃ commented contents, e.slot = .container commented contents) (hitem : e.item = .attribute)
    (hcolumn : e.column = columnAfter column (Lexeme.texts (beforeLastName seen)))
    (hcode : CodeOver (.container .value) (.tag .equals :: outer) fs) : Stands outer column fs e seen
  | aside {bottom : Shape} {phase : TagPhase} {fs : List Frame} {e : OpenElement} {seen : List Lexeme}
    (hbottom : bottom = .container .spread ∨ bottom = .angles ∧ phase = .named) (hslot : e.slot = .closed)
    (hitem : e.item = .other) (hcode : CodeOver bottom (.tag phase :: outer) fs) :
    Stands outer column fs e seen

namespace CodeOver

variable {bottom : Shape} {below : List Frame} {k : Code} {language : Language}

lemma ne_nil (h : CodeOver bottom below fs) : fs ≠ [] := by
  cases h <;> simp

lemma completed (h : CodeOver bottom below fs) : CodeOver bottom below (fs.modifyHead Frame.completed) := by
  cases h with
  | bottom h => exact .bottom h
  | inner hk h => exact .inner hk h

lemma token {c : Context} (h : CodeOver bottom below c.frames) (hbelow : below ≠ []) (ha : c.admits l)
    (hl : l.kind.delimits = false) :
    l.kind.isMarkup = false ∧ CodeOver bottom below (c.advance l).frames ∨
      l.kind.isMarkup = false ∧ l.isSignificant ∧ (∀ use, bottom ≠ .container use) ∧
        (c.advance l).frames = below ∨
      ∃ use, l.kind = .containerClose use ∧ bottom = .container use ∧
        (c.advance l).frames = below.modifyHead Frame.completed := by
  obtain ⟨language, inner, outer⟩ := c
  cases h with
  | @bottom k h =>
    have hmoves := Context.code_moves language ha hl hbelow
    generalize (Context.advance ⟨language, .code k, outer⟩ l).frames = fs at hmoves ⊢
    cases hmoves with
    | stays hmarkup hk => exact .inl ⟨hmarkup, .bottom (hk.trans h)⟩
    | opens hmarkup hk hinside => exact .inl ⟨hmarkup, .inner hinside (.bottom (hk.trans h))⟩
    | closes hmarkup hspace hk => exact .inr (.inl ⟨hmarkup, hspace, h ▸ hk, rfl⟩)
    | container hkind hk => exact .inr (.inr ⟨_, hkind, h ▸ hk, rfl⟩)
  | @inner k _ hplain h =>
    have hmoves := Context.code_moves language ha hl h.ne_nil
    generalize (Context.advance ⟨language, .code k, outer⟩ l).frames = fs at hmoves ⊢
    cases hmoves with
    | stays hmarkup hk => exact .inl ⟨hmarkup, .inner (hk ▸ hplain) h⟩
    | opens hmarkup hk hinside => exact .inl ⟨hmarkup, .inner hinside (.inner (hk ▸ hplain) h)⟩
    | closes hmarkup hspace hk => exact .inl ⟨hmarkup, h⟩
    | container hkind hk => exact absurd hk (hplain _)

end CodeOver

namespace OpenElement

variable {commented : Bool} {contents : Contents}

lemma step_container (column' : Nat) (hslot : e.slot = .container commented contents)
    (hl : l.kind ≠ .containerClose .value) :
    (∃ more, (e.step column' l).slot = .container commented more) ∧
      (e.step column' l).item = e.item ∧ (e.step column' l).column = e.column := by
  unfold step
  rw [hslot]
  simp only
  split
  · contradiction
  · exact ⟨⟨contents, hslot⟩, rfl, rfl⟩
  · exact ⟨⟨_, rfl⟩, rfl, rfl⟩

lemma step_containerEnd (column' : Nat) (hslot : e.slot = .container commented contents)
    (hl : l.kind = .containerClose .value) :
    (e.step column' l).slot = .closed ∧ (e.step column' l).item = e.item ∧
      (e.step column' l).column = e.column := by
  unfold step
  rw [hslot]
  simp [hl, setValue]

lemma step_other (column' : Nat) (hslot : e.slot = .closed ∨ ∃ commented, e.slot = .named commented)
    (hl : l.kind = .containerOpen .spread ∨ l.kind = .punctuation) :
    (e.step column' l).slot = .closed ∧ (e.step column' l).item = .other := by
  rcases hslot with hslot | ⟨commented, hslot⟩ <;> rcases hl with hl | hl <;> simp [step, hslot, hl]

lemma step_code (column' : Nat) (hslot : e.slot = .closed) (hitem : e.item = .other)
    (hl : l.kind.isMarkup = false) :
    (e.step column' l).slot = .closed ∧ (e.step column' l).item = .other := by
  unfold step
  rw [hslot]
  cases hk : l.kind <;> simp_all [LexemeKind.isMarkup]

end OpenElement

namespace Stands

variable {c : Context} {language : Language} {phase : TagPhase}

lemma beforeLastName_of_ne (hl : l.kind ≠ .attributeName) :
    beforeLastName (seen ++ [l]) = beforeLastName seen := by
  rw [beforeLastName_concat, if_neg hl]

lemma name_of_isMarkup (hl : l.kind.isMarkup = false) : l.kind ≠ .attributeName := by
  intro hk
  simp [hk, LexemeKind.isMarkup] at hl

lemma blank (h : Stands outer column (.tag phase :: outer) e seen) (hl : l.kind = .blank) :
    Stands outer column (.tag phase :: outer) e (seen ++ [l]) := by
  have hspace : l.isSignificant = false := by simp [Lexeme.isSignificant, hl]
  have hbefore : beforeLastName (seen ++ [l]) = beforeLastName seen := beforeLastName_of_ne (by simp [hl])
  cases h with
  | name hphase hslot hknows => exact .name hphase hslot (hknows.blank hl rfl rfl)
  | attributes hslot hnamed hknows =>
    refine .attributes (hbefore ▸ hslot) ?_ (hknows.blank hl rfl rfl)
    rwa [behindName_concat_space hspace]
  | equals hslot hitem hcolumn => exact .equals hslot hitem (hbefore ▸ hcolumn)
  | value hslot hitem hcolumn hcode => cases hcode
  | aside hbottom hslot hitem hcode => cases hcode

lemma comment (column' : Nat) (h : Stands outer column (.tag phase :: outer) e seen)
    (hl : l.kind = .comment) :
    Stands outer column (.tag phase :: outer) (e.step column' l) (seen ++ [l]) := by
  have hspace : l.isSignificant = false := by simp [Lexeme.isSignificant, hl]
  have hbefore : beforeLastName (seen ++ [l]) = beforeLastName seen := beforeLastName_of_ne (by simp [hl])
  have hother : ∀ {f : OpenElement}, f.item = .other → f.Knows column (seen ++ [l]) :=
    .other (by simp [hl]) (by simp [hl, LexemeKind.endsAttribute])
  cases h with
  | name hphase hslot hknows =>
    refine .name hphase ?_ (hother ?_) <;> simp [OpenElement.step, hslot, hl]
  | attributes hslot hnamed hknows =>
    rcases hslot with hslot | ⟨commented, hslot, hcolumn⟩
    · refine .attributes (.inl ?_) (fun hb => ?_) (hother ?_)
      · simp [OpenElement.step, hslot, hl]
      · exact absurd hslot (hnamed ((behindName_concat_space hspace).mp hb))
      · simp [OpenElement.step, hslot, hl]
    · refine .attributes (.inr ⟨true, ?_, ?_⟩) (fun _ => ?_) (hother ?_)
      · simp [OpenElement.step, hslot, hl]
      · rw [hbefore, ← hcolumn]
        simp [OpenElement.step, hslot, hl]
      · simp [OpenElement.step, hslot, hl]
      · simp [OpenElement.step, hslot, hl]
  | equals hslot hitem hcolumn =>
    obtain ⟨commented, hslot⟩ := hslot
    refine .equals ⟨true, ?_⟩ ?_ ?_
    · simp [OpenElement.step, hslot, hl]
    · simp [OpenElement.step, hslot, hl, hitem]
    · rw [hbefore, ← hcolumn]
      simp [OpenElement.step, hslot, hl]
  | value hslot hitem hcolumn hcode => cases hcode
  | aside hbottom hslot hitem hcode => cases hcode

lemma attributeName (hslot : e.slot = .closed ∨ ∃ commented, e.slot = .named commented)
    (hl : l.kind = .attributeName) :
    Stands outer column (.tag .attributes :: outer)
      (e.step (columnAfter column (Lexeme.texts seen)) l) (seen ++ [l]) := by
  have hbefore : beforeLastName (seen ++ [l]) = seen := by rw [beforeLastName_concat, if_pos hl]
  have hstep : (e.step (columnAfter column (Lexeme.texts seen)) l).slot = .named false ∧
      (e.step (columnAfter column (Lexeme.texts seen)) l).item = .attribute ∧
      (e.step (columnAfter column (Lexeme.texts seen)) l).column =
        columnAfter column (Lexeme.texts seen) := by
    rcases hslot with hslot | ⟨commented, hslot⟩ <;> simp [OpenElement.step, hslot, hl]
  obtain ⟨hnamed, hitem, hcolumn⟩ := hstep
  refine .attributes (.inr ⟨false, hnamed, hbefore.symm ▸ hcolumn⟩) (by simp [hnamed])
    (.ends (by simp [hl, LexemeKind.endsAttribute]) hitem (hbefore.symm ▸ hcolumn))

lemma valueEnd (hslot : e.slot = .closed) (hitem : e.item = .attribute)
    (hcolumn : e.column = columnAfter column (Lexeme.texts (beforeLastName seen)))
    (hl : l.kind = .attributeString ∨ l.kind = .containerClose .value ∨ l.kind = .tagOpen) :
    Stands outer column (.tag .attributes :: outer) e (seen ++ [l]) := by
  have hends : l.kind.endsAttribute ∧ l.isSignificant ∧ l.kind ≠ .attributeName := by
    rcases hl with hl | hl | hl <;> simp [Lexeme.isSignificant, LexemeKind.endsAttribute, hl]
  refine .attributes (.inl hslot) (fun hb => ?_) (.ends hends.1 hitem ?_)
  · exact absurd ((behindName_concat_significant hends.2.1).mp hb) hends.2.2
  · rw [hcolumn, beforeLastName_of_ne hends.2.2]

lemma value_token (hslot : ∃ commented contents, e.slot = .container commented contents)
    (hitem : e.item = .attribute)
    (hcolumn : e.column = columnAfter column (Lexeme.texts (beforeLastName seen)))
    (hcode : CodeOver (.container .value) (.tag .equals :: outer) c.frames) (ha : c.admits l)
    (hl : l.kind.delimits = false) (column' : Nat) :
    Stands outer column (c.advance l).frames (e.step column' l) (seen ++ [l]) := by
  obtain ⟨commented, contents, hslot⟩ := hslot
  rcases hcode.token (List.cons_ne_nil _ _) ha hl with ⟨hmarkup, hcode⟩ | ⟨-, -, hshape, -⟩ |
    ⟨use, hkind, hshape, hframes⟩
  · have hclose : l.kind ≠ .containerClose .value := by
      intro hk
      simp [hk, LexemeKind.isMarkup] at hmarkup
    obtain ⟨⟨more, hmore⟩, hitem', hcolumn'⟩ := OpenElement.step_container column' hslot hclose
    refine .value ⟨_, more, hmore⟩ (hitem'.trans hitem) ?_ hcode
    rw [hcolumn', hcolumn, beforeLastName_of_ne (name_of_isMarkup hmarkup)]
  · exact absurd rfl (hshape .value)
  · obtain rfl : use = .value := by simpa using hshape.symm
    obtain ⟨hslot', hitem', hcolumn'⟩ := OpenElement.step_containerEnd column' hslot hkind
    rw [hframes]
    exact .valueEnd hslot' (hitem'.trans hitem) (hcolumn'.trans hcolumn) (.inr (.inl hkind))

lemma aside_token {bottom : Shape}
    (hbottom : bottom = .container .spread ∨ bottom = .angles ∧ phase = .named) (hslot : e.slot = .closed)
    (hitem : e.item = .other) (hcode : CodeOver bottom (.tag phase :: outer) c.frames) (ha : c.admits l)
    (hl : l.kind.delimits = false) (column' : Nat) :
    Stands outer column (c.advance l).frames (e.step column' l) (seen ++ [l]) := by
  rcases hcode.token (List.cons_ne_nil _ _) ha hl with ⟨hmarkup, hcode⟩ |
    ⟨hmarkup, hspace, hshape, hframes⟩ | ⟨use, hkind, hshape, hframes⟩
  · obtain ⟨hslot', hitem'⟩ := OpenElement.step_code column' hslot hitem hmarkup
    exact .aside hbottom hslot' hitem' hcode
  · obtain ⟨hslot', hitem'⟩ := OpenElement.step_code column' hslot hitem hmarkup
    obtain ⟨-, rfl⟩ := hbottom.resolve_left (hshape .spread)
    rw [hframes]
    refine .name (by simp) hslot' (.other ?_ ?_ hitem')
    · intro hk
      simp [Lexeme.isSignificant, hk] at hspace
    · cases hk : l.kind <;> simp_all [LexemeKind.endsAttribute, LexemeKind.isMarkup]
  · obtain rfl : use = .spread := by
      rcases hbottom with rfl | ⟨rfl, -⟩
      · simpa using hshape.symm
      · simp at hshape
    have hstep : e.step column' l = e := by simp [OpenElement.step, hslot, hkind]
    rw [hframes, hstep]
    refine .attributes (.inl hslot) (fun hb => ?_) (.other (by simp [hkind]) (by simp [hkind,
      LexemeKind.endsAttribute]) hitem)
    simpa [hkind] using (behindName_concat_significant (by simp [Lexeme.isSignificant, hkind])).mp hb

lemma name_other (hphase : phase ≠ .equals ∧ phase ≠ .attributes) {f : OpenElement}
    (hslot : f.slot = .closed) (hitem : f.item = .other) (hl : l.kind = .tagName ∨ l.kind = .punctuation) :
    Stands outer column (.tag phase :: outer) f (seen ++ [l]) := by
  refine .name hphase hslot (.other ?_ ?_ hitem) <;>
    rcases hl with hl | hl <;> simp [hl, LexemeKind.endsAttribute]

lemma spread (hslot : e.slot = .closed ∨ ∃ commented, e.slot = .named commented)
    (hl : l.kind = .containerOpen .spread) (column' : Nat) :
    Stands outer column (Context.advance ⟨language, .tag phase, outer⟩ l).frames (e.step column' l)
      (seen ++ [l]) := by
  obtain ⟨hslot', hitem'⟩ := OpenElement.step_other column' hslot (.inl hl)
  simp only [Context.advance, hl]
  exact .aside (.inl rfl) hslot' hitem' (.bottom rfl)

lemma name_token (hphase : phase ≠ .equals ∧ phase ≠ .attributes) (hslot : e.slot = .closed)
    (ha : phase.admits l) (hl : l.kind.delimits = false) (hspace : l.isSignificant) :
    Stands outer column (Context.advance ⟨language, .tag phase, outer⟩ l).frames
      (e.step (columnAfter column (Lexeme.texts seen)) l) (seen ++ [l]) := by
  obtain ⟨kind, text⟩ := l
  cases kind with
  | tagName =>
    refine name_other (by simp) ?_ ?_ (.inl rfl) <;> simp [OpenElement.step, hslot]
  | attributeName => exact attributeName (.inl hslot) rfl
  | containerOpen use =>
    cases use with
    | spread => exact spread (.inl hslot) rfl _
    | _ => simp [TagPhase.admits, hphase] at ha
  | punctuation =>
    obtain ⟨hslot', hitem'⟩ := OpenElement.step_other (l := ⟨.punctuation, text⟩)
      (columnAfter column (Lexeme.texts seen)) (.inl hslot) (.inr rfl)
    simp only [TagPhase.admits, Bool.and_eq_true, beq_iff_eq] at ha
    simp only [Context.advance, ha.1, true_and]
    split
    · exact .aside (.inr ⟨rfl, rfl⟩) hslot' hitem' (.bottom rfl)
    · split <;> exact name_other (by simp) hslot' hitem' (.inr rfl)
  | _ => simp_all [TagPhase.admits, LexemeKind.delimits, Lexeme.isSignificant]

lemma attributes_token (hslot : e.slot = .closed ∨ ∃ commented, e.slot = .named commented ∧
      e.column = columnAfter column (Lexeme.texts (beforeLastName seen)))
    (hnamed : BehindName seen → e.slot ≠ .closed) (ha : TagPhase.attributes.admits l)
    (hl : l.kind.delimits = false) (hspace : l.isSignificant) (hequals : l.kind = .equals → BehindName seen) :
    Stands outer column (Context.advance ⟨language, .tag .attributes, outer⟩ l).frames
      (e.step (columnAfter column (Lexeme.texts seen)) l) (seen ++ [l]) := by
  have hopen : e.slot = .closed ∨ ∃ commented, e.slot = .named commented :=
    hslot.imp_right fun h => h.imp fun _ hboth => hboth.1
  obtain ⟨kind, text⟩ := l
  cases kind with
  | attributeName => exact attributeName hopen rfl
  | equals =>
    obtain ⟨commented, hslot, hcolumn⟩ := hslot.resolve_left (hnamed (hequals rfl))
    refine .equals ⟨commented, ?_⟩ ?_ ?_
    · simp [OpenElement.step, hslot]
    · simp [OpenElement.step, hslot]
    · rw [beforeLastName_of_ne (by simp), ← hcolumn]
      simp [OpenElement.step, hslot]
  | containerOpen use =>
    cases use with
    | spread => exact spread hopen rfl _
    | _ => simp [TagPhase.admits] at ha
  | _ => simp_all [TagPhase.admits, LexemeKind.delimits, Lexeme.isSignificant]

lemma equals_token (hslot : ∃ commented, e.slot = .valued commented) (hitem : e.item = .attribute)
    (hcolumn : e.column = columnAfter column (Lexeme.texts (beforeLastName seen)))
    (ha : TagPhase.equals.admits l) (hl : l.kind.delimits = false) (hspace : l.isSignificant)
    (column' : Nat) :
    Stands outer column (Context.advance ⟨language, .tag .equals, outer⟩ l).frames (e.step column' l)
      (seen ++ [l]) := by
  obtain ⟨commented, hslot⟩ := hslot
  obtain ⟨kind, text⟩ := l
  cases kind with
  | attributeString =>
    refine valueEnd ?_ ?_ ?_ (.inl rfl) <;>
      simp [OpenElement.step, OpenElement.setValue, hslot, hitem, hcolumn]
  | containerOpen use =>
    cases use with
    | value =>
      refine .value ⟨commented, .nothing, ?_⟩ ?_ ?_ (.bottom rfl)
      · simp [OpenElement.step, hslot]
      · simp [OpenElement.step, hslot, hitem]
      · rw [beforeLastName_of_ne (by simp), ← hcolumn]
        simp [OpenElement.step, hslot]
    | _ => simp [TagPhase.admits] at ha
  | _ => simp_all [TagPhase.admits, LexemeKind.delimits, Lexeme.isSignificant]

lemma tag_token (h : Stands outer column (.tag phase :: outer) e seen) (ha : phase.admits l)
    (hl : l.kind.delimits = false) (hequals : l.kind = .equals → BehindName seen) :
    Stands outer column (Context.advance ⟨language, .tag phase, outer⟩ l).frames
      (e.step (columnAfter column (Lexeme.texts seen)) l) (seen ++ [l]) := by
  by_cases hblank : l.kind = .blank
  · rw [Context.advance_space (by simp) (.inl hblank), OpenElement.step_blank hblank]
    exact h.blank hblank
  by_cases hcomment : l.kind = .comment
  · rw [Context.advance_space (by simp) (.inr hcomment)]
    exact h.comment _ hcomment
  have hspace : l.isSignificant := by simp [Lexeme.isSignificant, hblank, hcomment]
  cases h with
  | name hphase hslot hknows => exact name_token hphase hslot ha hl hspace
  | attributes hslot hnamed hknows => exact attributes_token hslot hnamed ha hl hspace hequals
  | equals hslot hitem hcolumn => exact equals_token hslot hitem hcolumn ha hl hspace _
  | value hslot hitem hcolumn hcode => cases hcode
  | aside hbottom hslot hitem hcode => cases hcode

lemma token (h : Stands outer column c.frames e seen) (ha : c.admits l) (hl : l.kind.delimits = false)
    (hequals : l.kind = .equals → BehindName seen) :
    Stands outer column (c.advance l).frames
      (e.step (columnAfter column (Lexeme.texts seen)) l) (seen ++ [l]) := by
  obtain ⟨language, inner, below⟩ := c
  have htag : ∀ {phase}, Stands outer column (.tag phase :: outer) e seen →
      Context.admits ⟨language, .tag phase, outer⟩ l →
      Stands outer column (Context.advance ⟨language, .tag phase, outer⟩ l).frames
        (e.step (columnAfter column (Lexeme.texts seen)) l) (seen ++ [l]) :=
    fun h ha => h.tag_token ha hl hequals
  cases h with
  | name hphase hslot hknows => exact htag (.name hphase hslot hknows) ha
  | attributes hslot hnamed hknows => exact htag (.attributes hslot hnamed hknows) ha
  | equals hslot hitem hcolumn => exact htag (.equals hslot hitem hcolumn) ha
  | value hslot hitem hcolumn hcode => exact .value_token hslot hitem hcolumn hcode ha hl _
  | aside hbottom hslot hitem hcode => exact .aside_token hbottom hslot hitem hcode ha hl _

lemma element {opening : List Char} (text : List Char) (h : Stands outer column c.frames e seen)
    (ha : c.admits ⟨.tagOpen, opening⟩) (column' : Nat) :
    Stands outer column (c.frames.modifyHead Frame.completed) (e.step column' ⟨.tagOpen, opening⟩)
      (seen ++ [⟨.tagOpen, text⟩]) := by
  obtain ⟨language, inner, below⟩ := c
  cases h with
  | name hphase hslot hknows => simp [Context.admits, TagPhase.admits, hphase] at ha
  | attributes hslot hnamed hknows => simp [Context.admits, TagPhase.admits] at ha
  | equals hslot hitem hcolumn =>
    obtain ⟨commented, hslot⟩ := hslot
    refine valueEnd ?_ ?_ ?_ (.inr (.inr rfl)) <;>
      simp [OpenElement.step, OpenElement.setValue, hslot, hitem, hcolumn]
  | value hslot hitem hcolumn hcode =>
    obtain ⟨commented, contents, hslot⟩ := hslot
    obtain ⟨⟨more, hmore⟩, hitem', hcolumn'⟩ := OpenElement.step_container (l := ⟨.tagOpen, opening⟩) column'
      hslot (by simp)
    refine .value ⟨_, more, hmore⟩ (hitem'.trans hitem) ?_ hcode.completed
    rw [hcolumn', hcolumn, beforeLastName_of_ne (by simp)]
  | aside hbottom hslot hitem hcode =>
    have hstep : e.step column' ⟨.tagOpen, opening⟩ = e := by simp [OpenElement.step, hslot]
    rw [hstep]
    exact .aside hbottom hslot hitem hcode.completed

lemma nesting (t : Nesting) {p : Progress} {es : List OpenElement} {more : List Lexeme}
    (ha : c.admitsAll (t.lexemes ++ more)) (hassigns : Assigns (seen ++ t.surface))
    (hes : p.openElements = e :: es) (hcolumn : p.column = columnAfter column (Lexeme.texts seen))
    (h : Stands outer column c.frames e seen) :
    ∃ f, (t.lexemes.foldl Progress.step p).openElements = f :: es ∧ f.index = e.index ∧
      Stands outer column (t.lexemes.foldl Context.advance c).frames f (seen ++ t.surface) := by
  -- The frames go with the lexemes that are read, and what has been seen with what stands directly in
  -- the tag. The lexemes of an element in it leave the frame and the element around them as one would.
  induction t generalizing c p e seen with
  | nil => exact ⟨e, hes, rfl, by simpa [Nesting.surface, Nesting.lexemes] using h⟩
  | token l hl rest ih =>
    have hadmits := Context.admits_of_admitsAll ha
    rw [Nesting.surface] at hassigns
    have hstep := h.token hadmits hl hassigns.behindName
    rw [Nesting.lexemes, List.cons_append, Context.admitsAll, Bool.and_eq_true] at ha
    rw [List.append_cons] at hassigns
    obtain ⟨f, hf, hindex, hstands⟩ := ih (p := p.step l) ha.2 hassigns
      (by rw [Progress.step_openElements hl, hes, List.modifyHead_cons, hcolumn])
      (by rw [texts_concat, columnAfter_append, ← hcolumn]; rfl) hstep
    refine ⟨f, hf, hindex.trans (e.step_index _ _), ?_⟩
    rw [Nesting.surface, List.append_cons]
    exact hstands
  | closed opening tag closing rest ihTag ihRest =>
    rw [Nesting.lexemes, List.cons_append, List.append_assoc] at ha
    obtain ⟨hrest, hframes⟩ := Nesting.Keeps.closed tag.keeps ha
    have helement := h.element (opening ++ (Lexeme.texts tag.lexemes ++ closing))
      (Context.admits_of_admitsAll ha) p.column
    rw [Nesting.surface, List.append_cons] at hassigns ⊢
    rw [Nesting.lexemes, List.foldl_cons, List.foldl_append, List.foldl_cons, List.foldl_cons,
      List.foldl_append, List.foldl_cons]
    obtain ⟨f, hf, hindex, hstands⟩ := ihRest
      (p := (tag.lexemes.foldl Progress.step (p.step ⟨.tagOpen, opening⟩)).step ⟨.selfClose, closing⟩)
      hrest hassigns
      (by rw [Progress.foldl_closed_openElements, hes, List.modifyHead_cons])
      (by rw [Progress.foldl_closed_column, hcolumn, ← columnAfter_append, texts_concat])
      (hframes ▸ helement)
    exact ⟨f, hf, hindex.trans (e.step_index _ _), hstands⟩
  | paired opening tag tagEnd content closing rest ihTag ihContent ihRest =>
    rw [Nesting.lexemes, List.cons_append, List.append_assoc, List.cons_append, List.append_assoc] at ha
    obtain ⟨hrest, hframes⟩ := Nesting.Keeps.paired tag.keeps content.keeps ha
    have helement := h.element (opening ++ (Lexeme.texts tag.lexemes ++ (tagEnd ++
      (Lexeme.texts content.lexemes ++ closing)))) (Context.admits_of_admitsAll ha) p.column
    rw [Nesting.surface, List.append_cons] at hassigns ⊢
    rw [Nesting.lexemes, List.foldl_cons, List.foldl_append, List.foldl_cons, List.foldl_append,
      List.foldl_cons, List.foldl_cons, List.foldl_append, List.foldl_cons, List.foldl_append,
      List.foldl_cons]
    obtain ⟨f, hf, hindex, hstands⟩ := ihRest
      (p := (content.lexemes.foldl Progress.step ((tag.lexemes.foldl Progress.step
        (p.step ⟨.tagOpen, opening⟩)).step ⟨.tagEnd, tagEnd⟩)).step ⟨.closingEnd, closing⟩)
      hrest hassigns
      (by rw [Progress.foldl_paired_openElements, hes, List.modifyHead_cons])
      (by rw [Progress.foldl_paired_column, hcolumn, ← columnAfter_append, texts_concat])
      (hframes ▸ helement)
    exact ⟨f, hf, hindex.trans (e.step_index _ _), hstands⟩

lemma knows_of_endsTag (h : Stands outer column c.frames e seen) (ha : c.admits l) (hl : l.kind.endsTag) :
    e.Knows column seen := by
  obtain ⟨language, inner, below⟩ := c
  obtain ⟨kind, text⟩ := l
  have hcode : ∀ k : Code, ¬ Context.admits ⟨language, .code k, below⟩ ⟨kind, text⟩ := by
    intro k
    cases kind <;> simp_all [Context.admits, Code.admits, LexemeKind.endsTag]
  cases h with
  | name hphase hslot hknows => exact hknows
  | attributes hslot hnamed hknows => exact hknows
  | equals hslot hitem hcolumn =>
    cases kind <;> simp_all [Context.admits, TagPhase.admits, LexemeKind.endsTag]
  | value hslot hitem hcolumn h => cases h <;> exact absurd ha (hcode _)
  | aside hbottom hslot hitem h => cases h <;> exact absurd ha (hcode _)

end Stands

namespace OpeningTag

variable {language : Language} {source : List Char}

def start {ls : List Lexeme} (t : OpeningTag ls) : List Lexeme := t.front ++ [⟨.tagOpen, t.opening⟩]

def progress {ls : List Lexeme} (t : OpeningTag ls) : Progress :=
  (t.start ++ t.inside.lexemes).foldl Progress.step .initial

lemma exists_knows (h : accepts language source) (t : OpeningTag (lexemes language source))
    (hassigns : Assigns t.inside.surface) :
    ∃ e es, t.progress.openElements = e :: es ∧ e.index = t.element ∧
      e.Knows (columnAfter 0 (Lexeme.texts t.start)) t.inside.surface := by
  obtain ⟨front, opening, inside, token, after, hends, heq⟩ := t
  simp only [progress, start, element]
  rw [accepts, ← heq] at h
  have hadmits := Context.admitsAll_behind h
  rw [Context.admitsAll, Bool.and_eq_true] at hadmits
  set c := front.foldl Context.advance (Context.initial language)
  set p := front.foldl Progress.step Progress.initial
  have hsize : p.forest.size = front.countP (·.kind = .tagOpen) :=
    (Progress.foldl_step_size .initial front).trans (Nat.zero_add _)
  have hopened : (p.step ⟨.tagOpen, opening⟩).openElements =
      .start p.forest.size :: (p.stepInner ⟨.tagOpen, opening⟩).openElements :=
    Progress.openTag_openElements opening
  have hcolumn : (p.step ⟨.tagOpen, opening⟩).column =
      columnAfter (columnAfter 0 (Lexeme.texts (front ++ [⟨.tagOpen, opening⟩]))) (Lexeme.texts []) := by
    have hfold := Progress.foldl_step_column Progress.initial (front ++ [⟨.tagOpen, opening⟩])
    rwa [List.foldl_concat] at hfold
  obtain ⟨e, he, hindex, hstands⟩ := Stands.nesting inside hadmits.2 hassigns hopened hcolumn
    (.name (by simp) rfl rfl)
  refine ⟨e, (p.stepInner ⟨.tagOpen, opening⟩).openElements, ?_, hindex.trans hsize, ?_⟩
  · rw [List.foldl_append, List.foldl_concat]
    exact he
  · exact hstands.knows_of_endsTag (Context.admits_of_admitsAll (Context.admitsAll_behind hadmits.2)) hends

end OpeningTag

end MarkupLabels.Source
