import Mathlib
import MarkupLabels.Source.Acceptance
import MarkupLabels.Source.Document
import MarkupLabels.Proofs.Source.Shapes
import MarkupLabels.Proofs.Source.Weaving

/-! The open elements fit the frames of the context: each tag, content or closing tag that is open
belongs to one element. A tag whose name has not been read has an element without a name, and only
under a value container does an element wait for the rest of a value. -/

namespace MarkupLabels.Source

namespace OpenElement

def isHeld (e : OpenElement) : Bool :=
  match e.slot with
  | .container _ _ => true
  | _ => false

variable (e : OpenElement) (column : Nat) (l : Lexeme)

lemma step_index : (e.step column l).index = e.index := by
  unfold step
  repeat' split
  all_goals rfl

lemma step_named (hl : l.kind ≠ .tagName) : (e.step column l).named = e.named := by
  unfold step
  repeat' split
  all_goals first | rfl | contradiction

lemma step_isHeld (hl : l.kind ≠ .containerOpen .value) :
    (e.step column l).isHeld → e.isHeld := by
  unfold step
  repeat' split
  all_goals simp_all [isHeld, setValue]

lemma step_containerClose (hl : l.kind = .containerClose .value) :
    (e.step column l).isHeld = false := by
  unfold step
  rw [hl]
  split
  · rfl
  · next h =>
    unfold isHeld
    split <;> simp_all

end OpenElement

/-- Frames with the open elements they belong to and the indices of those whose tags have not ended.
It is told whether a value container stands above the frames. -/
inductive Aligned : Bool → List Frame → List OpenElement → List Nat → Prop
  | program {held : Bool} {k : Code} : Aligned held [.code k] [] []
  | code {held : Bool} {k : Code} {fs : List Frame} {es : List OpenElement} {pending : List Nat}
      (below : Aligned (k.shape = .container .value) fs es pending) :
      Aligned held (.code k :: fs) es pending
  | tag {held : Bool} {phase : TagPhase} {fs : List Frame} {e : OpenElement}
      {es : List OpenElement} {pending : List Nat} (holds : e.isHeld → held)
      (unnamed : phase = .opened → e.named = false) (below : Aligned false fs es pending) :
      Aligned held (.tag phase :: fs) (e :: es) (e.index :: pending)
  | children {held : Bool} {fs : List Frame} {e : OpenElement} {es : List OpenElement}
      {pending : List Nat} (holds : ¬ e.isHeld) (below : Aligned false fs es pending) :
      Aligned held (.children :: fs) (e :: es) pending
  | closingTag {held : Bool} {fs : List Frame} {e : OpenElement} {es : List OpenElement}
      {pending : List Nat} (holds : ¬ e.isHeld) (below : Aligned false fs es pending) :
      Aligned held (.closingTag :: fs) (e :: es) pending

namespace Aligned

variable {held : Bool} {fs : List Frame} {es : List OpenElement} {pending : List Nat} {k k' : Code}

lemma ne_nil (h : Aligned held fs es pending) : fs ≠ [] := by
  cases h <;> simp

lemma pending_of_single {f : Frame} (h : Aligned held [f] es pending) : pending = [] := by
  cases h with
  | program => rfl
  | code below => exact absurd rfl below.ne_nil
  | tag holds unnamed below => exact absurd rfl below.ne_nil
  | children holds below => exact absurd rfl below.ne_nil
  | closingTag holds below => exact absurd rfl below.ne_nil

lemma relax (h : Aligned false fs es pending) : Aligned held fs es pending := by
  cases h with
  | program => exact .program
  | code below => exact .code below
  | tag holds unnamed below => exact .tag (fun he => absurd (holds he) (by simp)) unnamed below
  | children holds below => exact .children holds below
  | closingTag holds below => exact .closingTag holds below

lemma reshape (h : Aligned held (.code k :: fs) es pending) (hs : k'.shape = k.shape) :
    Aligned held (.code k' :: fs) es pending := by
  cases h with
  | program => exact .program
  | code below => exact .code (hs ▸ below)

lemma above {held' : Bool} (h : Aligned held (.code k :: fs) es pending) :
    Aligned held' (.code k :: fs) es pending := by
  cases h with
  | program => exact .program
  | code below => exact .code below

lemma of_code (h : Aligned held (.code k :: fs) es pending) :
    fs = [] ∨ Aligned (k.shape = .container .value) fs es pending := by
  cases h with
  | program => exact .inl rfl
  | code below => exact .inr below

lemma modifyHead {g : OpenElement → OpenElement} {held' : Bool} (h : Aligned held fs es pending)
    (hindex : ∀ e, (g e).index = e.index) (hnamed : ∀ e, (g e).named = e.named)
    (hholds : ∀ e, (g e).isHeld → e.isHeld ∧ (held → held')) :
    Aligned held' fs (es.modifyHead g) pending := by
  induction h generalizing held' with
  | program => exact .program
  | code below ih => exact .code (ih fun e he => ⟨(hholds e he).1, id⟩)
  | @tag held phase fs e es pending holds unnamed below _ =>
    rw [List.modifyHead_cons, ← hindex e]
    refine .tag (fun he => (hholds e he).2 (holds (hholds e he).1)) ?_ below
    rw [hnamed]
    exact unnamed
  | @children held fs e es pending holds below _ =>
    exact .children (fun he => holds (hholds e he).1) below
  | @closingTag held fs e es pending holds below _ =>
    exact .closingTag (fun he => holds (hholds e he).1) below

end Aligned

namespace Context

def frames (c : Context) : List Frame := c.inner :: c.outer

variable {c : Context} {es : List OpenElement} {pending : List Nat} {held : Bool}

lemma complete_aligned (h : Aligned held c.frames es pending) :
    Aligned held c.complete.frames es pending := by
  obtain ⟨language, inner, outer⟩ := c
  cases inner with
  | code k =>
    change Aligned held (.code (k.see .operand) :: outer) es pending
    exact h.reshape rfl
  | tag phase =>
    cases h with
    | tag holds unnamed below => exact .tag holds (by simp) below
  | children => exact h
  | closingTag => exact h

lemma pop_frames (f : Frame) (fs : List Frame) (h : c.outer = f :: fs) : c.pop.frames = f :: fs := by
  simp [pop, frames, h]

lemma pop_aligned {k : Code} (hc : c.inner = .code k) (hk : k.shape ≠ .container .value)
    (h : Aligned held c.frames es pending) : Aligned held c.pop.frames es pending := by
  obtain ⟨language, inner, outer⟩ := c
  subst hc
  rcases h.of_code with rfl | below
  · exact h
  · obtain ⟨f, fs, rfl⟩ := List.exists_cons_of_ne_nil below.ne_nil
    rw [pop_frames f fs rfl]
    simp only [hk, decide_false] at below
    exact below.relax

end Context

namespace Progress

variable (p : Progress) (l : Lexeme)

lemma stepInner_openElements :
    (p.stepInner l).openElements = p.openElements.modifyHead (·.step p.column l) := by
  unfold stepInner
  split
  · next h => simp [h]
  · next h => simp [h]

lemma stepInner_forest : (p.stepInner l).forest = p.forest := by
  unfold stepInner
  split <;> rfl

def Leaves (pending pending' : List Nat) : Prop :=
  match l.kind with
  | .tagOpen => pending' = p.forest.size :: pending
  | .tagEnd | .selfClose => ∃ e es, p.openElements = e :: es ∧ pending = e.index :: pending'
  | _ => pending' = pending

variable {p l} {c : Context} {pending : List Nat}

lemma stepInner_aligned {held : Bool} (held' : Bool) {fs : List Frame}
    (h : Aligned held fs p.openElements pending) (hname : l.kind ≠ .tagName)
    (hvalue : l.kind ≠ .containerOpen .value)
    (hheld : held → held' ∨ l.kind = .containerClose .value) :
    Aligned held' fs (p.stepInner l).openElements pending := by
  rw [stepInner_openElements]
  refine h.modifyHead (fun e => e.step_index _ l) (fun e => e.step_named _ l hname) ?_
  intro e he
  refine ⟨e.step_isHeld _ l hvalue he, fun hh => ?_⟩
  rcases hheld hh with hh | hl
  · exact hh
  · simp [e.step_containerClose _ l hl] at he

lemma openTag_openElements (text : List Char) :
    (p.step ⟨.tagOpen, text⟩).openElements =
      .start p.forest.size :: (p.stepInner ⟨.tagOpen, text⟩).openElements := by
  simp [step, enter, openTag, stepInner_forest]

lemma closeTag_openElements {e : OpenElement} {es : List OpenElement}
    (h : p.openElements = e :: es) : p.closeTag.openElements = .start e.index :: es := by
  simp [closeTag, h]

lemma start_not_held (i : Nat) : ¬ (OpenElement.start i).isHeld := by
  simp [OpenElement.isHeld, OpenElement.start]

lemma step_of_code {k : Code} (ha : k.admits l) (hl : l.kind ≠ .tagOpen) :
    p.Leaves l pending pending ∧ (p.step l).openElements = (p.stepInner l).openElements := by
  obtain ⟨kind, text⟩ := l
  cases kind with
  | tagOpen => exact absurd rfl hl
  | blank | comment | word | importWord | number | string | template | regex | templatePart
  | punctuation | containerClose => exact ⟨rfl, rfl⟩
  | _ => simp [Code.admits] at ha

lemma code_aligned {k : Code} (hc : c.inner = .code k) (ha : k.admits l)
    (h : Aligned false c.frames p.openElements pending) :
    ∃ pending', p.Leaves l pending pending' ∧
      Aligned false (c.advance l).frames (p.step l).openElements pending' := by
  obtain ⟨language, inner, outer⟩ := c
  subst hc
  have hname : l.kind ≠ .tagName := fun hk => by simp [Code.admits, hk] at ha
  have hvalue : l.kind ≠ .containerOpen .value := fun hk => by simp [Code.admits, hk] at ha
  -- What a lexeme of code does to the innermost element keeps the code in line, whichever frame is
  -- on top in the end.
  have hcode : ∀ held' : Bool, Aligned held' (.code k :: outer) (p.stepInner l).openElements pending :=
    fun _ => (stepInner_aligned false h hname hvalue (by simp)).above
  by_cases hopen : l.kind = .tagOpen
  · obtain ⟨kind, text⟩ := l
    subst hopen
    refine ⟨p.forest.size :: pending, rfl, ?_⟩
    rw [openTag_openElements]
    exact .tag (fun he => absurd he (start_not_held _)) (fun _ => rfl) (hcode false)
  obtain ⟨hleaves, helements⟩ : p.Leaves l pending pending ∧
      (p.step l).openElements = (p.stepInner l).openElements := step_of_code ha hopen
  refine ⟨pending, hleaves, ?_⟩
  rw [helements]
  have hstep := Context.codeStep_advance (c := ⟨language, .code k, outer⟩) rfl ha hopen
  generalize Context.advance ⟨language, .code k, outer⟩ l = c' at hstep ⊢
  cases hstep with
  | stays _ hshape => exact (hcode false).reshape hshape
  | opens _ hshape _ => exact .code ((hcode _).reshape hshape)
  | closes _ _ hshape => exact Context.pop_aligned rfl (hshape .value) (hcode false)
  | container hl hshape =>
    refine Context.complete_aligned ?_
    rcases h.of_code with rfl | below
    · exact hcode false
    · -- The brace that closes a value gives the element back to its tag, which is held no longer.
      obtain ⟨f, fs, rfl⟩ := List.exists_cons_of_ne_nil below.ne_nil
      rw [Context.pop_frames f fs rfl]
      refine stepInner_aligned _ below hname hvalue fun hheld => .inr ?_
      simpa [hl, hshape] using hheld

lemma tag_reshape {held : Bool} {phase phase' : TagPhase} {outer : List Frame}
    (h : Aligned false (.tag phase :: outer) p.openElements pending)
    (hheld : held ∨ l.kind ≠ .containerOpen .value)
    (hphase : phase' = .opened → phase = .opened ∧ l.kind ≠ .tagName) :
    Aligned held (.tag phase' :: outer) (p.stepInner l).openElements pending := by
  rw [stepInner_openElements]
  generalize p.openElements = es at h ⊢
  cases h with
  | @tag _ _ _ e es pending holds unnamed below =>
    rw [List.modifyHead_cons, ← e.step_index p.column l]
    refine .tag (fun he => ?_) (fun hp => ?_) below
    · rcases hheld with hheld | hvalue
      · exact hheld
      · exact absurd (holds (e.step_isHeld _ _ hvalue he)) (by simp)
    · obtain ⟨hopened, hname⟩ := hphase hp
      rw [e.step_named _ _ hname]
      exact unnamed hopened

lemma tag_ends {phase : TagPhase} {outer : List Frame}
    (h : Aligned false (.tag phase :: outer) p.openElements pending) :
    ∃ e es pending', p.openElements = e :: es ∧ pending = e.index :: pending' ∧
      p.closeTag.openElements = .start e.index :: es ∧ Aligned false outer es pending' := by
  generalize hes : p.openElements = es at h
  cases h with
  | @tag _ _ _ e es pending holds unnamed below =>
    exact ⟨e, es, pending, rfl, rfl, closeTag_openElements hes, below⟩

lemma tag_aligned {phase : TagPhase} (hc : c.inner = .tag phase) (ha : phase.admits l)
    (h : Aligned false c.frames p.openElements pending) :
    ∃ pending', p.Leaves l pending pending' ∧
      Aligned false (c.advance l).frames (p.step l).openElements pending' := by
  obtain ⟨language, inner, outer⟩ := c
  obtain ⟨kind, text⟩ := l
  subst hc
  change Aligned false (.tag phase :: outer) p.openElements pending at h
  cases kind with
  | blank | comment =>
    refine ⟨pending, rfl, ?_⟩
    rw [Context.advance_space (by simp) (by simp)]
    exact tag_reshape h (.inr (by simp)) (by simp)
  | tagName => exact ⟨pending, rfl, tag_reshape h (.inr (by simp)) (by simp)⟩
  | attributeName => exact ⟨pending, rfl, tag_reshape h (.inr (by simp)) (by simp)⟩
  | equals => exact ⟨pending, rfl, tag_reshape h (.inr (by simp)) (by simp)⟩
  | attributeString => exact ⟨pending, rfl, tag_reshape h (.inr (by simp)) (by simp)⟩
  | containerOpen use =>
    cases use with
    | value => exact ⟨pending, rfl, .code (tag_reshape h (.inl (by simp [Code.inside])) (by simp))⟩
    | spread => exact ⟨pending, rfl, .code (tag_reshape h (.inr (by simp)) (by simp))⟩
    | child => simp [TagPhase.admits] at ha
  | tagOpen =>
    refine ⟨p.forest.size :: pending, rfl, ?_⟩
    rw [openTag_openElements]
    exact .tag (fun he => absurd he (start_not_held _)) (fun _ => rfl)
      (tag_reshape h (.inr (by simp)) (by simp))
  | punctuation =>
    refine ⟨pending, rfl, ?_⟩
    simp only [TagPhase.admits, Bool.and_eq_true, beq_iff_eq] at ha
    simp only [Context.advance, ha.1, true_and]
    split
    · exact .code (tag_reshape h (.inr (by simp)) (by simp [ha.1]))
    · split
      · exact tag_reshape h (.inr (by simp)) (by simp)
      · exact tag_reshape h (.inr (by simp)) (by simp [ha.1])
  | tagEnd =>
    obtain ⟨e, es, pending', hes, hpending, hclosed, below⟩ := tag_ends h
    refine ⟨pending', ⟨e, es, hes, hpending⟩, ?_⟩
    change Aligned false (.children :: outer) p.closeTag.openElements pending'
    rw [hclosed]
    exact .children (start_not_held _) below
  | selfClose =>
    obtain ⟨e, es, pending', hes, hpending, hclosed, below⟩ := tag_ends h
    refine ⟨pending', ⟨e, es, hes, hpending⟩, Context.complete_aligned ?_⟩
    change Aligned false (Context.pop ⟨language, .tag phase, outer⟩).frames
      (p.closeTag.openElements.drop 1) pending'
    obtain ⟨f, fs, rfl⟩ := List.exists_cons_of_ne_nil below.ne_nil
    rw [hclosed, Context.pop_frames f fs rfl]
    exact below
  | _ => simp [TagPhase.admits] at ha

lemma children_aligned (hc : c.inner = .children) (ha : c.admits l)
    (h : Aligned false c.frames p.openElements pending) :
    ∃ pending', p.Leaves l pending pending' ∧
      Aligned false (c.advance l).frames (p.step l).openElements pending' := by
  obtain ⟨language, inner, outer⟩ := c
  obtain ⟨kind, text⟩ := l
  subst hc
  have hstep : kind ≠ .tagName → kind ≠ .containerOpen .value →
      Aligned false (.children :: outer) (p.stepInner ⟨kind, text⟩).openElements pending :=
    fun hname hvalue => stepInner_aligned false h hname hvalue (by simp)
  cases kind with
  | containerOpen use =>
    cases use with
    | child => exact ⟨pending, rfl, .code (hstep (by simp) (by simp))⟩
    | _ => simp [Context.admits] at ha
  | tagOpen =>
    refine ⟨p.forest.size :: pending, rfl, ?_⟩
    rw [openTag_openElements]
    exact .tag (fun he => absurd he (start_not_held _)) (fun _ => rfl) (hstep (by simp) (by simp))
  | closingOpen =>
    refine ⟨pending, rfl, ?_⟩
    have h' := hstep (by simp) (by simp)
    change Aligned false (.closingTag :: outer) (p.stepInner ⟨.closingOpen, text⟩).openElements pending
    generalize (p.stepInner ⟨.closingOpen, text⟩).openElements = es at h' ⊢
    cases h' with
    | children holds below => exact .closingTag holds below
  | content => exact ⟨pending, rfl, hstep (by simp) (by simp)⟩
  | _ => simp [Context.admits] at ha

lemma closing_aligned (hc : c.inner = .closingTag) (ha : c.admits l)
    (h : Aligned false c.frames p.openElements pending) :
    ∃ pending', p.Leaves l pending pending' ∧
      Aligned false (c.advance l).frames (p.step l).openElements pending' := by
  obtain ⟨language, inner, outer⟩ := c
  obtain ⟨kind, text⟩ := l
  subst hc
  have hstep : kind ≠ .tagName → kind ≠ .containerOpen .value →
      Aligned false (.closingTag :: outer) (p.stepInner ⟨kind, text⟩).openElements pending :=
    fun hname hvalue => stepInner_aligned false h hname hvalue (by simp)
  cases kind with
  | blank | comment =>
    refine ⟨pending, rfl, ?_⟩
    rw [Context.advance_space (by simp) (by simp)]
    exact hstep (by simp) (by simp)
  | closingName => exact ⟨pending, rfl, hstep (by simp) (by simp)⟩
  | closingEnd =>
    refine ⟨pending, rfl, Context.complete_aligned ?_⟩
    change Aligned false (Context.pop ⟨language, .closingTag, outer⟩).frames
      (p.openElements.drop 1) pending
    generalize p.openElements = es at h ⊢
    cases h with
    | closingTag holds below =>
      obtain ⟨f, fs, rfl⟩ := List.exists_cons_of_ne_nil below.ne_nil
      rw [Context.pop_frames f fs rfl]
      exact below
  | _ => simp [Context.admits] at ha

lemma step_aligned (ha : c.admits l) (h : Aligned false c.frames p.openElements pending) :
    ∃ pending', p.Leaves l pending pending' ∧
      Aligned false (c.advance l).frames (p.step l).openElements pending' := by
  unfold Context.admits at ha
  cases hc : c.inner with
  | code k => exact code_aligned hc (by simpa [hc] using ha) h
  | tag phase => exact tag_aligned hc (by simpa [hc] using ha) h
  | children => exact children_aligned hc (by simpa [Context.admits, hc] using ha) h
  | closingTag => exact closing_aligned hc (by simpa [Context.admits, hc] using ha) h

lemma closeTag_size : p.closeTag.forest.size = p.forest.size := by
  unfold closeTag
  split
  · rfl
  · simp [Forest.describe, Forest.size]

lemma step_size : (p.step l).forest.size = p.forest.size + if l.kind = .tagOpen then 1 else 0 := by
  obtain ⟨kind, text⟩ := l
  change (p.enter ⟨kind, text⟩).forest.size = _
  cases kind <;> simp only [enter, leave, closeTag_size, stepInner_forest, openTag] <;>
    simp [Forest.add, Forest.size]

lemma step_forest : (p.step l).forest =
    match l.kind with
    | .tagOpen => p.forest.add
        { name := none, parent := p.openElements.head?.map (·.index), attributes := [] }
    | .tagEnd | .selfClose => p.closeTag.forest
    | _ => p.forest := by
  obtain ⟨kind, text⟩ := l
  have hhead : (p.stepInner ⟨kind, text⟩).openElements.head?.map (·.index) =
      p.openElements.head?.map (·.index) := by
    rw [stepInner_openElements]
    cases p.openElements <;> simp [OpenElement.step_index]
  change (p.enter ⟨kind, text⟩).forest = _
  cases kind <;> simp only [enter, openTag, leave, stepInner_forest, hhead]

lemma Leaves.split {pending' : List Nat} (h : p.Leaves l pending pending') :
    ∃ rest, pending = (p.tagEnd? l).toList.map (·.element) ++ rest ∧
      pending' = (if l.kind = .tagOpen then [p.forest.size] else []) ++ rest := by
  unfold Leaves at h
  split at h
  · next hk => exact ⟨pending, by simp [tagEnd?, hk], by simp [hk, h]⟩
  · next hk =>
    obtain ⟨e, es, hes, rfl⟩ := h
    exact ⟨pending', by simp [tagEnd?, hk, hes], by simp [hk]⟩
  · next hk =>
    obtain ⟨e, es, hes, rfl⟩ := h
    exact ⟨pending', by simp [tagEnd?, hk, hes], by simp [hk]⟩
  · next hopen hend hclose =>
    have hnone : p.tagEnd? l = none := by
      apply tagEnd?_eq_none
      cases hk : l.kind <;> simp_all [LexemeKind.endsTag]
    exact ⟨pending, by simp [hnone], by simpa [h] using hopen⟩

lemma Leaves.nodup {pending' : List Nat} (h : p.Leaves l pending pending') (hnodup : pending.Nodup)
    (hlt : ∀ i ∈ pending, i < p.forest.size) :
    pending'.Nodup ∧ ∀ i ∈ pending', i < (p.step l).forest.size := by
  obtain ⟨rest, rfl, rfl⟩ := h.split
  have hrest := (List.nodup_append.mp hnodup).2.1
  have hrestlt : ∀ i ∈ rest, i < p.forest.size := fun i hi => hlt i (List.mem_append_right _ hi)
  rw [step_size]
  split
  · refine ⟨List.nodup_cons.mpr ⟨fun hi => (hrestlt _ hi).false, hrest⟩, fun i hi => ?_⟩
    rcases List.mem_cons.mp hi with rfl | hi
    · exact Nat.lt_succ_self _
    · exact (hrestlt i hi).trans (Nat.lt_succ_self _)
  · exact ⟨hrest, fun i hi => hrestlt i (by simpa using hi)⟩

lemma tagEnds_nodup {ls : List Lexeme} (ha : c.admitsAll ls)
    (h : Aligned false c.frames p.openElements pending) (hnodup : pending.Nodup)
    (hlt : ∀ i ∈ pending, i < p.forest.size) :
    ((p.tagEnds ls).map (·.element)).Nodup ∧
      ∀ i ∈ (p.tagEnds ls).map (·.element), i ∈ pending ∨ p.forest.size ≤ i := by
  -- The pending tags are those that have not ended, and whatever opens later has a number from the size
  -- of the forest on. So an end that comes later is never the end of a tag that has ended.
  induction ls generalizing c p pending with
  | nil => simp [tagEnds]
  | cons l ls ih =>
    simp only [Context.admitsAll, Bool.and_eq_true] at ha
    obtain ⟨pending', hleaves, h'⟩ := step_aligned ha.1 h
    obtain ⟨hfresh, hbound⟩ := hleaves.nodup hnodup hlt
    obtain ⟨rest, rfl, rfl⟩ := hleaves.split
    obtain ⟨hended, -, hdisjoint⟩ := List.nodup_append.mp hnodup
    have hopened : ∀ i ∈ (if l.kind = .tagOpen then [p.forest.size] else []), i = p.forest.size := by
      split <;> simp
    obtain ⟨hlater, hmem⟩ := ih ha.2 h' hfresh hbound
    have hmem' : ∀ i ∈ ((p.step l).tagEnds ls).map (·.element), i ∈ rest ∨ p.forest.size ≤ i := by
      intro i hi
      rcases hmem i hi with hi | hi
      · rcases List.mem_append.mp hi with hi | hi
        · exact .inr (hopened i hi).ge
        · exact .inl hi
      · rw [step_size] at hi
        exact .inr (by omega)
    rw [tagEnds, List.map_append]
    refine ⟨List.nodup_append.mpr ⟨hended, hlater, ?_⟩, ?_⟩
    · intro i hi j hj hij
      subst hij
      rcases hmem' i hj with hj | hj
      · exact hdisjoint i hi i hj rfl
      · exact (hlt i (List.mem_append_left _ hi)).not_ge hj
    · intro i hi
      rcases List.mem_append.mp hi with hi | hi
      · exact .inl (List.mem_append_left _ hi)
      · exact (hmem' i hi).imp_left (List.mem_append_right _)

end Progress

structure OpenElement.Sound (e : OpenElement) : Prop where
  named_of_name : e.name.isSome → e.named
  item_of_named : e.named → e.item ≠ .nothing

namespace OpenElement.Sound

variable {e : OpenElement}

lemma start (i : Nat) : (OpenElement.start i).Sound :=
  ⟨by simp [OpenElement.start], by simp [OpenElement.start]⟩

lemma step (h : e.Sound) (column : Nat) (l : Lexeme) : (e.step column l).Sound := by
  obtain ⟨hname, hitem⟩ := h
  unfold OpenElement.step OpenElement.setValue
  repeat' split
  all_goals exact ⟨by simp_all, by simp_all⟩

end OpenElement.Sound

namespace Progress

variable {p : Progress} {l : Lexeme} {t : TagEnd} {ls : List Lexeme}

lemma step_forall {P : OpenElement → Prop} (h : ∀ e ∈ p.openElements, P e)
    (hstep : ∀ e column, P e → P (e.step column l)) (hstart : ∀ e, P e → P (.start e.index))
    (hnew : l.kind = .tagOpen → P (.start p.forest.size)) :
    ∀ e ∈ (p.step l).openElements, P e := by
  have hinner : ∀ e ∈ (p.stepInner l).openElements, P e := by
    unfold stepInner
    split
    · exact h
    · next e rest hes =>
      rw [hes] at h
      rintro f (_ | ⟨_, hf⟩)
      · exact hstep e _ (h e (by simp))
      · exact h f (List.mem_cons_of_mem _ hf)
  have hclose : ∀ e ∈ p.closeTag.openElements, P e := by
    unfold closeTag
    split
    · exact h
    · next e rest hes =>
      rw [hes] at h
      rintro f (_ | ⟨_, hf⟩)
      · exact hstart e (h e (by simp))
      · exact h f (List.mem_cons_of_mem _ hf)
  change ∀ e ∈ (p.enter l).openElements, P e
  unfold enter
  split
  · next hk =>
    have hsize := p.stepInner_forest l
    rintro f (_ | ⟨_, hf⟩)
    · rw [hsize]
      exact hnew hk
    · exact hinner f hf
  · exact hclose
  · exact fun f hf => hclose f (List.mem_of_mem_drop hf)
  · exact fun f hf => h f (List.mem_of_mem_drop hf)
  · exact hinner

lemma step_sound (h : ∀ e ∈ p.openElements, e.Sound) : ∀ e ∈ (p.step l).openElements, e.Sound :=
  step_forall h (fun _ column he => he.step column l) (fun _ _ => .start _) fun _ => .start _

lemma element_lt (h : ∀ e ∈ p.openElements, e.index < p.forest.size) (ht : t ∈ p.tagEnds ls) :
    t.element < (ls.foldl step p).forest.size := by
  induction ls generalizing p with
  | nil => simp [tagEnds] at ht
  | cons l ls ih =>
    rw [tagEnds, List.mem_append] at ht
    have hgrow : ∀ (q : Progress) (ms : List Lexeme), q.forest.size ≤ (ms.foldl step q).forest.size := by
      intro q ms
      induction ms generalizing q with
      | nil => exact le_rfl
      | cons m ms ih' =>
        refine le_trans ?_ (ih' (q.step m))
        rw [step_size]
        exact Nat.le_add_right _ _
    rcases ht with ht | ht
    · obtain ⟨-, e, rest, hes, rfl⟩ := tagEnd?_eq_some (Option.mem_toList.mp ht)
      exact (h e (by simp [hes])).trans_le (hgrow p (l :: ls))
    · refine ih (step_forall (fun e he => ?_) ?_ (fun _ => id) ?_) ht
      · rw [step_size]
        exact Nat.lt_add_right _ (h e he)
      · intro e column he
        rwa [e.step_index]
      · intro hk
        rw [step_size, if_pos hk]
        exact Nat.lt_succ_self _

lemma layout_of_named (h : ∀ e ∈ p.openElements, e.Sound) (ht : t ∈ p.tagEnds ls) (hn : t.named) :
    t.layout.isSome := by
  induction ls generalizing p with
  | nil => simp [tagEnds] at ht
  | cons l ls ih =>
    rw [tagEnds, List.mem_append] at ht
    rcases ht with ht | ht
    · obtain ⟨-, e, rest, hes, rfl⟩ := tagEnd?_eq_some (Option.mem_toList.mp ht)
      have hitem := (h e (by simp [hes])).item_of_named hn
      unfold layout
      repeat' split
      all_goals first | rfl | contradiction
    · exact ih (step_sound h) ht

end Progress

end MarkupLabels.Source
