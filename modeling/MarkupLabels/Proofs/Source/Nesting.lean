import Mathlib
import MarkupLabels.Proofs.Source.Edits
import MarkupLabels.Proofs.Source.Stability
import MarkupLabels.Proofs.Tree.Building

/-! Source text as a tree: elements hold what stands in their tags and between them, and so each other.
Reading with a stack of open elements comes to the recursion over the tree. -/

namespace MarkupLabels.Source

def LexemeKind.delimits : LexemeKind → Bool
  | .tagOpen | .tagEnd | .selfClose | .closingEnd => true
  | _ => false

lemma LexemeKind.ne_tagOpen {kind : LexemeKind} (h : kind.delimits = false) : kind ≠ .tagOpen := by
  rintro rfl
  simp [delimits] at h

/-- What stands one after another: lexemes, and whole elements. An element closes itself at the end of its
tag, or it has content, which is taken to reach up to the last lexeme of its closing tag. -/
inductive Nesting
  | nil
  | token (l : Lexeme) (h : l.kind.delimits = false) (rest : Nesting)
  | closed (opening : List Char) (tag : Nesting) (closing : List Char) (rest : Nesting)
  | paired (opening : List Char) (tag : Nesting) (tagEnd : List Char) (content : Nesting)
    (closing : List Char) (rest : Nesting)

namespace Nesting

def lexemes : Nesting → List Lexeme
  | nil => []
  | token l _ rest => l :: rest.lexemes
  | closed opening tag closing rest =>
    ⟨.tagOpen, opening⟩ :: (tag.lexemes ++ ⟨.selfClose, closing⟩ :: rest.lexemes)
  | paired opening tag tagEnd content closing rest =>
    ⟨.tagOpen, opening⟩ :: (tag.lexemes ++ ⟨.tagEnd, tagEnd⟩ ::
      (content.lexemes ++ ⟨.closingEnd, closing⟩ :: rest.lexemes))

def size : Nesting → Nat
  | nil => 0
  | token _ _ rest => rest.size
  | closed _ tag _ rest => tag.size + 1 + rest.size
  | paired _ tag _ content _ rest => tag.size + content.size + 1 + rest.size

def parents (around : Option Nat) (first : Nat) : Nesting → List (Option Nat)
  | nil => []
  | token _ _ rest => rest.parents around first
  | closed _ tag _ rest =>
    around :: (tag.parents (some first) (first + 1) ++ rest.parents around (first + 1 + tag.size))
  | paired _ tag _ content _ rest =>
    around :: (tag.parents (some first) (first + 1) ++
      (content.parents (some first) (first + 1 + tag.size) ++
        rest.parents around (first + 1 + tag.size + content.size)))

def ends (first offset : Nat) : Nesting → List (Nat × Nat)
  | nil => []
  | token l _ rest => rest.ends first (offset + l.text.length)
  | closed opening tag closing rest =>
    let behind := offset + opening.length + (Lexeme.texts tag.lexemes).length
    tag.ends (first + 1) (offset + opening.length) ++ (first, behind) ::
      rest.ends (first + 1 + tag.size) (behind + closing.length)
  | paired opening tag tagEnd content closing rest =>
    let behind := offset + opening.length + (Lexeme.texts tag.lexemes).length
    let inside := behind + tagEnd.length
    tag.ends (first + 1) (offset + opening.length) ++ (first, behind) ::
      (content.ends (first + 1 + tag.size) inside ++ rest.ends (first + 1 + tag.size + content.size)
        (inside + (Lexeme.texts content.lexemes).length + closing.length))

/-- Take the first nesting of a stack, each with the element around it, put its first element there, and
put what it holds and what follows it in its place on the stack. -/
def build : List (Nesting × Option Nat) → Links → Links
  | [], b => b
  | (nil, _) :: stack, b => build stack b
  | (token _ _ rest, owner) :: stack, b => build ((rest, owner) :: stack) b
  | (closed _ tag _ rest, owner) :: stack, b =>
    build ((tag, some b.size) :: (rest, owner) :: stack) (b.put owner)
  | (paired _ tag _ content _ rest, owner) :: stack, b =>
    build ((tag, some b.size) :: (content, some b.size) :: (rest, owner) :: stack) (b.put owner)
termination_by stack => (stack.map fun e => sizeOf e.1).sum
decreasing_by
  all_goals simp
  all_goals omega

def stackParents : List (Nesting × Option Nat) → Nat → List (Option Nat)
  | [], _ => []
  | (t, owner) :: stack, n => t.parents owner n ++ stackParents stack (n + t.size)

lemma build_parents (stack : List (Nesting × Option Nat)) (b : Links) :
    (build stack b).parents = b.parents ++ stackParents stack b.size := by
  fun_induction build stack b with
  | case1 b => simp [stackParents]
  | case2 owner stack b ih => simpa [stackParents, parents, size] using ih
  | case3 l h rest owner stack b ih => simpa [stackParents, parents, size] using ih
  | case4 opening tag closing rest owner stack b ih =>
    have hsize : b.size + (tag.size + 1 + rest.size) = b.size + 1 + tag.size + rest.size := by omega
    simp only [ih, stackParents, parents, size, hsize, Links.put_parents, Links.put_size,
      List.append_assoc, List.cons_append, List.nil_append]
  | case5 opening tag tagEnd content closing rest owner stack b ih =>
    have hsize : b.size + (tag.size + content.size + 1 + rest.size) =
        b.size + 1 + tag.size + content.size + rest.size := by omega
    simp only [ih, stackParents, parents, size, hsize, Links.put_parents, Links.put_size,
      List.append_assoc, List.cons_append, List.nil_append]

lemma build_agree {stack : List (Nesting × Option Nat)} {b : Links} (h : b.Agree)
    (hstack : ∀ e ∈ stack, ∀ p ∈ e.2, p < b.size) : (build stack b).Agree := by
  fun_induction build stack b with
  | case1 b => exact h
  | case2 owner stack b ih => exact ih h fun e he => hstack e (List.mem_cons_of_mem _ he)
  | case3 l hl rest owner stack b ih =>
    obtain ⟨howner, hstack⟩ := List.forall_mem_cons.mp hstack
    exact ih h (List.forall_mem_cons.mpr ⟨howner, hstack⟩)
  | case4 opening tag closing rest owner stack b ih =>
    obtain ⟨howner, hstack⟩ := List.forall_mem_cons.mp hstack
    apply ih (h.put howner)
    simp only [Links.put_size, List.forall_mem_cons]
    exact ⟨by simp, fun p hp => (howner p hp).trans b.size.lt_succ_self,
      fun e he p hp => (hstack e he p hp).trans b.size.lt_succ_self⟩
  | case5 opening tag tagEnd content closing rest owner stack b ih =>
    obtain ⟨howner, hstack⟩ := List.forall_mem_cons.mp hstack
    apply ih (h.put howner)
    simp only [Links.put_size, List.forall_mem_cons]
    exact ⟨by simp, by simp, fun p hp => (howner p hp).trans b.size.lt_succ_self,
      fun e he p hp => (hstack e he p hp).trans b.size.lt_succ_self⟩

end Nesting

namespace Numbering

variable {s : Numbering} {l : Lexeme} {ls : List Lexeme}

def opened (s : Numbering) : List Lexeme → List (Option Nat)
  | [] => []
  | l :: ls => (if l.kind = .tagOpen then [s.stack.head?] else []) ++ (s.step l).opened ls

lemma step_of_not_delimits (h : l.kind.delimits = false) : s.step l = s := by
  unfold step
  cases hk : l.kind <;> simp_all [LexemeKind.delimits]

lemma opened_append (s : Numbering) (as bs : List Lexeme) :
    s.opened (as ++ bs) = s.opened as ++ (as.foldl step s).opened bs := by
  induction as generalizing s with
  | nil => rfl
  | cons l as ih => rw [List.cons_append, opened, ih, opened, List.foldl_cons, List.append_assoc]

lemma foldl_nesting (t : Nesting) (s : Numbering) :
    t.lexemes.foldl step s = ⟨s.count + t.size, s.stack⟩ := by
  induction t generalizing s with
  | nil => rfl
  | token l h rest ih => rw [Nesting.lexemes, List.foldl_cons, step_of_not_delimits h, ih, Nesting.size]
  | closed opening tag closing rest ihTag ihRest =>
    simp only [Nesting.lexemes, List.foldl_cons, List.foldl_append, step, ihTag, ihRest, Nesting.size,
      List.drop_succ_cons, List.drop_zero]
    congr 1
    omega
  | paired opening tag tagEnd content closing rest ihTag ihContent ihRest =>
    simp only [Nesting.lexemes, List.foldl_cons, List.foldl_append, step, ihTag, ihContent, ihRest,
      Nesting.size, List.drop_succ_cons, List.drop_zero]
    congr 1
    omega

lemma opened_nesting (t : Nesting) (s : Numbering) :
    s.opened t.lexemes = t.parents s.stack.head? s.count := by
  induction t generalizing s with
  | nil => rfl
  | token l h rest ih =>
    rw [Nesting.lexemes, opened, if_neg (LexemeKind.ne_tagOpen h), step_of_not_delimits h, ih]
    rfl
  | closed opening tag closing rest ihTag ihRest =>
    simp only [Nesting.lexemes, opened, opened_append, foldl_nesting, step, ihTag, ihRest,
      Nesting.parents, List.drop_succ_cons, List.drop_zero, List.head?_cons, if_true,
      List.singleton_append, List.nil_append, reduceCtorEq, if_false]
  | paired opening tag tagEnd content closing rest ihTag ihContent ihRest =>
    simp only [Nesting.lexemes, opened, opened_append, foldl_nesting, step, ihTag, ihContent, ihRest,
      Nesting.parents, List.drop_succ_cons, List.drop_zero, List.head?_cons, if_true,
      List.singleton_append, List.nil_append, reduceCtorEq, if_false]

end Numbering

namespace Progress

variable {p : Progress} {l : Lexeme} {ls : List Lexeme}

structure Chained (p : Progress) : Prop where
  inOrder : p.forest.InOrder
  chain : ∀ i rest, p.numbering.stack = i :: rest →
    i < p.forest.size ∧ rest = p.forest.ancestors i ∧ p.forest.Under i (p.forest.size - 1)

lemma Chained.head_lt (h : p.Chained) : ∀ i ∈ p.numbering.stack.head?, i < p.forest.size := by
  intro i hi
  obtain ⟨rest, hrest⟩ := List.head?_eq_some_iff.mp hi
  exact (h.chain i rest hrest).1

lemma step_parents (h : p.Chained) (l : Lexeme) : (p.step l).forest.parents =
    p.forest.parents ++ if l.kind = .tagOpen then [p.numbering.stack.head?] else [] := by
  have hclose : p.closeTag.forest.parents = p.forest.parents := by
    unfold closeTag
    split
    · rfl
    · exact Forest.describe_parents
  rw [step_forest]
  cases hk : l.kind with
  | tagOpen =>
    have hhead : p.openElements.head?.map (·.index) = p.numbering.stack.head? := by
      rw [numbering, List.head?_map]
    simp only [hhead, if_true]
    rw [Forest.add_parents]
    cases hs : p.numbering.stack.head? with
    | none => rfl
    | some i => simp [Option.filter, h.head_lt i hs]
  | tagEnd => simpa using hclose
  | selfClose => simpa using hclose
  | _ => simp

lemma step_parents_of_ne (h : p.Chained) (hl : l.kind ≠ .tagOpen) :
    (p.step l).forest.parents = p.forest.parents := by
  rw [step_parents h, if_neg hl, List.append_nil]

lemma Chained.pop (h : p.Chained) {q : Progress} (hparents : q.forest.parents = p.forest.parents)
    (hstack : q.numbering.stack = p.numbering.stack ∨
      q.numbering.stack = p.numbering.stack.drop 1) : q.Chained := by
  have hsize : q.forest.size = p.forest.size := by
    simpa [Forest.parents, Forest.size] using congrArg List.length hparents
  have hancestors := Forest.ancestors_congr hparents
  have hunder : ∀ i j, q.forest.Under i j ↔ p.forest.Under i j := fun i j => by
    rw [Forest.Under, Forest.Under, hancestors]
  refine ⟨(Forest.inOrder_congr hparents).mpr h.inOrder, fun i rest hi => ?_⟩
  rw [hsize, hancestors, hunder]
  rcases hstack with hsame | hdrop
  · exact h.chain i rest (hsame ▸ hi)
  · obtain ⟨j, hj⟩ : ∃ j, p.numbering.stack = j :: i :: rest := by
      rw [hdrop] at hi
      cases hs : p.numbering.stack with
      | nil => simp [hs] at hi
      | cons j more => exact ⟨j, by simpa [hs] using hi⟩
    obtain ⟨hlt, hrest, hlast⟩ := h.chain j _ hj
    have hparent : p.forest.parent? j = some i := by
      cases hp : p.forest.parent? j with
      | none => simp [Forest.ancestors_eq p.forest j, hp] at hrest
      | some k =>
        rw [Forest.ancestors_of_parent? hp] at hrest
        rw [(List.cons.inj hrest).1]
    rw [Forest.ancestors_of_parent? hparent] at hrest
    refine ⟨(p.forest.parent_lt j i hparent).trans hlt, (List.cons.inj hrest).2, ?_⟩
    exact ((Forest.under_of_parent? hparent).mpr (.inr (.inl rfl))).trans hlast

lemma Chained.step (h : p.Chained) (l : Lexeme) : (p.step l).Chained := by
  have hnumbering := p.numbering_step l
  by_cases hl : l.kind = .tagOpen
  · have hparents := step_parents h l
    rw [if_pos hl] at hparents
    have hstack : (p.step l).numbering.stack = p.forest.size :: p.numbering.stack := by
      rw [hnumbering, Numbering.step, hl]
      rfl
    have hsize := Forest.size_of_parents hparents
    refine ⟨h.inOrder.add hparents fun i hi => ?_, fun i rest hi => ?_⟩
    · obtain ⟨rest, hrest⟩ := List.head?_eq_some_iff.mp hi
      obtain ⟨hlt, -, hlast⟩ := h.chain i rest hrest
      exact ⟨hlt, hlast⟩
    · rw [hstack] at hi
      obtain ⟨rfl, rfl⟩ := List.cons.inj hi
      refine ⟨by omega, ?_, .inl (by omega)⟩
      have hparent := Forest.parent?_of_new hparents
      cases hs : p.numbering.stack with
      | nil => rw [Forest.ancestors_eq, hparent, hs]; rfl
      | cons j more =>
        rw [hs] at hparent
        obtain ⟨hlt, hmore, -⟩ := h.chain j more hs
        rw [Forest.ancestors_of_parent? hparent, Forest.ancestors_of_lt hparents hlt, hmore]
  · apply h.pop (step_parents_of_ne h hl)
    rw [hnumbering, Numbering.step]
    cases hk : l.kind <;> simp_all

lemma Chained.initial : Chained .initial :=
  ⟨fun i p hp => by simp [Progress.initial, Forest.empty, Forest.parent?] at hp,
    fun i rest hi => by simp [Progress.initial, numbering] at hi⟩

lemma Chained.foldl (h : p.Chained) (ls : List Lexeme) : (ls.foldl Progress.step p).Chained := by
  induction ls generalizing p with
  | nil => exact h
  | cons l ls ih => exact ih (h.step l)

lemma foldl_parents (h : p.Chained) (ls : List Lexeme) :
    (ls.foldl Progress.step p).forest.parents = p.forest.parents ++ p.numbering.opened ls := by
  induction ls generalizing p with
  | nil => simp [Numbering.opened]
  | cons l ls ih =>
    rw [List.foldl_cons, ih (h.step l), step_parents h, numbering_step, Numbering.opened,
      List.append_assoc]

lemma foldl_numbering (p : Progress) (ls : List Lexeme) :
    (ls.foldl Progress.step p).numbering = ls.foldl Numbering.step p.numbering := by
  induction ls generalizing p with
  | nil => rfl
  | cons l ls ih => rw [List.foldl_cons, ih, numbering_step, List.foldl_cons]

lemma tagEnd?_of_tag (tag : Nesting) (p : Progress) (opening : List Char)
    (hl : l.kind = .tagEnd ∨ l.kind = .selfClose) :
    ((tag.lexemes.foldl Progress.step (p.step ⟨.tagOpen, opening⟩)).tagEnd? l).toList.map
        (fun e => (e.element, e.offset)) =
      [(p.numbering.count, p.offset + opening.length + (Lexeme.texts tag.lexemes).length)] := by
  have hstack : (tag.lexemes.foldl Progress.step (p.step ⟨.tagOpen, opening⟩)).numbering.stack =
      p.numbering.count :: p.numbering.stack := by
    rw [foldl_numbering, Numbering.foldl_nesting, numbering_step, Numbering.step]
  obtain ⟨e, es, hes, he, -⟩ := List.map_eq_cons_iff.mp hstack
  rw [← he]
  rcases hl with hl | hl <;> simp [tagEnd?, hl, hes, foldl_step_offset, step_offset]

lemma tagEnds_nesting (t : Nesting) (p : Progress) :
    (p.tagEnds t.lexemes).map (fun e => (e.element, e.offset)) = t.ends p.numbering.count p.offset := by
  induction t generalizing p with
  | nil => rfl
  | token l h rest ih =>
    have hends : l.kind.endsTag = false := by
      cases hk : l.kind <;> simp_all [LexemeKind.endsTag, LexemeKind.delimits]
    rw [Nesting.lexemes, tagEnds, tagEnd?_eq_none hends, Option.toList_none, List.nil_append, ih,
      numbering_step, Numbering.step_of_not_delimits h]
    rfl
  | closed opening tag closing rest ihTag ihRest =>
    have hopening : p.tagEnd? ⟨.tagOpen, opening⟩ = none := tagEnd?_eq_none rfl
    have hend := tagEnd?_of_tag tag p opening (l := ⟨.selfClose, closing⟩) (.inr rfl)
    simp only [Nesting.lexemes, tagEnds, tagEnds_append, List.map_append, hopening, hend, ihTag, ihRest,
      foldl_numbering, Numbering.foldl_nesting, numbering_step, Numbering.step, foldl_step_offset,
      step_offset, Nesting.ends, Option.toList_none, List.nil_append, List.singleton_append,
      List.drop_one, List.tail_cons]
  | paired opening tag tagEnd content closing rest ihTag ihContent ihRest =>
    have hopening : p.tagEnd? ⟨.tagOpen, opening⟩ = none := tagEnd?_eq_none rfl
    have hclosing : ∀ q : Progress, q.tagEnd? ⟨.closingEnd, closing⟩ = none := fun _ => tagEnd?_eq_none rfl
    have hend := tagEnd?_of_tag tag p opening (l := ⟨.tagEnd, tagEnd⟩) (.inl rfl)
    simp only [Nesting.lexemes, tagEnds, tagEnds_append, List.map_append, hopening, hclosing, hend, ihTag,
      ihContent, ihRest, foldl_numbering, Numbering.foldl_nesting, numbering_step, Numbering.step,
      foldl_step_offset, step_offset, Nesting.ends, Option.toList_none, List.nil_append,
      List.singleton_append]

end Progress

lemma Aligned.code_of_single {held : Bool} {f : Frame} {es : List OpenElement} {pending : List Nat}
    (h : Aligned held [f] es pending) : ∃ k, f = .code k := by
  cases h with
  | program => exact ⟨_, rfl⟩
  | code below => exact ⟨_, rfl⟩
  | tag holds unnamed below => exact absurd rfl below.ne_nil
  | children holds below => exact absurd rfl below.ne_nil
  | closingTag holds below => exact absurd rfl below.ne_nil

def Frame.inTag? : Frame → Option Bool
  | .code _ => none
  | .tag _ => some true
  | .children | .closingTag => some false

/-- Lexemes that close the elements open in front of them, the innermost first, each in its tag or
behind that. -/
inductive Completes : List Bool → List Lexeme → Prop
  | done (t : Nesting) : Completes [] t.lexemes
  | selfClose (t : Nesting) (closing : List Char) {fs : List Bool} {ls : List Lexeme}
      (rest : Completes fs ls) : Completes (true :: fs) (t.lexemes ++ ⟨.selfClose, closing⟩ :: ls)
  | tagEnd (t : Nesting) (tagEnd : List Char) {fs : List Bool} {ls : List Lexeme}
      (rest : Completes (false :: fs) ls) : Completes (true :: fs) (t.lexemes ++ ⟨.tagEnd, tagEnd⟩ :: ls)
  | closingEnd (t : Nesting) (closing : List Char) {fs : List Bool} {ls : List Lexeme}
      (rest : Completes fs ls) : Completes (false :: fs) (t.lexemes ++ ⟨.closingEnd, closing⟩ :: ls)

namespace Completes

variable {fs : List Bool} {ls : List Lexeme}

lemma prepend (h : Completes fs ls) (pre : List Lexeme) (g : Nesting → Nesting)
    (hg : ∀ t, (g t).lexemes = pre ++ t.lexemes) : Completes fs (pre ++ ls) := by
  cases h with
  | done t => exact hg t ▸ .done (g t)
  | selfClose t closing rest =>
    rw [← List.append_assoc, ← hg]
    exact .selfClose (g t) closing rest
  | tagEnd t tagEnd rest =>
    rw [← List.append_assoc, ← hg]
    exact .tagEnd (g t) tagEnd rest
  | closingEnd t closing rest =>
    rw [← List.append_assoc, ← hg]
    exact .closingEnd (g t) closing rest

lemma token {l : Lexeme} (h : Completes fs ls) (hl : l.kind.delimits = false) : Completes fs (l :: ls) :=
  h.prepend [l] (.token l hl) fun _ => rfl

lemma element (h : Completes (true :: fs) ls) (opening : List Char) :
    Completes fs (⟨.tagOpen, opening⟩ :: ls) := by
  cases h with
  | selfClose tag closing rest =>
    have hrest := rest.prepend (⟨.tagOpen, opening⟩ :: (tag.lexemes ++ [⟨.selfClose, closing⟩]))
      (.closed opening tag closing) (by simp [Nesting.lexemes])
    simpa using hrest
  | tagEnd tag tagEnd rest =>
    cases rest with
    | closingEnd content closing rest =>
      have hrest := rest.prepend (⟨.tagOpen, opening⟩ :: (tag.lexemes ++ ⟨.tagEnd, tagEnd⟩ ::
        (content.lexemes ++ [⟨.closingEnd, closing⟩])))
        (.paired opening tag tagEnd content closing) (by simp [Nesting.lexemes])
      simpa using hrest

end Completes

namespace Context

variable {c : Context} {l : Lexeme} {k : Code} {held : Bool} {es : List OpenElement} {pending : List Nat}

def markup (c : Context) : List Bool := c.frames.filterMap Frame.inTag?

lemma markup_complete (c : Context) : c.complete.markup = c.markup := by
  obtain ⟨language, inner, outer⟩ := c
  cases inner <;> rfl

lemma markup_pop_code (hc : c.inner = .code k) : c.pop.markup = c.markup := by
  obtain ⟨language, inner, outer⟩ := c
  subst hc
  cases outer <;> rfl

lemma markup_pop (h : c.outer ≠ []) : c.pop.markup = c.outer.filterMap Frame.inTag? := by
  obtain ⟨f, fs, hf⟩ := List.exists_cons_of_ne_nil h
  rw [markup, pop_frames f fs hf, hf]

lemma markup_advance_code (hc : c.inner = .code k) (ha : k.admits l) (hl : l.kind ≠ .tagOpen) :
    (c.advance l).markup = c.markup := by
  have hstep := codeStep_advance hc ha hl
  generalize c.advance l = c' at hstep ⊢
  cases hstep with
  | stays | opens =>
    rw [markup, markup, frames, frames, hc]
    rfl
  | closes => exact markup_pop_code hc
  | container => exact (markup_complete _).trans (markup_pop_code hc)

lemma advance_markup (hc : c.inner.inTag?.isSome) (ha : c.admits l) (hl : l.kind.delimits = false) :
    ∃ f, f.inTag? = c.inner.inTag? ∧
      ((c.advance l).frames = f :: c.outer ∨ ∃ k, (c.advance l).frames = .code k :: f :: c.outer) := by
  have hcode : ∀ k, c.inner ≠ .code k := fun k hk => by simp [hk, Frame.inTag?] at hc
  by_cases hspace : l.kind = .blank ∨ l.kind = .comment
  · rw [advance_space hcode hspace]
    exact ⟨c.inner, rfl, .inl rfl⟩
  obtain ⟨language, inner, outer⟩ := c
  obtain ⟨kind, text⟩ := l
  cases inner with
  | code k => exact absurd rfl (hcode k)
  | tag phase =>
    cases kind with
    | tagName => exact ⟨.tag .named, rfl, .inl rfl⟩
    | attributeName | attributeString => exact ⟨.tag .attributes, rfl, .inl rfl⟩
    | equals => exact ⟨.tag .equals, rfl, .inl rfl⟩
    | containerOpen use => exact ⟨.tag phase, rfl, .inr ⟨_, rfl⟩⟩
    | punctuation =>
      simp only [advance]
      split
      · exact ⟨.tag phase, rfl, .inr ⟨_, rfl⟩⟩
      · split
        · exact ⟨.tag .joined, rfl, .inl rfl⟩
        · exact ⟨.tag phase, rfl, .inl rfl⟩
    | _ => simp_all [admits, TagPhase.admits, LexemeKind.delimits]
  | children =>
    cases kind with
    | containerOpen use => exact ⟨.children, rfl, .inr ⟨_, rfl⟩⟩
    | closingOpen => exact ⟨.closingTag, rfl, .inl rfl⟩
    | content => exact ⟨.children, rfl, .inl rfl⟩
    | _ => simp_all [admits, LexemeKind.delimits]
  | closingTag =>
    cases kind with
    | closingName => exact ⟨.closingTag, rfl, .inl rfl⟩
    | _ => simp_all [admits, LexemeKind.delimits]

lemma markup_advance (ha : c.admits l) (hl : l.kind.delimits = false) :
    (c.advance l).markup = c.markup := by
  by_cases hc : ∃ k, c.inner = .code k
  · obtain ⟨k, hc⟩ := hc
    exact markup_advance_code hc (by simpa [admits, hc] using ha) (LexemeKind.ne_tagOpen hl)
  have hinner : c.inner.inTag?.isSome := by
    cases hf : c.inner with
    | code k => exact absurd ⟨k, hf⟩ hc
    | tag phase => rfl
    | children | closingTag => rfl
  obtain ⟨f, hf, hframes | ⟨k, hframes⟩⟩ := advance_markup hinner ha hl
  · rw [markup, markup, hframes, frames, List.filterMap_cons, List.filterMap_cons, hf]
  · rw [markup, markup, hframes, frames, List.filterMap_cons, List.filterMap_cons, List.filterMap_cons, hf]
    rfl

lemma completes_step {ls : List Lexeme} (ha : c.admits l) (h : Aligned held c.frames es pending)
    (hrest : Completes (c.advance l).markup ls) : Completes c.markup (l :: ls) := by
  by_cases hl : l.kind.delimits = false
  · rw [markup_advance ha hl] at hrest
    exact hrest.token hl
  obtain ⟨language, inner, outer⟩ := c
  obtain ⟨kind, text⟩ := l
  have houter : inner.inTag?.isSome → outer ≠ [] := by
    intro hinner
    cases h with
    | tag holds unnamed below => exact below.ne_nil
    | children holds below => exact below.ne_nil
    | closingTag holds below => exact below.ne_nil
    | program => simp [Frame.inTag?] at hinner
    | code below => simp [Frame.inTag?] at hinner
  cases kind with
  | tagOpen => exact hrest.element text
  | tagEnd =>
    cases inner with
    | tag phase => exact .tagEnd .nil text hrest
    | code k => simp [admits, Code.admits] at ha
    | _ => simp [admits] at ha
  | selfClose =>
    cases inner with
    | tag phase =>
      change Completes (pop _).complete.markup ls at hrest
      rw [markup_complete, markup_pop (houter rfl)] at hrest
      exact .selfClose .nil text hrest
    | code k => simp [admits, Code.admits] at ha
    | _ => simp [admits] at ha
  | closingEnd =>
    cases inner with
    | closingTag =>
      change Completes (pop _).complete.markup ls at hrest
      rw [markup_complete, markup_pop (houter rfl)] at hrest
      exact .closingEnd .nil text hrest
    | code k => simp [admits, Code.admits] at ha
    | tag phase => simp [admits, TagPhase.admits] at ha
    | children => simp [admits] at ha
  | _ => simp [LexemeKind.delimits] at hl

lemma completes_of_admitsAll {p : Progress} {ls : List Lexeme} (ha : c.admitsAll ls)
    (h : Aligned false c.frames p.openElements pending) : Completes c.markup ls := by
  induction ls generalizing c p pending with
  | nil =>
    have houter : c.outer = [] := by simpa [admitsAll] using ha
    rw [frames, houter] at h
    obtain ⟨k, hk⟩ := h.code_of_single
    rw [markup, frames, houter, hk]
    exact .done .nil
  | cons l ls ih =>
    simp only [admitsAll, Bool.and_eq_true] at ha
    obtain ⟨pending', -, h'⟩ := Progress.step_aligned ha.1 h
    exact completes_step ha.1 h (ih ha.2 h')

end Context

lemma exists_nesting {language : Language} {source : List Char} (h : accepts language source) :
    ∃ t : Nesting, t.lexemes = lexemes language source := by
  have hcompletes := Context.completes_of_admitsAll (p := .initial) h
    .program
  generalize lexemes language source = ls at hcompletes ⊢
  cases hcompletes with
  | done t => exact ⟨t, rfl⟩

namespace Document

lemma ofLexemes_inOrder (language : Language) (ls : List Lexeme) :
    (ofLexemes language ls).forest.InOrder :=
  (Progress.Chained.initial.foldl ls).inOrder

lemma ofLexemes_parents (language : Language) (t : Nesting) :
    (ofLexemes language t.lexemes).forest.parents = t.parents none 0 := by
  change (t.lexemes.foldl Progress.step .initial).forest.parents = _
  rw [Progress.foldl_parents .initial, Numbering.opened_nesting]
  rfl

lemma ofLexemes_size (language : Language) (t : Nesting) :
    (ofLexemes language t.lexemes).forest.size = t.size := by
  have hnumbering := Progress.foldl_numbering .initial t.lexemes
  rw [Numbering.foldl_nesting] at hnumbering
  exact (congrArg Numbering.count hnumbering).trans (Nat.zero_add _)

lemma ofLexemes_ends (language : Language) (t : Nesting) :
    (ofLexemes language t.lexemes).tagEnds.map (fun e => (e.element, e.offset)) = t.ends 0 0 :=
  Progress.tagEnds_nesting t .initial

/-- Every accepted text is a tree, and for every tree the elements that are read, with the ends of their
tags, are those of the recursion over it. Lists of children, walks, ancestors and the document order agree
on which element is inside which, and loops with stacks come to the same as the recursion: the one that
puts elements into each other and the one that walks over them. -/
theorem ofLexemes_nested :
    (∀ language source, accepts language source → ∃ t : Nesting, t.lexemes = lexemes language source) ∧
    ∀ (language : Language) (t : Nesting),
      let d := ofLexemes language t.lexemes
      let f := d.forest
      let b := Nesting.build [(t, none)] {}
      f.size = t.size ∧ f.parents = t.parents none 0 ∧
      b.parents = f.parents ∧ b.roots = f.roots ∧ (∀ i, b.childrenOf i = f.children i) ∧
      d.tagEnds.map (fun e => (e.element, e.offset)) = t.ends 0 0 ∧
      (∀ j, j ∈ f.roots ↔ j < f.size ∧ f.parent? j = none) ∧
      (∀ i j, j ∈ f.children i ↔ j < f.size ∧ f.parent? j = some i) ∧
      (∀ i, (f.children i).Pairwise (· < ·)) ∧
      (∀ i, (f.walk i).Pairwise (· < ·) ∧ ∀ j, j ∈ f.walk i ↔ f.Under i j) ∧
      f.roots.flatMap f.walk = List.range f.size ∧
      (∀ stack, f.unstack stack = stack.flatMap f.walk) ∧
      (∀ i j, i ∈ f.ancestors j ↔ j ∈ f.walk i ∧ j ≠ i) ∧
      ∀ j, (f.ancestors j).Pairwise fun a b => b ∈ f.ancestors a := by
  refine ⟨fun _ _ => exists_nesting, fun language t => ?_⟩
  intro d f b
  have horder : f.InOrder := ofLexemes_inOrder language t.lexemes
  have hparents := ofLexemes_parents language t
  have hbuilt : b.parents = f.parents := by
    rw [hparents]
    simpa [Nesting.stackParents, Links.size] using Nesting.build_parents [(t, none)] {}
  have hagree : b.Agree := Nesting.build_agree .empty (by simp)
  refine ⟨ofLexemes_size language t, hparents, hbuilt, hagree.roots_eq hbuilt,
    hagree.childrenOf_eq hbuilt, ofLexemes_ends language t,
    fun j => Forest.mem_withParent_iff, fun i j => Forest.mem_withParent_iff,
    fun i => f.withParent_pairwise (some i), fun i => ⟨horder.walk_pairwise i, fun j => Forest.mem_walk⟩,
    horder.roots_walk, f.unstack_eq, fun i j => Forest.mem_ancestors_iff, f.ancestors_pairwise⟩

def valueNesting : Nesting :=
  .closed ['<']
    (.token ⟨.tagName, ['A']⟩ rfl <| .token ⟨.blank, [' ']⟩ rfl <| .token ⟨.attributeName, ['b']⟩ rfl <|
      .token ⟨.equals, ['=']⟩ rfl <| .token ⟨.containerOpen .value, ['\x7b']⟩ rfl <|
      .closed ['<'] (.token ⟨.tagName, ['C']⟩ rfl .nil) ['/', '>'] <|
      .token ⟨.containerClose .value, ['\x7d']⟩ rfl .nil) ['/', '>']
    (.token ⟨.punctuation, [';']⟩ rfl <|
      .paired ['<'] (.token ⟨.tagName, ['D']⟩ rfl .nil) ['>']
        (.token ⟨.closingOpen, ['<', '/']⟩ rfl <| .token ⟨.closingName, ['D']⟩ rfl .nil) ['>'] .nil)

theorem ofLexemes_nested_value :
    (∃ t : Nesting, t.lexemes = lexemes .tsx "<A b=\x7b<C/>\x7d/>;<D></D>".toList) ∧
    valueNesting.lexemes = lexemes .tsx "<A b=\x7b<C/>\x7d/>;<D></D>".toList ∧
    (ofLexemes .tsx valueNesting.lexemes).forest.parents = [none, some 0, none] :=
  ⟨ofLexemes_nested.1 .tsx _ (by decide +kernel), by decide +kernel,
    (ofLexemes_nested.2 .tsx valueNesting).2.1⟩

end Document

end MarkupLabels.Source
