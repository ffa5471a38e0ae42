import Mathlib
import MarkupLabels.Source.Acceptance

namespace MarkupLabels.Source

def Shape.IsPlain : Shape → Prop
  | .block | .classBody | .object | .parentheses _ | .brackets => True
  | _ => False

lemma Shape.not_container_of_isPlain {s : Shape} (h : s.IsPlain) (use : ContainerUse) :
    s ≠ .container use := by
  rintro rfl
  exact h

namespace Code

variable (k : Code) (language : Language)

@[simp] lemma see_shape (last : Last) : (k.see last).shape = k.shape := rfl

@[simp] lemma inside_shape (shape : Shape) (last : Last) (typed : Bool) :
    (inside shape last typed).shape = shape := rfl

@[simp] lemma restart_shape : k.restart.shape = k.shape := by
  unfold restart
  split <;> rfl

@[simp] lemma dropHead_shape : k.dropHead.shape = k.shape := by
  unfold dropHead
  split <;> rfl

@[simp] lemma dropQuestion_shape : k.dropQuestion.shape = k.shape := by
  unfold dropQuestion
  split <;> rfl

lemma seeLeadingWord_shape (w : String) : (k.seeLeadingWord language w).shape = k.shape := by
  unfold seeLeadingWord
  repeat' split
  all_goals rfl

lemma seeWord_shape (w : String) : (k.seeWord language w).shape = k.shape := by
  unfold seeWord seeFollowingWord seeTypeWord
  repeat' split
  all_goals first | rfl | simp only [seeLeadingWord_shape, restart_shape]

lemma seeColon_shape : (k.seeColon language).shape = k.shape := by
  unfold seeColon
  repeat' split
  all_goals simp

lemma seePunctuation_shape (text : String) :
    (k.seePunctuation language text).shape = k.shape := by
  unfold seePunctuation
  split
  all_goals first | rfl | simp [seeColon_shape]

lemma openBrace_shape : k.openBrace.1.shape = k.shape ∧ k.openBrace.2.shape.IsPlain := by
  unfold openBrace
  split
  · next b _ => cases hb : b.kind <;> simp [BodyKind.shape, Shape.IsPlain]
  · split <;> simp [Shape.IsPlain]

lemma openParenthesis_shape :
    k.openParenthesis.1.shape = k.shape ∧ k.openParenthesis.2.shape.IsPlain := by
  unfold openParenthesis
  refine ⟨?_, trivial⟩
  split
  · split <;> simp
  · simp

end Code

namespace Context

/-- What a lexeme of code does to the context: the code goes on, or a bracket is opened or closed. -/
inductive CodeStep (c : Context) (k : Code) (l : Lexeme) : Context → Prop
  | stays {k' : Code} (hl : l.kind.isMarkup = false) (h : k'.shape = k.shape) :
    CodeStep c k l { c with inner := .code k' }
  | opens {k' inside : Code} (hl : l.kind.isMarkup = false) (h : k'.shape = k.shape)
    (hinside : ∀ use, inside.shape ≠ .container use) : CodeStep c k l (c.enter (k', inside))
  | closes (hl : l.kind.isMarkup = false) (hspace : l.isSignificant)
    (h : ∀ use, k.shape ≠ .container use) : CodeStep c k l c.pop
  | container {use : ContainerUse} (hl : l.kind = .containerClose use) (h : k.shape = .container use) :
    CodeStep c k l c.pop.complete

variable {c : Context} {k : Code} {l : Lexeme} {text : String}

lemma advance_space (h : ∀ k, c.inner ≠ .code k) (hl : l.kind = .blank ∨ l.kind = .comment) :
    c.advance l = c := by
  have hsame : c.advanceBlank l.text = c := by
    unfold advanceBlank mapCode
    split
    · next k hk => exact absurd hk (h k)
    · rfl
  unfold advance
  rcases hl with hl | hl <;> rw [hl] <;> exact hsame

lemma advancePunctuation_opens (h : text ∈ ["\x7b", "(", "["]) :
    ∃ outer inner, outer.shape = k.shape ∧ inner.shape.IsPlain ∧
      c.advancePunctuation k text = c.enter (outer, inner) := by
  simp only [List.mem_cons, List.not_mem_nil, or_false] at h
  rcases h with rfl | rfl | rfl
  · exact ⟨_, _, k.openBrace_shape.1, k.openBrace_shape.2, rfl⟩
  · exact ⟨_, _, k.openParenthesis_shape.1, k.openParenthesis_shape.2, rfl⟩
  · exact ⟨k.see .operand, .inside .brackets .operator k.typed, rfl, trivial, rfl⟩

lemma advancePunctuation_closes (h : text ∈ ["\x7d", ")", "]"]) :
    c.advancePunctuation k text = c.pop := by
  simp only [List.mem_cons, List.not_mem_nil, or_false] at h
  rcases h with rfl | rfl | rfl <;> rfl

lemma advancePunctuation_stays (hopen : text ∉ ["\x7b", "(", "["]) (hclose : text ∉ ["\x7d", ")", "]"])
    (hangles : text ∈ ["<", ">"] → k.shape ≠ .angles) :
    ∃ k', k'.shape = k.shape ∧ c.advancePunctuation k text = { c with inner := .code k' } := by
  unfold advancePunctuation
  split
  · simp at hopen
  · simp at hopen
  · simp at hopen
  · simp at hclose
  · simp at hclose
  · simp at hclose
  · exact ⟨k.see .typeMark, rfl, by rw [if_neg (hangles (by simp))]⟩
  · exact ⟨k.see (if k.typed then .operand else .operator), rfl, by rw [if_neg (hangles (by simp))]⟩
  · exact ⟨_, k.seePunctuation_shape c.language text, rfl⟩

lemma advancePunctuation_angles (hk : k.shape = .angles) :
    c.advancePunctuation k "<" = c.enter (k.see .operand, .inside .angles .typeMark true) ∧
      c.advancePunctuation k ">" = c.pop := by
  simp [advancePunctuation, hk]

lemma advance_stays (hc : c.inner = .code k)
    (hl : l.kind ∈ [.blank, .comment, .word, .importWord, .number, .string, .template, .regex]) :
    ∃ k', k'.shape = k.shape ∧ c.advance l = { c with inner := .code k' } := by
  simp only [List.mem_cons, List.not_mem_nil, or_false] at hl
  unfold advance
  rcases hl with h | h | h | h | h | h | h | h <;> simp only [h]
  iterate 2
    exact ⟨{ k with fresh := k.fresh || l.text.any isLineEnd, names := false }, rfl, by
      simp [advanceBlank, mapCode, hc]⟩
  · exact ⟨k.seeWord c.language (String.ofList l.text), k.seeWord_shape c.language _, by
      simp [mapCode, hc]⟩
  · exact ⟨k.restart.see .operand, by simp, by simp [mapCode, hc]⟩
  all_goals exact ⟨k.see .operand, rfl, by simp [mapCode, hc]⟩

lemma codeStep_punctuation (hl : l.kind = .punctuation) (ha : k.admits l) :
    c.CodeStep k l (c.advancePunctuation k (String.ofList l.text)) := by
  have hmarkup : l.kind.isMarkup = false := by rw [hl]; rfl
  have hspace : l.isSignificant := by rw [Lexeme.isSignificant, hl]; rfl
  by_cases hopen : String.ofList l.text ∈ ["\x7b", "(", "["]
  · obtain ⟨above, inside, habove, hinside, heq⟩ := advancePunctuation_opens (c := c) (k := k) hopen
    rw [heq]
    exact .opens hmarkup habove (Shape.not_container_of_isPlain hinside)
  by_cases hclose : String.ofList l.text ∈ ["\x7d", ")", "]"]
  · rw [advancePunctuation_closes hclose]
    refine .closes hmarkup hspace fun use hk => ?_
    have htext : l.text = ['\x7d'] ∨ l.text = [')'] ∨ l.text = [']'] := by
      simpa [String.ext_iff] using hclose
    rcases htext with h | h | h <;> simp [Code.admits, hl, h, hk] at ha
  by_cases hangles : String.ofList l.text ∈ ["<", ">"] ∧ k.shape = .angles
  · obtain ⟨htext, hk⟩ := hangles
    obtain ⟨hless, hgreater⟩ := advancePunctuation_angles (c := c) hk
    simp only [List.mem_cons, List.not_mem_nil, or_false] at htext
    rcases htext with htext | htext
    · rw [htext, hless]
      exact .opens hmarkup rfl (by simp)
    · rw [htext, hgreater]
      exact .closes hmarkup hspace (by simp [hk])
  · obtain ⟨k', hk', heq⟩ := advancePunctuation_stays (c := c) (k := k) hopen hclose
      fun htext hk => hangles ⟨htext, hk⟩
    rw [heq]
    exact .stays hmarkup hk'

lemma codeStep_advance (hc : c.inner = .code k) (ha : k.admits l) (hl : l.kind ≠ .tagOpen) :
    c.CodeStep k l (c.advance l) := by
  have hstays : l.kind ∈ [.blank, .comment, .word, .importWord, .number, .string, .template, .regex] →
      l.kind.isMarkup = false → c.CodeStep k l (c.advance l) := by
    intro hkind hmarkup
    obtain ⟨k', hshape, heq⟩ := advance_stays hc hkind
    rw [heq]
    exact .stays hmarkup hshape
  obtain ⟨language, inner, outer⟩ := c
  obtain ⟨kind, text⟩ := l
  subst hc
  cases kind with
  | blank | comment | word | importWord | number | string | template | regex =>
    exact hstays (by simp) rfl
  | templatePart opens closes =>
    have hk : closes = true → k.shape = .substitution := by
      rintro rfl
      simpa [Code.admits] using ha
    cases opens <;> cases closes
    · simp [Code.admits] at ha
    · exact .closes rfl rfl (by simp [hk rfl])
    · change CodeStep _ k _ (enter _ (k.see .operand, .inside .substitution .operator false))
      exact .opens rfl rfl (by simp)
    · exact .stays rfl (hk rfl).symm
  | punctuation => exact codeStep_punctuation rfl ha
  | containerClose use => exact .container rfl (by simpa [Code.admits] using ha)
  | tagOpen => exact absurd rfl hl
  | _ => simp [Code.admits] at ha

end Context

end MarkupLabels.Source
