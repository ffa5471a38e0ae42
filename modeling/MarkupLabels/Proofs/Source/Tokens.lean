import Mathlib
import MarkupLabels.Proofs.Source.Scanning

namespace MarkupLabels.Source

def LexemeKind.endsTag : LexemeKind → Bool
  | .tagEnd | .selfClose => true
  | _ => false

variable {c : Char} {rest : List Char} {kind : LexemeKind} {n : Nat}

lemma readSpace?_eq_some (h : readSpace? c rest = some (kind, n)) :
    (kind = .blank ∧ isBlank c ∧ n = runLength isBlank rest) ∨ (kind = .comment ∧ c = '/') := by
  unfold readSpace? at h
  split at h
  · next hc =>
    obtain ⟨rfl, rfl⟩ := Prod.mk.inj (Option.some.inj h)
    exact .inl ⟨rfl, hc, rfl⟩
  · split at h
    · next hc =>
      split at h
      · exact .inr ⟨(Prod.mk.inj (Option.some.inj h)).1.symm, hc⟩
      · exact .inr ⟨(Prod.mk.inj (Option.some.inj h)).1.symm, hc⟩
      · simp at h
    · simp at h

lemma readSpace?_not_endsTag {space : LexemeKind × Nat} (h : readSpace? c rest = some space) :
    space.1.endsTag = false := by
  rcases readSpace?_eq_some h with ⟨hk, -⟩ | ⟨hk, -⟩ <;> simp [hk, LexemeKind.endsTag]

lemma Code.readMark_kind (k : Code) (language : Language) (c : Char) (rest : List Char) :
    (k.readMark language c rest).1.endsTag = false ∧ (k.readMark language c rest).1 ≠ .blank := by
  unfold Code.readMark Code.readLess Code.readBrace
  repeat' split
  all_goals exact ⟨rfl, by simp⟩

lemma Code.read_kind (k : Code) (language : Language) :
    (k.read language c rest).1.endsTag = false ∧
      ((k.read language c rest).1 = .blank →
        readSpace? c rest = some (k.read language c rest)) := by
  unfold Code.read
  split
  · next space h => exact ⟨readSpace?_not_endsTag h, fun _ => h⟩
  · split
    · exact ⟨rfl, by simp⟩
    · split
      · simp only [Code.wordKind]
        split <;> exact ⟨rfl, by simp⟩
      · have hmark := k.readMark_kind language c rest
        exact ⟨hmark.1, fun h => absurd h hmark.2⟩

lemma readChild_kind :
    (readChild c rest).1.endsTag = false ∧ (readChild c rest).1 ≠ .blank := by
  unfold readChild
  repeat' split
  all_goals exact ⟨rfl, by simp⟩

lemma readClosing_kind :
    (readClosing c rest).1.endsTag = false ∧
      ((readClosing c rest).1 = .blank → readSpace? c rest = some (readClosing c rest)) := by
  unfold readClosing
  split
  · next space h => exact ⟨readSpace?_not_endsTag h, fun _ => h⟩
  · split <;> exact ⟨rfl, by simp⟩

lemma readClosing_greater : readClosing '>' rest = (.closingEnd, 0) := by
  unfold readClosing
  rw [readSpace?_eq_none (by decide) (by decide)]
  rfl

lemma readClosing_end (h : readClosing c rest = (.closingEnd, n)) : c = '>' ∧ n = 0 := by
  unfold readClosing at h
  split at h
  · next space hs =>
    subst h
    simpa using readSpace?_eq_some hs
  · split at h
    · next hc => exact ⟨hc, (Prod.mk.inj h).2.symm⟩
    · simp at h

lemma TagPhase.read_endsTag {phase : TagPhase} (h : (phase.read c rest).1.endsTag) :
    (c = '>' ∧ phase.read c rest = (.tagEnd, 0)) ∨
      (c = '/' ∧ rest.head? = some '>' ∧ phase.read c rest = (.selfClose, 1)) := by
  unfold TagPhase.read at h ⊢
  split at h
  · next space hs => simp [readSpace?_not_endsTag hs] at h
  · split at h
    · split at h <;> simp [LexemeKind.endsTag] at h
    · next hs hname =>
      split at h
      · exact .inl ⟨rfl, by simp [hname]⟩
      · split at h
        · next hgreater => exact .inr ⟨rfl, hgreater, by simp [hname, hgreater]⟩
        · simp [LexemeKind.endsTag] at h
      all_goals first
        | (simp [LexemeKind.endsTag] at h; done)
        | (split at h <;> simp [LexemeKind.endsTag] at h)

lemma TagPhase.read_slash {phase : TagPhase} {r : List Char} (h : phase.read '/' r = (kind, 0)) :
    kind = .punctuation := by
  have hclass : isBlank '/' = false ∧ isTagNameChar '/' = false := by decide
  unfold TagPhase.read at h
  split at h
  · next space hs =>
    subst h
    unfold readSpace? at hs
    simp only [hclass, Bool.false_eq_true, if_false, if_true] at hs
    split at hs <;> simp at hs
  · simp only [hclass, Bool.false_eq_true, if_false] at h
    split at h
    · simp at h
    · exact (congrArg Prod.fst h).symm

lemma TagPhase.read_blank {phase : TagPhase} (h : (phase.read c rest).1 = .blank) :
    readSpace? c rest = some (phase.read c rest) := by
  unfold TagPhase.read at h ⊢
  split at h
  · next space hs => exact hs
  · split at h
    · split at h <;> simp at h
    · split at h
      all_goals first
        | simp at h
        | (split at h <;> simp at h)

namespace Context

variable {context : Context}

lemma read_endsTag (h : (context.read c rest).1.endsTag) :
    ∃ phase, context.inner = .tag phase ∧
      ((c = '>' ∧ context.read c rest = (.tagEnd, 0)) ∨
        (c = '/' ∧ rest.head? = some '>' ∧ context.read c rest = (.selfClose, 1))) := by
  unfold Context.read at h ⊢
  split at h
  · simp [Code.read_kind] at h
  · next phase hphase =>
    simp only [hphase]
    exact ⟨phase, rfl, TagPhase.read_endsTag h⟩
  · simp [readChild_kind] at h
  · simp [readClosing_kind] at h

lemma read_blank (h : (context.read c rest).1 = .blank) :
    isBlank c ∧ (context.read c rest).2 = runLength isBlank rest := by
  have hspace : readSpace? c rest = some (context.read c rest) := by
    unfold Context.read at h ⊢
    split at h
    · exact (Code.read_kind _ _).2 h
    · exact TagPhase.read_blank h
    · exact absurd h readChild_kind.2
    · exact readClosing_kind.2 h
  generalize context.read c rest = found at h hspace ⊢
  rcases readSpace?_eq_some hspace with ⟨-, hc, hn⟩ | ⟨hk, -⟩
  · exact ⟨hc, hn⟩
  · rw [hk] at h
    simp at h

end Context

structure Lexeme.Spelled (l : Lexeme) : Prop where
  ends : l.kind.endsTag → l = ⟨.tagEnd, ['>']⟩ ∨ l = ⟨.selfClose, ['/', '>']⟩
  blanks : l.kind = .blank → ∀ c ∈ l.text, isBlank c

lemma Context.spelled_of_mem_lexemes {context : Context} {cs : List Char} {l : Lexeme}
    (h : l ∈ context.lexemes cs) : l.Spelled := by
  fun_induction Context.lexemes context cs with
  | case1 => simp at h
  | case2 context c rest kind n hread m ih =>
    rcases List.mem_cons.mp h with rfl | h
    · refine ⟨fun hends => ?_, fun hblank => ?_⟩
      · have hends : (context.read c rest).1.endsTag := by rwa [hread]
        obtain ⟨-, -, h | h⟩ := Context.read_endsTag hends
        · rw [hread] at h
          obtain ⟨rfl, hk⟩ := h
          obtain ⟨rfl, rfl⟩ := Prod.mk.inj hk
          exact .inl rfl
        · rw [hread] at h
          obtain ⟨rfl, hhead, hk⟩ := h
          obtain ⟨rfl, rfl⟩ := Prod.mk.inj hk
          obtain ⟨more, rfl⟩ := List.head?_eq_some_iff.mp hhead
          exact .inr rfl
      · have hblank : (context.read c rest).1 = .blank := by rwa [hread]
        obtain ⟨hc, hn⟩ := Context.read_blank hblank
        rw [hread] at hn
        change n = _ at hn
        rintro d (_ | ⟨_, hd⟩)
        · exact hc
        · rw [hn, take_runLength] at hd
          exact List.mem_takeWhile_imp hd
    · exact ih h

lemma spelled_of_mem_lexemes {language : Language} {cs : List Char} {l : Lexeme}
    (h : l ∈ lexemes language cs) : l.Spelled := by
  unfold lexemes at h
  rcases List.mem_append.mp h with h | h
  · split at h
    · simp at h
    · obtain rfl := List.mem_singleton.mp h
      exact ⟨by simp [LexemeKind.endsTag], by simp⟩
  · exact Context.spelled_of_mem_lexemes h

end MarkupLabels.Source
