import Mathlib
import MarkupLabels.Proofs.Source.Shapes
import MarkupLabels.Proofs.Source.Tokens
import MarkupLabels.Source.Acceptance

/-! Brackets in code. A bracket is a lexeme of its own, and a lexeme that does not begin with one, nor
with a quote or a slash or an angle bracket, holds none and leaves the brackets around it alone. -/

namespace MarkupLabels.Source

variable {c : Char} {rest : List Char} {language : Language}

def isBracket (c : Char) : Bool := opensBracket c || closesBracket c

lemma isBracket_cases (hc : isBracket c) :
    c = '(' ∨ c = '[' ∨ c = '\x7b' ∨ c = ')' ∨ c = ']' ∨ c = '\x7d' := by
  simpa [isBracket, opensBracket, closesBracket, or_assoc, -Classical.not_imp, imp_iff_not_or] using hc

lemma isBracket_class (hc : isBracket c) :
    isBlank c = false ∧ isDigit c = false ∧ isNameChar c = false := by
  rcases isBracket_cases hc with rfl | rfl | rfl | rfl | rfl | rfl <;> decide

lemma not_isBracket_of_isBlank (h : isBlank c) : isBracket c = false := by
  by_contra hc
  simp [(isBracket_class (by simpa using hc)).1] at h

lemma not_isBracket_of_isNameChar (h : isNameChar c) : isBracket c = false := by
  by_contra hc
  simp [(isBracket_class (by simpa using hc)).2.2] at h

lemma Code.read_bracket (k : Code) (hc : isBracket c) (hk : closesBracket c → k.shape.IsPlain) :
    k.read language c rest = (.punctuation, 0) := by
  obtain ⟨hblank, hdigit, hname⟩ := isBracket_class hc
  unfold Code.read readSpace?
  rcases isBracket_cases hc with rfl | rfl | rfl | rfl | rfl | rfl
  all_goals simp only [hblank, hdigit, hname, Bool.false_eq_true, if_false]
  all_goals simp [Code.readMark, punctuationLength, punctuationPairs]
  have hplain := hk (by decide)
  unfold Code.readBrace
  cases hs : k.shape <;> simp_all [Shape.IsPlain]

lemma mem_take_scan {σ : Type} {step : σ → Char → Scan σ} {s : σ} {cs : List Char} {d : Char}
    (h : d ∈ cs.take (scan step s cs).1) : ∃ s', step s' d ≠ .before := by
  induction cs generalizing s with
  | nil => simp at h
  | cons c cs ih =>
    simp only [scan] at h
    cases hs : step s c with
    | on next =>
      simp only [hs, List.take_succ_cons, List.mem_cons] at h
      rcases h with rfl | h
      · exact ⟨s, by simp [hs]⟩
      · exact ih h
    | last mark =>
      simp only [hs, List.take_succ_cons, List.take_zero, List.mem_singleton] at h
      exact ⟨s, by simp [h, hs]⟩
    | before => simp [hs] at h

lemma not_isBracket_of_scanNumber {signs marked : Bool} (h : scanNumber signs marked c ≠ .before) :
    isBracket c = false := by
  unfold scanNumber at h
  split at h
  · next hc =>
    rcases hc with hc | rfl
    · exact not_isBracket_of_isNameChar hc
    · decide
  · split at h
    · next hc =>
      rcases hc with ⟨-, rfl | rfl⟩ <;> decide
    · simp at h

lemma mem_take_punctuationLength {d : Char} (hd : d ∈ rest.take (punctuationLength c rest)) :
    isBracket d = false := by
  unfold punctuationLength at hd
  split at hd
  · rw [take_runLength] at hd
    have := List.mem_takeWhile_imp hd
    obtain rfl : d = '.' := by simpa using this
    decide
  · cases rest with
    | nil => simp at hd
    | cons e rest =>
      split at hd
      · next he =>
        obtain rfl : e = '.' := by simpa using he.2
        split at hd
        · simp at hd
        · obtain rfl : d = '.' := by simpa using hd
          decide
      · split at hd
        · next he =>
          obtain rfl : d = e := by simpa using hd
          have hpair : (c, d) ∈ punctuationPairs := by simpa using he
          simp only [punctuationPairs, List.mem_cons, Prod.mk.injEq, List.not_mem_nil, or_false] at hpair
          rcases hpair with ⟨-, rfl⟩ | ⟨-, rfl⟩ | ⟨-, rfl⟩ | ⟨-, rfl⟩ <;> decide
        · simp at hd

lemma Code.read_plain (k : Code) (language : Language) (rest : List Char) (hc : isBracket c = false)
    (hs : endsSearch c = false) :
    (k.read language c rest).1 ∈ [.blank, .word, .importWord, .number, .punctuation] ∧
      ∀ d ∈ rest.take (k.read language c rest).2, isBracket d = false := by
  unfold Code.read
  split
  · next space h =>
    obtain ⟨kind, n⟩ := space
    rcases readSpace?_eq_some h with ⟨rfl, -, rfl⟩ | ⟨-, rfl⟩
    · refine ⟨by simp, fun d hd => ?_⟩
      rw [take_runLength] at hd
      exact not_isBracket_of_isBlank (List.mem_takeWhile_imp hd)
    · simp [endsSearch] at hs
  · split
    · refine ⟨by simp, fun d hd => ?_⟩
      obtain ⟨s, hs⟩ := mem_take_scan hd
      exact not_isBracket_of_scanNumber hs
    · split
      · refine ⟨?_, fun d hd => ?_⟩
        · simp only [Code.wordKind]
          split <;> simp
        · simp only [take_runLength] at hd
          exact not_isBracket_of_isNameChar (List.mem_takeWhile_imp hd)
      · unfold Code.readMark
        split
        · refine ⟨by simp, fun d hd => ?_⟩
          rw [take_runLength] at hd
          exact not_isBracket_of_isNameChar (List.mem_takeWhile_imp hd)
        · simp [endsSearch] at hs
        · simp [endsSearch] at hs
        · simp [endsSearch] at hs
        · simp [endsSearch] at hs
        · simp [endsSearch] at hs
        · exact absurd hc (by decide)
        · exact ⟨by simp, fun d hd => mem_take_punctuationLength hd⟩

def LexemeKind.closesBrace : LexemeKind → Bool
  | .containerClose _ | .templatePart _ true => true
  | _ => false

lemma Code.read_closes {k : Code} (h : (k.read language c rest).1.closesBrace) : c = '\x7d' := by
  unfold Code.read at h
  split at h
  · next space hs =>
    obtain ⟨kind, n⟩ := space
    rcases readSpace?_eq_some hs with ⟨rfl, -⟩ | ⟨rfl, -⟩ <;> simp [LexemeKind.closesBrace] at h
  · split at h
    · simp [LexemeKind.closesBrace] at h
    · split at h
      · simp only [Code.wordKind] at h
        split at h <;> simp [LexemeKind.closesBrace] at h
      · unfold Code.readMark Code.readLess at h
        repeat' split at h
        all_goals first | rfl | simp [LexemeKind.closesBrace] at h

lemma opensBracket_cases (hc : opensBracket c) : c = '(' ∨ c = '[' ∨ c = '\x7b' := by
  simpa [opensBracket, -Classical.not_imp, imp_iff_not_or] using hc

lemma closesBracket_cases (hc : closesBracket c) : c = ')' ∨ c = ']' ∨ c = '\x7d' := by
  simpa [closesBracket, -Classical.not_imp, imp_iff_not_or] using hc

lemma not_closesBracket_of_opensBracket (hc : opensBracket c) : closesBracket c = false := by
  rcases opensBracket_cases hc with rfl | rfl | rfl <;> decide

namespace Context

variable {k : Code} {outer : List Frame}

lemma advance_opensBracket (language : Language) (k : Code) (outer : List Frame) (hc : opensBracket c) :
    ∃ above inside : Code, above.shape = k.shape ∧ inside.shape.IsPlain ∧
      advance ⟨language, .code k, outer⟩ ⟨.punctuation, [c]⟩ =
        ⟨language, .code inside, .code above :: outer⟩ := by
  have hmem : String.ofList [c] ∈ ["\x7b", "(", "["] := by
    rcases opensBracket_cases hc with rfl | rfl | rfl <;> decide
  exact advancePunctuation_opens hmem

lemma advance_closesBracket {f : Frame} (hc : closesBracket c) :
    advance ⟨language, .code k, f :: outer⟩ ⟨.punctuation, [c]⟩ = ⟨language, f, outer⟩ := by
  have hmem : String.ofList [c] ∈ ["\x7d", ")", "]"] := by
    rcases closesBracket_cases hc with rfl | rfl | rfl <;> decide
  exact advancePunctuation_closes hmem

lemma advance_plain (language : Language) (outer : List Frame) {kind : LexemeKind} (t : List Char)
    (hkind : kind ∈ [.blank, .word, .importWord, .number, .punctuation])
    (hc : isBracket c = false) (hk : k.shape ≠ .angles) :
    ∃ k' : Code, k'.shape = k.shape ∧
      advance ⟨language, .code k, outer⟩ ⟨kind, c :: t⟩ = ⟨language, .code k', outer⟩ := by
  by_cases hp : kind = .punctuation
  · subst hp
    refine advancePunctuation_stays ?_ ?_ fun _ => hk
    · intro hm
      have hmem : c :: t = ['\x7b'] ∨ c :: t = ['('] ∨ c :: t = ['['] := by
        simpa [String.ext_iff] using hm
      rcases hmem with hm | hm | hm <;> obtain ⟨rfl, -⟩ := List.cons.inj hm <;>
        exact absurd hc (by decide)
    · intro hm
      have hmem : c :: t = ['\x7d'] ∨ c :: t = [')'] ∨ c :: t = [']'] := by
        simpa [String.ext_iff] using hm
      rcases hmem with hm | hm | hm <;> obtain ⟨rfl, -⟩ := List.cons.inj hm <;>
        exact absurd hc (by decide)
  · refine advance_stays (c := ⟨language, .code k, outer⟩) rfl ?_
    simp only [List.mem_cons, List.not_mem_nil, or_false] at hkind ⊢
    tauto

lemma closer_of_advance_tag {phase : TagPhase} {kind : LexemeKind} {t : List Char}
    (hread : (k.read language c rest).1 = kind) (ha : k.admits ⟨kind, c :: t⟩)
    (h : (advance ⟨language, .code k, outer⟩ ⟨kind, c :: t⟩).inner = .tag phase)
    (hphase : phase ≠ .opened) : c ∈ ['\x7d', ')', ']', '>'] := by
  have hbrace : kind.closesBrace → c = '\x7d' := fun hk => Code.read_closes (hread ▸ hk)
  have hstays : kind ∉ [.blank, .comment, .word, .importWord, .number, .string, .template, .regex] := by
    intro hkind
    obtain ⟨k', -, heq⟩ := advance_stays (c := ⟨language, .code k, outer⟩) (l := ⟨kind, c :: t⟩)
      rfl hkind
    simp [heq] at h
  cases kind with
  | blank | comment | word | importWord | number | string | template | regex => simp at hstays
  | templatePart opens closes =>
    cases closes with
    | true => simp [hbrace rfl]
    | false =>
      obtain rfl : opens = true := by simpa [Code.admits] using ha
      simp [advance, advanceTemplate, mapCode, push] at h
  | punctuation =>
    change (advancePunctuation ⟨language, .code k, outer⟩ k (String.ofList (c :: t))).inner =
      .tag phase at h
    by_cases hopen : String.ofList (c :: t) ∈ ["\x7b", "(", "["]
    · obtain ⟨above, inside, -, -, heq⟩ := advancePunctuation_opens
        (c := ⟨language, .code k, outer⟩) (k := k) hopen
      rw [heq] at h
      simp [enter] at h
    by_cases hclose : String.ofList (c :: t) ∈ ["\x7d", ")", "]"]
    · have htext : (c = '\x7d' ∧ t = []) ∨ (c = ')' ∧ t = []) ∨ (c = ']' ∧ t = []) := by
        simpa [String.ext_iff] using hclose
      rcases htext with ⟨rfl, -⟩ | ⟨rfl, -⟩ | ⟨rfl, -⟩ <;> simp
    by_cases hgreater : String.ofList (c :: t) = ">"
    · have htext : c = '>' ∧ t = [] := by simpa [String.ext_iff] using hgreater
      simp [htext.1]
    by_cases hless : String.ofList (c :: t) = "<" ∧ k.shape = .angles
    · rw [hless.1, (advancePunctuation_angles hless.2).1] at h
      simp [enter] at h
    · obtain ⟨k', -, heq⟩ := advancePunctuation_stays (c := ⟨language, .code k, outer⟩) (k := k)
        hopen hclose (by
          simp only [List.mem_cons, List.not_mem_nil, or_false]
          rintro (hl | hl)
          · exact fun hk => hless ⟨hl, hk⟩
          · exact absurd hl hgreater)
      rw [heq] at h
      simp at h
  | tagOpen =>
    obtain rfl : TagPhase.opened = phase := by simpa [advance, push] using h
    exact absurd rfl hphase
  | containerClose use => simp [hbrace rfl]
  | _ => simp [Code.admits] at ha

end Context

end MarkupLabels.Source
