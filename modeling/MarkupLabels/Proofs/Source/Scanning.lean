import Mathlib
import MarkupLabels.Source.Reading

/-! How far a lexeme reaches is settled by its own characters and at most the next one. A text `t`
that is read off the front of `t ++ r` is read off the front of `t ++ w` too, where `w` begins like
`r`. Where the lexeme has an end of its own, `w` is arbitrary. -/

namespace MarkupLabels.Source

section Runs

variable {p : Char → Bool} {t r w : List Char}

lemma runLength_eq_length_iff :
    runLength p (t ++ w) = t.length ↔ (∀ c ∈ t, p c) ∧ ∀ d ∈ w.head?, p d = false := by
  induction t with
  | nil =>
    cases w with
    | nil => simp [runLength]
    | cons d w => cases h : p d <;> simp [runLength, h]
  | cons c t ih =>
    by_cases h : p c
    · simpa [runLength, h] using ih
    · simp [runLength, h]

lemma runLength_congr (h : runLength p (t ++ r) = t.length) (hw : ∀ d ∈ w.head?, p d = false) :
    runLength p (t ++ w) = t.length :=
  runLength_eq_length_iff.mpr ⟨(runLength_eq_length_iff.mp h).1, hw⟩

lemma runLength_drop (p : Char → Bool) (cs : List Char) :
    cs.drop (runLength p cs) = cs.dropWhile p := by
  induction cs with
  | nil => simp
  | cons c cs ih => by_cases h : p c <;> simp [runLength, h, ih]

lemma head_dropWhile {d : Char} (h : d ∈ (t.dropWhile p).head?) : p d = false := by
  induction t with
  | nil => simp at h
  | cons c t ih =>
    by_cases hc : p c
    · exact ih (by simpa [hc] using h)
    · simp_all

lemma takeWhile_append_of_head (ht : ∀ c ∈ t, p c) (hw : ∀ d ∈ w.head?, p d = false) :
    (t ++ w).takeWhile p = t := by
  rw [List.takeWhile_append_of_pos (by simpa using ht)]
  cases w with
  | nil => simp
  | cons d w => simp [hw d (by simp)]

lemma dropWhile_append_of_head (ht : ∀ c ∈ t, p c) (hw : ∀ d ∈ w.head?, p d = false) :
    (t ++ w).dropWhile p = w := by
  rw [List.dropWhile_append_of_pos (by simpa using ht)]
  cases w with
  | nil => simp
  | cons d w => simp [hw d (by simp)]

lemma runLength_eq_length_takeWhile (p : Char → Bool) (cs : List Char) :
    runLength p cs = (cs.takeWhile p).length := by
  have h := runLength_eq_length_iff (p := p) (t := cs.takeWhile p) (w := cs.dropWhile p)
  rw [List.takeWhile_append_dropWhile] at h
  exact h.mpr ⟨fun c hc => List.mem_takeWhile_imp hc, fun d hd => head_dropWhile hd⟩

lemma take_runLength (p : Char → Bool) (cs : List Char) :
    cs.take (runLength p cs) = cs.takeWhile p := by
  rw [runLength_eq_length_takeWhile]
  exact (List.prefix_iff_eq_take.mp (List.takeWhile_prefix _)).symm

end Runs

section Scans

variable {σ : Type} {step : σ → Char → Scan σ} {s : σ} {t r w : List Char}

lemma scan_congr_head {d : Char} (h : (scan step s (t ++ d :: r)).1 = t.length) :
    scan step s (t ++ d :: w) = scan step s (t ++ d :: r) := by
  induction t generalizing s with
  | nil =>
    simp only [List.nil_append, scan, List.length_nil] at h ⊢
    cases hs : step s d <;> simp_all
  | cons c t ih =>
    simp only [List.cons_append, scan, List.length_cons] at h ⊢
    cases hs : step s c with
    | on next =>
      simp only [hs, Nat.add_right_cancel_iff] at h
      simp only [ih h]
    | last mark => rfl
    | before => rfl

lemma scan_congr_closed (hstep : ∀ s c, step s c ≠ .before) (hr : r ≠ [])
    (h : (scan step s (t ++ r)).1 = t.length) : scan step s (t ++ w) = scan step s (t ++ r) := by
  induction t generalizing s with
  | nil =>
    obtain ⟨d, r, rfl⟩ := List.exists_cons_of_ne_nil hr
    simp only [List.nil_append, scan, List.length_nil] at h
    have hs := hstep s d
    cases hd : step s d <;> simp_all
  | cons c t ih =>
    simp only [List.cons_append, scan, List.length_cons] at h ⊢
    cases hs : step s c with
    | on next =>
      simp only [hs, Nat.add_right_cancel_iff] at h
      simp only [ih h]
    | last mark => rfl
    | before => exact absurd hs (hstep s c)

lemma scanBlockComment_closed (s : Bool) (c : Char) : scanBlockComment s c ≠ .before := by
  unfold scanBlockComment
  split <;> simp

lemma scanQuoted_closed (q : Char) (s : Unit) (c : Char) : scanQuoted q s c ≠ .before := by
  unfold scanQuoted
  split <;> simp

lemma scanTemplate_closed (s : TemplateState) (c : Char) : scanTemplate s c ≠ .before := by
  unfold scanTemplate
  repeat' split
  all_goals simp

end Scans

section Names

variable {t r w : List Char}

lemma isNameChar_of_isDigit {c : Char} (h : isDigit c) : isNameChar c := by
  have hdigits : ∀ n < 58, 48 ≤ n → isNameChar (Char.ofNat n) := by decide
  obtain ⟨hlow, hhigh⟩ : '0' ≤ c ∧ c ≤ '9' := by simpa [isDigit] using h
  have hn := hdigits c.toNat (Nat.lt_succ_of_le hhigh) hlow
  rwa [Char.ofNat_toNat] at hn

lemma not_isBlank_of_isTagNameChar {c : Char} (h : isTagNameChar c) : isBlank c = false := by
  rcases Bool.or_eq_true_iff.mp h with h | h
  · simp only [isNameChar, Bool.not_eq_true', Bool.or_eq_false_iff] at h
    exact h.1.2
  · obtain rfl : c = '-' := by simpa using h
    decide

lemma not_isTagNameChar_of_isBlank {c : Char} (h : isBlank c) : isTagNameChar c = false := by
  by_contra hc
  simp [not_isBlank_of_isTagNameChar (by simpa using hc)] at h

lemma attributeNameLength_append (name blanks : List Char) (hname : ∀ c ∈ name, isTagNameChar c)
    (hblanks : ∀ c ∈ blanks, isBlank c) (hw : ∀ d ∈ w.head?, isBlank d = false ∧ d ≠ ':')
    (hgap : blanks = [] → ∀ d ∈ w.head?, isTagNameChar d = false) :
    attributeNameLength (name ++ (blanks ++ w)) = name.length := by
  have hhead : ∀ d ∈ (blanks ++ w).head?, isTagNameChar d = false := by
    cases blanks with
    | nil => simpa using hgap rfl
    | cons b blanks => simpa using not_isTagNameChar_of_isBlank (hblanks b (by simp))
  have hb : (blanks ++ w).dropWhile isBlank = w :=
    dropWhile_append_of_head hblanks fun d hd => (hw d hd).1
  simp only [attributeNameLength, takeWhile_append_of_head hname hhead,
    dropWhile_append_of_head hname hhead, hb]
  split
  · exact absurd rfl (hw ':' (by simp)).2
  · rfl

lemma attributeNameLength_namespaced (space blanks gap name : List Char)
    (hspace : ∀ c ∈ space, isTagNameChar c) (hblanks : ∀ c ∈ blanks, isBlank c)
    (hgap : ∀ c ∈ gap, isBlank c) (hname : ∀ c ∈ name, isTagNameChar c) (hne : name ≠ [])
    (hw : ∀ d ∈ w.head?, isTagNameChar d = false) :
    attributeNameLength (space ++ (blanks ++ ':' :: (gap ++ (name ++ w)))) =
      (space ++ (blanks ++ ':' :: (gap ++ name))).length := by
  have hcolon : isTagNameChar ':' = false ∧ isBlank ':' = false := by decide
  have h₁ : ∀ d ∈ (blanks ++ ':' :: (gap ++ (name ++ w))).head?, isTagNameChar d = false := by
    cases blanks with
    | nil => simpa using hcolon.1
    | cons b blanks => simpa using not_isTagNameChar_of_isBlank (hblanks b (by simp))
  have h₂ : ∀ d ∈ (':' :: (gap ++ (name ++ w))).head?, isBlank d = false := by
    simpa using hcolon.2
  have h₃ : ∀ d ∈ (name ++ w).head?, isBlank d = false := by
    obtain ⟨n, name, rfl⟩ := List.exists_cons_of_ne_nil hne
    simpa using not_isBlank_of_isTagNameChar (hname n (by simp))
  simp only [attributeNameLength, takeWhile_append_of_head hspace h₁,
    dropWhile_append_of_head hspace h₁, takeWhile_append_of_head hblanks h₂,
    dropWhile_append_of_head hblanks h₂, takeWhile_append_of_head hgap h₃,
    dropWhile_append_of_head hgap h₃, takeWhile_append_of_head hname hw, List.length_append,
    List.length_cons]
  omega

end Names

section Spaces

variable {phase : TagPhase} {c : Char}

lemma readSpace?_blank (hc : isBlank c) (r : List Char) :
    readSpace? c r = some (.blank, runLength isBlank r) := by
  unfold readSpace?
  rw [if_pos hc]

lemma readSpace?_eq_none (hc : isBlank c = false) (hslash : c ≠ '/') (r : List Char) :
    readSpace? c r = none := by
  unfold readSpace?
  rw [if_neg (by simp [hc]), if_neg hslash]

lemma TagPhase.read_of_isBlank (hc : isBlank c) (r : List Char) :
    phase.read c r = (.blank, runLength isBlank r) := by
  unfold TagPhase.read
  rw [readSpace?_blank hc]

end Spaces

end MarkupLabels.Source
