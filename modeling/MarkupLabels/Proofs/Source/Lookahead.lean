import MarkupLabels.Proofs.Source.Scanning

/-! A lexeme is read alike in front of two texts that begin alike. In code there are two exceptions,
where reading looks further: behind a question mark, and behind a `<` that may open type
parameters. -/

namespace MarkupLabels.Source

variable {t r w : List Char} {c d : Char} {kind : LexemeKind}

lemma head_append_cons (t : List Char) (d : Char) (r w : List Char) :
    (t ++ d :: w).head? = (t ++ d :: r).head? := by
  cases t <;> simp

lemma runLength_head {p : Char → Bool} (h : runLength p (t ++ d :: r) = t.length) :
    runLength p (t ++ d :: w) = t.length :=
  runLength_congr h (by simpa using (runLength_eq_length_iff.mp h).2)

lemma readSpace?_congr (h : readSpace? c (t ++ d :: r) = some (kind, t.length)) :
    readSpace? c (t ++ d :: w) = some (kind, t.length) := by
  unfold readSpace? at h ⊢
  split at h
  · next hb =>
    simp only [Option.some.injEq, Prod.mk.injEq] at h
    simp [hb, h.1, runLength_head h.2]
  · next hb =>
    split at h
    · next hc =>
      subst hc
      cases t with
      | nil =>
        simp only [List.nil_append, List.length_nil] at h
        split at h <;> simp_all
      | cons e t =>
        simp only [List.cons_append, List.length_cons] at h ⊢
        split at h
        · next heq =>
          simp only [List.cons.injEq] at heq
          obtain ⟨rfl, rfl⟩ := heq
          simp only [Option.some.injEq, Prod.mk.injEq, Nat.add_right_cancel_iff] at h
          simp [hb, h.1, runLength_head h.2]
        · next heq =>
          simp only [List.cons.injEq] at heq
          obtain ⟨rfl, rfl⟩ := heq
          simp only [Option.some.injEq, Prod.mk.injEq, Nat.add_right_cancel_iff] at h
          have hs := scan_congr_closed scanBlockComment_closed (by simp) h.2 (w := d :: w)
          simp [hb, h.1, hs, h.2]
        · simp at h
    · simp at h

lemma readSpace?_none (h : readSpace? c (t ++ d :: r) = none) :
    readSpace? c (t ++ d :: w) = none := by
  unfold readSpace? at h ⊢
  split at h
  · simp at h
  · next hb =>
    split at h
    · next hc =>
      cases t <;> simp only [List.nil_append, List.cons_append] at h ⊢ <;> split at h <;> simp_all
    · next hc => simp [hb, hc]

lemma punctuationLength_congr (h : punctuationLength c (t ++ d :: r) = t.length)
    (hq : c = '?' → t = [] → d = '.' → r.head?.any isDigit → w.head?.any isDigit) :
    punctuationLength c (t ++ d :: w) = t.length := by
  unfold punctuationLength at h ⊢
  rw [head_append_cons t d r w]
  split at h
  · next hc => simp [hc, runLength_head h]
  · next hc =>
    split at h
    · next hd =>
      rw [if_neg hc, if_pos hd]
      cases t with
      | nil =>
        simp only [List.nil_append, List.drop_one, List.tail_cons, List.length_nil,
          List.head?_cons, Option.some.injEq] at h hd ⊢
        split at h
        · next hr => simp [hq hd.1 rfl hd.2 hr]
        · simp at h
      | cons e t =>
        have hh := head_append_cons t d r w
        simp only [List.cons_append, List.drop_one, List.tail_cons] at h ⊢
        rw [hh]
        exact h
    · next hd => simp only [hc, hd, if_false, h]

lemma Code.readLess_congr {k : Code} {language : Language}
    (h : k.readLess language (t ++ d :: r) = (kind, t.length))
    (hl : t = [] → kind = .punctuation → k.shape ≠ .angles → isTypeParameters (d :: r) →
      isTypeParameters (d :: w))
    (hl' : t = [] → isTypeParameters (d :: w) → isTypeParameters (d :: r)) :
    k.readLess language (t ++ d :: w) = (kind, t.length) := by
  unfold Code.readLess at h ⊢
  rw [head_append_cons t d r w]
  cases t with
  | nil =>
    specialize hl rfl
    specialize hl' rfl
    simp only [List.nil_append, List.length_nil] at h ⊢
    split at h
    · next hk => simp_all
    · next hk =>
      rw [if_neg hk]
      repeat' split at h
      all_goals simp_all [Prod.mk.injEq]
      · exact runLength_head (t := []) h.2
      · intro htsx hw
        simp_all
  | cons e t =>
    repeat' split at h
    all_goals simp_all [Prod.mk.injEq]
    exact runLength_head (t := '!' :: t) h.2

lemma Code.readBrace_congr {k : Code} (hr : r ≠ [])
    (h : k.readBrace (t ++ r) = (kind, t.length)) : k.readBrace (t ++ w) = (kind, t.length) := by
  unfold Code.readBrace at h ⊢
  split at h
  · simp_all
  · simp only [Prod.mk.injEq] at h
    have hs := scan_congr_closed scanTemplate_closed hr h.2 (w := w)
    simp [hs, h.1, h.2]
  · simp_all

lemma Code.readMark_congr {k : Code} {language : Language}
    (h : k.readMark language c (t ++ d :: r) = (kind, t.length))
    (hq : c = '?' → t = [] → d = '.' → r.head?.any isDigit → w.head?.any isDigit)
    (hl : c = '<' → t = [] → kind = .punctuation → k.shape ≠ .angles → isTypeParameters (d :: r) →
      isTypeParameters (d :: w))
    (hl' : c = '<' → t = [] → isTypeParameters (d :: w) → isTypeParameters (d :: r)) :
    k.readMark language c (t ++ d :: w) = (kind, t.length) := by
  unfold Code.readMark at h ⊢
  split at h
  · simp only [Prod.mk.injEq] at h
    simp only [runLength_head h.2, h.1]
  · simp only [Prod.mk.injEq] at h
    simp only [scan_congr_head h.2, h.1, h.2]
  · simp only [Prod.mk.injEq] at h
    simp only [scan_congr_head h.2, h.1, h.2]
  · simp only [Prod.mk.injEq] at h
    simp only [scan_congr_head h.2, h.1, h.2]
  · split at h
    · next ho => simp_all
    · next ho =>
      simp only [Prod.mk.injEq] at h
      simp only [ho, scan_congr_head h.2, h.1, h.2, Bool.false_eq_true, if_false]
  · exact readLess_congr h (hl rfl) (hl' rfl)
  · exact readBrace_congr (by simp) h
  · simp only [Prod.mk.injEq] at h
    simp only [punctuationLength_congr h.2 hq, h.1]

lemma Code.read_congr {k : Code} {language : Language}
    (h : k.read language c (t ++ d :: r) = (kind, t.length))
    (hq : c = '?' → t = [] → d = '.' → r.head?.any isDigit → w.head?.any isDigit)
    (hl : c = '<' → t = [] → kind = .punctuation → k.shape ≠ .angles → isTypeParameters (d :: r) →
      isTypeParameters (d :: w))
    (hl' : c = '<' → t = [] → isTypeParameters (d :: w) → isTypeParameters (d :: r)) :
    k.read language c (t ++ d :: w) = (kind, t.length) := by
  unfold Code.read at h ⊢
  cases hs : readSpace? c (t ++ d :: r) with
  | some space =>
    simp only [hs] at h
    rw [h] at hs
    simp only [readSpace?_congr hs]
  | none =>
    simp only [hs] at h
    simp only [readSpace?_none hs, head_append_cons t d r w]
    split at h
    · next hn =>
      simp only [Prod.mk.injEq] at h
      rw [if_pos hn, scan_congr_head h.2, h.1, h.2]
    · next hn =>
      rw [if_neg hn]
      split at h
      · next hc =>
        simp only [Prod.mk.injEq] at h
        obtain ⟨hk, hr⟩ := h
        rw [hr, List.take_left] at hk
        rw [if_pos hc, runLength_head hr, List.take_left, hk]
      · next hc =>
        rw [if_neg hc]
        exact readMark_congr h hq hl hl'

lemma Code.read_congr_closer {k : Code} {language : Language} (hc : c ∈ ['\x7d', ')', ']', '>'])
    (hr : r ≠ []) (h : k.read language c (t ++ r) = (kind, t.length)) :
    k.read language c (t ++ w) = (kind, t.length) := by
  have hclass : isBlank c = false ∧ c ≠ '/' ∧ isDigit c = false ∧ c ≠ '.' ∧ isNameChar c = false := by
    simp only [List.mem_cons, List.not_mem_nil, or_false] at hc
    rcases hc with rfl | rfl | rfl | rfl <;> decide
  obtain ⟨hblank, hslash, hdigit, hdot, hname⟩ := hclass
  have hmark : ∀ u, k.read language c u = k.readMark language c u := by
    intro u
    unfold Code.read
    rw [readSpace?_eq_none hblank hslash]
    simp [hdigit, hdot, hname]
  rw [hmark] at h ⊢
  simp only [List.mem_cons, List.not_mem_nil, or_false] at hc
  rcases hc with rfl | hc
  · exact readBrace_congr hr h
  · rcases hc with rfl | rfl | rfl <;>
      simpa [Code.readMark, punctuationLength, punctuationPairs] using h

def Follows (r w : List Char) : Prop :=
  w.head? = r.head? ∨ (w.head? = some ' ' ∧ (r.head? = some '>' ∨ r.head? = some '/'))

lemma Follows.head {p : Char → Bool} (h : Follows r w) (hspace : p ' ' = false)
    (hr : ∀ d ∈ r.head?, p d = false) : ∀ d ∈ w.head?, p d = false := by
  rcases h with h | ⟨h, -⟩
  · rwa [h]
  · simpa [h] using hspace

lemma of_mem_takeWhile {p : Char → Bool} {l : List Char} : ∀ e ∈ l.takeWhile p, p e :=
  fun _ he => by simpa using List.mem_takeWhile_imp he

lemma attributeNameLength_cases (h : attributeNameLength (t ++ r) = t.length) :
    ((∀ e ∈ t, isTagNameChar e) ∧ (∀ e ∈ r.head?, isTagNameChar e = false) ∧
        ∀ rest, r.dropWhile isBlank ≠ ':' :: rest) ∨
      ∃ space blanks gap name, t = space ++ (blanks ++ ':' :: (gap ++ name)) ∧
        (∀ e ∈ space, isTagNameChar e) ∧ (∀ e ∈ blanks, isBlank e) ∧ (∀ e ∈ gap, isBlank e) ∧
        (∀ e ∈ name, isTagNameChar e) ∧ ∀ e ∈ r.head?, isTagNameChar e = false := by
  have hsplit := List.takeWhile_append_dropWhile (p := isTagNameChar) (l := t ++ r)
  have hall := of_mem_takeWhile (p := isTagNameChar) (l := t ++ r)
  have hhead : ∀ e ∈ ((t ++ r).dropWhile isTagNameChar).head?, isTagNameChar e = false :=
    fun e he => head_dropWhile he
  unfold attributeNameLength at h
  generalize (t ++ r).takeWhile isTagNameChar = name at hsplit hall h
  generalize (t ++ r).dropWhile isTagNameChar = behind at hsplit hhead h
  simp only at h
  split at h
  · next rest hrest =>
    have hb := List.takeWhile_append_dropWhile (p := isBlank) (l := behind)
    have hg := List.takeWhile_append_dropWhile (p := isBlank) (l := rest)
    have hn := List.takeWhile_append_dropWhile (p := isTagNameChar) (l := rest.dropWhile isBlank)
    rw [hrest] at hb
    have hwhole : name ++ (behind.takeWhile isBlank ++ ':' :: (rest.takeWhile isBlank ++
        (rest.dropWhile isBlank).takeWhile isTagNameChar)) ++
          (rest.dropWhile isBlank).dropWhile isTagNameChar = t ++ r := by
      simp only [List.append_assoc, List.cons_append, hn, hg, hb, hsplit]
    obtain ⟨ht, hr⟩ := List.append_inj hwhole (by
      simp only [List.length_append, List.length_cons]
      omega)
    exact .inr ⟨name, _, _, _, ht.symm, hall, of_mem_takeWhile, of_mem_takeWhile, of_mem_takeWhile,
      fun e he => head_dropWhile (hr ▸ he)⟩
  · next hrest =>
    obtain ⟨rfl, rfl⟩ := List.append_inj hsplit h
    exact .inl ⟨hall, hhead, hrest⟩

lemma ne_nil_of_namespaced (front : List Char) {gap name : List Char} (hgap : ∀ e ∈ gap, isBlank e)
    (hlast : ∀ e ∈ (front ++ ':' :: (gap ++ name)).getLast?, isTagNameChar e) : name ≠ [] := by
  rintro rfl
  have hend := hlast ((':' :: gap).getLast (by simp)) (by
    rw [List.append_nil, List.getLast?_append_of_ne_nil _ (List.cons_ne_nil _ _),
      List.getLast?_eq_some_getLast (List.cons_ne_nil _ _)]
    exact rfl)
  rcases List.mem_cons.mp (List.getLast_mem (l := ':' :: gap) (by simp)) with he | he
  · exact absurd (he ▸ hend) (by decide)
  · simp [not_isTagNameChar_of_isBlank (hgap _ he)] at hend

lemma attributeNameLength_congr (h : attributeNameLength (t ++ r) = t.length)
    (hlast : ∀ e ∈ t.getLast?, isTagNameChar e) (hw : Follows r w)
    (hcolon : (w.dropWhile isBlank).head? = some ':' → (r.dropWhile isBlank).head? = some ':') :
    attributeNameLength (t ++ w) = t.length := by
  have hspace : isTagNameChar ' ' = false := by decide
  rcases attributeNameLength_cases h with ⟨hall, hhead, hrest⟩ |
    ⟨space, blanks, gap, name, rfl, hall, hblanks, hgap, hname, hhead⟩
  · have hw' := attributeNameLength_append t (w.takeWhile isBlank) (w := w.dropWhile isBlank)
      hall of_mem_takeWhile
    rw [List.takeWhile_append_dropWhile] at hw'
    refine hw' (fun e he => ⟨head_dropWhile he, ?_⟩) ?_
    · rintro rfl
      obtain ⟨rest, hrest'⟩ := List.head?_eq_some_iff.mp (hcolon he)
      exact hrest rest hrest'
    · intro hnone e he
      have hw0 := List.takeWhile_append_dropWhile (p := isBlank) (l := w)
      rw [hnone, List.nil_append] at hw0
      rw [hw0] at he
      exact hw.head hspace hhead e he
  · have hne : name ≠ [] := ne_nil_of_namespaced (space ++ blanks) hgap (by simpa using hlast)
    simpa using attributeNameLength_namespaced space blanks gap name hall hblanks hgap hname hne
      (hw.head hspace hhead)

lemma readSpace?_follows (h : readSpace? c (t ++ r) = some (kind, t.length)) (hr : r ≠ [])
    (hb : isBlank c = false) (hw : Follows r w) :
    readSpace? c (t ++ w) = some (kind, t.length) := by
  unfold readSpace? at h ⊢
  rw [if_neg (by simp [hb])] at h ⊢
  split at h
  · next hc =>
    rw [if_pos hc]
    cases t with
    | nil =>
      simp only [List.nil_append, List.length_nil] at h
      split at h <;> simp_all
    | cons e t =>
      simp only [List.cons_append, List.length_cons] at h ⊢
      split at h
      · next heq =>
        simp only [List.cons.injEq] at heq
        obtain ⟨rfl, rfl⟩ := heq
        simp only [Option.some.injEq, Prod.mk.injEq, Nat.add_right_cancel_iff] at h
        have hline := (runLength_eq_length_iff.mp h.2).2
        -- A comment up to the end of the line is not followed by the end of the tag.
        have hw' : w.head? = r.head? := by
          rcases hw with hw | ⟨-, hw | hw⟩
          · exact hw
          all_goals exact absurd (hline _ hw) (by decide)
        have hrun := runLength_congr h.2 (w := w) (by rwa [hw'])
        simp only [h.1, hrun]
      · next heq =>
        simp only [List.cons.injEq] at heq
        obtain ⟨rfl, rfl⟩ := heq
        simp only [Option.some.injEq, Prod.mk.injEq, Nat.add_right_cancel_iff] at h
        have hs := scan_congr_closed scanBlockComment_closed hr h.2 (w := w)
        simp only [h.1, hs, h.2]
      · simp at h
  · simp at h

lemma readSpace?_none_of_ne_nil (h : readSpace? c (t ++ r) = none) (ht : c = '/' → t ≠ []) :
    readSpace? c (t ++ w) = none := by
  unfold readSpace? at h ⊢
  split at h
  · simp at h
  · next hb =>
    rw [if_neg hb]
    split at h
    · next hc =>
      rw [if_pos hc]
      obtain ⟨e, t, rfl⟩ := List.exists_cons_of_ne_nil (ht hc)
      simp only [List.cons_append] at h ⊢
      split at h <;> simp_all
    · next hc => rw [if_neg hc]

lemma TagPhase.read_congr {phase : TagPhase} (h : phase.read c (t ++ r) = (kind, t.length))
    (hr : r ≠ []) (hb : isBlank c = false) (hslash : c = '/' → t ≠ [])
    (hlast : kind = .attributeName → (c :: t).getLast?.any isTagNameChar) (hw : Follows r w)
    (hcolon : kind = .attributeName → (w.dropWhile isBlank).head? = some ':' →
      (r.dropWhile isBlank).head? = some ':') :
    phase.read c (t ++ w) = (kind, t.length) := by
  unfold TagPhase.read at h ⊢
  cases hs : readSpace? c (t ++ r) with
  | some space =>
    simp only [hs] at h
    rw [h] at hs
    simp only [readSpace?_follows hs hr hb hw]
  | none =>
    simp only [hs] at h
    simp only [readSpace?_none_of_ne_nil hs hslash]
    split at h
    · next hc =>
      rw [if_pos hc]
      split at h
      · next hp =>
        rw [if_pos hp]
        simp only [Prod.mk.injEq, tagNameLength] at h ⊢
        have hend := (runLength_eq_length_iff.mp h.2).2
        exact ⟨h.1, runLength_congr h.2 (hw.head (by decide) hend)⟩
      · next hp =>
        rw [if_neg hp]
        simp only [Prod.mk.injEq] at h ⊢
        refine ⟨h.1, attributeNameLength_congr h.2 ?_ hw (hcolon h.1.symm)⟩
        intro e he
        have := hlast h.1.symm
        obtain ⟨x, t, rfl⟩ := List.exists_cons_of_ne_nil (l := t) (by rintro rfl; simp at he)
        rw [List.getLast?_cons_cons] at this
        simpa [Option.mem_def.mp he] using this
    · next hc =>
      rw [if_neg hc]
      split at h
      · simp_all
      · obtain ⟨e, t, rfl⟩ := List.exists_cons_of_ne_nil (hslash rfl)
        simpa using h
      · simp_all
      · simp only [Prod.mk.injEq] at h
        simp only [scan_congr_closed (scanQuoted_closed _) hr h.2 (w := w), h.1, h.2]
      · simp only [Prod.mk.injEq] at h
        simp only [scan_congr_closed (scanQuoted_closed _) hr h.2 (w := w), h.1, h.2]
      · simp_all
      · simp_all
      · simp_all

lemma readChild_congr (h : readChild c (t ++ d :: r) = (kind, t.length)) :
    readChild c (t ++ d :: w) = (kind, t.length) := by
  unfold readChild at h ⊢
  split at h
  · simp_all
  · rw [head_append_cons t d r w]
    exact h
  · simp only [Prod.mk.injEq] at h
    simp only [runLength_head h.2, h.1]

lemma readClosing_congr (h : readClosing c (t ++ d :: r) = (kind, t.length)) :
    readClosing c (t ++ d :: w) = (kind, t.length) := by
  unfold readClosing at h ⊢
  cases hs : readSpace? c (t ++ d :: r) with
  | some space =>
    simp only [hs] at h
    rw [h] at hs
    simp only [readSpace?_congr hs]
  | none =>
    simp only [hs] at h
    simp only [readSpace?_none hs]
    split at h
    · next hc => simp_all
    · next hc =>
      simp only [Prod.mk.injEq] at h
      rw [if_neg hc, runLength_head h.2, h.1]

end MarkupLabels.Source
