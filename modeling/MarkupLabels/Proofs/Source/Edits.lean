import Mathlib
import MarkupLabels.Proofs.Source.Tokens
import MarkupLabels.Proofs.Source.Weaving

/-! Edits are made in the program and the program is put back. The edits of a document are those of
its tags in their order, and so its text is the one written lexeme by lexeme. -/

namespace MarkupLabels.Source

section Program

lemma trimmed_eq (cs : List Char) : trimmed cs = (cs.dropWhile isBlank).rdropWhile isBlank := rfl

lemma trimmed_between (cs : List Char) :
    cs.takeWhile isBlank ++ (trimmed cs ++ (cs.dropWhile isBlank).rtakeWhile isBlank) = cs := by
  rw [trimmed_eq, List.rdropWhile_append_rtakeWhile, List.takeWhile_append_dropWhile]

lemma head_trimmed {cs : List Char} {c : Char} (h : c ∈ (trimmed cs).head?) : isBlank c = false := by
  have hp := List.rdropWhile_prefix (p := isBlank) (l := cs.dropWhile isBlank)
  rw [← trimmed_eq] at hp
  obtain ⟨tail, ht⟩ := hp
  refine head_dropWhile (t := cs) ?_
  rw [← ht]
  exact List.mem_head?_append_of_mem_head? h

lemma placeOf_eq {part blanks tail : List Char} (hne : part ≠ [])
    (hhead : ∀ c ∈ part.head?, isBlank c = false) (hblanks : ∀ c ∈ blanks, isBlank c) :
    placeOf part (blanks ++ (part ++ tail)) = blanks.length := by
  obtain ⟨d, part, rfl⟩ := List.exists_cons_of_ne_nil hne
  induction blanks with
  | nil => simp [placeOf]
  | cons c blanks ih =>
    have hcd : d ≠ c := by
      rintro rfl
      have hd := hhead d (by simp)
      simp [hblanks d (by simp)] at hd
    have hfirst : (d :: part).isPrefixOf (c :: (blanks ++ (d :: part ++ tail))) = false := by
      simp [List.isPrefixOf, hcd]
    rw [List.cons_append, placeOf, hfirst, ih fun c hc => hblanks c (List.mem_cons_of_mem _ hc)]
    simp

lemma Edit.makeAll_append_right {position : Nat} {text tail : List Char} {edits : List Edit}
    (hsorted : edits.Pairwise fun a b => a.stop ≤ b.start)
    (hinside : ∀ e ∈ edits, position ≤ e.start ∧ e.start ≤ e.stop ∧ e.stop ≤ position + text.length) :
    Edit.makeAll position (text ++ tail) edits = Edit.makeAll position text edits ++ tail := by
  induction edits generalizing position text with
  | nil => rfl
  | cons e edits ih =>
    obtain ⟨hlater, hsorted⟩ := List.pairwise_cons.mp hsorted
    obtain ⟨hstart, horder, hstop⟩ := hinside e (by simp)
    have hlength : (text.drop (e.stop - position)).length = text.length - (e.stop - position) :=
      List.length_drop
    rw [Edit.makeAll, Edit.makeAll, if_neg (by omega), if_neg (by omega),
      List.take_append_of_le_length (by omega), List.drop_append_of_le_length (by omega),
      ih hsorted]
    · simp
    · intro f hf
      obtain ⟨-, hforder, hfstop⟩ := hinside f (List.mem_cons_of_mem _ hf)
      have := hlater f hf
      rw [hlength]
      omega

lemma Document.commit_eq (d : Document) {edits : List Edit} (hne : trimmed d.source ≠ [])
    (hsorted : (Edit.sorted edits).Pairwise fun a b => a.stop ≤ b.start)
    (hinside : ∀ e ∈ Edit.sorted edits, (d.source.takeWhile isBlank).length ≤ e.start ∧
      e.start ≤ e.stop ∧
      e.stop ≤ (d.source.takeWhile isBlank).length + (trimmed d.source).length) :
    d.commit edits = Edit.makeAll 0 d.source (Edit.sorted edits) := by
  have hsource := trimmed_between d.source
  have hblanks : ∀ c ∈ d.source.takeWhile isBlank, isBlank c := fun c hc => List.mem_takeWhile_imp hc
  have hhead : ∀ c ∈ (trimmed d.source).head?, isBlank c = false := fun c hc => head_trimmed hc
  have hrun := runLength_eq_length_takeWhile isBlank d.source
  unfold Document.commit
  simp only [hrun]
  generalize d.source.takeWhile isBlank = blanks at *
  generalize trimmed d.source = program at *
  generalize (d.source.dropWhile isBlank).rtakeWhile isBlank = tail at *
  rw [← hsource, placeOf_eq hne hhead hblanks]
  have hfront : ∀ e ∈ (Edit.sorted edits).head?, 0 + blanks.length ≤ e.start ∧ e.start ≤ e.stop := by
    intro e he
    obtain ⟨h₁, h₂, -⟩ := hinside e (List.mem_of_mem_head? he)
    omega
  rw [Edit.makeAll_append hfront, Nat.zero_add, Edit.makeAll_append_right hsorted hinside,
    List.take_left, ← List.append_assoc blanks program tail, ← List.length_append, List.drop_left,
    List.append_assoc]

end Program

section Places

lemma within_program {cs before token after : List Char} {c d : Char}
    (hcs : cs = before ++ (token ++ after)) (hhead : token.head? = some c) (hc : isBlank c = false)
    (hlast : token.getLast? = some d) (hd : isBlank d = false) :
    (cs.takeWhile isBlank).length ≤ before.length ∧
      before.length + token.length ≤ (cs.takeWhile isBlank).length + (trimmed cs).length := by
  have hsource := trimmed_between cs
  have hblanks : ∀ c ∈ cs.takeWhile isBlank, isBlank c := fun c hc => List.mem_takeWhile_imp hc
  have htail : ∀ c ∈ (cs.dropWhile isBlank).rtakeWhile isBlank, isBlank c :=
    fun c hc => List.mem_rtakeWhile_imp hc
  generalize cs.takeWhile isBlank = blanks at *
  generalize trimmed cs = program at *
  generalize (cs.dropWhile isBlank).rtakeWhile isBlank = tail at *
  have hne : token ≠ [] := by
    rintro rfl
    simp at hhead
  have hpos := List.length_pos_of_ne_nil hne
  -- A token that began in front of the program would begin with a blank, and one that ended behind it
  -- would end with one.
  constructor
  · by_contra hlt
    have hfirst : cs[before.length]? = some c := by
      rw [hcs, List.getElem?_append_right le_rfl, Nat.sub_self,
        List.getElem?_append_left hpos, ← List.head?_eq_getElem?, hhead]
    rw [← hsource, List.getElem?_append_left (by omega)] at hfirst
    simp [hblanks c (List.mem_of_getElem? hfirst)] at hc
  · by_contra hlt
    have hend : cs[before.length + (token.length - 1)]? = some d := by
      rw [hcs, List.getElem?_append_right (by omega), Nat.add_sub_cancel_left,
        List.getElem?_append_left (by omega), ← List.getLast?_eq_getElem?, hlast]
    rw [← hsource, List.getElem?_append_right (by omega), List.getElem?_append_right (by omega)]
      at hend
    simp [htail d (List.mem_of_getElem? hend)] at hd

end Places

namespace Progress

variable {added : Nat → List Attribute} {p : Progress} {ls : List Lexeme} {t : TagEnd} {e : Edit}

lemma exists_of_mem_tagEnds (h : t ∈ p.tagEnds ls) :
    ∃ before l after, ls = before ++ l :: after ∧ (before.foldl step p).tagEnd? l = some t := by
  induction ls generalizing p with
  | nil => simp [tagEnds] at h
  | cons l ls ih =>
    rw [tagEnds, List.mem_append] at h
    rcases h with h | h
    · exact ⟨[], l, ls, rfl, Option.mem_toList.mp h⟩
    · obtain ⟨before, m, after, rfl, hm⟩ := ih h
      exact ⟨l :: before, m, after, rfl, hm⟩

lemma foldl_step_offset (p : Progress) (ls : List Lexeme) :
    (ls.foldl step p).offset = p.offset + (Lexeme.texts ls).length := by
  induction ls generalizing p with
  | nil => simp [Lexeme.texts]
  | cons l ls ih =>
    rw [List.foldl_cons, ih, step_offset]
    simp [Lexeme.texts, Nat.add_assoc]

lemma exists_of_mem_editsIn (added : Nat → List Attribute) (h : e ∈ p.editsIn added ls) :
    ∃ t ∈ p.tagEnds ls, e.start = t.offset ∧ e.stop = t.offset + t.token.length := by
  obtain ⟨t, ht, he⟩ := List.mem_filterMap.mp h
  refine ⟨t, ht, ?_⟩
  unfold TagEnd.edit? at he
  split at he
  · simp at he
  · obtain ⟨layout, -, rfl⟩ := Option.map_eq_some_iff.mp he
    exact ⟨rfl, rfl⟩

lemma editsIn_pairwise (added : Nat → List Attribute) (p : Progress) (ls : List Lexeme) :
    (p.editsIn added ls).Pairwise fun a b => a.stop ≤ b.start := by
  induction ls generalizing p with
  | nil => exact List.Pairwise.nil
  | cons l ls ih =>
    rw [editsIn, tagEnds, List.filterMap_append]
    refine List.pairwise_append.mpr ⟨?_, ih _, ?_⟩
    · cases ht : p.tagEnd? l with
      | none => simp
      | some t => cases he : t.edit? (added t.element) <;> simp [he]
    · intro a ha b hb
      obtain ⟨t, ht, -, hstop⟩ : ∃ t ∈ (p.tagEnd? l).toList, a.start = t.offset ∧
          a.stop = t.offset + t.token.length := by
        have hone : p.tagEnds [l] = (p.tagEnd? l).toList := by simp [tagEnds]
        rw [← hone] at ha ⊢
        exact exists_of_mem_editsIn added ha
      obtain ⟨-, e, rest, -, rfl⟩ := tagEnd?_eq_some (Option.mem_toList.mp ht)
      have hb' := (le_start_of_mem_editsIn added hb).1
      rw [step_offset] at hb'
      rw [hstop]
      exact hb'

lemma exists_of_mem_editsIn_initial (hspelled : ∀ l ∈ ls, l.Spelled)
    (h : e ∈ initial.editsIn added ls) :
    ∃ before token after, Lexeme.texts ls = before ++ (token ++ after) ∧
      (token = ['>'] ∨ token = ['/', '>']) ∧ e.start = before.length ∧
      e.stop = before.length + token.length := by
  obtain ⟨t, ht, hstart, hstop⟩ := exists_of_mem_editsIn _ h
  obtain ⟨before, l, after, rfl, hl⟩ := exists_of_mem_tagEnds ht
  obtain ⟨hkind, f, rest, -, rfl⟩ := tagEnd?_eq_some hl
  have htoken : l.text = ['>'] ∨ l.text = ['/', '>'] := by
    have hl := (hspelled l (by simp)).ends (by rcases hkind with h | h <;> simp [h, LexemeKind.endsTag])
    rcases hl with rfl | rfl
    · exact .inl rfl
    · exact .inr rfl
  rw [foldl_step_offset] at hstart hstop
  exact ⟨Lexeme.texts before, l.text, Lexeme.texts after, by simp [Lexeme.texts], htoken,
    by simpa [initial] using hstart, by simpa [initial] using hstop⟩

lemma editsIn_inside (hspelled : ∀ l ∈ ls, l.Spelled) (h : e ∈ initial.editsIn added ls) :
    ((Lexeme.texts ls).takeWhile isBlank).length ≤ e.start ∧ e.start < e.stop ∧
      e.stop ≤ ((Lexeme.texts ls).takeWhile isBlank).length + (trimmed (Lexeme.texts ls)).length := by
  obtain ⟨before, token, after, hcs, htoken, hstart, hstop⟩ := exists_of_mem_editsIn_initial hspelled h
  have hgreater : isBlank '>' = false ∧ isBlank '/' = false := by decide
  rcases htoken with rfl | rfl
  · obtain ⟨h₁, h₂⟩ := within_program hcs rfl hgreater.1 rfl hgreater.1
    simp only [List.length_cons, List.length_nil] at *
    omega
  · obtain ⟨h₁, h₂⟩ := within_program hcs rfl hgreater.2 rfl hgreater.1
    simp only [List.length_cons, List.length_nil] at *
    omega

end Progress

lemma perm_findByKey {α : Type} {key : α → Nat} {l : List α} {n : Nat}
    (hnodup : (l.map key).Nodup) (hlt : ∀ x ∈ l, key x < n) :
    ((List.range n).filterMap fun i => l.find? (key · == i)).Perm l := by
  have hfind : ∀ {i x}, l.find? (key · == i) = some x → x ∈ l ∧ key x = i := by
    intro i x h
    exact ⟨List.mem_of_find?_eq_some h, by simpa using List.find?_some h⟩
  refine (List.perm_ext_iff_of_nodup ?_ (List.Nodup.of_map key hnodup)).mpr fun x => ?_
  · refine List.nodup_range.filterMap ?_
    intro i j x hi hj
    rw [← (hfind hi).2, ← (hfind hj).2]
  · simp only [List.mem_filterMap, List.mem_range]
    constructor
    · rintro ⟨i, -, hx⟩
      exact (hfind hx).1
    · intro hx
      refine ⟨key x, hlt x hx, ?_⟩
      cases hy : l.find? (key · == key x) with
      | none => simp [List.find?_eq_none] at hy; exact absurd rfl (hy x hx)
      | some y => rw [List.inj_on_of_nodup_map hnodup (hfind hy).1 hx (hfind hy).2]

namespace Document

variable {d : Document} {added : Nat → List Attribute} {ls : List Lexeme}

lemma edits_perm (language : Language) (added : Nat → List Attribute)
    (hnodup : ((Progress.initial.tagEnds ls).map (·.element)).Nodup)
    (hlt : ∀ t ∈ Progress.initial.tagEnds ls, t.element < (ofLexemes language ls).forest.size) :
    ((ofLexemes language ls).edits added).Perm (Progress.initial.editsIn added ls) := by
  have hedits : (ofLexemes language ls).edits added =
      ((List.range (ofLexemes language ls).forest.size).filterMap fun i =>
        (Progress.initial.tagEnds ls).find? (·.element == i)).filterMap
          fun t => t.edit? (added t.element) := by
    rw [List.filterMap_filterMap]
    refine List.filterMap_congr fun i _ => ?_
    change ((Progress.initial.tagEnds ls).find? (·.element == i)).bind _ = _
    cases ht : (Progress.initial.tagEnds ls).find? (·.element == i) with
    | none => rfl
    | some t =>
      have hi : t.element = i := by simpa using List.find?_some ht
      simp [hi]
  rw [hedits]
  exact (perm_findByKey hnodup hlt).filterMap _

lemma sorted_edits (language : Language) (added : Nat → List Attribute) (hspelled : ∀ l ∈ ls, l.Spelled)
    (hnodup : ((Progress.initial.tagEnds ls).map (·.element)).Nodup)
    (hlt : ∀ t ∈ Progress.initial.tagEnds ls, t.element < (ofLexemes language ls).forest.size) :
    Edit.sorted ((ofLexemes language ls).edits added) = Progress.initial.editsIn added ls := by
  have hperm := (List.mergeSort_perm ((ofLexemes language ls).edits added)
    fun a b => decide (a.start ≤ b.start)).trans (edits_perm language added hnodup hlt)
  have hpairwise : (Progress.initial.editsIn added ls).Pairwise fun a b => a.start < b.start :=
    (Progress.editsIn_pairwise added Progress.initial ls).imp_of_mem fun {a b} ha _ hab => by
      have := (Progress.editsIn_inside hspelled ha).2.1
      omega
  have hstarts : ((Progress.initial.editsIn added ls).map Edit.start).Nodup :=
    List.pairwise_map.mpr (hpairwise.imp fun h => h.ne)
  have hsorted : (Edit.sorted ((ofLexemes language ls).edits added)).Pairwise
      fun a b => decide (a.start ≤ b.start) = true :=
    List.pairwise_mergeSort (by simp; omega) (by simp; omega) _
  have hinOrder : (Progress.initial.editsIn added ls).Pairwise
      fun a b => decide (a.start ≤ b.start) = true := hpairwise.imp fun h => by simpa using h.le
  -- Sorted lists of the same edits are equal, since no two of the edits begin at one place.
  refine List.Perm.eq_of_pairwise ?_ hsorted hinOrder hperm
  intro a b ha hb hab hba
  simp only [decide_eq_true_eq] at hab hba
  exact List.inj_on_of_nodup_map hstarts (hperm.subset ha) hb (by omega)

lemma render_eq_write (language : Language) (added : Nat → List Attribute) (hspelled : ∀ l ∈ ls, l.Spelled)
    (hnodup : ((Progress.initial.tagEnds ls).map (·.element)).Nodup)
    (hlt : ∀ t ∈ Progress.initial.tagEnds ls, t.element < (ofLexemes language ls).forest.size) :
    (ofLexemes language ls).render added = Progress.initial.write added ls := by
  have hsorted := sorted_edits language added hspelled hnodup hlt
  have hwrite : Edit.makeAll 0 (Lexeme.texts ls) (Progress.initial.editsIn added ls) =
      Progress.initial.write added ls := Progress.makeAll_editsIn added Progress.initial ls
  unfold render
  by_cases hnone : (ofLexemes language ls).edits added = []
  · have hedits : Progress.initial.editsIn added ls = [] := by
      rw [← hsorted, hnone]
      exact List.mergeSort_nil
    rw [hedits] at hwrite
    rw [if_pos (by simp [hnone])]
    exact hwrite
  · rw [if_neg (by simpa using hnone), commit_eq, hsorted]
    · exact hwrite
    · obtain ⟨e, es, hes⟩ := List.exists_cons_of_ne_nil (l := Progress.initial.editsIn added ls) (by
        rw [← hsorted]
        simpa [Edit.sorted, ← List.length_eq_zero_iff] using hnone)
      have hinside := Progress.editsIn_inside hspelled (hes ▸ List.mem_cons_self)
      change trimmed (Lexeme.texts ls) ≠ []
      intro hempty
      rw [hempty] at hinside
      simp only [List.length_nil] at hinside
      omega
    · rw [hsorted]
      exact Progress.editsIn_pairwise added Progress.initial ls
    · rw [hsorted]
      intro e he
      obtain ⟨h₁, h₂, h₃⟩ := Progress.editsIn_inside hspelled he
      exact ⟨h₁, h₂.le, h₃⟩

end Document

end MarkupLabels.Source
