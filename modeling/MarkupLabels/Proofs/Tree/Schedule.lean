import Mathlib
import MarkupLabels.Proofs.Tree.Markers

/-! Labelling in place comes to what all elements would be given at once, judged by the forest in the
beginning. So the order in which parts of a forest are labelled is of no account, and labelling a
part again changes nothing. -/

namespace MarkupLabels.Labeller

variable {l : Labeller} {f : Forest} {i : Nat} {e : Element} {exported : String}

def labelEach (l : Labeller) (f : Forest) : List Nat → Except Fault Forest
  | [] => .ok f
  | s :: rest =>
    match (l.label f s).fault with
    | some fault => .error fault
    | none => l.labelEach (l.label f s).forest rest

/-- An element that is to be given labels: it has an identifier for a name, the library calls it by
some name under which it is not skipped, and it has no labels. -/
structure Eligible (l : Labeller) (e : Element) (exported : String) : Prop where
  resolved : ∃ name, e.name = some name ∧ Text.isIdentifier name ∧
    l.provenance.resolve name = some exported
  kept : l.rules.skips exported = .ok false
  unmarked : l.hasMarker e.attributes = false

lemma due_of_eligible (he : f.get? i = some e) (h : l.Eligible e exported) :
    l.due f i = (Labels.infer exported (Props.ofUnlabelled l.vocabulary e.attributes)
      (Context.inherited l.provenance l.vocabulary (around f i))).attributes l.vocabulary := by
  obtain ⟨⟨name, hname, hidentifier, hresolved⟩, hkept, hunmarked⟩ := h
  exact due_of_knows he ⟨hname, hidentifier, hresolved⟩ hkept hunmarked

lemma due_of_not_eligible (he : f.get? i = some e) (h : ∀ exported, ¬ l.Eligible e exported) :
    l.due f i = [] := by
  by_contra hdue
  obtain ⟨name, exported, hknows, hskips, hmarker⟩ := knows_of_due hdue
  rw [visited_of_get? he] at hknows hmarker
  exact h exported ⟨⟨name, hknows.name_eq, hknows.isIdentifier, hknows.resolve_eq⟩, hskips, hmarker⟩

def labelledUnder (l : Labeller) (f : Forest) (starts : List Nat) : Forest :=
  f.extend fun i => if ∃ s ∈ starts, f.Under s i then l.due f i else []

lemma label_extend (husable : l.rules.Usable) (starts : List Nat) (s : Nat) :
    (l.label (l.labelledUnder f starts) s).forest = l.labelledUnder f (starts ++ [s]) ∧
      (l.label (l.labelledUnder f starts) s).fault = none := by
  obtain ⟨hforest, hfault, -⟩ := visitAll_extend
    (fun i => if ∃ s ∈ starts, f.Under s i then l.due f i else []) husable f (f.walk s)
    fun j => by
      by_cases hj : ∃ s ∈ starts, f.Under s j
      · exact .inr (if_pos hj)
      · exact .inl (if_neg hj)
  have hwalk : (l.labelledUnder f starts).walk s = f.walk s :=
    Forest.walk_congr Forest.extend_parents s
  rw [label, hwalk]
  refine ⟨hforest.trans (Forest.extend_congr fun j _ => ?_), hfault⟩
  simp only [Forest.mem_walk]
  by_cases hs : f.Under s j
  · rw [if_pos hs, if_pos ⟨s, List.mem_append_right _ (List.mem_singleton_self s), hs⟩]
  · rw [if_neg hs]
    refine if_congr ⟨?_, ?_⟩ rfl rfl
    · rintro ⟨t, ht, hj⟩
      exact ⟨t, List.mem_append_left _ ht, hj⟩
    · rintro ⟨t, ht, hj⟩
      rcases List.mem_append.mp ht with ht | ht
      · exact ⟨t, ht, hj⟩
      · exact absurd (List.mem_singleton.mp ht ▸ hj) hs

lemma labelEach_extend (husable : l.rules.Usable) (starts rest : List Nat) :
    l.labelEach (l.labelledUnder f starts) rest = .ok (l.labelledUnder f (starts ++ rest)) := by
  induction rest generalizing starts with
  | nil => simp [labelEach]
  | cons s rest ih =>
    obtain ⟨hforest, hfault⟩ := label_extend husable starts s (f := f)
    rw [labelEach, hfault]
    simp only [hforest]
    rw [ih]
    simp

lemma labelEach_eq (husable : l.rules.Usable) (f : Forest) (starts : List Nat) :
    l.labelEach f starts = .ok (l.labelledUnder f starts) := by
  have hnone : l.labelledUnder f [] = f := by
    simp [labelledUnder, Forest.extend_nil]
  have h := labelEach_extend husable [] starts (f := f)
  rwa [hnone, List.nil_append] at h

lemma labelledUnder_congr {starts others : List Nat}
    (h : ∀ i < f.size, (∃ s ∈ starts, f.Under s i) ↔ ∃ s ∈ others, f.Under s i) :
    l.labelledUnder f starts = l.labelledUnder f others :=
  Forest.extend_congr fun i hi => if_congr (h i hi) rfl rfl

/-- Labelling from any starts, in any order and again and again, gives an element under one of them
its labels, inferred from the forest in the beginning, and leaves every other as it is. -/
theorem labelEach_simultaneous (husable : l.rules.Usable) (f : Forest) (starts : List Nat) :
    ∃ final, l.labelEach f starts = .ok final ∧ final.size = f.size ∧
      (∀ i e, f.get? i = some e →
        (∀ exported, (∃ s ∈ starts, f.Under s i) → l.Eligible e exported →
          final.get? i = some { e with
            attributes := e.attributes ++
              (Labels.infer exported (Props.ofUnlabelled l.vocabulary e.attributes)
                (Context.inherited l.provenance l.vocabulary (around f i))).attributes
                  l.vocabulary }) ∧
        (¬ ((∃ s ∈ starts, f.Under s i) ∧ ∃ exported, l.Eligible e exported) →
          final.get? i = some e)) ∧
      (∀ others, (∀ i < f.size, (∃ s ∈ starts, f.Under s i) ↔ ∃ s ∈ others, f.Under s i) →
        l.labelEach f others = .ok final) ∧
      ∀ s ∈ starts, (l.label final s).forest = final ∧ (l.label final s).fault = none := by
  refine ⟨l.labelledUnder f starts, labelEach_eq husable f starts, Forest.extend_size, ?_, ?_, ?_⟩
  · intro i e he
    have hfinal : (l.labelledUnder f starts).get? i = some { e with
        attributes := e.attributes ++ if ∃ s ∈ starts, f.Under s i then l.due f i else [] } := by
      rw [Forest.get?] at he
      rw [Forest.get?, labelledUnder, Forest.extend_getElem?, he]
      rfl
    refine ⟨fun exported hunder heligible => ?_, fun hnot => ?_⟩
    · rw [hfinal, if_pos hunder, due_of_eligible he heligible]
    · have hnone : (if ∃ s ∈ starts, f.Under s i then l.due f i else []) = [] := by
        split
        · next hunder =>
          exact due_of_not_eligible he fun exported h => hnot ⟨hunder, exported, h⟩
        · rfl
      rw [hfinal, hnone, List.append_nil]
  · intro others hothers
    rw [labelEach_eq husable f others, labelledUnder_congr hothers]
  · intro s hs
    -- A start that is among the others already covers nothing new.
    obtain ⟨hforest, hfault⟩ := label_extend husable starts s (f := f)
    refine ⟨hforest.trans (labelledUnder_congr fun i _ => ?_), hfault⟩
    constructor
    · rintro ⟨t, ht, hi⟩
      rcases List.mem_append.mp ht with ht | ht
      · exact ⟨t, ht, hi⟩
      · obtain rfl := List.mem_singleton.mp ht
        exact ⟨t, hs, hi⟩
    · rintro ⟨t, ht, hi⟩
      exact ⟨t, List.mem_append_left _ ht, hi⟩

theorem labelEach_simultaneous_button :
    let l : Labeller := ⟨⟨[⟨"@patternfly/react-core", .named, some "Button", some "Button"⟩], []⟩,
      .standard, .standard⟩
    let f : Forest := (Forest.empty.add ⟨"Form", none, []⟩).add ⟨"Button", some 0, []⟩
    l.rules.Usable ∧ ∃ final, l.labelEach f [1, 0] = .ok final ∧ l.labelEach f [0] = .ok final ∧
      final.size = 2 := by
  intro l f
  obtain ⟨final, hfinal, hsize, -, hothers, -⟩ :=
    labelEach_simultaneous (l := l) Rules.standard_usable f [1, 0]
  refine ⟨Rules.standard_usable, final, hfinal, hothers [0] ?_, hsize⟩
  decide +kernel

end MarkupLabels.Labeller
