import Mathlib
import MarkupLabels.Proofs.Tree.Locality
import MarkupLabels.Proofs.Tree.Walks

/-! What is counted of a visit. Elements that are visited once have the outcomes that they have in the
beginning, and the counts of several visits are sums. -/

namespace MarkupLabels

namespace Stats

@[ext] lemma ext_counts {s t : Stats} (hvisited : s.visited = t.visited)
    (hannotated : s.annotated = t.annotated) (hunnamed : s.skippedUnnamed = t.skippedUnnamed)
    (hforeign : s.skippedForeign = t.skippedForeign)
    (hstructural : s.skippedStructural = t.skippedStructural)
    (hexisting : s.skippedExisting = t.skippedExisting) : s = t := by
  cases s
  cases t
  simp_all

instance : Zero Stats := ⟨{}⟩

instance : AddCommMonoid Stats where
  add_assoc s t u := by ext <;> exact Nat.add_assoc _ _ _
  zero_add s := by ext <;> exact Nat.zero_add _
  add_zero s := rfl
  add_comm s t := by ext <;> exact Nat.add_comm _ _
  nsmul := nsmulRec

lemma foldl_add (ss : List Stats) : ss.foldl (· + ·) {} = ss.sum := List.sum_eq_foldl.symm

lemma ofOutcomes_eq_sum (os : List Outcome) : ofOutcomes os = (os.map ofOutcome).sum := by
  rw [ofOutcomes, ← foldl_add, List.foldl_map]

lemma sum_count (count : Stats → Nat) (hzero : count 0 = 0)
    (hadd : ∀ s t, count (s + t) = count s + count t) (ss : List Stats) :
    count ss.sum = (ss.map count).sum := by
  induction ss with
  | nil => exact hzero
  | cons s ss ih => rw [List.sum_cons, hadd, ih, List.map_cons, List.sum_cons]

lemma ofOutcomes_cons (o : Outcome) (os : List Outcome) :
    ofOutcomes (o :: os) = ofOutcome o + ofOutcomes os := by
  rw [ofOutcomes_eq_sum, ofOutcomes_eq_sum, List.map_cons, List.sum_cons]

def Balanced (s : Stats) : Prop :=
  s.visited = s.annotated + s.skippedUnnamed + s.skippedForeign + s.skippedStructural + s.skippedExisting

lemma Balanced.zero : Balanced 0 := rfl

lemma Balanced.add {s t : Stats} (hs : s.Balanced) (ht : t.Balanced) : (s + t).Balanced := by
  change s.visited + t.visited = s.annotated + t.annotated + (s.skippedUnnamed + t.skippedUnnamed) +
    (s.skippedForeign + t.skippedForeign) + (s.skippedStructural + t.skippedStructural) +
    (s.skippedExisting + t.skippedExisting)
  rw [hs, ht]
  omega

lemma Balanced.sum {ss : List Stats} (h : ∀ s ∈ ss, s.Balanced) : ss.sum.Balanced := by
  induction ss with
  | nil => exact .zero
  | cons s ss ih =>
    rw [List.sum_cons]
    exact (h s List.mem_cons_self).add (ih fun t ht => h t (List.mem_cons_of_mem s ht))

lemma ofOutcomes_balanced (os : List Outcome) : (ofOutcomes os).Balanced := by
  rw [ofOutcomes_eq_sum]
  apply Balanced.sum
  intro s hs
  obtain ⟨o, -, rfl⟩ := List.mem_map.mp hs
  cases o <;> rfl

lemma ofOutcomes_visited (os : List Outcome) : (ofOutcomes os).visited = os.length := by
  have hone : (fun o => (ofOutcome o).visited) = fun _ => 1 := funext fun o => by cases o <;> rfl
  rw [ofOutcomes_eq_sum, sum_count visited rfl fun _ _ => rfl, List.map_map, Function.comp_def, hone,
    List.map_const', List.sum_replicate, smul_eq_mul, Nat.mul_one]

end Stats

namespace Forest

variable {f : Forest} {added more : Nat → List Attribute} {i : Nat}

lemma extend_get?_congr (h : added i = more i) : (f.extend added).get? i = (f.extend more).get? i := by
  rw [get?, get?, extend_getElem?, extend_getElem?, h]

lemma extend_get?_of_nil (h : added i = []) : (f.extend added).get? i = f.get? i := by
  have hnil : (f.extend added).get? i = (f.extend fun _ => []).get? i := extend_get?_congr h
  rw [hnil, extend_nil]

end Forest

namespace Labeller

variable {l : Labeller} {added : Nat → List Attribute} {f : Forest} {ids : List Nat}

lemma visitAll_outcomes (added : Nat → List Attribute) (husable : l.rules.Usable) (hnodup : ids.Nodup)
    (hadded : ∀ j, added j = [] ∨ added j = l.due f j) (hfresh : ∀ i ∈ ids, added i = []) :
    (l.visitAll (f.extend added) ids).outcomes = ids.map (l.verdict f) := by
  induction ids generalizing added with
  | nil => rfl
  | cons i ids ih =>
    have hmarkers : ∀ j, l.vocabulary.AllMarkers (added j) := fun j => by
      rcases hadded j with h | h
      · simp [h, Vocabulary.AllMarkers]
      · exact h ▸ l.due_markers f j
    obtain ⟨hi, hnodup⟩ := List.nodup_cons.mp hnodup
    obtain ⟨o, ho, -, hforest⟩ := visit_extend husable f i hadded
    have hverdict : o = l.verdict f i := by
      rw [outcomeAt_extend f i hmarkers, outcomeAt_eq husable, hfresh i List.mem_cons_self] at ho
      exact (Except.ok.inj ho).symm
    rw [visitAll_ok ho, hforest, List.map_cons, hverdict]
    refine congrArg _ (ih _ hnodup (fun j => ?_) fun j hj => ?_)
    · by_cases hj : j = i
      · exact .inr (if_pos hj)
      · simpa [hj] using hadded j
    · have hne : j ≠ i := fun h => hi (h ▸ hj)
      rw [if_neg hne]
      exact hfresh j (List.mem_cons_of_mem i hj)

lemma visitAll_eq (husable : l.rules.Usable) (f : Forest) (hnodup : ids.Nodup) :
    l.visitAll f ids =
      { forest := f.extend fun j => if j ∈ ids then l.due f j else []
        outcomes := ids.map (l.verdict f)
        fault := none } := by
  obtain ⟨-, hfault, -⟩ := visitAll_extend (fun _ => []) husable f ids fun _ => .inl rfl
  have houtcomes := visitAll_outcomes (f := f) (fun _ => []) husable hnodup (fun _ => .inl rfl)
    fun _ _ => rfl
  rw [Forest.extend_nil] at hfault houtcomes
  rw [← visitAll_forest, ← houtcomes, ← hfault]

lemma outcomes_of_completes (hnodup : ids.Nodup) (hfault : (l.visitAll f ids).fault = none) :
    (l.visitAll f ids).outcomes = ids.map (l.verdict f) := by
  by_cases husable : l.rules.Usable
  · rw [visitAll_eq husable f hnodup]
  induction ids with
  | nil => rfl
  | cons i ids ih =>
    cases ho : l.outcomeAt f i with
    | error fault => simp [visitAll_error ho] at hfault
    | ok o =>
      have hnone : o.added = [] := by simpa [due, ho] using due_of_not_usable husable f i
      rw [visitAll_ok ho, hnone, Forest.modifyAttributes_nil] at hfault ⊢
      rw [List.map_cons, verdict, ho, ih (List.nodup_cons.mp hnodup).2 hfault]

lemma ofOutcome_annotated (l : Labeller) (f : Forest) (i : Nat) :
    (Stats.ofOutcome (l.verdict f i)).annotated = if l.due f i = [] then 0 else 1 := by
  have hjudged := outcome_judged l (visited f i) (around f i)
  rw [← outcomeAt] at hjudged
  rw [verdict, due]
  generalize l.outcomeAt f i = r at hjudged ⊢
  cases hjudged with
  | labelled => exact (if_neg (Labels.attributes_ne_nil _)).symm
  | _ => rfl

lemma sum_annotated (l : Labeller) (f : Forest) (ids : List Nat) :
    (Stats.ofOutcomes (ids.map (l.verdict f))).annotated = ids.countP fun i => l.due f i ≠ [] := by
  rw [Stats.ofOutcomes_eq_sum, Stats.sum_count Stats.annotated rfl fun _ _ => rfl, List.map_map,
    List.map_map]
  induction ids with
  | nil => rfl
  | cons i ids ih =>
    rw [List.map_cons, List.sum_cons, ih, List.countP_cons, Nat.add_comm]
    congr 1
    change (Stats.ofOutcome (l.verdict f i)).annotated = _
    rw [ofOutcome_annotated]
    by_cases h : l.due f i = [] <;> simp [h]

lemma labelAll_counts (hfault : (l.labelAll f).fault = none) :
    (Stats.ofOutcomes (l.labelAll f).outcomes).visited = f.size ∧
      (Stats.ofOutcomes (l.labelAll f).outcomes).annotated =
        (List.range f.size).countP fun i => l.assigned f i ≠ [] := by
  have houtcomes : (l.labelAll f).outcomes = (f.roots.flatMap f.walk).map (l.verdict f) :=
    outcomes_of_completes f.nodup_roots_walk hfault
  have hperm := f.roots_walk_perm
  have hassigned : ∀ i ∈ f.roots.flatMap f.walk, l.assigned f i = l.due f i := fun i hi => if_pos hi
  constructor
  · rw [houtcomes, Stats.ofOutcomes_visited, List.length_map, hperm.length_eq, List.length_range]
  · rw [houtcomes, sum_annotated, ← hperm.countP_eq]
    exact List.countP_congr fun i hi => by rw [hassigned i hi]

end Labeller

end MarkupLabels
