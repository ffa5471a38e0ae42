import Mathlib
import MarkupLabels.Proofs.Config.Usable
import MarkupLabels.Proofs.Tree.Counts

namespace MarkupLabels

namespace Rules

def isStructural (keywords : List CodePoints) (name : String) : Bool :=
  keywords.any fun s => Text.contains (Text.lowercase name) s.lowercase

def keywordConfig (skip : Bool) (keywords : List CodePoints) : Value :=
  .mapping [(.text "rules", .mapping [(.text "skip_structural_children", .bool skip),
    (.text "structural_children", .list (keywords.map .text))])]

variable {skip : Bool} {keywords more : List CodePoints}

lemma ofConfig_keywordConfig (skip : Bool) (keywords : List CodePoints) :
    ofConfig (keywordConfig skip keywords) = .ok (ofKeywords skip keywords) := by
  have hconfig : Source.effectiveConfig (keywordConfig skip keywords) = .mapping _ := rfl
  exact ofConfig_keywords hconfig rfl rfl

lemma skips_keywords (name : String) :
    (ofKeywords skip keywords).skips name = .ok (skip && isStructural keywords name) := by
  cases skip with
  | false => rfl
  | true =>
    have htexts : (ofKeywords true keywords).structural = (keywords.map CodePoints.lowercase).map .text :=
      List.map_map.symm
    rw [skips, if_pos (show (ofKeywords true keywords).skipStructural = true from rfl), htexts,
      Value.anyWithin_map_text, List.any_map]
    rfl

lemma isStructural_mono (h : keywords ⊆ more) {name : String} (hname : isStructural keywords name) :
    isStructural more name := by
  obtain ⟨s, hs, hcontains⟩ := List.any_eq_true.mp hname
  exact List.any_eq_true.mpr ⟨s, h hs, hcontains⟩

end Rules

def Element.isStructural (p : Provenance) (keywords : List CodePoints) (e : Element) : Bool :=
  (e.name.bind p.resolve).any (Rules.isStructural keywords)

lemma Element.isStructural_mono {p : Provenance} {keywords more : List CodePoints} (h : keywords ⊆ more)
    {e : Element} (he : e.isStructural p keywords) : e.isStructural p more := by
  rw [isStructural] at he ⊢
  cases hname : e.name.bind p.resolve with
  | none => simp [hname] at he
  | some name =>
    rw [hname] at he
    exact Rules.isStructural_mono h he

def Outcome.skipped (name : String) : Outcome → Outcome
  | .existing _ | .labelled _ _ => .structural name
  | o => o

lemma Outcome.skipped_added (name : String) (o : Outcome) : (o.skipped name).added = [] := by
  cases o <;> rfl

lemma Outcome.skipped_ne_labelled {name : String} {o : Outcome} {added : List Attribute} {found : Bool} :
    o.skipped name ≠ .labelled added found := by
  cases o <;> simp [skipped]

namespace Stats

structure Moves (s t : Stats) : Prop where
  visited_eq : t.visited = s.visited
  unnamed_eq : t.skippedUnnamed = s.skippedUnnamed
  foreign_eq : t.skippedForeign = s.skippedForeign
  annotated_le : t.annotated ≤ s.annotated
  existing_le : t.skippedExisting ≤ s.skippedExisting
  moved_eq : t.annotated + t.skippedExisting + t.skippedStructural =
    s.annotated + s.skippedExisting + s.skippedStructural

lemma Moves.refl (s : Stats) : s.Moves s := ⟨rfl, rfl, rfl, le_rfl, le_rfl, rfl⟩

lemma Moves.add {s s' t t' : Stats} (h : s.Moves s') (k : t.Moves t') : (s + t).Moves (s' + t') where
  visited_eq := congrArg₂ (· + ·) h.visited_eq k.visited_eq
  unnamed_eq := congrArg₂ (· + ·) h.unnamed_eq k.unnamed_eq
  foreign_eq := congrArg₂ (· + ·) h.foreign_eq k.foreign_eq
  annotated_le := Nat.add_le_add h.annotated_le k.annotated_le
  existing_le := Nat.add_le_add h.existing_le k.existing_le
  moved_eq := by
    change s'.annotated + t'.annotated + (s'.skippedExisting + t'.skippedExisting) +
      (s'.skippedStructural + t'.skippedStructural) = s.annotated + t.annotated +
      (s.skippedExisting + t.skippedExisting) + (s.skippedStructural + t.skippedStructural)
    have hs := h.moved_eq
    have ht := k.moved_eq
    omega

lemma ofOutcome_moves (name : String) (o : Outcome) : (ofOutcome o).Moves (ofOutcome (o.skipped name)) := by
  cases o with
  | existing | labelled => exact ⟨rfl, rfl, rfl, Nat.zero_le _, Nat.zero_le _, rfl⟩
  | _ => exact .refl _

lemma ofOutcomes_moves {os os' : List Outcome}
    (h : List.Forall₂ (fun o o' => (ofOutcome o).Moves (ofOutcome o')) os os') :
    (ofOutcomes os).Moves (ofOutcomes os') := by
  induction h with
  | nil => exact .refl _
  | cons ho _ ih =>
    rw [ofOutcomes_cons, ofOutcomes_cons]
    exact ho.add ih

end Stats

namespace Labeller

variable {p : Provenance} {v : Vocabulary} {keywords more : List CodePoints} {f : Forest} {ids : List Nat}

def skipping (p : Provenance) (v : Vocabulary) (skip : Bool) (keywords : List CodePoints) : Labeller where
  provenance := p
  rules := .ofKeywords skip keywords
  vocabulary := v

lemma outcome_skipping (e : Element) (es : List Element) :
    (skipping p v true keywords).outcome e es = ((skipping p v false keywords).outcome e es).map fun o =>
      if e.isStructural p keywords then o.skipped (e.name.getD "") else o := by
  rcases unnamed_or_foreign_or_knows (skipping p v true keywords) e with
    h | ⟨name, hname, hidentifier, hnone⟩ | ⟨name, exported, h⟩
  · rw [outcome_of_unnamed h, outcome_of_unnamed h]
    change _ = Except.ok _
    split <;> rfl
  · have hoff : (skipping p v false keywords).provenance.resolve name = none := hnone
    rw [outcome_of_foreign hname hidentifier hnone, outcome_of_foreign hname hidentifier hoff]
    change _ = Except.ok _
    split <;> rfl
  · have hoff : (skipping p v false keywords).Knows e name exported :=
      ⟨h.name_eq, h.isIdentifier, h.resolve_eq⟩
    have hresolve : p.resolve name = some exported := h.resolve_eq
    have hstructural : e.isStructural p keywords = Rules.isStructural keywords exported := by
      rw [Element.isStructural, h.name_eq, Option.bind_some, hresolve, Option.any_some]
    have hskips : ∀ skip, (skipping p v skip keywords).rules.skips exported =
        .ok (skip && Rules.isStructural keywords exported) := fun _ => Rules.skips_keywords exported
    rw [outcome_of_knows h, outcome_of_knows hoff, hstructural, h.name_eq, hskips, hskips]
    cases Rules.isStructural keywords exported with
    | false => rfl
    | true => cases (skipping p v false keywords).hasMarker e.attributes <;> rfl

lemma verdict_skipping (f : Forest) (i : Nat) :
    (skipping p v true keywords).verdict f i =
      if (visited f i).isStructural p keywords then
        ((skipping p v false keywords).verdict f i).skipped ((visited f i).name.getD "")
      else (skipping p v false keywords).verdict f i := by
  have hon := outcomeAt_eq (l := skipping p v true keywords) Rules.ofKeywords_usable f i
  have hoff := outcomeAt_eq (l := skipping p v false keywords) Rules.ofKeywords_usable f i
  rw [outcomeAt] at hon hoff
  rw [outcome_skipping, hoff] at hon
  exact (Except.ok.inj hon).symm

structure Visit.Skips (p : Provenance) (keywords : List CodePoints) (f : Forest) (ids : List Nat)
    (off on : Visit) : Prop where
  complete : off.fault = none ∧ on.fault = none
  forest_eq : ∀ i, on.forest.get? i =
    if (visited f i).isStructural p keywords then f.get? i else off.forest.get? i
  outcomes_eq : on.outcomes = List.zipWith (fun i o =>
    if (visited f i).isStructural p keywords then o.skipped ((visited f i).name.getD "") else o)
    ids off.outcomes
  length_eq : off.outcomes.length = ids.length
  unskipped : (Stats.ofOutcomes off.outcomes).skippedStructural = 0
  moves : (Stats.ofOutcomes off.outcomes).Moves (Stats.ofOutcomes on.outcomes)

structure Visit.Fewer (f : Forest) (ids : List Nat) (all few : Visit) : Prop where
  forest_eq : ∀ i, few.forest.get? i = f.get? i ∨ few.forest.get? i = all.forest.get? i
  labelled : ∀ i added found, (i, Outcome.labelled added found) ∈ ids.zip few.outcomes →
    (i, Outcome.labelled added found) ∈ ids.zip all.outcomes
  annotated_le : (Stats.ofOutcomes few.outcomes).annotated ≤ (Stats.ofOutcomes all.outcomes).annotated

lemma due_skipping (f : Forest) (i : Nat) : (skipping p v true keywords).due f i =
    if (visited f i).isStructural p keywords then [] else (skipping p v false keywords).due f i := by
  rw [due_eq, due_eq, verdict_skipping, apply_ite Outcome.added, Outcome.skipped_added]

lemma verdict_ne_structural (f : Forest) (i : Nat) (name : String) :
    (skipping p v false keywords).verdict f i ≠ .structural name := by
  intro hverdict
  have hjudged := outcome_judged (skipping p v false keywords) (visited f i) (around f i)
  rw [← outcomeAt, outcomeAt_eq Rules.ofKeywords_usable, hverdict] at hjudged
  cases hjudged with
  | @structural _ exported h hskips =>
    have hkept : (skipping p v false keywords).rules.skips exported = .ok false :=
      Rules.skips_keywords exported
    rw [hkept] at hskips
    cases hskips

lemma skips_of_nodup (hnodup : ids.Nodup) : Visit.Skips p keywords f ids
    ((skipping p v false keywords).visitAll f ids) ((skipping p v true keywords).visitAll f ids) := by
  have hvisit : ∀ skip, _ := fun skip =>
    visitAll_eq (l := skipping p v skip keywords) Rules.ofKeywords_usable f hnodup
  rw [hvisit, hvisit]
  refine ⟨⟨rfl, rfl⟩, fun i => ?_, ?_, List.length_map _, ?_, ?_⟩
  · split
    · next hstructural =>
      apply Forest.extend_get?_of_nil
      rw [due_skipping, if_pos hstructural, ite_self]
    · next hkept =>
      apply Forest.extend_get?_congr
      rw [due_skipping, if_neg hkept]
  · rw [List.zipWith_map_right, List.zipWith_self]
    exact List.map_congr_left fun i _ => verdict_skipping f i
  · rw [Stats.ofOutcomes_eq_sum, Stats.sum_count Stats.skippedStructural rfl fun _ _ => rfl, List.map_map,
      List.map_map]
    apply List.sum_eq_zero
    intro n hn
    obtain ⟨i, -, rfl⟩ := List.mem_map.mp hn
    have hne : ∀ name, (skipping p v false keywords).verdict f i ≠ .structural name :=
      verdict_ne_structural f i
    change (Stats.ofOutcome ((skipping p v false keywords).verdict f i)).skippedStructural = 0
    cases ho : (skipping p v false keywords).verdict f i with
    | structural name => exact absurd ho (hne name)
    | _ => rfl
  · apply Stats.ofOutcomes_moves
    rw [List.forall₂_map_left_iff, List.forall₂_map_right_iff, List.forall₂_same]
    intro i _
    rw [verdict_skipping]
    split
    · exact Stats.ofOutcome_moves _ _
    · exact .refl _

lemma verdict_mono (h : keywords ⊆ more) {i : Nat} {added : List Attribute} {found : Bool}
    (hmore : (skipping p v true more).verdict f i = .labelled added found) :
    (skipping p v true keywords).verdict f i = .labelled added found := by
  rw [verdict_skipping] at hmore ⊢
  split at hmore
  · exact absurd hmore Outcome.skipped_ne_labelled
  · next hkept =>
    rw [if_neg fun hstructural => hkept (Element.isStructural_mono h hstructural)]
    exact hmore

lemma fewer_of_nodup (hnodup : ids.Nodup) (h : keywords ⊆ more) : Visit.Fewer f ids
    ((skipping p v true keywords).visitAll f ids) ((skipping p v true more).visitAll f ids) := by
  have hvisit : ∀ keywords, _ := fun keywords =>
    visitAll_eq (l := skipping p v true keywords) Rules.ofKeywords_usable f hnodup
  rw [hvisit, hvisit]
  have hzip : ∀ keywords, ids.zip (ids.map ((skipping p v true keywords).verdict f)) =
      ids.map fun i => (i, (skipping p v true keywords).verdict f i) := fun keywords => by
    simpa using List.zip_map' (f := id) (g := (skipping p v true keywords).verdict f) (l := ids)
  refine ⟨fun i => ?_, fun i added found hmem => ?_, ?_⟩
  · by_cases hstructural : (visited f i).isStructural p more
    · left
      apply Forest.extend_get?_of_nil
      rw [due_skipping, if_pos hstructural, ite_self]
    · right
      apply Forest.extend_get?_congr
      rw [due_skipping, if_neg hstructural, due_skipping,
        if_neg fun hfewer => hstructural (Element.isStructural_mono h hfewer)]
      rfl
  · rw [hzip] at hmem ⊢
    obtain ⟨j, hj, heq⟩ := List.mem_map.mp hmem
    obtain ⟨rfl, hverdict⟩ := Prod.mk.inj heq
    exact List.mem_map.mpr ⟨j, hj, Prod.ext rfl (verdict_mono h hverdict)⟩
  · rw [Stats.ofOutcomes_eq_sum, Stats.ofOutcomes_eq_sum, Stats.sum_count Stats.annotated rfl fun _ _ => rfl,
      Stats.sum_count Stats.annotated rfl fun _ _ => rfl, List.map_map, List.map_map, List.map_map,
      List.map_map]
    apply List.sum_le_sum
    intro i _
    change (Stats.ofOutcome ((skipping p v true more).verdict f i)).annotated ≤
      (Stats.ofOutcome ((skipping p v true keywords).verdict f i)).annotated
    cases hmore : (skipping p v true more).verdict f i with
    | labelled added found => rw [verdict_mono h hmore]
    | _ => exact Nat.zero_le _

/-- To skip structural children leaves these as they are, and gives all other elements what they are given
otherwise. With more keywords, fewer elements are labelled. -/
theorem label_skipping (p : Provenance) (v : Vocabulary) (keywords : List CodePoints) (f : Forest) :
    (∀ skip, Rules.ofConfig (Rules.keywordConfig skip keywords) = .ok (.ofKeywords skip keywords)) ∧
    (∀ start, Visit.Skips p keywords f (f.walk start)
      ((skipping p v false keywords).label f start) ((skipping p v true keywords).label f start)) ∧
    Visit.Skips p keywords f (f.roots.flatMap f.walk)
      ((skipping p v false keywords).labelAll f) ((skipping p v true keywords).labelAll f) ∧
    ∀ more, keywords ⊆ more →
      (∀ start, Visit.Fewer f (f.walk start)
        ((skipping p v true keywords).label f start) ((skipping p v true more).label f start)) ∧
      Visit.Fewer f (f.roots.flatMap f.walk)
        ((skipping p v true keywords).labelAll f) ((skipping p v true more).labelAll f) :=
  ⟨fun skip => Rules.ofConfig_keywordConfig skip keywords, fun start => skips_of_nodup (f.walk_nodup start),
    skips_of_nodup f.nodup_roots_walk, fun _ h => ⟨fun start => fewer_of_nodup (f.walk_nodup start) h,
      fewer_of_nodup f.nodup_roots_walk h⟩⟩

theorem label_skipping_modal :
    let p : Provenance := ⟨[⟨"@patternfly/react-core", .named, some "Modal", some "Modal"⟩,
      ⟨"@patternfly/react-core", .named, some "ModalBody", some "ModalBody"⟩,
      ⟨"@patternfly/react-core", .named, some "Button", some "Button"⟩], []⟩
    let f : Forest := ((Forest.empty.add ⟨"Modal", none, []⟩).add ⟨"ModalBody", some 0, []⟩).add
      ⟨"Button", some 1, []⟩
    (["ModalBody"] : List CodePoints) ⊆ ["modal", "ModalBody"] ∧
      (visited f 1).isStructural p ["ModalBody"] ∧
      Visit.Skips p ["ModalBody"] f (f.walk 0) ((skipping p .standard false ["ModalBody"]).label f 0)
        ((skipping p .standard true ["ModalBody"]).label f 0) ∧
      Visit.Fewer f (f.walk 0) ((skipping p .standard true ["ModalBody"]).label f 0)
        ((skipping p .standard true ["modal", "ModalBody"]).label f 0) := by
  intro p f
  have hmore : (["ModalBody"] : List CodePoints) ⊆ ["modal", "ModalBody"] := by decide
  obtain ⟨-, hskips, -, hfewer⟩ := label_skipping p .standard ["ModalBody"] f
  exact ⟨hmore, by decide, hskips 0, (hfewer _ hmore).1 0⟩

end Labeller

end MarkupLabels
