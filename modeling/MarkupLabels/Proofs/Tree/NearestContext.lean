import Mathlib
import MarkupLabels.Tree.Context
import MarkupLabels.Proofs.Label.Coherence

namespace MarkupLabels.Context

variable {p : Provenance} {v : Vocabulary} {e : Element} {es before after : List Element}
  {exported : String} {c : Option String}

/-- An element of the library that is a form or an overlay by what its tag says besides labels. -/
def Gives (p : Provenance) (v : Vocabulary) (e : Element) (exported : String) : Prop :=
  e.name.bind p.resolve = some exported ∧
    Label.purpose (Component.family exported) (Props.ofUnlabelled v e.attributes) ∈
      ["form-container", "overlay"]

def contextOf (v : Vocabulary) (e : Element) (exported : String) : String :=
  ((Props.ofUnlabelled v e.attributes).text? "context").getD
    (if Text.contains (Text.lowercase exported) "form" then "form" else "modal")

instance (p : Provenance) (v : Vocabulary) (e : Element) (exported : String) :
    Decidable (Gives p v e exported) :=
  inferInstanceAs (Decidable (_ ∧ _))

lemma resolve_name (p : Provenance) (e : Element) :
    p.resolve (e.name.getD "") = e.name.bind p.resolve := by
  cases e.name with
  | none => simp [Provenance.resolve]
  | some name => rfl

lemma given_of_gives (h : Gives p v e exported) : given p v e = some (some (contextOf v e exported)) := by
  obtain ⟨hresolve, hpurpose⟩ := h
  rw [given, resolve_name, hresolve]
  apply (if_pos hpurpose).trans
  rw [contextOf, Label.context]
  cases (Props.ofUnlabelled v e.attributes).text? "context" with
  | some own => rfl
  | none => simp only [Label.suggestedContext_of_purpose hpurpose, Option.getD_none]

lemma given_eq_none_iff : given p v e = none ↔ ∀ exported, ¬ Gives p v e exported := by
  constructor
  · intro hnone exported h
    cases hnone.symm.trans (given_of_gives h)
  · intro h
    rw [given, resolve_name]
    cases hresolve : e.name.bind p.resolve with
    | none => rfl
    | some exported =>
      apply if_neg
      exact fun hpurpose => h exported ⟨hresolve, hpurpose⟩

lemma search_nearest (hbefore : ∀ b ∈ before, given p v b = none) (he : given p v e = some c) :
    search p v (before ++ e :: after) = (some c, before.length + 1) := by
  induction before with
  | nil => rw [List.nil_append, search, he, List.length_nil]
  | cons b before ih =>
    rw [List.cons_append, search, hbefore b (by simp), ih fun b hb => hbefore b (by simp [hb]),
      List.length_cons]

lemma search_none (h : ∀ e ∈ es, given p v e = none) : search p v es = (none, es.length) := by
  induction es with
  | nil => rfl
  | cons e es ih =>
    rw [search, h e (by simp), ih fun e he => h e (by simp [he]), List.length_cons]

lemma nearest_or_none (p : Provenance) (v : Vocabulary) (es : List Element) :
    (∃ before e after exported, es = before ++ e :: after ∧
      (∀ b ∈ before, ∀ exported, ¬ Gives p v b exported) ∧ Gives p v e exported) ∨
      ∀ e ∈ es, ∀ exported, ¬ Gives p v e exported := by
  induction es with
  | nil => simp
  | cons e es ih =>
    by_cases he : ∃ exported, Gives p v e exported
    · obtain ⟨exported, he⟩ := he
      exact .inl ⟨[], e, es, exported, rfl, by simp, he⟩
    · rw [not_exists] at he
      rcases ih with ⟨before, e', after, exported, rfl, hbefore, he'⟩ | hnone
      · refine .inl ⟨e :: before, e', after, exported, rfl, ?_, he'⟩
        simpa using ⟨he, hbefore⟩
      · right
        simpa using ⟨he, hnone⟩

/-- The search among the elements around stops at the first that gives context, or behind the tenth. -/
theorem inherited_exact (p : Provenance) (v : Vocabulary) (around : List Element) :
    ((inherited p v around).isSome ↔ ∃ e ∈ around.take 10, ∃ exported, Gives p v e exported) ∧
      (∀ before e after exported, around = before ++ e :: after → before.length < 10 →
        (∀ b ∈ before, ∀ exported, ¬ Gives p v b exported) → Gives p v e exported →
          inherited p v around = some (contextOf v e exported) ∧
            (searchNear p v around).2 = before.length + 1) ∧
      ((∀ e ∈ around.take 10, ∀ exported, ¬ Gives p v e exported) →
        inherited p v around = none ∧ (searchNear p v around).2 = min 10 around.length) := by
  have hfound : ∀ before e after exported, around.take 10 = before ++ e :: after →
      (∀ b ∈ before, ∀ exported, ¬ Gives p v b exported) → Gives p v e exported →
        searchNear p v around = (some (some (contextOf v e exported)), before.length + 1) := by
    intro before e after exported htake hbefore he
    rw [searchNear, maxDepth, htake,
      search_nearest (fun b hb => given_eq_none_iff.mpr (hbefore b hb)) (given_of_gives he)]
  have hmissed : (∀ e ∈ around.take 10, ∀ exported, ¬ Gives p v e exported) →
      searchNear p v around = (none, min 10 around.length) := by
    intro h
    rw [searchNear, maxDepth, search_none fun e he => given_eq_none_iff.mpr (h e he), List.length_take]
  refine ⟨?_, ?_, ?_⟩
  · rcases nearest_or_none p v (around.take 10) with
      ⟨before, e, after, exported, htake, hbefore, he⟩ | hnone
    · have hmem : e ∈ around.take 10 := by simp [htake]
      rw [inherited, hfound before e after exported htake hbefore he]
      exact iff_of_true rfl ⟨e, hmem, exported, he⟩
    · rw [inherited, hmissed hnone]
      exact iff_of_false Bool.false_ne_true fun ⟨e, he, exported, hgives⟩ => hnone e he exported hgives
  · rintro before e after exported rfl hlength hbefore he
    obtain ⟨n, hn⟩ : ∃ n, 10 - before.length = n + 1 := ⟨9 - before.length, by omega⟩
    have htake : (before ++ e :: after).take 10 = before ++ e :: after.take n := by
      rw [List.take_append, List.take_of_length_le hlength.le, hn, List.take_succ_cons]
    rw [inherited, hfound before e _ exported htake hbefore he]
    exact ⟨rfl, rfl⟩
  · intro h
    rw [inherited, hmissed h]
    exact ⟨rfl, rfl⟩

theorem inherited_exact_wizard :
    let imported (name : String) : ImportRecord := ⟨"@patternfly/react-core", .named, name, name⟩
    let p : Provenance := ⟨[imported "Card", imported "Modal", imported "Form"], []⟩
    let window : Element := ⟨"Modal", some 0, [⟨"context", some (.text "wizard")⟩]⟩
    let around : List Element :=
      [⟨"Card", some 2, []⟩, ⟨"div", some 1, []⟩, window, ⟨"Form", none, []⟩]
    Gives p .standard window "Modal" ∧ inherited p .standard around = some "wizard" ∧
      (searchNear p .standard around).2 = 3 := by
  intro imported p window around
  have hwindow : Gives p .standard window "Modal" := by decide
  have hcard : given p .standard ⟨"Card", some 2, []⟩ = none := by decide
  have hdiv : given p .standard ⟨"div", some 1, []⟩ = none := by decide
  have hbefore : ∀ b ∈ [(⟨"Card", some 2, []⟩ : Element), ⟨"div", some 1, []⟩],
      ∀ exported, ¬ Gives p .standard b exported := by
    simpa using ⟨given_eq_none_iff.mp hcard, given_eq_none_iff.mp hdiv⟩
  exact ⟨hwindow, (inherited_exact p .standard around).2.1 _ window [⟨"Form", none, []⟩] "Modal" rfl
    (by decide) hbefore hwindow⟩

end MarkupLabels.Context
