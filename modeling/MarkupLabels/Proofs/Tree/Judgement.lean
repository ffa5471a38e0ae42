import Mathlib
import MarkupLabels.Tree.Labelling

namespace MarkupLabels.Labeller

variable {l : Labeller} {e : Element} {around : List Element} {name exported : String}

structure Knows (l : Labeller) (e : Element) (name exported : String) : Prop where
  name_eq : e.name = some name
  isIdentifier : Text.isIdentifier name
  resolve_eq : l.provenance.resolve name = some exported

inductive Judged (l : Labeller) (e : Element) (around : List Element) : Except Fault Outcome → Prop
  | unnamed (h : ∀ name, e.name = some name → Text.isIdentifier name = false) :
    Judged l e around (.ok .unnamed)
  | foreign {name : String} (hname : e.name = some name) (hidentifier : Text.isIdentifier name)
    (hresolve : l.provenance.resolve name = none) : Judged l e around (.ok .foreign)
  | fault {name exported : String} {fault : Fault} (h : l.Knows e name exported)
    (hskips : l.rules.skips exported = .error fault) : Judged l e around (.error fault)
  | structural {name exported : String} (h : l.Knows e name exported)
    (hskips : l.rules.skips exported = .ok true) : Judged l e around (.ok (.structural name))
  | existing {name exported : String} (h : l.Knows e name exported)
    (hskips : l.rules.skips exported = .ok false) (hmarker : l.hasMarker e.attributes = true) :
    Judged l e around (.ok (.existing name))
  | labelled {name exported : String} (h : l.Knows e name exported)
    (hskips : l.rules.skips exported = .ok false) (hmarker : l.hasMarker e.attributes = false) :
    Judged l e around (.ok (.labelled
      ((Labels.infer exported (Props.ofUnlabelled l.vocabulary e.attributes)
        (Context.inherited l.provenance l.vocabulary around)).attributes l.vocabulary)
      (Context.searchNear l.provenance l.vocabulary around).1.isSome))

lemma outcome_of_knows (h : l.Knows e name exported) :
    l.outcome e around = (l.rules.skips exported).map fun skip =>
      if skip then .structural name
      else if l.hasMarker e.attributes then .existing name
      else .labelled
        ((Labels.infer exported (Props.ofUnlabelled l.vocabulary e.attributes)
          (Context.inherited l.provenance l.vocabulary around)).attributes l.vocabulary)
        (Context.searchNear l.provenance l.vocabulary around).1.isSome := by
  simp only [outcome, h.name_eq, h.isIdentifier, h.resolve_eq]
  cases l.rules.skips exported with
  | error fault => rfl
  | ok skip => cases skip <;> cases l.hasMarker e.attributes <;> rfl

lemma outcome_of_unnamed (h : ∀ name, e.name = some name → Text.isIdentifier name = false) :
    l.outcome e around = .ok .unnamed := by
  unfold outcome
  cases hname : e.name with
  | none => rfl
  | some name => simp [h name hname]

lemma outcome_of_foreign (hname : e.name = some name) (hidentifier : Text.isIdentifier name)
    (hresolve : l.provenance.resolve name = none) : l.outcome e around = .ok .foreign := by
  simp [outcome, hname, hidentifier, hresolve]

lemma unnamed_or_foreign_or_knows (l : Labeller) (e : Element) :
    (∀ name, e.name = some name → Text.isIdentifier name = false) ∨
      (∃ name, e.name = some name ∧ Text.isIdentifier name ∧ l.provenance.resolve name = none) ∨
      ∃ name exported, l.Knows e name exported := by
  by_cases hnamed : ∀ name, e.name = some name → Text.isIdentifier name = false
  · exact .inl hnamed
  · push Not at hnamed
    obtain ⟨name, hname, hidentifier⟩ := hnamed
    rw [ne_eq, Bool.not_eq_false] at hidentifier
    cases hresolve : l.provenance.resolve name with
    | none => exact .inr (.inl ⟨name, hname, hidentifier, hresolve⟩)
    | some exported => exact .inr (.inr ⟨name, exported, hname, hidentifier, hresolve⟩)

theorem outcome_judged (l : Labeller) (e : Element) (around : List Element) :
    l.Judged e around (l.outcome e around) := by
  rcases l.unnamed_or_foreign_or_knows e with
    h | ⟨name, hname, hidentifier, hresolve⟩ | ⟨name, exported, h⟩
  · rw [outcome_of_unnamed h]
    exact .unnamed h
  · rw [outcome_of_foreign hname hidentifier hresolve]
    exact .foreign hname hidentifier hresolve
  · rw [outcome_of_knows h]
    cases hskips : l.rules.skips exported with
    | error fault => exact .fault h hskips
    | ok skip =>
      cases skip with
      | true => exact .structural h hskips
      | false =>
        cases hmarker : l.hasMarker e.attributes with
        | true => exact .existing h hskips hmarker
        | false => exact .labelled h hskips hmarker

end MarkupLabels.Labeller
