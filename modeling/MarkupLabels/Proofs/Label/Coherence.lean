import Mathlib
import MarkupLabels.Label.Labels
import MarkupLabels.Proofs.Component.Families

namespace MarkupLabels.Label

variable {name c : String} {f : Family} {p : Props}

lemma cardPurpose_notMem (p : Props) : cardPurpose p ∉ ["form-container", "overlay", "data-display"] := by
  simp only [cardPurpose, defaultPurpose]
  split_ifs <;> decide

lemma purpose_eq_familyPurpose (h : purpose f p ∈ ["form-container", "overlay", "data-display"]) :
    purpose f p = familyPurpose f := by
  rw [purpose] at h ⊢
  split_ifs at h ⊢ with hbutton hlink href hcard
  · exact absurd h (by decide)
  · exact absurd h (by decide)
  · exact absurd h (by decide)
  · exact absurd h (cardPurpose_notMem p)
  · rfl

def ownContext (lower : String) : Family → Option String
  | .form => some "form"
  | .overlay => some (if Text.contains lower "form" then "form" else "modal")
  | .table => some "table"
  | .toolbar => some "toolbar"
  | _ => none

lemma hasTrait_form (name : String) :
    Component.hasTrait name .form = Text.contains (Text.lowercase name) "form" := by
  simp [Component.hasTrait, Component.lowerHasTrait, Component.mentions]

lemma suggestedContext_overlay (h : Component.family name = .overlay) :
    suggestedContext (Component.hasTrait name) p =
      some (if Text.contains (Text.lowercase name) "form" then "form" else "modal") := by
  obtain ⟨hmodal, hfield⟩ := Component.mentions_of_overlay h
  have hinput : Component.hasTrait name .input = false := hfield
  have hoverlay : Component.hasTrait name .overlay = true := hmodal
  rw [suggestedContext, hasTrait_form, hinput, hoverlay]
  cases Text.contains (Text.lowercase name) "form" <;> rfl

lemma suggestedContext_of_later
    (h : ∀ t ∈ [Trait.form, .input, .overlay], Component.lowerHasTrait (Text.lowercase name) t = false) :
    suggestedContext (Component.hasTrait name) p =
      if Component.hasTrait name .table then some "table"
      else if Component.hasTrait name .toolbar || p.has ["toolbar"] then some "toolbar"
      else if Component.hasTrait name .navigation || p.has ["navigation"] then some "navigation"
      else none := by
  have hform : Component.hasTrait name .form = false := h .form (by simp)
  have hinput : Component.hasTrait name .input = false := h .input (by simp)
  have hoverlay : Component.hasTrait name .overlay = false := h .overlay (by simp)
  rw [suggestedContext, hform, hinput, hoverlay]
  rfl

lemma suggestedContext_of_family
    (h : ownContext (Text.lowercase name) (Component.family name) = some c) :
    suggestedContext (Component.hasTrait name) p = some c := by
  cases hf : Component.family name with
  | form =>
    rw [hf] at h
    cases h
    have hmentions := Component.mentions_of_form hf
    rw [Component.mentions, List.any_cons, List.any_nil, Bool.or_false] at hmentions
    simp [suggestedContext, hasTrait_form, hmentions]
  | overlay =>
    rw [hf] at h
    cases h
    exact suggestedContext_overlay hf
  | table =>
    rw [hf] at h
    cases h
    obtain ⟨htable, -, hlater⟩ :=
      Component.traits_of_later [] (Component.familyRules.drop 13) rfl (by decide) hf
    rw [suggestedContext_of_later hlater]
    exact if_pos htable
  | toolbar =>
    rw [hf] at h
    cases h
    obtain ⟨htoolbar, hearlier, hlater⟩ :=
      Component.traits_of_later ((Component.familyRules.drop 12).take 2) (Component.familyRules.drop 15)
        rfl (by decide) hf
    have htrait : Component.hasTrait name .toolbar = true := htoolbar
    have htable : Component.hasTrait name .table = false :=
      hearlier (.table, Component.isTableName) (by simp [Component.familyRules])
    rw [suggestedContext_of_later hlater, htable, htrait]
    rfl
  | _ =>
    rw [hf] at h
    cases h

lemma suggestedContext_of_purpose (h : purpose (Component.family name) p ∈ ["form-container", "overlay"]) :
    suggestedContext (Component.hasTrait name) p =
      some (if Text.contains (Text.lowercase name) "form" then "form" else "modal") := by
  have hpurpose := purpose_eq_familyPurpose (List.mem_append_left ["data-display"] h)
  rw [hpurpose] at h
  cases hf : Component.family name with
  | form =>
    have hmentions := Component.mentions_of_form hf
    rw [Component.mentions, List.any_cons, List.any_nil, Bool.or_false] at hmentions
    rw [if_pos hmentions]
    exact suggestedContext_of_family (by rw [hf, ownContext])
  | overlay => exact suggestedContext_overlay hf
  | _ =>
    rw [hf] at h
    exact absurd h (by decide)

lemma ownContext_of_familyPurpose (lower : String) (f : Family) :
    (familyPurpose f = "form-container" → ownContext lower f = some "form") ∧
      (familyPurpose f = "overlay" → ownContext lower f =
        some (if Text.contains lower "form" then "form" else "modal")) ∧
      (familyPurpose f = "data-display" → ownContext lower f = some "table") := by
  cases f <;> simp [familyPurpose, defaultPurpose, ownContext]

lemma context_of_family (hprop : p.text? "context" = none)
    (h : ownContext (Text.lowercase name) (Component.family name) = some c) :
    (Labels.infer name p none).context = some c := by
  change context (Component.hasTrait name) p none = some c
  rw [context, hprop]
  exact suggestedContext_of_family h

/-- A component whose purpose or family has a context of its own is in that context, unless a prop says
otherwise or something around it does. No other keyword of its name and no other prop comes first. -/
theorem infer_coherent (name : String) (hprop : p.text? "context" = none) :
    let labels := Labels.infer name p none
    (labels.purpose = "form-container" → labels.context = some "form") ∧
      (labels.purpose = "overlay" → labels.context =
        some (if Text.contains (Text.lowercase name) "form" then "form" else "modal")) ∧
      (labels.purpose = "data-display" → labels.context = some "table") ∧
      (Component.family name = .toolbar → labels.context = some "toolbar") ∧
      ∀ c, ownContext (Text.lowercase name) (Component.family name) = some c →
        labels.context = some c := by
  have hpurpose : ∀ purpose ∈ ["form-container", "overlay", "data-display"],
      (Labels.infer name p none).purpose = purpose →
        familyPurpose (Component.family name) = purpose := by
    rintro purpose hmem rfl
    exact (purpose_eq_familyPurpose hmem).symm
  obtain ⟨hform, hoverlay, htable⟩ :=
    ownContext_of_familyPurpose (Text.lowercase name) (Component.family name)
  refine ⟨fun h => ?_, fun h => ?_, fun h => ?_, fun h => ?_, fun c => context_of_family hprop⟩
  · exact context_of_family hprop (hform (hpurpose _ (by simp) h))
  · exact context_of_family hprop (hoverlay (hpurpose _ (by simp) h))
  · exact context_of_family hprop (htable (hpurpose _ (by simp) h))
  · apply context_of_family hprop
    rw [h, ownContext]

theorem infer_coherent_drawer :
    let p := Props.ofAttributes [⟨"toolbar", none⟩, ⟨"navigation", some (.text "main")⟩,
      ⟨"context", some .unresolved⟩]
    let labels := Labels.infer "NavMenuFormDrawer" p none
    p.text? "context" = none ∧ labels.purpose = "overlay" ∧ labels.context = some "form" := by
  intro p labels
  have hprop : p.text? "context" = none := by decide
  have hpurpose : labels.purpose = "overlay" := by decide
  refine ⟨hprop, hpurpose, ?_⟩
  have hcontext := (infer_coherent "NavMenuFormDrawer" hprop).2.1 hpurpose
  rwa [if_pos (by decide)] at hcontext

end MarkupLabels.Label
