import Mathlib
import MarkupLabels.Component.Family

namespace MarkupLabels.Component

variable {name : String} {f : Family} {accepts : String → Bool}

lemma familyRules_nodup : (familyRules.map Prod.fst).Nodup := by decide

lemma rule_of_familyOfLower (earlier later : List (Family × (String → Bool)))
    (hrules : familyRules = earlier ++ (f, accepts) :: later) (hf : f ≠ .generic)
    (h : familyOfLower name = f) : accepts name ∧ ∀ rule ∈ earlier, rule.2 name = false := by
  have hnodup := familyRules_nodup
  rw [hrules, List.map_append, List.map_cons, List.nodup_append, List.nodup_cons] at hnodup
  obtain ⟨-, ⟨hlater, -⟩, hearlier⟩ := hnodup
  rw [familyOfLower] at h
  cases hfound : familyRules.find? fun rule => rule.2 name with
  | none =>
    rw [hfound] at h
    exact absurd h.symm hf
  | some rule =>
    obtain rfl : rule.1 = f := by simpa [hfound] using h
    rw [hrules, List.find?_append] at hfound
    -- The families are told apart by their rules, so neither an earlier nor a later rule was the first.
    cases hbefore : earlier.find? fun rule => rule.2 name with
    | some other =>
      rw [hbefore] at hfound
      obtain rfl : other = rule := by simpa using hfound
      have hmem := List.mem_map_of_mem (f := Prod.fst) (List.mem_of_find?_eq_some hbefore)
      exact absurd rfl (hearlier _ hmem _ List.mem_cons_self)
    | none =>
      rw [hbefore, Option.none_or, List.find?_cons] at hfound
      refine ⟨?_, fun other hother => by simpa using List.find?_eq_none.mp hbefore other hother⟩
      cases haccepts : accepts name with
      | true => rfl
      | false =>
        simp only [haccepts] at hfound
        exact absurd (List.mem_map_of_mem (List.mem_of_find?_eq_some hfound)) hlater

lemma mentions_of_form (h : familyOfLower name = .form) : mentions ["form"] name :=
  (rule_of_familyOfLower (familyRules.take 11) (familyRules.drop 12) rfl (by decide) h).1

lemma mentions_of_overlay (h : familyOfLower name = .overlay) :
    mentions ["modal", "drawer"] name ∧ mentions ["input"] name = false := by
  obtain ⟨haccepts, hearlier⟩ := rule_of_familyOfLower (familyRules.take 10)
    (familyRules.drop 11) rfl (by decide) h
  refine ⟨haccepts, ?_⟩
  have hfield := hearlier (.textInput, mentions ["input", "textarea", "select"]) (by simp [familyRules])
  simp only [mentions, List.any_cons, Bool.or_eq_false_iff] at hfield
  simp [mentions, hfield.1]

lemma traits_of_later (earlier later : List (Family × (String → Bool)))
    (hrules : familyRules.drop 12 = earlier ++ (f, accepts) :: later) (hf : f ≠ .generic)
    (h : familyOfLower name = f) :
    accepts name ∧ (∀ rule ∈ earlier, rule.2 name = false) ∧
      ∀ t ∈ [Trait.form, .input, .overlay], lowerHasTrait name t = false := by
  have hsplit : familyRules = (familyRules.take 12 ++ earlier) ++ (f, accepts) :: later := by
    rw [List.append_assoc, ← hrules, List.take_append_drop]
  obtain ⟨haccepts, hearlier⟩ := rule_of_familyOfLower _ later hsplit hf h
  have hbefore : ∀ rule ∈ familyRules.take 12, rule.2 name = false := fun rule hrule =>
    hearlier rule (List.mem_append_left _ hrule)
  have hfield := hbefore (.textInput, mentions ["input", "textarea", "select"]) (by simp [familyRules])
  have hoverlay := hbefore (.overlay, mentions ["modal", "drawer"]) (by simp [familyRules])
  have hform := hbefore (.form, mentions ["form"]) (by simp [familyRules])
  simp only [mentions, List.any_cons, Bool.or_eq_false_iff] at hfield
  have hinput : mentions ["input"] name = false := by simp [mentions, hfield.1]
  refine ⟨haccepts, fun rule hrule => hearlier rule (List.mem_append_right _ hrule), fun t ht => ?_⟩
  cases t with
  | form => exact hform
  | input => exact hinput
  | overlay => exact hoverlay
  | _ => simp at ht

end MarkupLabels.Component
