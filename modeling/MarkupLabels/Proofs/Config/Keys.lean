import Mathlib
import MarkupLabels.Config.Order

namespace MarkupLabels.Value

variable {key later v w : Value} {s : CodePoints} {entries : List (Value × Value)}

@[simp] lemma text_same_iff : (text s).same v = true ↔ v = .text s := by
  cases v with
  | text t =>
    rw [same, beq_iff_eq, text.injEq]
    exact eq_comm
  | _ => simp [same, number?]

@[simp] lemma same_text_iff : v.same (.text s) = true ↔ v = .text s := by
  cases v <;> simp [same, number?]

def KeysDistinct (entries : List (Value × Value)) : Prop :=
  (entries.map Prod.fst).Pairwise fun key later => later.same key = false

inductive WellKeyed : Value → Prop
  | mapping {entries : List (Value × Value)} (hkeys : KeysDistinct entries)
      (hentries : ∀ e ∈ entries, WellKeyed e.2) : WellKeyed (.mapping entries)
  | leaf {v : Value} (h : v.sort ≠ .mapping) : WellKeyed v

lemma wellKeyed_mapping :
    WellKeyed (.mapping entries) ↔ KeysDistinct entries ∧ ∀ e ∈ entries, WellKeyed e.2 := by
  constructor
  · rintro (⟨hkeys, hentries⟩ | h)
    · exact ⟨hkeys, hentries⟩
    · exact absurd rfl h
  · exact fun h => .mapping h.1 h.2

lemma find?_cons (key k v : Value) (rest : List (Value × Value)) :
    find? key ((k, v) :: rest) = if key.same k then some v else find? key rest := rfl

lemma put_cons (key v k w : Value) (rest : List (Value × Value)) :
    put key v ((k, w) :: rest) = if key.same k then (k, v) :: rest else (k, w) :: put key v rest := rfl

@[simp] lemma lookup_cons_self (rest : List (Value × Value)) :
    lookup s ((.text s, v) :: rest) = some v := if_pos rfl

lemma lookup_cons_of_ne (h : key ≠ .text s) (rest : List (Value × Value)) :
    lookup s ((key, v) :: rest) = lookup s rest := by
  cases key with
  | text t =>
    have hne : t ≠ s := fun heq => h (heq ▸ rfl)
    exact if_neg hne
  | _ => rfl

lemma lookup_eq_none (h : .text s ∉ entries.map Prod.fst) : lookup s entries = none := by
  induction entries with
  | nil => rfl
  | cons e rest ih =>
    rw [List.map_cons, List.mem_cons, not_or] at h
    rw [lookup_cons_of_ne (Ne.symm h.1), ih h.2]

lemma lookup_of_mem (hkeys : KeysDistinct entries) (h : (.text s, v) ∈ entries) :
    lookup s entries = some v := by
  induction entries with
  | nil => cases h
  | cons e rest ih =>
    obtain ⟨hfirst, hrest⟩ := List.pairwise_cons.mp hkeys
    rcases List.mem_cons.mp h with rfl | h
    · exact lookup_cons_self rest
    · have hne : e.1 ≠ .text s := by
        intro heq
        cases (hfirst _ (List.mem_map_of_mem h)).symm.trans (text_same_iff.mpr heq)
      rw [lookup_cons_of_ne hne, ih hrest h]

lemma mem_of_find? (h : find? key entries = some v) : ∃ k, (k, v) ∈ entries ∧ key.same k = true := by
  induction entries with
  | nil => cases h
  | cons e rest ih =>
    obtain ⟨other, w⟩ := e
    rw [find?_cons] at h
    split at h
    · next hsame => exact ⟨other, Option.some.inj h ▸ List.mem_cons_self, hsame⟩
    · obtain ⟨k, hmem, hsame⟩ := ih h
      exact ⟨k, List.mem_cons_of_mem _ hmem, hsame⟩

lemma find?_text (s : CodePoints) (entries : List (Value × Value)) :
    find? (.text s) entries = lookup s entries := by
  induction entries with
  | nil => rfl
  | cons e rest ih =>
    obtain ⟨key, v⟩ := e
    rw [find?_cons, ih]
    by_cases hkey : key = .text s
    · rw [if_pos (text_same_iff.mpr hkey), hkey, lookup_cons_self]
    · rw [if_neg (mt text_same_iff.mp hkey), lookup_cons_of_ne hkey]

lemma lookup_put_self : lookup s (put (.text s) v entries) = some v := by
  induction entries with
  | nil => exact lookup_cons_self []
  | cons e rest ih =>
    obtain ⟨key, w⟩ := e
    rw [put_cons]
    split
    · next hsame => rw [text_same_iff.mp hsame, lookup_cons_self]
    · next hsame => rw [lookup_cons_of_ne (mt text_same_iff.mpr hsame), ih]

lemma lookup_put_of_ne (h : key ≠ .text s) : lookup s (put key v entries) = lookup s entries := by
  induction entries with
  | nil => exact lookup_cons_of_ne h []
  | cons e rest ih =>
    obtain ⟨other, w⟩ := e
    rw [put_cons]
    by_cases hother : other = .text s
    · subst hother
      rw [if_neg (mt same_text_iff.mp h), lookup_cons_self, lookup_cons_self]
    · split
      · rw [lookup_cons_of_ne hother, lookup_cons_of_ne hother]
      · rw [lookup_cons_of_ne hother, lookup_cons_of_ne hother, ih]

lemma keys_put (key v : Value) (entries : List (Value × Value)) :
    (put key v entries).map Prod.fst = entries.map Prod.fst ∨
      (∀ k ∈ entries.map Prod.fst, key.same k = false) ∧
        (put key v entries).map Prod.fst = entries.map Prod.fst ++ [key] := by
  induction entries with
  | nil => exact .inr ⟨by simp, rfl⟩
  | cons e rest ih =>
    obtain ⟨other, w⟩ := e
    rw [put_cons]
    split
    · exact .inl rfl
    · next hother =>
      rw [List.map_cons, List.map_cons]
      rcases ih with ih | ⟨hnew, ih⟩
      · exact .inl (by rw [ih])
      · refine .inr ⟨?_, by rw [ih, List.cons_append]⟩
        exact List.forall_mem_cons.mpr ⟨Bool.eq_false_iff.mpr hother, hnew⟩

lemma key_mem_put (h : w ∈ (put key v entries).map Prod.fst) : w ∈ entries.map Prod.fst ∨ w = key := by
  rcases keys_put key v entries with hkeys | ⟨-, hkeys⟩
  · exact .inl (hkeys ▸ h)
  · rw [hkeys, List.mem_append, List.mem_singleton] at h
    exact h

lemma value_mem_put {e : Value × Value} (h : e ∈ put key v entries) : e ∈ entries ∨ e.2 = v := by
  induction entries with
  | nil =>
    obtain rfl := List.mem_singleton.mp h
    exact .inr rfl
  | cons first rest ih =>
    rw [put_cons] at h
    split at h
    · rcases List.mem_cons.mp h with rfl | h
      · exact .inr rfl
      · exact .inl (List.mem_cons_of_mem _ h)
    · rcases List.mem_cons.mp h with rfl | h
      · exact .inl List.mem_cons_self
      · exact (ih h).imp_left (List.mem_cons_of_mem _)

lemma KeysDistinct.put (h : KeysDistinct entries) (key v : Value) :
    KeysDistinct (put key v entries) := by
  rw [KeysDistinct]
  rcases keys_put key v entries with hkeys | ⟨hnew, hkeys⟩
  · rwa [hkeys]
  · rw [hkeys, List.pairwise_append]
    exact ⟨h, List.pairwise_singleton _ _, by simpa using hnew⟩

lemma WellKeyed.put (h : WellKeyed (.mapping entries)) (hv : WellKeyed v) :
    WellKeyed (.mapping (put key v entries)) := by
  obtain ⟨hkeys, hentries⟩ := wellKeyed_mapping.mp h
  apply wellKeyed_mapping.mpr ⟨hkeys.put key v, ?_⟩
  intro e he
  rcases value_mem_put he with he | he
  · exact hentries e he
  · rwa [he]

lemma find?_put (hlater : later.same key = false)
    (hkeys : ∀ k ∈ entries.map Prod.fst,
      (key.same k = true → key = k) ∧ (later.same k = true → later = k)) :
    find? later (put key v entries) = find? later entries := by
  induction entries with
  | nil => exact if_neg (Bool.eq_false_iff.mp hlater)
  | cons e rest ih =>
    obtain ⟨other, w⟩ := e
    obtain ⟨⟨hkey, hspelled⟩, hrest⟩ := List.forall_mem_cons.mp hkeys
    rw [put_cons]
    split
    · next hsame =>
      obtain rfl := hkey hsame
      rw [find?_cons, find?_cons, if_neg (Bool.eq_false_iff.mp hlater), if_neg (Bool.eq_false_iff.mp hlater)]
    · rw [find?_cons, find?_cons, ih hrest]

end MarkupLabels.Value
