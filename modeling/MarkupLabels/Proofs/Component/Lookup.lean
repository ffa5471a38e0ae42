import Mathlib
import MarkupLabels.Component.Given

namespace MarkupLabels.Props

variable {p : Props} {name other : String} {value : Option AttributeValue}
  {entries others : List (String × Option AttributeValue)} {attributes : List Attribute}

lemma lookup_cons_eq_ite :
    ((name, value) :: entries).lookup other =
      if other = name then some value else entries.lookup other := by
  rw [List.lookup_cons]
  by_cases h : other = name
  · simp [h]
  · rw [beq_eq_false_iff_ne.mpr h, if_neg h]

lemma lookup_insertEntry :
    (insertEntry name value entries).lookup other =
      if other = name then some value else entries.lookup other := by
  induction entries with
  | nil => exact lookup_cons_eq_ite
  | cons e rest ih =>
    obtain ⟨n, v⟩ := e
    rw [insertEntry]
    by_cases hn : n = name
    · subst hn
      rw [if_pos rfl, lookup_cons_eq_ite, lookup_cons_eq_ite]
      split <;> rfl
    · rw [if_neg hn, lookup_cons_eq_ite, lookup_cons_eq_ite, ih]
      by_cases h : other = name
      · subst h
        simp [Ne.symm hn]
      · simp [h]

@[simp] lemma get?_insert :
    (p.insert name value).get? other = if other = name then some value else p.get? other :=
  lookup_insertEntry

lemma text?_insert :
    (p.insert name value).text? other =
      if other = name then value.bind AttributeValue.text? else p.text? other := by
  unfold text? literal
  by_cases h : other = name
  · rw [get?_insert, if_pos h, if_pos h]
    rcases value with _ | (_ | _ | _ | _ | _) <;> rfl
  · rw [get?_insert, if_neg h, if_neg h]

lemma isFalse_insert :
    (p.insert name value).isFalse other =
      if other = name then value == some (.flag false) else p.isFalse other := by
  unfold isFalse
  rw [get?_insert]
  split <;> rfl

lemma get?_foldl_insert :
    (entries.foldl (fun p e => p.insert e.1 e.2) p).get? name =
      (entries.reverse.lookup name).or (p.get? name) := by
  induction entries generalizing p with
  | nil => simp
  | cons e rest ih =>
    rw [List.foldl_cons, ih, get?_insert, List.reverse_cons, List.lookup_append, lookup_cons_eq_ite,
      Option.or_assoc]
    split <;> simp

lemma get?_ofEntries : (ofEntries entries).get? name = entries.reverse.lookup name := by
  rw [ofEntries, get?_foldl_insert]
  simp [empty, get?]

lemma mem_of_lookup (h : entries.lookup name = some value) : (name, value) ∈ entries := by
  obtain ⟨before, after, rfl, -⟩ := List.lookup_eq_some_iff.mp h
  simp

lemma lookup_of_mem (hnodup : (entries.map Prod.fst).Nodup) (h : (name, value) ∈ entries) :
    entries.lookup name = some value := by
  cases hv : entries.lookup name with
  | none => simpa using List.lookup_eq_none_iff.mp hv _ h
  | some v =>
    have heq := List.inj_on_of_nodup_map hnodup (mem_of_lookup hv) h rfl
    simpa using congrArg Prod.snd heq

lemma lookup_perm (hperm : entries.Perm others) (hnodup : (entries.map Prod.fst).Nodup) :
    entries.lookup name = others.lookup name := by
  have hnodup' : (others.map Prod.fst).Nodup := (hperm.map _).nodup_iff.mp hnodup
  ext value
  exact ⟨fun h => lookup_of_mem hnodup' (hperm.subset (mem_of_lookup h)),
    fun h => lookup_of_mem hnodup (hperm.symm.subset (mem_of_lookup h))⟩

lemma get?_ofPassed_of_mem {v : AttributeValue} (hnodup : (entries.map Prod.fst).Nodup)
    (h : (name, some v) ∈ entries) : (ofPassed entries).get? name = some (some v) := by
  have hkept : ((entries.filter fun e => e.2.isSome).reverse.map Prod.fst).Nodup := by
    rw [List.map_reverse, List.nodup_reverse]
    exact hnodup.sublist (List.filter_sublist.map _)
  rw [ofPassed, get?_ofEntries]
  exact lookup_of_mem hkept (by simp [h])

lemma get?_ofPassed_eq_none (h : ∀ v, (name, v) ∈ entries → v = none) :
    (ofPassed entries).get? name = none := by
  rw [ofPassed, get?_ofEntries, List.lookup_eq_none_iff]
  rintro ⟨n, v⟩ hmem
  obtain ⟨hmem, hsome⟩ := List.mem_filter.mp (List.mem_reverse.mp hmem)
  by_cases hn : name = n
  · subst hn
    simp [h v hmem] at hsome
  · simpa using hn

lemma get?_ofAttributes :
    (ofAttributes attributes).get? name =
      (attributes.reverse.find? (·.name == name)).map fun a => some (a.value.getD (.flag true)) := by
  rw [ofAttributes, get?_ofEntries, ← List.map_reverse]
  induction attributes.reverse with
  | nil => rfl
  | cons a rest ih =>
    rw [List.map_cons, List.lookup_cons, List.find?_cons, ih, BEq.comm (a := name)]
    cases a.name == name <;> rfl

lemma get?_ofUnlabelled {v : Vocabulary} (h : v.isMarker name = false) :
    (ofUnlabelled v attributes).get? name = (ofAttributes attributes).get? name := by
  rw [ofUnlabelled, get?_ofAttributes, get?_ofAttributes, ← List.filter_reverse, List.find?_filter]
  congr 2
  funext a
  by_cases ha : a.name = name <;> simp [ha, h]

end MarkupLabels.Props
