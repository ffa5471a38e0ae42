import Mathlib
import MarkupLabels.Proofs.Import.Resolution

namespace MarkupLabels

def ImportRecord.component (r : ImportRecord) (name : String) : String :=
  match r.kind, r.importedName with
  | .named, some exported => if exported = "" then name else exported
  | _, _ => name

/-- A record that speaks for a name as the library's own, whether it binds the name or not. -/
def ImportRecord.Takes (trusted : List CodePoints) (name : String) (r : ImportRecord) : Prop :=
  match r.kind with
  | .named => r.importedName = some name
  | .sideEffect => Text.contains r.source Provenance.libraryScope ∧
    CodePoints.ofString (Text.lowercase name) ∈ trusted
  | _ => False

namespace Provenance

variable {p : Provenance} {r : ImportRecord} {before after : List ImportRecord} {name : String}
  {trusted : List CodePoints}

lemma resolveBy_of_takes (h : r.Takes trusted name) : resolveBy trusted name r = some name := by
  rw [ImportRecord.Takes] at h
  rw [resolveBy]
  split at h <;> simp_all

lemma resolveBy_of_binds (hkind : r.kind = .named ∨ r.kind = .default) (hlocal : r.localName = some name) :
    resolveBy trusted name r = some (r.component name) := by
  rw [resolveBy, ImportRecord.component]
  rcases hkind with hkind | hkind
  · rw [hkind]
    cases r.importedName <;> simp [hlocal]
  · rw [hkind]
    simp [hlocal]

lemma resolveBy_of_not_takes (hlocal : r.localName ≠ some name) (h : ¬ r.Takes trusted name) :
    resolveBy trusted name r = none := by
  rw [resolveBy_eq_none_iff, ImportRecord.SpeaksFor]
  rw [ImportRecord.Takes] at h
  cases hkind : r.kind <;> simp_all

def ResolvesBindings (p : Provenance) : Prop :=
  ∀ r ∈ p.records, r.kind = .named ∨ r.kind = .default → ∀ name, r.localName = some name → name ≠ "" →
    p.resolve name = some (r.component name)

/-- Where names are bound once, a name resolves to the component that is imported under it if no record
before its own takes it, and to itself if one does. -/
theorem resolve_bound (hdistinct : (p.records.filterMap ImportRecord.localName).Nodup)
    (hrecords : p.records = before ++ r :: after) (hkind : r.kind = .named ∨ r.kind = .default)
    (hlocal : r.localName = some name) (hname : name ≠ "") :
    ((∀ s ∈ before, ¬ s.Takes p.trusted name) → p.resolve name = some (r.component name)) ∧
      ((∃ s ∈ before, s.Takes p.trusted name) → p.resolve name = some name) := by
  -- Names are bound once, so a record before this one either takes the name or says nothing of it.
  have hother : ∀ s ∈ before, s.localName ≠ some name := by
    intro s hs hsame
    rw [hrecords, List.filterMap_append, List.filterMap_cons_some hlocal, List.nodup_append] at hdistinct
    exact hdistinct.2.2 name (List.mem_filterMap.mpr ⟨s, hs, hsame⟩) name List.mem_cons_self rfl
  rw [resolve, if_neg hname, hrecords, List.findSome?_append]
  constructor
  · intro hfree
    rw [List.findSome?_eq_none_iff.mpr fun s hs => resolveBy_of_not_takes (hother s hs) (hfree s hs),
      Option.none_or, List.findSome?_cons, resolveBy_of_binds hkind hlocal]
  · rintro ⟨s, hs, htakes⟩
    cases hfirst : before.findSome? (resolveBy p.trusted name) with
    | none =>
      cases (List.findSome?_eq_none_iff.mp hfirst s hs).symm.trans (resolveBy_of_takes htakes)
    | some found =>
      obtain ⟨t, ht, hfound⟩ := List.exists_of_findSome?_eq_some hfirst
      by_cases h : t.Takes p.trusted name
      · rw [Option.some_or, ← hfound, resolveBy_of_takes h]
      · cases hfound.symm.trans (resolveBy_of_not_takes (hother t ht) h)

theorem resolve_bound_card :
    let button : ImportRecord := ⟨"@patternfly/react-core", .named, some "Action", some "Button"⟩
    let card : ImportRecord := ⟨"@patternfly/react-core", .named, some "Tile", some "Card"⟩
    let p : Provenance := ⟨[button, card], defaultNames.map CodePoints.lowercase⟩
    ofValues [button, card] .null .null = .ok p ∧ p.resolve "Tile" = some "Card" := by
  intro button card p
  have hdistinct : (p.records.filterMap ImportRecord.localName).Nodup := by decide
  have hfree : ∀ s ∈ [button], ¬ s.Takes p.trusted "Tile" := by simp [ImportRecord.Takes, button]
  refine ⟨by decide, ?_⟩
  have hrecords : p.records = [button] ++ card :: [] := rfl
  exact (resolve_bound hdistinct hrecords (.inl rfl) rfl (by decide)).1 hfree

lemma missing_of_ne (hmem : r ∈ p.records) (hkind : r.kind = .named ∨ r.kind = .default)
    (hlocal : r.localName = some name) (hname : name ≠ "") (h : p.resolve name ≠ some (r.component name)) :
    ¬ p.ResolvesBindings :=
  fun hall => h (hall r hmem hkind name hlocal hname)

theorem resolve_taken_before :
    let card : ImportRecord := ⟨"@patternfly/react-core", .named, some "Button", some "Card"⟩
    let button : ImportRecord := ⟨"@patternfly/react-core", .named, some "Action", some "Button"⟩
    let styles : ImportRecord := ⟨"@patternfly/react-core/dist/styles/base.css", .sideEffect, none, none⟩
    let misses (first : ImportRecord) : Prop := ∃ p, ofValues [first, card] .null .null = .ok p ∧
      (p.records.filterMap ImportRecord.localName).Nodup ∧ ¬ p.ResolvesBindings
    misses button ∧ misses styles := by
  intro card button styles misses
  constructor
  · refine ⟨⟨[button, card], defaultNames.map CodePoints.lowercase⟩, by decide, by decide, ?_⟩
    exact missing_of_ne (r := card) (by decide) (.inl rfl) rfl (by decide)
      (by decide)
  · refine ⟨⟨[styles, card], defaultNames.map CodePoints.lowercase⟩, by decide, by decide, ?_⟩
    exact missing_of_ne (r := card) (by decide) (.inl rfl) rfl (by decide)
      (by decide)

end Provenance

end MarkupLabels
