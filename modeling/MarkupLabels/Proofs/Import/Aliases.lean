import Mathlib
import MarkupLabels.Proofs.Import.Resolution

namespace MarkupLabels

def ImportRecord.rename (ρ : String → String) (r : ImportRecord) : ImportRecord :=
  { r with localName := r.localName.map ρ }

def replaced (x y name : String) : String := if name = x then y else name

structure ImportRecord.Renamable (x y : String) (r : ImportRecord) : Prop where
  not_sideEffect : r.kind ≠ .sideEffect
  fresh : r.localName ≠ some y ∧ r.importedName ≠ some y
  not_exported : r.importedName ≠ some x
  of_local : r.localName = some x →
    r.kind = .named ∧ ∃ exported, r.importedName = some exported ∧ exported ≠ ""

namespace Provenance

variable {ρ : String → String} {p p' : Provenance} {r : ImportRecord} {records kept : List ImportRecord}
  {packages names : Value} {vs : List Value} {x y name : String} {trusted : List CodePoints}

def rename (ρ : String → String) (p : Provenance) : Provenance :=
  { p with records := p.records.map (ImportRecord.rename ρ) }

structure Keeps (ρ : String → String) (p p' : Provenance) (name : String) : Prop where
  resolve_eq : p'.resolve (ρ name) = p.resolve name
  isIdentifier_eq : Text.isIdentifier (ρ name) = Text.isIdentifier name

lemma keepRecords_rename (h : keepRecords vs records = .ok kept) :
    keepRecords vs (records.map (ImportRecord.rename ρ)) = .ok (kept.map (ImportRecord.rename ρ)) := by
  induction records generalizing kept with
  | nil =>
    obtain rfl := Except.ok.inj h
    rfl
  | cons r records ih =>
    rw [keepRecords] at h
    obtain ⟨library, hlibrary, h⟩ := Fault.bind_eq_ok.mp h
    obtain ⟨rest, hrest, h⟩ := Fault.bind_eq_ok.mp h
    obtain rfl := Except.ok.inj h
    rw [List.map_cons, keepRecords, ih hrest]
    change (Value.anyWithin r.source vs).bind _ = _
    rw [hlibrary]
    cases library <;> rfl

lemma ofValues_rename (h : ofValues records packages names = .ok p) :
    ofValues (records.map (ImportRecord.rename ρ)) packages names = .ok (p.rename ρ) := by
  obtain ⟨packageItems, nameItems, lowered, kept, hpackages, hnames, hlowered, hkept, rfl⟩ :=
    ofValues_eq_ok_iff.mp h
  exact ofValues_eq_ok_iff.mpr ⟨packageItems, nameItems, lowered, _, hpackages, hnames, hlowered,
    keepRecords_rename hkept, rfl⟩

lemma mem_of_mem_records (h : ofValues records packages names = .ok p) (hr : r ∈ p.records) :
    r ∈ records := by
  obtain ⟨_, _, _, kept, -, -, -, hkept, rfl⟩ := ofValues_eq_ok_iff.mp h
  exact ((mem_keepRecords hkept).mp hr).1

lemma rename_of_ne (h : r.localName ≠ some x) : r.rename (replaced x y) = r := by
  have hlocal : r.localName.map (replaced x y) = r.localName := by
    cases hname : r.localName with
    | none => rfl
    | some name =>
      have hne : name ≠ x := fun heq => h (heq ▸ hname)
      simp [replaced, hne]
  rw [ImportRecord.rename, hlocal]

lemma not_speaksFor (hkind : r.kind ≠ .sideEffect) (hlocal : r.localName ≠ some name)
    (himported : r.importedName ≠ some name) : ¬ r.SpeaksFor trusted name := by
  rw [ImportRecord.SpeaksFor]
  cases h : r.kind with
  | sideEffect => exact absurd h hkind
  | _ => simp [hlocal, himported]

lemma resolveBy_rename (h : r.Renamable x y) (hname : name ≠ y) :
    resolveBy trusted (replaced x y name) (r.rename (replaced x y)) = resolveBy trusted name r := by
  by_cases hlocal : r.localName = some x
  · obtain ⟨hkind, exported, himported, hne⟩ := h.of_local hlocal
    have hx : exported ≠ x := fun heq => h.not_exported (heq ▸ himported)
    have hy : exported ≠ y := fun heq => h.fresh.2 (heq ▸ himported)
    by_cases hsame : name = x
    · simp [resolveBy, ImportRecord.rename, replaced, hkind, himported, hlocal, hsame, hne]
    · simp [resolveBy, ImportRecord.rename, replaced, hkind, himported, hlocal, hsame, Ne.symm hsame,
        Ne.symm hname]
  · rw [rename_of_ne hlocal, replaced]
    split
    · next hsame =>
      -- No record but the alias says anything of the old name or of the new one.
      subst hsame
      rw [resolveBy_eq_none_iff.mpr (not_speaksFor h.not_sideEffect h.fresh.1 h.fresh.2),
        resolveBy_eq_none_iff.mpr (not_speaksFor h.not_sideEffect hlocal h.not_exported)]
    · rfl

lemma keeps_rename (h : ∀ r ∈ p.records, r.Renamable x y) (hx : Text.isIdentifier x)
    (hy : Text.isIdentifier y) (hname : name ≠ y) :
    p.Keeps (replaced x y) (p.rename (replaced x y)) name := by
  have hempty : replaced x y name = "" ↔ name = "" := by
    have hne : ∀ s, Text.isIdentifier s → s ≠ "" := by
      rintro _ hs rfl
      cases hs
    rw [replaced]
    split
    · next hsame => simp [hsame, hne x hx, hne y hy]
    · rfl
  constructor
  · rw [resolve, resolve]
    by_cases hnone : name = ""
    · rw [if_pos (hempty.mpr hnone), if_pos hnone]
    · rw [if_neg (mt hempty.mp hnone), if_neg hnone, rename, List.findSome?_map, ← List.head?_filterMap,
        ← List.head?_filterMap]
      congr 1
      exact List.filterMap_congr fun r hr => resolveBy_rename (h r hr) hname
  · rw [replaced]
    split
    · next hsame => rw [hsame, hx, hy]
    · rfl

end Provenance

end MarkupLabels
