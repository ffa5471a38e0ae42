import Mathlib
import MarkupLabels.Source.Labelled

namespace MarkupLabels

namespace Fault

lemma bind_eq_ok {α β : Type} {x : Except Fault α} {g : α → Except Fault β} {b : β} :
    x >>= g = .ok b ↔ ∃ a, x = .ok a ∧ g a = .ok b := by
  cases x <;> simp [bind, Except.bind]

lemma mem_of_mapM {α β : Type} {g : α → Except Fault β} {xs : List α} {ys : List β}
    (h : xs.mapM g = .ok ys) (y : β) : y ∈ ys ↔ ∃ x ∈ xs, g x = .ok y := by
  induction xs generalizing ys with
  | nil =>
    obtain rfl : [] = ys := by simpa [pure, Except.pure] using h
    simp
  | cons x xs ih =>
    rw [List.mapM_cons] at h
    obtain ⟨z, hz, h⟩ := bind_eq_ok.mp h
    obtain ⟨zs, hzs, h⟩ := bind_eq_ok.mp h
    obtain rfl : z :: zs = ys := by simpa [pure, Except.pure] using h
    simp [ih hzs, hz, eq_comm]

end Fault

/-- A record speaks for a name: it binds the name, or imports what the library calls so, or trusts
the name where nothing is bound. -/
def ImportRecord.SpeaksFor (trusted : List CodePoints) (name : String) (r : ImportRecord) : Prop :=
  match r.kind with
  | .named => r.localName = some name ∨ r.importedName = some name
  | .default => r.localName = some name
  | .namespace => False
  | .sideEffect =>
    Text.contains r.source Provenance.libraryScope ∧
      CodePoints.ofString (Text.lowercase name) ∈ trusted

namespace Provenance

variable {p : Provenance} {r : ImportRecord} {records kept : List ImportRecord} {name : String}
  {trusted : List CodePoints} {packages : List Value}

lemma resolveBy_eq_none_iff : resolveBy trusted name r = none ↔ ¬ r.SpeaksFor trusted name := by
  unfold resolveBy ImportRecord.SpeaksFor
  cases r.kind with
  | named => cases r.importedName <;> simp
  | default => simp
  | «namespace» => simp
  | sideEffect => simp

lemma resolve_eq_none_iff :
    p.resolve name = none ↔ name = "" ∨ ∀ r ∈ p.records, ¬ r.SpeaksFor p.trusted name := by
  unfold resolve
  by_cases h : name = ""
  · simp [h]
  · simp [h, List.findSome?_eq_none_iff, resolveBy_eq_none_iff]

lemma mem_keepRecords (h : keepRecords packages records = .ok kept) :
    r ∈ kept ↔ r ∈ records ∧ Value.anyWithin r.source packages = .ok true := by
  induction records generalizing kept with
  | nil =>
    obtain rfl := Except.ok.inj h
    simp
  | cons s records ih =>
    rw [keepRecords] at h
    obtain ⟨library, hlibrary, h⟩ := Fault.bind_eq_ok.mp h
    obtain ⟨rest, hrest, h⟩ := Fault.bind_eq_ok.mp h
    obtain rfl := Except.ok.inj h
    have hs : r = s → (Value.anyWithin r.source packages = .ok true ↔ library = true) := by
      rintro rfl
      simp [hlibrary]
    cases library <;> simp only [Bool.false_eq_true, if_false, if_true, List.mem_cons, ih hrest] <;>
      tauto

lemma ofValues_eq_ok_iff {packages names : Value} : ofValues records packages names = .ok p ↔
    ∃ packageItems nameItems lowered kept,
      catalogItems defaultPackages packages = .ok packageItems ∧
        catalogItems defaultNames names = .ok nameItems ∧ nameItems.mapM Value.lower = .ok lowered ∧
          keepRecords packageItems records = .ok kept ∧ p = ⟨kept, Value.textsOf lowered⟩ := by
  constructor
  · intro h
    obtain ⟨packageItems, hpackages, h⟩ := Fault.bind_eq_ok.mp h
    obtain ⟨nameItems, hnames, h⟩ := Fault.bind_eq_ok.mp h
    obtain ⟨lowered, hlowered, h⟩ := Fault.bind_eq_ok.mp h
    obtain ⟨kept, hkept, h⟩ := Fault.bind_eq_ok.mp h
    exact ⟨packageItems, nameItems, lowered, kept, hpackages, hnames, hlowered, hkept,
      (Except.ok.inj h).symm⟩
  · rintro ⟨packageItems, nameItems, lowered, kept, hpackages, hnames, hlowered, hkept, rfl⟩
    rw [ofValues, hpackages]
    apply Fault.bind_eq_ok.mpr ⟨nameItems, hnames, ?_⟩
    apply Fault.bind_eq_ok.mpr ⟨lowered, hlowered, ?_⟩
    exact Fault.bind_eq_ok.mpr ⟨kept, hkept, rfl⟩

end Provenance

namespace Source

variable {config : Value} {d : Document} {p : Provenance}

def catalog (config : Value) (key : CodePoints) (default : List CodePoints) : Except Fault (List Value) := do
  let items ← Value.entry? key (effectiveConfig config)
  Provenance.catalogItems default (items.getD .null)

def IsLibraryModule (config : Value) (module : String) : Prop :=
  ∃ packages, catalog config "packages" Provenance.defaultPackages = .ok packages ∧
    Value.anyWithin module packages = .ok true

def IsTrustedName (config : Value) (name : String) : Prop :=
  ∃ names, catalog config "default_import_names" Provenance.defaultNames = .ok names ∧
    ∃ n ∈ names, n.lower = .ok (.text ↑(Text.lowercase name))

instance (config : Value) (module : String) : Decidable (IsLibraryModule config module) :=
  match h : catalog config "packages" Provenance.defaultPackages with
  | .error _ => isFalse (by simp [IsLibraryModule, h])
  | .ok packages =>
    decidable_of_iff (Value.anyWithin module packages = .ok true) (by simp [IsLibraryModule, h])

lemma provenance_spec (h : d.provenance (effectiveConfig config) = .ok p) :
    (∀ r, r ∈ p.records ↔ r ∈ d.imports ∧ IsLibraryModule config r.source) ∧
      ∀ name, CodePoints.ofString (Text.lowercase name) ∈ p.trusted ↔ IsTrustedName config name := by
  unfold Document.provenance at h
  obtain ⟨packages, hpackages, h⟩ := Fault.bind_eq_ok.mp h
  obtain ⟨names, hnames, h⟩ := Fault.bind_eq_ok.mp h
  obtain ⟨packageItems, nameItems, lowered, records, hpackageItems, hnameItems, hlowered, hrecords, rfl⟩ :=
    Provenance.ofValues_eq_ok_iff.mp h
  have hpackageCatalog : catalog config "packages" Provenance.defaultPackages = .ok packageItems := by
    rw [catalog, hpackages]
    exact hpackageItems
  have hnameCatalog : catalog config "default_import_names" Provenance.defaultNames = .ok nameItems := by
    rw [catalog, hnames]
    exact hnameItems
  refine ⟨fun r => ?_, fun name => ?_⟩
  · rw [Provenance.mem_keepRecords hrecords]
    simp [IsLibraryModule, hpackageCatalog]
  · rw [Value.mem_textsOf, Fault.mem_of_mapM hlowered]
    simp [IsTrustedName, hnameCatalog]

end Source

end MarkupLabels
