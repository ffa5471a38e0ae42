import Mathlib
import MarkupLabels.Proofs.Config.Merging

namespace MarkupLabels

namespace Provenance

variable {p p' : Provenance} {r : ImportRecord} {name : Option String} {word : String}
  {records records' : List ImportRecord} {packages packages' names names' trusted trusted' : List CodePoints}
  {catalog : Value}

lemma isRecognized_iff : p.isRecognized name ↔
    ∃ word ∈ name, word ≠ "" ∧ ∃ r ∈ p.records, r.SpeaksFor p.trusted word := by
  rw [isRecognized]
  cases name with
  | none => simp
  | some word =>
    rw [Option.bind_some, ← Option.not_isNone, Bool.not_eq_true', ← Bool.not_eq_true,
      Option.isNone_iff_eq_none, resolve_eq_none_iff]
    simp

lemma speaksFor_mono (htrusted : trusted ⊆ trusted') (h : r.SpeaksFor trusted word) :
    r.SpeaksFor trusted' word := by
  rw [ImportRecord.SpeaksFor] at h ⊢
  split at h
  · exact h
  · exact h
  · exact h
  · exact ⟨h.1, htrusted h.2⟩

lemma isRecognized_mono (hrecords : p.records ⊆ p'.records) (htrusted : p.trusted ⊆ p'.trusted)
    (h : p.isRecognized name) : p'.isRecognized name := by
  obtain ⟨word, hword, hne, r, hr, hspeaks⟩ := isRecognized_iff.mp h
  exact isRecognized_iff.mpr ⟨word, hword, hne, r, hrecords hr, speaksFor_mono htrusted hspeaks⟩

lemma isLibrarySource_mono {module : String} (h : packages ⊆ packages')
    (hlibrary : isLibrarySource packages module) : isLibrarySource packages' module := by
  obtain ⟨package, hmem, hcontains⟩ := List.any_eq_true.mp hlibrary
  exact List.any_eq_true.mpr ⟨package, h hmem, hcontains⟩

lemma ofCatalogs_mono (hrecords : records ⊆ records') (hpackages : packages ⊆ packages')
    (hnames : names ⊆ names') (h : (ofCatalogs records packages names).isRecognized name) :
    (ofCatalogs records' packages' names').isRecognized name := by
  apply isRecognized_mono _ _ h
  · intro r hr
    obtain ⟨hmem, hlibrary⟩ := List.mem_filter.mp hr
    exact List.mem_filter.mpr ⟨hrecords hmem, isLibrarySource_mono hpackages hlibrary⟩
  · exact List.map_subset _ hnames

end Provenance

lemma Source.provenance_mapping (d : Document) (entries : List (Value × Value)) :
    d.provenance (effectiveConfig (.mapping entries)) =
      Provenance.ofValues d.imports ((Value.lookup "packages" entries).getD .null)
        ((Value.lookup "default_import_names" entries).getD .null) := by
  have hconfig : effectiveConfig (.mapping entries) = .mapping entries := by
    cases entries <;> rfl
  rw [hconfig]
  rfl

namespace Config

open Value

variable {user : Value} {entries : List (Value × Value)}

/-- What is recognized is still recognized with more imports, more packages and more trusted names, and
under every configuration file merged with the default configuration. -/
theorem recognizes_more (huser : Source.effectiveConfig user = .mapping entries)
    (hentries : UserEntries entries) :
    (∀ {records records' : List ImportRecord} {packages packages' names names' : List CodePoints},
      records ⊆ records' → packages ⊆ packages' → names ⊆ names' →
        ∃ p p', Provenance.ofValues records (texts packages) (texts names) = .ok p ∧
          Provenance.ofValues records' (texts packages') (texts names') = .ok p' ∧
            ∀ name, p.isRecognized name → p'.isRecognized name) ∧
      ∃ merged, withUser user = .ok merged ∧ ∀ d : Source.Document,
        ∃ p p', d.provenance (Source.effectiveConfig default) = .ok p ∧
          d.provenance (Source.effectiveConfig merged) = .ok p' ∧
            ∀ name, p.isRecognized name → p'.isRecognized name := by
  constructor
  · intro records records' packages packages' names names' hrecords hpackages hnames
    exact ⟨_, _, Provenance.ofValues_eq records rfl rfl, Provenance.ofValues_eq records' rfl rfl,
      fun name => Provenance.ofCatalogs_mono hrecords hpackages hnames⟩
  · obtain ⟨merged, hmerged, ⟨ps, hps, hpackages⟩, ns, hns, hnames⟩ := hentries.withUser_ok huser
    refine ⟨.mapping merged, hmerged, fun d => ?_⟩
    obtain ⟨base, hbase, -, -, hbasePackages, hbaseNames⟩ := default_spec
    have hbefore : d.provenance (Source.effectiveConfig default) =
        .ok (.ofCatalogs d.imports Provenance.defaultPackages Provenance.defaultNames) := by
      rw [hbase, Source.provenance_mapping, hbasePackages, hbaseNames]
      exact Provenance.ofValues_eq d.imports rfl rfl
    have hafter : d.provenance (Source.effectiveConfig (.mapping merged)) =
        .ok (.ofCatalogs d.imports ps ns) := by
      rw [Source.provenance_mapping]
      exact Provenance.ofValues_eq d.imports hps hns
    exact ⟨_, _, hbefore, hafter, fun name =>
      Provenance.ofCatalogs_mono (List.Subset.refl _) hpackages hnames⟩

theorem recognizes_more_package :
    let entries : List (Value × Value) := [
      (.text "packages", texts ["@acme/ui"]), (.text "default_import_names", .null),
      (.integer 1, .list [.null])]
    ∃ merged, withUser (.mapping entries) = .ok merged ∧ ∀ d : Source.Document,
      ∃ p p', d.provenance (Source.effectiveConfig default) = .ok p ∧
        d.provenance (Source.effectiveConfig merged) = .ok p' ∧
          ∀ name, p.isRecognized name → p'.isRecognized name := by
  intro entries
  have hentries : UserEntries entries := by
    constructor
    · apply wellKeyed_mapping.mpr ⟨by simp [KeysDistinct, same, number?, entries], ?_⟩
      simp only [entries, List.forall_mem_cons, List.not_mem_nil, false_imp_iff, implies_true, and_true]
      exact ⟨.leaf (by decide), .leaf (by decide), .leaf (by decide)⟩
    · intro key hkey
      rcases isAdditive_iff.mp hkey with h | h
      · obtain rfl := text.inj h
        exact .inr ⟨["@acme/ui"], rfl⟩
      · obtain rfl := text.inj h
        exact .inl rfl
  exact (recognizes_more rfl hentries).2

end Config

end MarkupLabels
