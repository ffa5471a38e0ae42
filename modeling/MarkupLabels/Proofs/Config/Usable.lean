import Mathlib
import MarkupLabels.Proofs.Import.Resolution
import MarkupLabels.Proofs.Tree.Markers

namespace MarkupLabels

lemma Value.mapM_lower (ss : List CodePoints) :
    (ss.map Value.text).mapM Value.lower = .ok (ss.map fun s => .text (s.lowercase)) := by
  induction ss with
  | nil => rfl
  | cons s ss ih =>
    rw [List.map_cons, List.mapM_cons, ih]
    rfl

lemma Value.anyWithin_map_text (whole : String) (ss : List CodePoints) :
    anyWithin whole (ss.map .text) = .ok (ss.any (Text.contains whole)) := by
  induction ss with
  | nil => rfl
  | cons s ss ih =>
    rw [List.map_cons, anyWithin, ih, List.any_cons]
    change (if Text.contains whole s = true then (.ok true : Except Fault Bool) else _) = _
    cases Text.contains whole s <;> rfl

namespace Provenance

def IsCatalog (v : Value) : Prop := v = .null ∨ ∃ ss : List CodePoints, v = .list (ss.map .text)

variable {v packages names : Value} {records : List ImportRecord}

lemma catalogItems_texts (default : List CodePoints) (h : IsCatalog v) :
    ∃ ss : List CodePoints, catalogItems default v = .ok (ss.map .text) := by
  obtain rfl | ⟨ss, rfl⟩ := h
  · exact ⟨default, rfl⟩
  · exact ⟨ss, rfl⟩

lemma keepRecords_texts (ss : List CodePoints) (records : List ImportRecord) :
    keepRecords (ss.map .text) records =
      .ok (records.filter fun r => isLibrarySource ss r.source) := by
  induction records with
  | nil => rfl
  | cons r records ih =>
    rw [keepRecords, Value.anyWithin_map_text, ih, List.filter_cons]
    rfl

lemma textsOf_texts (ss : List CodePoints) : Value.textsOf (ss.map .text) = ss := by
  rw [Value.textsOf, List.filterMap_map]
  exact List.filterMap_some

lemma ofValues_eq {ps ns : List CodePoints} (records : List ImportRecord)
    (hpackages : catalogItems defaultPackages packages = .ok (ps.map .text))
    (hnames : catalogItems defaultNames names = .ok (ns.map .text)) :
    ofValues records packages names = .ok (ofCatalogs records ps ns) := by
  apply ofValues_eq_ok_iff.mpr
  refine ⟨_, _, _, _, hpackages, hnames, Value.mapM_lower ns, keepRecords_texts ps records, ?_⟩
  have htrusted := textsOf_texts (ns.map CodePoints.lowercase)
  rw [List.map_map] at htrusted
  rw [ofCatalogs, ← htrusted]
  rfl

lemma ofValues_texts (records : List ImportRecord) (hpackages : IsCatalog packages)
    (hnames : IsCatalog names) : ∃ p, ofValues records packages names = .ok p := by
  obtain ⟨ps, hps⟩ := catalogItems_texts defaultPackages hpackages
  obtain ⟨ns, hns⟩ := catalogItems_texts defaultNames hnames
  exact ⟨_, ofValues_eq records hps hns⟩

end Provenance

namespace Rules

variable {config : Value} {entries rules : List (Value × Value)} {skip : Bool} {keywords : List CodePoints}

def ofKeywords (skip : Bool) (keywords : List CodePoints) : Rules where
  skipStructural := skip
  structural := keywords.map fun s => .text (s.lowercase)

lemma ofKeywords_usable : (ofKeywords skip keywords).Usable := by
  apply usable_of_texts
  intro v hv
  obtain ⟨s, -, rfl⟩ := List.mem_map.mp hv
  exact ⟨_, rfl⟩

lemma ofConfig_keywords (hconfig : Source.effectiveConfig config = .mapping entries)
    (hrules : (Value.lookup "rules" entries).getD (.mapping []) = .mapping rules)
    (hkeywords : (Value.lookup "structural_children" rules).getD (.list (defaultStructural.map .text)) =
      .list (keywords.map .text)) :
    ofConfig config = .ok (ofKeywords
      ((Value.lookup "skip_structural_children" rules).getD (.bool false)).isTrue keywords) := by
  unfold ofConfig
  change (Value.entry? "rules" (Source.effectiveConfig config) >>= _) = _
  rw [hconfig]
  simp only [Value.entry?, bind, Except.bind, hrules, hkeywords, Value.items, Value.mapM_lower]
  rfl

end Rules

namespace Source

structure UsableConfig (config : Value) : Prop where
  catalogs : ∀ d : Document, ∃ p, d.provenance (effectiveConfig config) = .ok p
  rules : ∃ r, Rules.ofConfig config = .ok r ∧ r.Usable

lemma UsableConfig.of_texts {config : Value} {entries rules : List (Value × Value)}
    (hconfig : effectiveConfig config = .mapping entries)
    (hpackages : Provenance.IsCatalog ((Value.lookup "packages" entries).getD .null))
    (hnames : Provenance.IsCatalog ((Value.lookup "default_import_names" entries).getD .null))
    (hrules : (Value.lookup "rules" entries).getD (.mapping []) = .mapping rules)
    (hkeywords : ∀ v ∈ Value.lookup "structural_children" rules,
      ∃ ss : List CodePoints, v = .list (ss.map .text)) : UsableConfig config where
  catalogs := by
    intro d
    rw [hconfig]
    exact Provenance.ofValues_texts d.imports hpackages hnames
  rules := by
    obtain ⟨ss, hss⟩ : ∃ ss : List CodePoints,
        ((Value.lookup "structural_children" rules).getD
          (.list (Rules.defaultStructural.map .text))) = .list (ss.map .text) := by
      cases hv : Value.lookup "structural_children" rules with
      | none => exact ⟨Rules.defaultStructural, rfl⟩
      | some v => exact hkeywords v hv
    exact ⟨_, Rules.ofConfig_keywords hconfig hrules hss, Rules.ofKeywords_usable⟩

lemma null_usable : UsableConfig .null :=
  .of_texts rfl (.inl rfl) (.inl rfl) rfl (by simp [Value.lookup])

end Source

end MarkupLabels
