import Mathlib
import MarkupLabels.Proofs.Config.Reordering

namespace MarkupLabels.Config

open Value

variable {c c' : Value} {v v' : Vocabulary} {text : List Char}

lemma fingerprint_eq (h : payload c v = .ok text) : fingerprint c v = .ok (Sha256.hash (bytes text)) := by
  rw [fingerprint, h]
  rfl

lemma exists_fingerprint (h : Plain c) (v : Vocabulary) : ∃ hash, fingerprint c v = .ok hash :=
  ⟨_, fingerprint_eq (plain_settings h v).json_eq⟩

/-- The hashed texts of two plain configurations, each under a vocabulary, are the same if the vocabularies
are and the configurations are up to the order of entries; and only if, unless halves of a pair stand
together in one of them. So without a collision of hashes, equal fingerprints stand for equal labels. -/
theorem payload_faithful (hc : Plain c) (hc' : Plain c') (v v' : Vocabulary) :
    ∃ text text', payload c v = .ok text ∧ payload c' v' = .ok text' ∧
      fingerprint c v = .ok (Sha256.hash (bytes text)) ∧
      fingerprint c' v' = .ok (Sha256.hash (bytes text')) ∧
      (v = v' ∧ Reordered c c' → text = text') ∧
      (Unpaired c → Unpaired c' →
        (text = text' ↔ v = v' ∧ Reordered c c') ∧
        ((Sha256.hash (bytes text) = Sha256.hash (bytes text') → bytes text = bytes text') →
          fingerprint c v = fingerprint c' v' →
            ∀ language source, Source.label language c source = Source.label language c' source)) := by
  have hplain := plain_settings hc v
  have hplain' := plain_settings hc' v'
  have hpayload : payload c v = .ok (settings c v).written := hplain.json_eq
  have hpayload' : payload c' v' = .ok (settings c' v').written := hplain'.json_eq
  refine ⟨_, _, hpayload, hpayload', fingerprint_eq hpayload, fingerprint_eq hpayload', ?_, ?_⟩
  · intro h
    exact ((reordered_settings hc).mpr h).written_eq hplain hplain'
  · intro hunpaired hunpaired'
    have hiff : (settings c v).written = (settings c' v').written ↔ v = v' ∧ Reordered c c' :=
      (hplain.written_eq_iff hplain' (unpaired_settings hunpaired v)
        (unpaired_settings hunpaired' v')).trans (reordered_settings hc)
    refine ⟨hiff, fun hcollision heq language source => ?_⟩
    rw [fingerprint_eq hpayload, fingerprint_eq hpayload'] at heq
    have hbytes := hcollision (Except.ok.inj heq)
    have htexts : (settings c v).written = (settings c' v').written := by
      rw [← map_bytes hplain.ascii, hbytes, map_bytes hplain'.ascii]
    exact Source.label_alike ⟨hc, hc', (hiff.mp htexts).2⟩ language source

theorem payload_faithful_nested :
    let c : Value := .mapping (textEntries [("packages", .list [.text "day"]),
      ("rules", .mapping (textEntries [("a", .bool true), ("b", .integer 1)]))])
    let c' : Value := .mapping (textEntries [
      ("rules", .mapping (textEntries [("b", .integer 1), ("a", .bool true)])),
      ("packages", .list [.text "day"])])
    Plain c ∧ Plain c' ∧ Unpaired c ∧ Unpaired c' ∧ Reordered c c' ∧
      ∀ language source, Source.label language c source = Source.label language c' source := by
  intro c c'
  have hc : Plain c := by
    simp [c, plain_mapping, plain_list, Plain.text, Plain.bool, Plain.integer]
  have hc' : Plain c' := by
    simp [c', plain_mapping, plain_list, Plain.text, Plain.bool, Plain.integer]
  have hunpaired : Unpaired c := by
    simp [c, unpaired_mapping, unpaired_list, unpaired_text, Unpaired.bool, Unpaired.integer]
    decide
  have hunpaired' : Unpaired c' := by
    simp [c', unpaired_mapping, unpaired_list, unpaired_text, Unpaired.bool, Unpaired.integer]
    decide
  obtain ⟨text, text', htext, htext', hhash, hhash', -, h⟩ := payload_faithful hc hc' .standard .standard
  obtain ⟨hiff, hlabels⟩ := h hunpaired hunpaired'
  have hsame : text = text' := by
    have hboth : (payload c .standard).toOption = (payload c' .standard).toOption := by decide +kernel
    rw [htext, htext'] at hboth
    exact Option.some.inj hboth
  refine ⟨hc, hc', hunpaired, hunpaired', (hiff.mp hsame).2, hlabels (fun _ => by rw [hsame]) ?_⟩
  rw [hhash, hhash', hsame]

theorem payload_paired :
    let halves : Value := .mapping (textEntries [("packages", .list [.text [.surrogate 0x3d, .surrogate 0x600]])])
    let whole : Value := .mapping (textEntries [("packages", .list [.text "😀"])])
    let annotated (c : Value) : Option Nat :=
      (Source.label .tsx c "import { Button } from '😀'; <Button />".toList).toOption.map (·.stats.annotated)
    Plain halves ∧ Plain whole ∧ ¬ Reordered halves whole ∧
      (∃ text, payload halves .standard = .ok text ∧ payload whole .standard = .ok text) ∧
      fingerprint halves .standard = fingerprint whole .standard ∧
      annotated halves = some 0 ∧ annotated whole = some 1 := by
  intro halves whole annotated
  have hhalves : Plain halves := by simp [halves, plain_mapping, plain_list, Plain.text]
  have hwhole : Plain whole := by simp [whole, plain_mapping, plain_list, Plain.text]
  have hpayload : payload halves .standard = .ok (settings halves .standard).written :=
    (plain_settings hhalves _).json_eq
  have hsame : payload whole .standard = .ok (settings halves .standard).written := by
    have hboth : (payload halves .standard).toOption = (payload whole .standard).toOption := by
      decide +kernel
    have hpayload' : payload whole .standard = .ok (settings whole .standard).written :=
      (plain_settings hwhole _).json_eq
    rw [hpayload, hpayload'] at hboth
    rw [hpayload', Option.some.inj hboth]
  refine ⟨hhalves, hwhole, ?_, ⟨_, hpayload, hsame⟩, ?_, by decide +kernel, by decide +kernel⟩
  · intro h
    have hlist := (reordered_mapping h).2 "packages" _ _ List.mem_cons_self List.mem_cons_self
    have htext := (reordered_list hlist).2 0 _ _ rfl rfl
    cases reordered_text htext
  · rw [fingerprint_eq hpayload, fingerprint_eq hsame]

end MarkupLabels.Config
