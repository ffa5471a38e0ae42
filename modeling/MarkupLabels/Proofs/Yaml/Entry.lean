import Mathlib
import MarkupLabels.Proofs.Text.CodePoints
import MarkupLabels.Yaml.Document

namespace MarkupLabels.Yaml

namespace Scan

variable {s t : Scan} {step : Scan → Except Fault Scan}

def advance (step : Scan → Except Fault Scan) : Nat → Scan → Except Fault Scan
  | 0, s => .ok s
  | n + 1, s => if s.finished then .error .malformed else (step s).bind (advance step n)

lemma run_add {n : Nat} (h : advance step n s = .ok t) (fuel : Nat) :
    run step (fuel + n) s = run step fuel t := by
  induction n generalizing s with
  | zero =>
    cases h
    rfl
  | succ n ih =>
    rw [advance] at h
    split at h
    · cases h
    · next hunfinished =>
      cases hstep : step s with
      | error f => simp [hstep, Except.bind] at h
      | ok u =>
        rw [hstep] at h
        rw [← Nat.add_assoc, run, if_neg hunfinished, hstep]
        exact ih h

lemma run_finished (h : s.finished) (fuel : Nat) : run step (fuel + 1) s = (s.tokens, none) := by
  rw [run, if_pos h]

end Scan

lemma ofPoints_ofChars (cs : List Char) : Tag.ofPoints (.ofChars cs) = .ofScalar (String.ofList cs) := by
  rw [Tag.ofPoints, ← CodePoints.ofString_ofList, CodePoints.string?_ofString, Option.elim_some]

def entryTokens (key words : List Char) : List Token :=
  [.blockMappingStart, .key, .scalar (.ofChars key) true, .value, .scalar (.ofChars words) true,
    .blockEnd, .streamEnd]

variable {text key words : List Char}

lemma document_entryTokens (key words : List Char) :
    Parse.document (entryTokens key words) none =
      .ok (some (.mapping .mapping [(.scalar (.ofScalar (String.ofList key)) (.ofChars key),
        .scalar (.ofScalar (String.ofList words)) (.ofChars words))])) := by
  rw [← ofPoints_ofChars, ← ofPoints_ofChars]
  rfl

lemma value_entry (level fuel : Nat) (key words : CodePoints) :
    Node.value level (fuel + 2) (.mapping .mapping [(.scalar .text key, .scalar .text words)]) =
      .ok (.mapping [(.text key, .text words)]) := by
  simp [Node.value, Node.value.entryValues, Node.allEntries, Node.flattenEntries, Node.isScalarTag,
    Node.isCollectionTag, Node.tag, Node.scalarValue, Node.putAll, Value.put, atLevel, combine,
    Except.map, bind, Except.bind, pure, Except.pure]

lemma read_entry {n : Nat} {s : Scan} (hprintable : text.all isPrintable)
    (hscan : Scan.advance Scan.next n (.start text) =
      .ok { s with tokens := entryTokens key words, finished := true })
    (hn : n ≤ text.length) (hkey : Tag.ofScalar (String.ofList key) = .text)
    (hwords : Tag.ofScalar (String.ofList words) = .text) :
    read text = .ok (.mapping [(.text (.ofChars key), .text (.ofChars words))]) := by
  have hread : tokens text = (entryTokens key words, none) := by
    obtain ⟨fuel, hfuel⟩ := Nat.exists_eq_add_of_le' hn
    rw [tokens, if_pos hprintable, hfuel, Nat.add_right_comm, Scan.run_add hscan, Scan.run_finished rfl]
  rw [read, Node.read, hread]
  simp only [document_entryTokens, hkey, hwords, bind, Except.bind, value_entry]
  rfl

end MarkupLabels.Yaml
