import Mathlib
import MarkupLabels.Text.Lowercase

namespace MarkupLabels

def TextOver (alphabet : Set Char) (s : String) : Prop := ∀ c ∈ s.toList, c ∈ alphabet

def noReturns : Set Char := {c | c ≠ '\r'}

variable {A : Set Char} {cs : List Char} {s : String}

lemma over_ofList : TextOver A (String.ofList cs) ↔ ∀ c ∈ cs, c ∈ A := by
  simp [TextOver]

lemma mem_noReturns : (∀ c ∈ cs, c ∈ noReturns) ↔ '\r' ∉ cs := by
  constructor
  · intro h hc
    exact h _ hc rfl
  · rintro h c hc rfl
    exact h hc

instance : Decidable (TextOver noReturns s) :=
  decidable_of_iff ('\r' ∉ s.toList) mem_noReturns.symm

namespace Text

lemma toNat_ofNat (n : Nat) : (Char.ofNat n).toNat = n ∨ (Char.ofNat n).toNat = 0 := by
  unfold Char.ofNat
  split
  · exact .inl rfl
  · exact .inr rfl

lemma lowerChar_mem_noReturns {c : Char} (h : c ∈ noReturns) : lowerChar c ∈ noReturns := by
  have hascii : ∀ n < 0x80, (Char.ofNat n).toLower = '\r' → n = '\r'.toNat := by decide
  have hruns : ∀ run ∈ lowerRuns, 13 < (run.1 : Int) + run.2.2.2 := by decide +kernel
  intro hreturn
  unfold lowerChar at hreturn
  simp only at hreturn
  split at hreturn
  · next hn =>
    have hcode := hascii c.toNat hn (by rwa [Char.ofNat_toNat])
    exact h (Char.toNat_inj.mp hcode)
  · split at hreturn
    · next first last step distance hfind =>
      have hrun := hruns _ (List.mem_of_find?_eq_some hfind)
      have hfirst : first ≤ c.toNat := by
        have hfound := List.find?_some hfind
        simp only [Bool.and_eq_true, decide_eq_true_eq] at hfound
        exact hfound.1.1
      have hcode : (Char.ofNat (c.toNat + distance).toNat).toNat = 13 := congrArg Char.toNat hreturn
      simp only at hrun
      rcases toNat_ofNat (c.toNat + distance).toNat with heq | heq <;> omega
    · exact h hreturn

lemma lowerFrom_mem_noReturns (before : List Char) (h : ∀ c ∈ cs, c ∈ noReturns) :
    ∀ c ∈ lowerFrom before cs, c ∈ noReturns := by
  induction cs generalizing before with
  | nil => simp [lowerFrom]
  | cons c cs ih =>
    obtain ⟨hc, hcs⟩ := List.forall_mem_cons.mp h
    rw [lowerFrom, lowerAt]
    refine List.forall_mem_append.mpr ⟨?_, ih _ hcs⟩
    split
    · split <;> simp [noReturns]
    split
    · simp [noReturns]
    · simpa using lowerChar_mem_noReturns hc

lemma lowercase_over (h : TextOver noReturns s) : TextOver noReturns (lowercase s) :=
  over_ofList.mpr (lowerFrom_mem_noReturns [] h)

end Text

end MarkupLabels
