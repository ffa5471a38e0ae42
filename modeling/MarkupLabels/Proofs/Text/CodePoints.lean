import Mathlib
import MarkupLabels.Text.Word

namespace MarkupLabels

lemma CodePoint.toNat_injective : Function.Injective toNat := by
  rintro (c | m) (d | n) h
  · rw [Char.toNat_inj.mp h]
  · have hvalid := c.valid
    have heq : c.toNat = 0xd800 + n := h
    change c.toNat < 0xd800 ∨ (0xdfff < c.toNat ∧ c.toNat < 0x110000) at hvalid
    omega
  · have hvalid := d.valid
    have heq : 0xd800 + m = d.toNat := h
    change d.toNat < 0xd800 ∨ (0xdfff < d.toNat ∧ d.toNat < 0x110000) at hvalid
    omega
  · rw [Fin.ext (Nat.add_left_cancel h)]

instance : LinearOrder CodePoint := LinearOrder.lift' CodePoint.toNat CodePoint.toNat_injective

namespace CodePoints

lemma ofChars_injective : Function.Injective ofChars :=
  List.map_injective_iff.mpr fun _ _ => CodePoint.char.inj

@[simp] lemma ofString_inj {s t : String} : ofString s = ofString t ↔ s = t :=
  ofChars_injective.eq_iff.trans String.toList_inj

@[simp] lemma ofString_ofList (cs : List Char) : ofString (String.ofList cs) = ofChars cs := by
  rw [ofString, String.toList_ofList]

lemma mapM_char? (cs : List Char) : (ofChars cs).mapM CodePoint.char? = some cs := by
  induction cs with
  | nil => rfl
  | cons c cs ih =>
    change ((CodePoint.char c :: ofChars cs).mapM CodePoint.char?) = _
    rw [List.mapM_cons, ih]
    rfl

lemma string?_ofString (s : String) : (ofString s).string? = some s := by
  rw [string?, ofString, mapM_char?, Option.map_some, String.ofList_toList]

end CodePoints

end MarkupLabels
