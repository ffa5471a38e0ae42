/-!
Texts as sequences of code points. Besides characters they may hold halves of surrogate pairs, which
an escape in a text can stand for.
-/

namespace MarkupLabels

inductive CodePoint
  | char (c : Char)
  | surrogate (n : Fin 0x800)
deriving DecidableEq, Repr, Inhabited

namespace CodePoint

def toNat : CodePoint → Nat
  | .char c => c.toNat
  | .surrogate n => 0xd800 + n

instance : LT CodePoint := ⟨fun p q => p.toNat < q.toNat⟩

instance : DecidableLT CodePoint := fun p q => inferInstanceAs (Decidable (p.toNat < q.toNat))

def ofNat (n : Nat) : CodePoint :=
  if h : 0xd800 ≤ n ∧ n < 0xe000 then .surrogate ⟨n - 0xd800, by omega⟩ else .char (Char.ofNat n)

def char? : CodePoint → Option Char
  | .char c => some c
  | .surrogate _ => none

def isHigh : CodePoint → Bool
  | .char _ => false
  | .surrogate n => n < 0x400

def isLow : CodePoint → Bool
  | .char _ => false
  | .surrogate n => 0x400 ≤ n

end CodePoint

abbrev CodePoints := List CodePoint

namespace CodePoints

instance : LawfulBEq CodePoints := inferInstance

def ofChars (cs : List Char) : CodePoints := cs.map .char

def ofString (s : String) : CodePoints := ofChars s.toList

instance : Coe String CodePoints := ⟨ofString⟩

def shown (s : CodePoints) : List Char := s.map fun p => p.char?.getD '\ufffd'

def string? (s : CodePoints) : Option String := (s.mapM CodePoint.char?).map String.ofList

end CodePoints

end MarkupLabels
