import Mathlib
import MarkupLabels.Json.Quoted
import MarkupLabels.Proofs.Text.CodePoints

/-! Escapes of a string literal stand for the text that was written: they are read as units of sixteen
bits, and pairs of surrogates are put together. So a text is lost only where halves of a pair that were
apart in it come to stand together. -/

namespace MarkupLabels.Json

def digitValue? (c : Char) : Option Nat :=
  if '0' ≤ c ∧ c ≤ '9' then some (c.toNat - '0'.toNat)
  else if 'a' ≤ c ∧ c ≤ 'f' then some (c.toNat - 'a'.toNat + 10)
  else if 'A' ≤ c ∧ c ≤ 'F' then some (c.toNat - 'A'.toNat + 10)
  else none

def unit? (a b c d : Char) : Option Nat := do
  let w ← digitValue? a
  let x ← digitValue? b
  let y ← digitValue? c
  let z ← digitValue? d
  some (((w * 16 + x) * 16 + y) * 16 + z)

def namedEscape? : Char → Option Char
  | '"' => some '"'
  | '\\' => some '\\'
  | '/' => some '/'
  | 'b' => some '\x08'
  | 'f' => some '\x0c'
  | 'n' => some '\n'
  | 'r' => some '\r'
  | 't' => some '\t'
  | _ => none

def units? : List Char → Option (List Nat)
  | [] => some []
  | '\\' :: 'u' :: a :: b :: c :: d :: rest => do
    let n ← unit? a b c d
    let ns ← units? rest
    some (n :: ns)
  | '\\' :: c :: rest => do
    let d ← namedEscape? c
    let ns ← units? rest
    some (d.toNat :: ns)
  | c :: rest => do
    let ns ← units? rest
    if c = '"' ∨ c = '\\' ∨ c.toNat < 32 then none else some (c.toNat :: ns)

def ofPair (n m : Nat) : CodePoint :=
  .char (Char.ofNat (0x10000 + (n - 0xd800) * 0x400 + (m - 0xdc00)))

def joined : List Nat → CodePoints
  | [] => []
  | [n] => [.ofNat n]
  | n :: m :: ns =>
    if (0xd800 ≤ n ∧ n < 0xdc00) ∧ 0xdc00 ≤ m ∧ m < 0xe000 then ofPair n m :: joined ns
    else .ofNat n :: joined (m :: ns)

def unescaped? (cs : List Char) : Option (List Char) :=
  (units? cs).bind fun ns => (joined ns).mapM CodePoint.char?

def unitsOf (c : Char) : List Nat :=
  if c.toNat < 0x10000 then [c.toNat]
  else [0xd800 + (c.toNat - 0x10000) / 0x400, 0xdc00 + (c.toNat - 0x10000) % 0x400]

end MarkupLabels.Json

namespace MarkupLabels

def CodePoint.units : CodePoint → List Nat
  | .char c => Json.unitsOf c
  | .surrogate n => [0xd800 + n]

namespace CodePoints

def units (s : CodePoints) : List Nat := s.flatMap CodePoint.units

def Unpaired (s : CodePoints) : Prop := s.IsChain fun p q => ¬ (p.isHigh ∧ q.isLow)

instance (s : CodePoints) : Decidable s.Unpaired := inferInstanceAs (Decidable (List.IsChain _ _))

end CodePoints

end MarkupLabels

namespace MarkupLabels.Json

variable {n : Nat} {c : Char} {ns : List Nat}

lemma digitValue?_hexDigit (n : Nat) : digitValue? (hexDigit (n % 16)) = some (n % 16) := by
  have h : ∀ m < 16, digitValue? (hexDigit m) = some m := by decide
  exact h _ (Nat.mod_lt _ (by decide))

lemma units?_unitEscape (hn : n < 0x10000) (rest : List Char) :
    units? (unitEscape n ++ rest) = (units? rest).map (n :: ·) := by
  have hunit : unit? (hexDigit (n / 4096 % 16)) (hexDigit (n / 256 % 16)) (hexDigit (n / 16 % 16))
      (hexDigit (n % 16)) = some n := by
    simp only [unit?, digitValue?_hexDigit, Option.bind_eq_bind, Option.bind_some, Option.some.injEq]
    omega
  simp only [unitEscape, List.cons_append, List.nil_append, units?, hunit, Option.bind_eq_bind,
    Option.bind_some]
  cases units? rest <;> rfl

lemma toNat_cases (c : Char) : c.toNat < 0xd800 ∨ (0xdfff < c.toNat ∧ c.toNat < 0x110000) := c.valid

lemma units?_named {letter : Char} (h : namedEscape? letter = some c) (hletter : letter ≠ 'u')
    (hc : c.toNat < 0x10000) (rest : List Char) :
    units? (['\\', letter] ++ rest) = (units? rest).map (unitsOf c ++ ·) := by
  rw [unitsOf, if_pos hc]
  cases hrest : units? rest <;> simp [units?, h, hletter, hrest]

lemma units?_unnamed (hquote : c ≠ '"') (hbackslash : c ≠ '\\') (rest : List Char) :
    units? ((if ' ' ≤ c ∧ c ≤ '~' then [c]
      else if c.toNat < 0x10000 then unitEscape c.toNat
      else unitEscape (0xd800 + (c.toNat - 0x10000) / 0x400) ++
        unitEscape (0xdc00 + (c.toNat - 0x10000) % 0x400)) ++ rest) =
      (units? rest).map (unitsOf c ++ ·) := by
  unfold unitsOf
  split
  · next h =>
    have hlow : ¬ c.toNat < 32 := not_lt.mpr h.1
    have hhigh : c.toNat < 0x10000 := lt_of_le_of_lt (b := 126) h.2 (by decide)
    rw [if_pos hhigh]
    cases hrest : units? rest <;> simp [units?, hquote, hbackslash, hlow, hrest]
  · split
    · next h =>
      rw [units?_unitEscape h]
      rfl
    · have hc := toNat_cases c
      rw [List.append_assoc, units?_unitEscape (by omega), units?_unitEscape (by omega),
        Option.map_map]
      rfl

lemma units?_escape (c : Char) (rest : List Char) :
    units? (escape c ++ rest) = (units? rest).map (unitsOf c ++ ·) := by
  unfold escape
  by_cases h₁ : c = '"'
  · rw [if_pos h₁, h₁]
    exact units?_named rfl (by decide) (by decide) rest
  rw [if_neg h₁]
  by_cases h₂ : c = '\\'
  · rw [if_pos h₂, h₂]
    exact units?_named rfl (by decide) (by decide) rest
  rw [if_neg h₂]
  by_cases h₃ : c = '\n'
  · rw [if_pos h₃, h₃]
    exact units?_named rfl (by decide) (by decide) rest
  rw [if_neg h₃]
  by_cases h₄ : c = '\r'
  · rw [if_pos h₄, h₄]
    exact units?_named rfl (by decide) (by decide) rest
  rw [if_neg h₄]
  by_cases h₅ : c = '\t'
  · rw [if_pos h₅, h₅]
    exact units?_named rfl (by decide) (by decide) rest
  rw [if_neg h₅]
  by_cases h₆ : c = '\x08'
  · rw [if_pos h₆, h₆]
    exact units?_named rfl (by decide) (by decide) rest
  rw [if_neg h₆]
  by_cases h₇ : c = '\x0c'
  · rw [if_pos h₇, h₇]
    exact units?_named rfl (by decide) (by decide) rest
  rw [if_neg h₇]
  exact units?_unnamed h₁ h₂ rest

lemma units?_escapePoint (p : CodePoint) (rest : List Char) :
    units? (escapePoint p ++ rest) = (units? rest).map (p.units ++ ·) := by
  cases p with
  | char c => exact units?_escape c rest
  | surrogate n =>
    have hn : 0xd800 + n.val < 0x10000 := by omega
    exact units?_unitEscape hn rest

lemma units?_escaped (s : CodePoints) : units? (s.flatMap escapePoint) = some s.units := by
  induction s with
  | nil => rfl
  | cons p s ih =>
    rw [List.flatMap_cons, units?_escapePoint, ih]
    rfl

lemma joined_cons (h : ¬ ((0xd800 ≤ n ∧ n < 0xdc00) ∧ ∃ m ∈ ns.head?, 0xdc00 ≤ m ∧ m < 0xe000)) :
    joined (n :: ns) = .ofNat n :: joined ns := by
  cases ns with
  | nil => rfl
  | cons m ns =>
    rw [joined, if_neg]
    exact fun hpair => h ⟨hpair.1, m, rfl, hpair.2⟩

lemma ofNat_toNat (p : CodePoint) : .ofNat p.toNat = p := by
  cases p with
  | char c =>
    have hc := toNat_cases c
    have hlow : ¬ (0xd800 ≤ c.toNat ∧ c.toNat < 0xe000) := by omega
    rw [CodePoint.toNat, CodePoint.ofNat, dif_neg hlow, Char.ofNat_toNat]
  | surrogate n =>
    have hn : 0xd800 ≤ 0xd800 + n.val ∧ 0xd800 + n.val < 0xe000 := by omega
    rw [CodePoint.toNat, CodePoint.ofNat, dif_pos hn]
    exact congrArg CodePoint.surrogate (Fin.ext (Nat.add_sub_cancel_left ..))

lemma joined_unitsOf (c : Char) (ns : List Nat) : joined (unitsOf c ++ ns) = .char c :: joined ns := by
  have hc := toNat_cases c
  unfold unitsOf
  split
  · rw [List.singleton_append, joined_cons (by omega)]
    exact congrArg (· :: joined ns) (ofNat_toNat (.char c))
  · have hsum : 0x10000 + (0xd800 + (c.toNat - 0x10000) / 0x400 - 0xd800) * 0x400 +
        (0xdc00 + (c.toNat - 0x10000) % 0x400 - 0xdc00) = c.toNat := by omega
    rw [List.cons_append, List.singleton_append, joined, if_pos (by omega), ofPair, hsum,
      Char.ofNat_toNat]

-- No text begins with the second half of a pair unless it begins with that half alone.
lemma isLow_of_head {s : CodePoints} {m : Nat} (hm : m ∈ s.units.head?) (hlow : 0xdc00 ≤ m)
    (hhigh : m < 0xe000) : ∃ q ∈ s.head?, q.isLow := by
  cases s with
  | nil => cases hm
  | cons p s =>
    refine ⟨p, rfl, ?_⟩
    cases p with
    | char c =>
      have hc := toNat_cases c
      change m ∈ (unitsOf c ++ CodePoints.units s).head? at hm
      unfold unitsOf at hm
      split at hm <;> obtain rfl := Option.some.inj hm <;> omega
    | surrogate n =>
      obtain rfl : 0xd800 + n.val = m := Option.some.inj hm
      exact decide_eq_true (by omega)

lemma joined_units {s : CodePoints} (h : s.Unpaired) : joined s.units = s := by
  induction s with
  | nil => rfl
  | cons p s ih =>
    have htail : joined (CodePoints.units s) = s := ih h.tail
    cases p with
    | char c => exact (joined_unitsOf c _).trans (congrArg _ htail)
    | surrogate n =>
      change joined ((0xd800 + n.val) :: CodePoints.units s) = _
      rw [joined_cons, htail]
      · exact congrArg (· :: s) (ofNat_toNat (.surrogate n))
      · rintro ⟨hn, m, hm, hlow, hhigh⟩
        obtain ⟨q, hq, hislow⟩ := isLow_of_head hm hlow hhigh
        exact (List.isChain_cons.mp h).1 q hq ⟨decide_eq_true (by omega), hislow⟩

lemma ofChars_unpaired (cs : List Char) : (CodePoints.ofChars cs).Unpaired := by
  rw [CodePoints.Unpaired, CodePoints.ofChars, List.isChain_map]
  exact (List.pairwise_of_forall fun _ _ h => nomatch h.1).isChain

lemma escaped_ofChars (cs : List Char) : (CodePoints.ofChars cs).flatMap escapePoint = quotedBody cs :=
  List.flatMap_map ..

lemma unescaped?_quotedBody (cs : List Char) : unescaped? (quotedBody cs) = some cs := by
  rw [unescaped?, ← escaped_ofChars, units?_escaped, Option.bind_some,
    joined_units (ofChars_unpaired cs), CodePoints.mapM_char?]

end MarkupLabels.Json
