/-!
Binary64 numbers as bit patterns. `Binary64.ofRatio` rounds a positive quotient to the nearest
number, ties to even, in exact arithmetic on natural numbers, and `Binary64.ofDecimal` reads
`digits · 10 ^ exponent` through it.
-/

namespace MarkupLabels

/-- A binary64 number. It is held as its bits, so that two numbers are equal exactly when they are
written alike: `-0.0` differs from `0.0` and a NaN equals itself. -/
structure Binary64 where
  bits : UInt64
deriving DecidableEq, Repr, Inhabited

namespace Binary64

def infinity : Binary64 := ⟨0x7ff0000000000000⟩

def negInfinity : Binary64 := ⟨0xfff0000000000000⟩

def nan : Binary64 := ⟨0x7ff8000000000000⟩

def zero : Binary64 := ⟨0⟩

def isNegative (x : Binary64) : Bool := x.bits.toNat >>> 63 == 1

def exponentField (x : Binary64) : Nat := (x.bits.toNat >>> 52) % (1 <<< 11)

def fractionField (x : Binary64) : Nat := x.bits.toNat % (1 <<< 52)

def isNaN (x : Binary64) : Bool := x.exponentField == 2047 && x.fractionField != 0

def isFinite (x : Binary64) : Bool := x.exponentField != 2047

def isZero (x : Binary64) : Bool := x.exponentField == 0 && x.fractionField == 0

def neg (x : Binary64) : Binary64 := ⟨x.bits ^^^ 0x8000000000000000⟩

def significand (x : Binary64) : Nat :=
  if x.exponentField = 0 then x.fractionField else x.fractionField + (1 <<< 52)

def exponent (x : Binary64) : Int :=
  if x.exponentField = 0 then -1074 else (x.exponentField : Int) - 1075

def roundQuotient (num den : Nat) : Nat :=
  let q := num / den
  let twice := 2 * (num % den)
  if twice < den then q else if den < twice then q + 1 else q + q % 2

def scaledQuotient (num den : Nat) (e : Int) : Nat :=
  if e < 0 then roundQuotient (num <<< e.natAbs) den else roundQuotient num (den <<< e.natAbs)

/-- The nearest number to the positive quotient `num / den`, ties to even. The exponent is the
least for which the integer part has at most fifty-three bits; a carry out of the rounding runs
into the exponent field by itself. -/
def ofRatio (num den : Nat) : Binary64 :=
  if num = 0 then zero
  else
    let width : Int := (num.log2 : Int) - (den.log2 : Int)
    let low := max (width - 53) (-1074)
    let e :=
      if low < 0 then
        if (num <<< low.natAbs) / den < 1 <<< 53 then low else low + 1
      else
        if num / (den <<< low.natAbs) < 1 <<< 53 then low else low + 1
    let pattern := ((e + 1074).toNat <<< 52) + scaledQuotient num den e
    if pattern < 2047 <<< 52 then ⟨UInt64.ofNat pattern⟩ else infinity

def ofDecimal (digits : Nat) (exponent : Int) : Binary64 :=
  if digits = 0 then zero
  else
    let places : Int := ((Nat.toDigits 10 digits).length : Int) + exponent
    if 310 < places then infinity
    else if places < -330 then zero
    else if exponent < 0 then ofRatio digits (Nat.pow 10 exponent.natAbs)
    else ofRatio (digits * Nat.pow 10 exponent.natAbs) 1

def ofInt (n : Int) : Binary64 :=
  if n < 0 then (ofRatio n.natAbs 1).neg else ofRatio n.natAbs 1

end Binary64

end MarkupLabels
