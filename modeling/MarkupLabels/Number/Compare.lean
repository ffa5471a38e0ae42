import MarkupLabels.Number.Binary64

namespace MarkupLabels

inductive ExactNumber
  | finite (mantissa : Int) (exponent : Int)
  | infinite (negative : Bool)
  | undefined
deriving DecidableEq, Repr

namespace ExactNumber

def ofInt (n : Int) : ExactNumber := .finite n 0

def ofReal (x : Binary64) : ExactNumber :=
  if x.isFinite then
    .finite (if x.isNegative then -(x.significand : Int) else (x.significand : Int)) x.exponent
  else if x.isNaN then .undefined
  else .infinite x.isNegative

def aligned (m₁ e₁ m₂ e₂ : Int) : Int × Int :=
  let e := min e₁ e₂
  (m₁ <<< (e₁ - e).toNat, m₂ <<< (e₂ - e).toNat)

def lt : ExactNumber → ExactNumber → Bool
  | .finite m₁ e₁, .finite m₂ e₂ => let (a, b) := aligned m₁ e₁ m₂ e₂; a < b
  | .finite _ _, .infinite negative => !negative
  | .infinite negative, .finite _ _ => negative
  | .infinite n₁, .infinite n₂ => n₁ && !n₂
  | _, _ => false

def eq : ExactNumber → ExactNumber → Bool
  | .finite m₁ e₁, .finite m₂ e₂ => let (a, b) := aligned m₁ e₁ m₂ e₂; a == b
  | .infinite n₁, .infinite n₂ => n₁ == n₂
  | _, _ => false

end ExactNumber

end MarkupLabels
