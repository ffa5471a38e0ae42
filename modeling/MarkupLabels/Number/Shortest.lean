import MarkupLabels.Number.Binary64
/-!
The text of a binary64 number: the fewest decimal digits that read back as the number, of those the
nearest to it, written positionally where the exponent is moderate and with an exponent elsewhere.
-/

namespace MarkupLabels.Binary64

/-- A positive finite number and the interval of reals that round to it, in units of
`1 / denominator`. -/
structure Interval where
  value : Nat
  low : Nat
  high : Nat
  denominator : Nat
  closed : Bool

def interval (x : Binary64) : Interval :=
  let m := x.significand
  let below := if m = 1 <<< 52 ∧ 1 < x.exponentField then 1 else 2
  let q := x.exponent - 2
  let scale := if q < 0 then 1 else 1 <<< q.natAbs
  { value := 4 * m * scale
    low := (4 * m - below) * scale
    high := (4 * m + 2) * scale
    denominator := if q < 0 then 1 <<< q.natAbs else 1
    closed := m % 2 == 0 }

def Interval.contains (i : Interval) (digits : Nat) (e : Int) : Bool :=
  let point := if e < 0 then digits * i.denominator else digits * Nat.pow 10 e.natAbs * i.denominator
  let scale := if e < 0 then Nat.pow 10 e.natAbs else 1
  if i.closed then i.low * scale ≤ point && point ≤ i.high * scale
  else i.low * scale < point && point < i.high * scale

def Interval.magnitude (i : Interval) : Int :=
  if i.denominator ≤ i.value then ((Nat.toDigits 10 (i.value / i.denominator)).length : Int) - 1
  else
    let scaled := i.value * Nat.pow 10 330 / i.denominator
    ((Nat.toDigits 10 scaled).length : Int) - 331

def Interval.over (i : Interval) (e : Int) : Nat × Nat :=
  if e < 0 then (i.value * Nat.pow 10 e.natAbs, i.denominator)
  else (i.value, i.denominator * Nat.pow 10 e.natAbs)

/-- The nearest point of the grid of step `10 ^ e` that lies in the interval, if one does; a tie
goes to the even neighbour. -/
def Interval.onGrid? (i : Interval) (e : Int) : Option Nat :=
  let (num, den) := i.over e
  let d := num / den
  let nearest := roundQuotient num den
  if i.contains nearest e then some nearest
  else if i.contains d e then some d
  else if i.contains (d + 1) e then some (d + 1)
  else none

def Interval.shortestFrom (i : Interval) (e : Int) : Nat → Nat × Int
  | 0 => ((i.onGrid? e).getD 0, e)
  | finer + 1 =>
    match i.onGrid? e with
    | some digits => (digits, e)
    | none => i.shortestFrom (e - 1) finer

def dropZeros : List Char → List Char × Nat := fun ds =>
  let kept := (ds.reverse.dropWhile (· = '0')).reverse
  (kept, ds.length - kept.length)

def shortest (x : Binary64) : List Char × Int :=
  let i := x.interval
  let (digits, e) := i.shortestFrom i.magnitude 17
  let written := Nat.toDigits 10 digits
  let (kept, _) := dropZeros written
  (kept, e + (written.length : Int) - 1)

def isPositional (e : Int) : Bool := -4 ≤ e && e < 16

def positional (digits : List Char) (e : Int) : List Char :=
  if e < 0 then '0' :: '.' :: (List.replicate (e.natAbs - 1) '0' ++ digits)
  else
    let whole := digits.take (e.natAbs + 1)
    let zeros := List.replicate (e.natAbs + 1 - whole.length) '0'
    let fraction := digits.drop (e.natAbs + 1)
    whole ++ zeros ++ '.' :: (if fraction.isEmpty then ['0'] else fraction)

def scientific (digits : List Char) (e : Int) : List Char :=
  let mantissa := match digits with
    | [] => ['0']
    | [d] => [d]
    | d :: rest => d :: '.' :: rest
  let exponent := Nat.toDigits 10 e.natAbs
  mantissa ++ 'e' :: (if e < 0 then '-' else '+') ::
    (if exponent.length < 2 then '0' :: exponent else exponent)

def finiteText (x : Binary64) : List Char :=
  let size :=
    if x.isZero then ['0', '.', '0']
    else
      let (digits, e) := x.shortest
      if isPositional e then positional digits e else scientific digits e
  if x.isNegative then '-' :: size else size

def text (x : Binary64) : String :=
  if x.isFinite then String.ofList x.finiteText
  else if x.isNaN then "nan"
  else if x.isNegative then "-inf" else "inf"

end MarkupLabels.Binary64
