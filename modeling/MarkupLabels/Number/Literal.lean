import MarkupLabels.Number.Binary64
/-!
Number literals of source text. A literal is first read as an integer, with an optional base prefix
and single underscores between digits, and otherwise as a decimal number.
-/

namespace MarkupLabels

def digitValue? (c : Char) : Option Nat :=
  if '0' ≤ c ∧ c ≤ '9' then some (c.toNat - '0'.toNat)
  else if 'a' ≤ c ∧ c ≤ 'z' then some (c.toNat - 'a'.toNat + 10)
  else if 'A' ≤ c ∧ c ≤ 'Z' then some (c.toNat - 'A'.toNat + 10)
  else none

namespace Literal

def ungroup (base : Nat) (joined : Bool) : List Char → Option (List Nat)
  | [] => if joined then some [] else none
  | c :: rest =>
    if c = '_' then
      if joined then ungroup base false rest else none
    else
      match digitValue? c with
      | some d => if d < base then (ungroup base true rest).map (d :: ·) else none
      | none => none

def ofDigits (base : Nat) (digits : List Nat) : Nat := digits.foldl (fun n d => n * base + d) 0

def grouped? (base : Nat) (cs : List Char) : Option (List Nat) := ungroup base false cs

def prefixed? (base : Nat) (cs : List Char) : Option Nat :=
  (ungroup base (cs.head? == some '_') cs).bind fun ds =>
    if ds.isEmpty then none else some (ofDigits base ds)

def maxDigits : Nat := 4300

def natural? : List Char → Option Nat
  | '0' :: 'x' :: rest => prefixed? 16 rest
  | '0' :: 'X' :: rest => prefixed? 16 rest
  | '0' :: 'o' :: rest => prefixed? 8 rest
  | '0' :: 'O' :: rest => prefixed? 8 rest
  | '0' :: 'b' :: rest => prefixed? 2 rest
  | '0' :: 'B' :: rest => prefixed? 2 rest
  | cs =>
    (grouped? 10 cs).bind fun ds =>
      if ds.head? = some 0 ∧ ds.any (· ≠ 0) then none
      else if maxDigits < ds.length then none
      else some (ofDigits 10 ds)

def splitExponent (cs : List Char) : List Char × Option (List Char) :=
  match cs.dropWhile (fun c => c ≠ 'e' ∧ c ≠ 'E') with
  | [] => (cs, none)
  | _ :: rest => (cs.takeWhile (fun c => c ≠ 'e' ∧ c ≠ 'E'), some rest)

def signed? : List Char → Option Int
  | '-' :: rest => (grouped? 10 rest).map fun ds => -(ofDigits 10 ds : Int)
  | '+' :: rest => (grouped? 10 rest).map fun ds => (ofDigits 10 ds : Int)
  | rest => (grouped? 10 rest).map fun ds => (ofDigits 10 ds : Int)

def digits? (cs : List Char) : Option (List Nat) :=
  if cs.isEmpty then some [] else grouped? 10 cs

def decimal? (cs : List Char) : Option Binary64 :=
  let (mantissa, exponentText) := splitExponent cs
  let whole := mantissa.takeWhile (· ≠ '.')
  let fraction := (mantissa.dropWhile (· ≠ '.')).drop 1
  let exponent := match exponentText with
    | none => some 0
    | some text => signed? text
  match digits? whole, digits? fraction, exponent with
  | some before, some after, some e =>
    if before.isEmpty ∧ after.isEmpty then none
    else some (.ofDecimal (ofDigits 10 (before ++ after)) (e - after.length))
  | _, _, _ => none

end Literal

end MarkupLabels
