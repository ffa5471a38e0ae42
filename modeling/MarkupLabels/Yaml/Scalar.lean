import MarkupLabels.Yaml.Tag
import MarkupLabels.Config.Value
import MarkupLabels.Number.Literal
import MarkupLabels.Text.Lowercase

namespace MarkupLabels.Yaml

open Tag

def trim (cs : List Char) : List Char :=
  let blank := fun c => c == ' ' || (9 ≤ c.toNat && c.toNat ≤ 13)
  ((cs.dropWhile blank).reverse.dropWhile blank).reverse

def takeSign : List Char → Bool × List Char
  | '-' :: rest => (true, rest)
  | '+' :: rest => (false, rest)
  | rest => (false, rest)

def negateIf (negative : Bool) (n : Int) : Int := if negative then -n else n

def dropBase (base : Nat) (cs : List Char) : List Char :=
  match cs with
  | '0' :: letter :: rest =>
    let l := letter.toLower
    if (base = 2 ∧ l = 'b') ∨ (base = 8 ∧ l = 'o') ∨ (base = 16 ∧ l = 'x') then rest
    else cs
  | _ => cs

def integerIn (base : Nat) (cs : List Char) : Except Fault Int :=
  let (negative, digits) := takeSign (trim cs)
  match Literal.grouped? base (dropBase base digits) with
  | some ds =>
    if base = 10 ∧ Literal.maxDigits < ds.length then .error .noSuchValue
    else .ok (negateIf negative (Literal.ofDigits base ds))
  | none => .error .noSuchValue

def sixtieths (parts : List Int) : Int := parts.foldl (fun n d => n * 60 + d) 0

def readInteger (cs : List Char) : Except Fault Int := do
  let cs := cs.filter (· != '_')
  if cs.isEmpty then throw .emptyNumber
  let (negative, unsigned) := takeSign cs
  match unsigned with
  | [] => throw .emptyNumber
  | ['0'] => return 0
  | '0' :: 'b' :: rest => return negateIf negative (← integerIn 2 rest)
  | '0' :: 'x' :: rest => return negateIf negative (← integerIn 16 rest)
  | '0' :: _ => return negateIf negative (← integerIn 8 unsigned)
  | _ =>
    if ':' ∈ unsigned then
      return negateIf negative (sixtieths (← (splitColons unsigned).mapM (integerIn 10)))
    else return negateIf negative (← integerIn 10 unsigned)

def decimalNumber (cs : List Char) : Except Fault Binary64 :=
  let (negative, unsigned) := takeSign (trim cs)
  let size : Option Binary64 :=
    if String.ofList unsigned ∈ ["inf", "infinity"] then some .infinity
    else if String.ofList unsigned = "nan" then some .nan
    else Literal.decimal? unsigned
  match size with
  | some x => .ok (if negative then x.neg else x)
  | none => .error .noSuchValue

def addReal (x y : Binary64) : Binary64 := ⟨(Float.ofBits x.bits + Float.ofBits y.bits).toBits⟩

def mulReal (x y : Binary64) : Binary64 := ⟨(Float.ofBits x.bits * Float.ofBits y.bits).toBits⟩

def weighted (weight : Nat) (sum : Binary64) : List Binary64 → Binary64
  | [] => sum
  | x :: rest => weighted (weight * 60) (addReal sum (mulReal x (.ofInt weight))) rest

def writtenNan : Binary64 := ⟨0xfff8000000000000⟩

def readReal (cs : List Char) : Except Fault Binary64 := do
  let cs := (Text.lowercase (String.ofList (cs.filter (· != '_')))).toList
  if cs.isEmpty then throw .emptyNumber
  let (negative, unsigned) := takeSign cs
  if unsigned = ".inf".toList then return if negative then .negInfinity else .infinity
  else if unsigned = ".nan".toList then return writtenNan
  else
    let size ←
      if ':' ∈ unsigned then
        let parts ← (splitColons unsigned).mapM decimalNumber
        pure (weighted 1 .zero parts.reverse)
      else decimalNumber unsigned
    return if negative ∧ !size.isNaN then size.neg else size

def readBool (s : String) : Except Fault Bool :=
  match Text.lowercase s with
  | "yes" | "true" | "on" => .ok true
  | "no" | "false" | "off" => .ok false
  | _ => .error .unknownWord

def digitsNumber (cs : List Char) : Nat :=
  cs.foldl (fun n c => n * 10 + (digitValue? c).getD 0) 0

def microseconds (fraction : List Char) : Nat :=
  let ds := fraction.take 6
  digitsNumber (ds ++ List.replicate (6 - ds.length) '0')

def zoneOffset (zone : Option (Char × List Char × List Char)) : Except Fault Int :=
  match zone with
  | none => .ok 0
  | some (sign, hours, minutes) =>
    let n : Int := digitsNumber hours * 60 + digitsNumber minutes
    if n < 1440 then .ok (negateIf (sign = '-') n) else .error .noSuchValue

def orNoSuchValue {α : Type} : Option α → Except Fault α
  | some a => .ok a
  | none => .error .noSuchValue

def readMoment (cs : List Char) : Except Fault Moment := do
  match TimestampText.read? cs with
  | none => throw .noTimestamp
  | some t =>
    let date := Date.ofNumbers? (digitsNumber t.year) (digitsNumber t.month) (digitsNumber t.day)
    match t.time with
    | none => return .date (← orNoSuchValue date)
    | some (hour, minute, second, fraction) =>
      let offset ← match t.zone with
        | none => pure none
        | some zone => do pure (some (← zoneOffset zone))
      let date ← orNoSuchValue date
      return .timestamp (← orNoSuchValue (Timestamp.ofNumbers? date (digitsNumber hour)
        (digitsNumber minute) (digitsNumber second) (microseconds fraction) offset))

def sixBits? (c : Char) : Option Nat :=
  if 'A' ≤ c ∧ c ≤ 'Z' then some (c.toNat - 'A'.toNat)
  else if 'a' ≤ c ∧ c ≤ 'z' then some (c.toNat - 'a'.toNat + 26)
  else if '0' ≤ c ∧ c ≤ '9' then some (c.toNat - '0'.toNat + 52)
  else if c = '+' then some 62
  else if c = '/' then some 63
  else none

/-- Decode base 64. `place` counts the characters of the current group of four, `left` holds the
bits of the last one, and `pads` the padding since. Other characters are passed over; padding that
completes a group ends the data. -/
def decodeBase64 (place left pads : Nat) : List Char → Except Fault (List UInt8)
  | [] => if place = 0 then .ok [] else .error .malformed
  | '=' :: rest =>
    if 2 ≤ place then
      if 4 ≤ place + pads + 1 then .ok [] else decodeBase64 place left (pads + 1) rest
    else decodeBase64 place left pads rest
  | c :: rest =>
    match sixBits? c with
    | none => decodeBase64 place left pads rest
    | some bits =>
      match place with
      | 0 => decodeBase64 1 bits 0 rest
      | 1 => do return UInt8.ofNat (left * 4 + bits / 16) :: (← decodeBase64 2 (bits % 16) 0 rest)
      | 2 => do return UInt8.ofNat (left * 16 + bits / 4) :: (← decodeBase64 3 (bits % 4) 0 rest)
      | _ => do return UInt8.ofNat (left * 64 + bits) :: (← decodeBase64 0 0 0 rest)

def readBinary (cs : List Char) : Except Fault (List UInt8) :=
  if cs.all fun c => c.toNat < 128 then decodeBase64 0 0 0 cs else .error .malformed

end MarkupLabels.Yaml
