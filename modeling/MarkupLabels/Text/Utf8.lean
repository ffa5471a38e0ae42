/-!
Decoding of UTF-8, with an exact account of the first fault. A faulty sequence ends where it can no
longer be the beginning of a character.
-/

namespace MarkupLabels.Text

inductive Utf8Cause
  | badStart
  | badContinuation
  | cutShort
deriving DecidableEq, Repr, Inhabited

structure Utf8Fault where
  position : Nat
  length : Nat
  first : UInt8
  cause : Utf8Cause
deriving DecidableEq, Repr, Inhabited

def continuations (b : UInt8) : Option (List (UInt8 × UInt8)) :=
  if b < 0x80 then some []
  else if b < 0xc2 then none
  else if b < 0xe0 then some [(0x80, 0xbf)]
  else if b = 0xe0 then some [(0xa0, 0xbf), (0x80, 0xbf)]
  else if b = 0xed then some [(0x80, 0x9f), (0x80, 0xbf)]
  else if b < 0xf0 then some [(0x80, 0xbf), (0x80, 0xbf)]
  else if b = 0xf0 then some [(0x90, 0xbf), (0x80, 0xbf), (0x80, 0xbf)]
  else if b < 0xf4 then some [(0x80, 0xbf), (0x80, 0xbf), (0x80, 0xbf)]
  else if b = 0xf4 then some [(0x80, 0x8f), (0x80, 0xbf), (0x80, 0xbf)]
  else none

/-- How many of the bytes behind a first byte are as they must be, and whether the bytes end. -/
def matching : List (UInt8 × UInt8) → List UInt8 → Nat × Option Utf8Cause
  | [], _ => (0, none)
  | _ :: _, [] => (0, some .cutShort)
  | (low, high) :: ranges, b :: rest =>
    if low ≤ b ∧ b ≤ high then
      let (n, cause) := matching ranges rest
      (n + 1, cause)
    else (0, some .badContinuation)

def leadBits (b : UInt8) : Nat → Nat
  | 0 => b.toNat
  | 1 => b.toNat % 0x20
  | 2 => b.toNat % 0x10
  | _ => b.toNat % 0x08

def decodeFrom (position : Nat) : List UInt8 → Except Utf8Fault (List Char)
  | [] => .ok []
  | b :: rest =>
    match continuations b with
    | none => .error { position, length := 1, first := b, cause := .badStart }
    | some ranges =>
      match matching ranges rest with
      | (n, some cause) => .error { position, length := n + 1, first := b, cause }
      | (n, none) =>
        let code := (rest.take n).foldl (fun code c => code * 64 + c.toNat % 64) (leadBits b n)
        (decodeFrom (position + n + 1) (rest.drop n)).map (Char.ofNat code :: ·)
termination_by bytes => bytes.length
decreasing_by simp only [List.length_drop, List.length_cons]; omega

def decodeUtf8 (bytes : List UInt8) : Except Utf8Fault (List Char) := decodeFrom 0 bytes

def encodeUtf8 (cs : List Char) : List UInt8 := cs.flatMap String.utf8EncodeChar

namespace Utf8Fault

def hexByte (b : UInt8) : String :=
  let ds := Nat.toDigits 16 b.toNat
  String.ofList (if ds.length < 2 then '0' :: ds else ds)

def causeText : Utf8Cause → String
  | .badStart => "invalid start byte"
  | .badContinuation => "invalid continuation byte"
  | .cutShort => "unexpected end of data"

def message (f : Utf8Fault) : String :=
  let place :=
    if f.length = 1 then s!"byte 0x{hexByte f.first} in position {f.position}"
    else s!"bytes in position {f.position}-{f.position + f.length - 1}"
  s!"'utf-8' codec can't decode {place}: {causeText f.cause}"

end Utf8Fault

end MarkupLabels.Text
