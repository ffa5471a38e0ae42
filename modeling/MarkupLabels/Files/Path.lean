import MarkupLabels.Text.Lowercase

namespace MarkupLabels

structure Path where
  slashes : Nat
  parts : List String
deriving DecidableEq, Repr, Inhabited

namespace Path

def splitSlashes : List Char → List (List Char)
  | [] => [[]]
  | c :: rest =>
    match splitSlashes rest with
    | [] => [[c]]
    | first :: more => if c = '/' then [] :: first :: more else (c :: first) :: more

def leadingSlashes (cs : List Char) : Nat :=
  match (cs.takeWhile (· = '/')).length with
  | 0 => 0
  | 2 => 2
  | _ => 1

def ofText (s : String) : Path where
  slashes := leadingSlashes s.toList
  parts := ((splitSlashes s.toList).map String.ofList).filter fun p => p ≠ "" && p ≠ "."

def text (p : Path) : String :=
  if p.slashes = 0 ∧ p.parts = [] then "."
  else String.ofList (List.replicate p.slashes '/') ++ "/".intercalate p.parts

def append (p : Path) (more : List String) : Path := { p with parts := p.parts ++ more }

def name (p : Path) : String := p.parts.getLast?.getD ""

def suffixOf (cs : List Char) : List Char :=
  let behind := (cs.reverse.takeWhile (· ≠ '.')).reverse
  if behind.isEmpty ∨ cs.length ≤ behind.length + 1 then [] else '.' :: behind

def lowerSuffix (p : Path) : String :=
  Text.lowercase (String.ofList (suffixOf p.name.toList))

def partsBefore : List String → List String → Bool
  | _, [] => false
  | [], _ :: _ => true
  | a :: as, b :: bs => if a = b then partsBefore as bs else a < b

end Path

end MarkupLabels
