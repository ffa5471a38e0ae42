import MarkupLabels.Json.Quoted
import MarkupLabels.Number.Shortest

namespace MarkupLabels.Json

inductive Tree
  | null
  | bool (b : Bool)
  | natural (n : Nat)
  | real (x : Binary64)
  | text (s : String)
  | array (items : List Tree)
  | object (members : List (String × Tree))
deriving Inhabited

namespace Tree

def newLine (depth : Nat) : List Char := '\n' :: List.replicate (2 * depth) ' '

def bracketed (opening closing : Char) (depth : Nat) : List (List Char) → List Char
  | [] => [opening, closing]
  | first :: rest =>
    opening :: newLine (depth + 1) ++ first ++
      rest.flatMap (fun t => ',' :: newLine (depth + 1) ++ t) ++ newLine depth ++ [closing]

mutual

def layout (depth : Nat) : Tree → List Char
  | .null => "null".toList
  | .bool b => (if b then "true" else "false").toList
  | .natural n => Nat.toDigits 10 n
  | .real x => x.finiteText
  | .text s => quoted s.toList
  | .array items => bracketed '[' ']' depth (layoutItems depth items)
  | .object members => bracketed '\x7b' '\x7d' depth (layoutMembers depth members)

def layoutItems (depth : Nat) : List Tree → List (List Char)
  | [] => []
  | t :: rest => layout (depth + 1) t :: layoutItems depth rest

def layoutMembers (depth : Nat) : List (String × Tree) → List (List Char)
  | [] => []
  | (name, t) :: rest =>
    (quoted name.toList ++ ':' :: ' ' :: layout (depth + 1) t) :: layoutMembers depth rest

end

def written (t : Tree) : String := String.ofList (t.layout 0)

end Tree

end MarkupLabels.Json
