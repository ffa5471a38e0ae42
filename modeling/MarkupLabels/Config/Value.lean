import MarkupLabels.Number.Binary64
import MarkupLabels.Config.Moment
import MarkupLabels.Text.CodePoint

namespace MarkupLabels

inductive Value
  | null
  | bool (b : Bool)
  | integer (n : Int)
  | real (x : Binary64)
  | text (s : CodePoints)
  | bytes (data : List UInt8)
  | moment (m : Moment)
  | pair (first second : Value)
  | list (items : List Value)
  | set (members : List Value)
  | mapping (entries : List (Value × Value))
deriving Repr, Inhabited

inductive ValueSort
  | null
  | bool
  | integer
  | real
  | text
  | bytes
  | date
  | timestamp
  | pair
  | list
  | set
  | mapping
deriving DecidableEq, Repr, Inhabited

namespace ValueSort

def name : ValueSort → String
  | .null => "NoneType"
  | .bool => "bool"
  | .integer => "int"
  | .real => "float"
  | .text => "str"
  | .bytes => "bytes"
  | .date => "datetime.date"
  | .timestamp => "datetime.datetime"
  | .pair => "tuple"
  | .list => "list"
  | .set => "set"
  | .mapping => "dict"

end ValueSort

namespace Value

def sort : Value → ValueSort
  | .null => .null
  | .bool _ => .bool
  | .integer _ => .integer
  | .real _ => .real
  | .text _ => .text
  | .bytes _ => .bytes
  | .moment (.date _) => .date
  | .moment (.timestamp _) => .timestamp
  | .pair _ _ => .pair
  | .list _ => .list
  | .set _ => .set
  | .mapping _ => .mapping

def isTrue : Value → Bool
  | .null => false
  | .bool b => b
  | .integer n => n != 0
  | .real x => !x.isZero
  | .text s => !s.isEmpty
  | .bytes data => !data.isEmpty
  | .moment _ => true
  | .pair _ _ => true
  | .list items => !items.isEmpty
  | .set members => !members.isEmpty
  | .mapping entries => !entries.isEmpty

def lookup (key : CodePoints) : List (Value × Value) → Option Value
  | [] => none
  | (.text k, v) :: rest => if k = key then some v else lookup key rest
  | _ :: rest => lookup key rest

def textsOf (vs : List Value) : List CodePoints :=
  vs.filterMap fun v => match v with
    | .text s => some s
    | _ => none

theorem mem_textsOf {vs : List Value} {s : CodePoints} : s ∈ textsOf vs ↔ .text s ∈ vs := by
  rw [textsOf, List.mem_filterMap]
  constructor
  · rintro ⟨v, hv, h⟩
    cases v with
    | text t => exact Option.some.inj h ▸ hv
    | _ => cases h
  · exact fun h => ⟨_, h, rfl⟩

end Value

end MarkupLabels
