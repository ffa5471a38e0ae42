import MarkupLabels.Config.Value
import MarkupLabels.Text.Word

namespace MarkupLabels

inductive Fault
  | noItems (sort : ValueSort)
  | noOperation (sort : ValueSort) (operation : String)
  | noText (sort : ValueSort)
  | noMember (sort : ValueSort)
  | noOrder (left right : ValueSort)
  | noMapping (sort : ValueSort)
  | noJson (sort : ValueSort)
  | noJsonKey (sort : ValueSort)
deriving DecidableEq, Repr, Inhabited

namespace Fault

def message : Fault → String
  | .noItems sort => "'" ++ sort.name ++ "' object is not iterable"
  | .noOperation sort operation =>
    "'" ++ sort.name ++ "' object has no attribute '" ++ operation ++ "'"
  | .noText sort => "'in <string>' requires string as left operand, not " ++ sort.name
  | .noMember sort => "unhashable type: '" ++ sort.name ++ "'"
  | .noOrder left right =>
    "'<' not supported between instances of '" ++ left.name ++ "' and '" ++ right.name ++ "'"
  | .noMapping sort => "'" ++ sort.name ++ "' object is not subscriptable"
  | .noJson sort => "Object of type " ++ sort.name ++ " is not JSON serializable"
  | .noJsonKey sort =>
    "keys must be str, int, float, bool or None, not " ++ sort.name

end Fault

namespace Value

def items : Value → Except Fault (List Value)
  | .list items => .ok items
  | .set members => .ok members
  | .pair first second => .ok [first, second]
  | .mapping entries => .ok (entries.map (·.1))
  | .text s => .ok (s.map fun p => .text [p])
  | .bytes data => .ok (data.map fun b => .integer b.toNat)
  | v => .error (.noItems v.sort)

def entry? (key : CodePoints) : Value → Except Fault (Option Value)
  | .mapping entries => .ok (lookup key entries)
  | v => .error (.noOperation v.sort "get")

def lower : Value → Except Fault Value
  | .text s => .ok (.text s.lowercase)
  | .bytes data =>
    .ok (.bytes (data.map fun b => if 65 ≤ b && b ≤ 90 then b + 32 else b))
  | v => .error (.noOperation v.sort "lower")

def within (whole : String) : Value → Except Fault Bool
  | .text part => .ok (Text.contains whole part)
  | v => .error (.noText v.sort)

def anyWithin (whole : String) : List Value → Except Fault Bool
  | [] => .ok false
  | v :: rest => do
    if ← v.within whole then return true
    anyWithin whole rest

end Value

end MarkupLabels
