import MarkupLabels.Number.Shortest

namespace MarkupLabels

inductive AttributeValue
  | text (value : String)
  | flag (value : Bool)
  | integer (value : Int)
  | real (value : Binary64)
  | unresolved
deriving DecidableEq, Repr, Inhabited

namespace AttributeValue

def text? : AttributeValue → Option String
  | .text s => some s
  | _ => none

def written : AttributeValue → String
  | .text s => s
  | .flag true => "True"
  | .flag false => "False"
  | .integer n => toString n
  | .real x => x.text
  | .unresolved => "UNRESOLVED"

end AttributeValue

structure Attribute where
  name : String
  value : Option AttributeValue
deriving DecidableEq, Repr, Inhabited

namespace Attribute

def writtenValue (a : Attribute) : String :=
  match a.value with
  | none => "None"
  | some v => v.written

end Attribute

end MarkupLabels
