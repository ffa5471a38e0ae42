import MarkupLabels.Text.Word

namespace MarkupLabels

structure Vocabulary where
  role : String := "data-role"
  purpose : String := "data-purpose"
  variant : String := "data-variant"
  context : String := "data-context"
  state : String := "data-state"
  actionType : String := "data-action-type"
  size : String := "data-size"
  legacyPrefix : String := "data-semantic-"
deriving DecidableEq, Repr, Inhabited

namespace Vocabulary

def standard : Vocabulary := {}

def names (v : Vocabulary) : List String :=
  [v.role, v.purpose, v.variant, v.context, v.state, v.actionType, v.size]

def isMarker (v : Vocabulary) (name : String) : Bool :=
  Text.beginsWith name v.legacyPrefix || name ∈ v.names

end Vocabulary

end MarkupLabels
