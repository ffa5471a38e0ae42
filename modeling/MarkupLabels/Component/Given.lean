import MarkupLabels.Component.Props

namespace MarkupLabels

inductive PassedValue (Object : Type)
  | nothing
  | text (value : String)
  | flag (value : Bool)
  | integer (value : Int)
  | real (value : Binary64)
  | object (value : Object)
deriving Repr, Inhabited

def PassedValue.known {Object : Type} : PassedValue Object → Option AttributeValue
  | .nothing => none
  | .text s => some (.text s)
  | .flag b => some (.flag b)
  | .integer n => some (.integer n)
  | .real x => some (.real x)
  | .object _ => some .unresolved

inductive GivenProps (Object : Type)
  | nothing
  | props (p : Props)
  | passed (entries : List (String × PassedValue Object))
  | written (attributes : List Attribute)
deriving Repr, Inhabited

def GivenProps.toProps {Object : Type} : GivenProps Object → Props
  | .nothing => .empty
  | .props p => p
  | .passed entries => .ofPassed (entries.map fun (name, value) => (name, value.known))
  | .written attributes => .ofAttributes attributes

end MarkupLabels
