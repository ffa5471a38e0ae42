import MarkupLabels.Component.Given
import MarkupLabels.Label.Usage
import MarkupLabels.Label.State
import MarkupLabels.Label.Appearance

namespace MarkupLabels

structure Labels where
  role : String
  purpose : String
  variant : Option String
  context : Option String
  state : Option String
  actionType : Option String
  size : Option String
deriving DecidableEq, Repr, Inhabited

namespace Labels

def infer (name : String) (props : Props) (inherited : Option String) : Labels :=
  let f := Component.family name
  { role := Component.role name
    purpose := Label.purpose f props
    variant := Label.variant f props
    context := Label.context (Component.hasTrait name) props inherited
    state := Label.state f props
    actionType := Label.actionType f props
    size := Label.size f props }

def ofGiven {Object : Type} (name : String) (given : GivenProps Object)
    (inherited : Option String) : Labels :=
  infer name given.toProps inherited

def values (l : Labels) : List (Option String) :=
  [some l.role, some l.purpose, l.variant, l.context, l.state, l.actionType, l.size]

def named (l : Labels) (v : Vocabulary) : List (String × String) :=
  (v.names.zip l.values).filterMap fun (name, value) => value.map (name, ·)

def attributes (l : Labels) (v : Vocabulary) : List Attribute :=
  (l.named v).map fun (name, value) => { name, value := some (.text value) }

end Labels

end MarkupLabels
