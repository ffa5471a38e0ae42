import MarkupLabels.Component.Family
import MarkupLabels.Component.Props

namespace MarkupLabels.Label

structure Direction where
  names : List String
  on : String
  off : String

def directions : List Direction := [
  ⟨["isExpanded", "expanded"], "expanded", "collapsed"⟩,
  ⟨["isOpen", "open"], "open", "closed"⟩,
  ⟨["isChecked", "checked"], "checked", "unchecked"⟩]

def Direction.state (d : Direction) (p : Props) : Option String :=
  if p.has d.names then some (if d.names.any p.isFalse then d.off else d.on) else none

def state (f : Family) (p : Props) : Option String :=
  if p.has ["isDisabled", "disabled", "isAriaDisabled"] then some "disabled"
  else if p.has ["isReadOnly", "readOnly"] then some "readonly"
  else if p.has ["isSelected", "selected"] then some "selected"
  else
    match directions.findSome? (·.state p) with
    | some s => some s
    | none =>
      if p.has ["isRead", "read"] then some "read"
      else if p.has ["isUnread", "unread"] then some "unread"
      else if p.has ["isAttention", "attention", "needsAttention"] then some "attention"
      else if f = .button ∧ !p.has ["onClick", "onSubmit"] then some "disabled"
      else if f = .card ∧ !p.has ["isClickable", "isSelectable", "isSelectableRaised", "onClick"] then
        some "readonly"
      else if p.has ["onClick", "onSubmit", "onChange"] then some "active"
      else none

end MarkupLabels.Label
