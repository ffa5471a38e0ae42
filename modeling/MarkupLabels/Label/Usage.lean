import MarkupLabels.Component.Family
import MarkupLabels.Component.Props

namespace MarkupLabels.Label

def defaultPurpose : String := "display"

def cardPurpose (p : Props) : String :=
  let selectable := p.has ["isSelectable", "isSelectableRaised"]
  let clickable := p.has ["isClickable", "onClick"]
  if selectable && clickable then "clickable and selectable"
  else if selectable then "selectable"
  else if clickable then "clickable"
  else defaultPurpose

def familyPurpose : Family → String
  | .textInput | .choice => "input"
  | .overlay => "overlay"
  | .form => "form-container"
  | .table => "data-display"
  | .layout => "layout"
  | _ => defaultPurpose

def purpose (f : Family) (p : Props) : String :=
  if f = .button then "action"
  else if f = .link ∧ p.has ["onClick", "onSubmit"] then "action"
  else if p.has ["href"] then "navigation"
  else if f = .card then cardPurpose p
  else familyPurpose f

def suggestedContext (traits : Trait → Bool) (p : Props) : Option String :=
  if traits .form || (traits .input && p.has ["form"]) then some "form"
  else if traits .overlay then some "modal"
  else if traits .table then some "table"
  else if traits .toolbar || p.has ["toolbar"] then some "toolbar"
  else if traits .navigation || p.has ["navigation"] then some "navigation"
  else none

def context (traits : Trait → Bool) (p : Props) (inherited : Option String) : Option String :=
  match p.text? "context" with
  | some explicit => some explicit
  | none =>
    match inherited with
    -- An empty context counts as none.
    | some around => if around = "" then suggestedContext traits p else some around
    | none => suggestedContext traits p

def buttonAction : String → Option String
  | "submit" => some "confirmation"
  | "reset" => some "cancel"
  | _ => none

def actionType (f : Family) (p : Props) : Option String :=
  if p.text? "variant" = some "danger" ∨ p.has ["isDanger", "danger"] then some "destructive"
  else if p.has ["href"] then some "navigation"
  else if f = .alert ∧ p.has ["actionLinks"] then some "actionable"
  else if f = .alert ∧ p.has ["actionClose"] then some "dismissible"
  else if f = .button then (p.text? "type").bind buttonAction
  else none

end MarkupLabels.Label
