import MarkupLabels.Text.Word

namespace MarkupLabels

inductive Family
  | accordion
  | accordionPart
  | alert
  | avatar
  | label
  | button
  | link
  | card
  | textInput
  | choice
  | overlay
  | form
  | table
  | layout
  | toolbar
  | navigation
  | generic
deriving DecidableEq, Repr, Inhabited

inductive Trait
  | form
  | input
  | overlay
  | table
  | toolbar
  | navigation
deriving DecidableEq, Repr, Inhabited

namespace Component

open Text

def mentions (keywords : List String) (name : String) : Bool := keywords.any fun k => contains name k

def leads (words : List String) (name : String) : Bool := words.any (beginsWith name)

def tableNames : List String :=
  ["table", "thead", "tbody", "tfoot", "tr", "td", "th", "caption"]

def isTableName (name : String) : Bool := name ∈ tableNames || beginsWith name "table"

def familyRules : List (Family × (String → Bool)) := [
  (.accordion, (· == "accordion")),
  (.accordionPart, (beginsWith · "accordion")),
  (.alert, (· == "alert")),
  (.avatar, (· == "avatar")),
  (.label, (· == "label")),
  (.button, mentions ["button"]),
  (.link, mentions ["link"]),
  (.card, mentions ["card"]),
  (.textInput, mentions ["input", "textarea", "select"]),
  (.choice, mentions ["checkbox", "radio", "switch"]),
  (.overlay, mentions ["modal", "drawer"]),
  (.form, mentions ["form"]),
  (.table, isTableName),
  (.layout, leads ["flex", "grid", "stack", "gallery", "split", "level", "bullseye"]),
  (.toolbar, mentions ["toolbar"]),
  (.navigation, mentions ["nav", "menu", "breadcrumb", "tabs", "dropdown", "pagination"])]

def familyOfLower (name : String) : Family :=
  ((familyRules.find? fun rule => rule.2 name).map (·.1)).getD .generic

def family (name : String) : Family := familyOfLower (lowercase name)

def lowerHasTrait (name : String) : Trait → Bool
  | .form => mentions ["form"] name
  | .input => mentions ["input"] name
  | .overlay => mentions ["modal", "drawer"] name
  | .table => isTableName name
  | .toolbar => mentions ["toolbar"] name
  | .navigation => mentions ["nav", "menu", "breadcrumb"] name

def hasTrait (name : String) (t : Trait) : Bool := lowerHasTrait (lowercase name) t

def roleCatalog : List (String × String) := [
  ("accordion", "accordion"),
  ("accordionitem", "accordion-item"),
  ("accordiontoggle", "accordion-toggle"),
  ("accordioncontent", "accordion-content"),
  ("alert", "alert"),
  ("alertgroup", "alert-group"),
  ("avatar", "avatar"),
  ("button", "button"),
  ("card", "card"),
  ("cardbody", "card-body"),
  ("cardheader", "card-header"),
  ("cardtitle", "card-title"),
  ("cardfooter", "card-footer"),
  ("modal", "modal"),
  ("modalcontent", "modal-content"),
  ("modalheader", "modal-header"),
  ("modalbody", "modal-body"),
  ("modalfooter", "modal-footer"),
  ("textinput", "text-input"),
  ("textarea", "text-area"),
  ("select", "select"),
  ("checkbox", "checkbox"),
  ("radio", "radio"),
  ("switch", "switch"),
  ("form", "form"),
  ("formgroup", "form-group"),
  ("flex", "flex"),
  ("flexitem", "flex-item"),
  ("table", "table"),
  ("tr", "table-row"),
  ("td", "table-cell"),
  ("th", "table-header"),
  ("thead", "table-head"),
  ("tbody", "table-body"),
  ("label", "label"),
  ("link", "link"),
  ("drawer", "drawer"),
  ("toolbar", "toolbar"),
  ("toolbaritem", "toolbar-item"),
  ("menutoggle", "menu-toggle"),
  ("dropdownitem", "dropdown-item")]

def role (name : String) : String :=
  (roleCatalog.lookup (lowercase name)).getD (lowercase name)

end Component

end MarkupLabels
