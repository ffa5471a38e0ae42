import MarkupLabels.Tree.Forest
import MarkupLabels.Import.Provenance
import MarkupLabels.Label.Labels

namespace MarkupLabels

namespace Context

def maxDepth : Nat := 10

def givingPurposes : List String := ["form-container", "overlay"]

def given (p : Provenance) (v : Vocabulary) (e : Element) : Option (Option String) :=
  (p.resolve (e.name.getD "")).bind fun exported =>
    let props := Props.ofUnlabelled v e.attributes
    if Label.purpose (Component.family exported) props ∈ givingPurposes then
      some (Label.context (Component.hasTrait exported) props none)
    else none

def search (p : Provenance) (v : Vocabulary) : List Element → Option (Option String) × Nat
  | [] => (none, 0)
  | e :: rest =>
    match given p v e with
    | some context => (some context, 1)
    | none => let (found, n) := search p v rest; (found, n + 1)

def searchNear (p : Provenance) (v : Vocabulary) (around : List Element) :
    Option (Option String) × Nat :=
  search p v (around.take maxDepth)

def inherited (p : Provenance) (v : Vocabulary) (around : List Element) : Option String :=
  ((searchNear p v around).1).join

end Context

end MarkupLabels
