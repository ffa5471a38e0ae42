import MarkupLabels.Import.Record
import MarkupLabels.Config.Fault
/-!
Provenance of component names: which names of a source text come from the component library, and
what the library calls them.
-/

namespace MarkupLabels

structure Provenance where
  records : List ImportRecord
  trusted : List CodePoints
deriving DecidableEq, Repr, Inhabited

namespace Provenance

def defaultPackages : List CodePoints := [
  "@patternfly/react-core",
  "@patternfly/react-table",
  "@patternfly/react-icons",
  "@patternfly/react-charts",
  "@patternfly/react-topology"]

def defaultNames : List CodePoints := [
  "button",
  "card",
  "modal",
  "form",
  "input",
  "select",
  "checkbox",
  "radio",
  "switch",
  "textarea",
  "flex",
  "table",
  "tr",
  "td",
  "th"]

def libraryScope : String := "@patternfly"

def isLibrarySource (packages : List CodePoints) (source : String) : Bool :=
  packages.any (Text.contains source)

def ofCatalogs (records : List ImportRecord) (packages names : List CodePoints) : Provenance where
  records := records.filter fun r => isLibrarySource packages r.source
  trusted := names.map CodePoints.lowercase

def keepRecords (packages : List Value) :
    List ImportRecord → Except Fault (List ImportRecord)
  | [] => .ok []
  | r :: rest => do
    let library ← Value.anyWithin r.source packages
    let kept ← keepRecords packages rest
    return if library then r :: kept else kept

def catalogItems (default : List CodePoints) : Value → Except Fault (List Value)
  | .null => .ok (default.map .text)
  | v => v.items

def ofValues (records : List ImportRecord) (packages names : Value) : Except Fault Provenance := do
  let packages ← catalogItems defaultPackages packages
  let names ← (← catalogItems defaultNames names).mapM Value.lower
  let records ← keepRecords packages records
  return { records, trusted := Value.textsOf names }

/-- What a record says about a name: the library's own name for it, if the record binds it. A
default import and a trusted name keep the name that is written. -/
def resolveBy (trusted : List CodePoints) (name : String) (r : ImportRecord) : Option String :=
  match r.kind with
  | .named =>
    if r.localName = some name ∨ r.importedName = some name then
      match r.importedName with
      | some exported => some (if exported = "" then name else exported)
      | none => some name
    else none
  | .default => if r.localName = some name then some name else none
  | .namespace => none
  | .sideEffect =>
    if Text.contains r.source libraryScope ∧ CodePoints.ofString (Text.lowercase name) ∈ trusted then
      some name
    else none

def resolve (p : Provenance) (name : String) : Option String :=
  if name = "" then none else p.records.findSome? (resolveBy p.trusted name)

def isRecognized (p : Provenance) (name : Option String) : Bool :=
  (name.bind p.resolve).isSome

end Provenance

end MarkupLabels
