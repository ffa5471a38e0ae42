import MarkupLabels.Files.Snapshot
import MarkupLabels.Config.Order
/-!
Discovery of source files. An argument that is a file stands for itself; one that is a directory
stands for the files under it in ascending order, without those in excluded directories.
-/

namespace MarkupLabels

structure Selection where
  suffixes : List CodePoints
  excluded : List CodePoints
deriving DecidableEq, Repr, Inhabited

namespace Selection

def ofValues (extensions excluded : Value) : Except Fault Selection := do
  let suffixes ← (← extensions.items).mapM Value.lower
  let names ← excluded.items
  Value.checkMembers names
  return { suffixes := Value.textsOf suffixes, excluded := Value.textsOf names }

def reaches (sel : Selection) (parts : List String) : Bool :=
  parts.dropLast.all fun d => CodePoints.ofString d ∉ sel.excluded

def insertParts (parts : List String) : List (List String) → List (List String)
  | [] => [parts]
  | other :: rest =>
    if Path.partsBefore other parts then other :: insertParts parts rest
    else parts :: other :: rest

def sortParts (all : List (List String)) : List (List String) := all.foldr insertParts []

def candidates (sel : Selection) (s : Snapshot) (p : Path) : Except FileFault (List Path) := do
  if ← s.isFile p then return [p]
  match s.locate p with
  | .ok place =>
    let files ← s.filesAmong p (s.under place)
    return (sortParts (files.filter sel.reaches)).map p.append
  | .error _ => return []

/-- The candidates of arguments up to the first that cannot be searched, and what is wrong with it. -/
def gather (sel : Selection) (s : Snapshot) : List Path → List Path × Option FileFault
  | [] => ([], none)
  | argument :: rest =>
    match sel.candidates s argument with
    | .error f => ([], some f)
    | .ok files => let (more, fault) := sel.gather s rest; (files ++ more, fault)

def keepNew (sel : Selection) (seen : List Path) : List Path → List Path
  | [] => []
  | p :: rest =>
    if CodePoints.ofString p.lowerSuffix ∈ sel.suffixes ∧ p ∉ seen then p :: sel.keepNew (p :: seen) rest
    else sel.keepNew seen rest

def discover (sel : Selection) (s : Snapshot) (arguments : List Path) : List Path :=
  sel.keepNew [] (sel.gather s arguments).1

def refusal (sel : Selection) (s : Snapshot) (arguments : List Path) : Option FileFault :=
  (sel.gather s arguments).2

end Selection

end MarkupLabels
