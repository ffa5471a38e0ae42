import MarkupLabels.Files.Path
/-!
Snapshots of a file system: the files and directories there are at some time, with their contents.
Every entry is known by its components from the root on.
-/

namespace MarkupLabels

inductive Entry
  | file (content : List UInt8)
  | directory
deriving DecidableEq, Repr, Inhabited

structure NameLimits where
  name : Nat
  path : Nat
deriving DecidableEq, Repr, Inhabited

def NameLimits.usual : NameLimits := ⟨255, 4095⟩

/-- The entries of a file system by their components from the root, and the working directory. The
root itself is a directory that is not listed. Nothing may be looked up in a closed directory. -/
structure Snapshot where
  entries : List (List String × Entry)
  workingDirectory : List String
  limits : Option NameLimits := none
  closed : List (List String) := []
deriving DecidableEq, Repr, Inhabited

inductive FileFault
  | missing
  | notDirectory
  | isDirectory
  | denied
  | nameTooLong
deriving DecidableEq, Repr, Inhabited

namespace Snapshot

def entry? (s : Snapshot) (place : List String) : Option Entry :=
  if place = [] then some .directory else s.entries.lookup place

def fits (s : Snapshot) (part : String) : Bool := s.limits.all fun l => part.utf8ByteSize ≤ l.name

def takes (s : Snapshot) (p : Path) : Bool := s.limits.all fun l => p.text.utf8ByteSize ≤ l.path

def follow (s : Snapshot) (place : List String) : List String → Except FileFault (List String)
  | [] => .ok place
  | part :: rest =>
    match s.entry? place with
    | some .directory =>
      if place ∈ s.closed then .error .denied
      else if s.fits part then
        s.follow (if part = ".." then place.dropLast else place ++ [part]) rest
      else .error .nameTooLong
    | some (.file _) => .error .notDirectory
    | none => .error .missing

def start (s : Snapshot) (p : Path) : List String := if p.slashes = 0 then s.workingDirectory else []

def locate (s : Snapshot) (p : Path) : Except FileFault (List String) :=
  if s.takes p then s.follow (s.start p) p.parts else .error .nameTooLong

/-- What stands at a path. Where the way there ends early nothing does; what keeps it from being
looked up is a fault. -/
def find? (s : Snapshot) (p : Path) : Except FileFault (Option Entry) :=
  match s.locate p with
  | .ok place => .ok (s.entry? place)
  | .error .missing | .error .notDirectory => .ok none
  | .error f => .error f

def isFile (s : Snapshot) (p : Path) : Except FileFault Bool := do
  match ← s.find? p with
  | some (.file _) => return true
  | _ => return false

def readFile (s : Snapshot) (p : Path) : Except FileFault (List UInt8) := do
  match s.entry? (← s.locate p) with
  | some (.file content) => return content
  | some .directory => throw .isDirectory
  | none => throw .missing

def setEntry (place : List String) (e : Entry) :
    List (List String × Entry) → List (List String × Entry)
  | [] => [(place, e)]
  | (q, f) :: rest => if q = place then (q, e) :: rest else (q, f) :: setEntry place e rest

def set (s : Snapshot) (place : List String) (e : Entry) : Snapshot :=
  { s with entries := setEntry place e s.entries }

def writeFile (s : Snapshot) (p : Path) (content : List UInt8) : Except FileFault Snapshot := do
  let place ← s.locate p
  match s.entry? place with
  | some .directory => throw .isDirectory
  | _ => return s.set place (.file content)

def under (s : Snapshot) (place : List String) : List (List String) :=
  s.entries.filterMap fun (q, _) =>
    if place.isPrefixOf q ∧ q ≠ place then some (q.drop place.length) else none

def filesAmong (s : Snapshot) (p : Path) : List (List String) → Except FileFault (List (List String))
  | [] => .ok []
  | names :: rest => do
    let isFile ← s.isFile (p.append names)
    let files ← s.filesAmong p rest
    return if isFile then names :: files else files

end Snapshot

end MarkupLabels
