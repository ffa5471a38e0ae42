import MarkupLabels.Yaml.Node
import MarkupLabels.Yaml.Scalar
import MarkupLabels.Config.Order
/-!
The value of a YAML document. Collections are filled level by level, so that of several faults the
outermost counts, and of those of one level the first.
-/

namespace MarkupLabels.Yaml

abbrev Leveled (α : Type) := Except (Nat × Fault) α

def atLevel {α : Type} (level : Nat) : Except Fault α → Leveled α
  | .ok a => .ok a
  | .error fault => .error (level, fault)

def outerFault (a b : Nat × Fault) : Nat × Fault := if b.1 < a.1 then b else a

def combine {α β γ : Type} (f : α → β → γ) (a : Leveled α) (b : Leveled β) : Leveled γ :=
  match a, b with
  | .ok a, .ok b => .ok (f a b)
  | .error x, .error y => .error (outerFault x y)
  | .error x, .ok _ => .error x
  | .ok _, .error y => .error y

namespace Node

def scalarText : Node → Except Fault CodePoints
  | .scalar _ text => .ok text
  | .sequence _ _ => .error .malformed
  | .mapping _ entries => ofEntries entries
where
  ofEntries : List (Node × Node) → Except Fault CodePoints
    | [] => .error .malformed
    | (key, value) :: rest => if key.tag = .default then value.scalarText else ofEntries rest

mutual

def flattenEntries : List (Node × Node) → Except Fault (List (Node × Node) × List (Node × Node))
  | [] => .ok ([], [])
  | (key, value) :: rest =>
    match key with
    | .scalar .merge _ => do
      let here ← mergedEntries value
      let (merged, own) ← flattenEntries rest
      return (here ++ merged, own)
    | .scalar .default text => do
      let (merged, own) ← flattenEntries rest
      return (merged, (.scalar .text text, value) :: own)
    | key => do
      let (merged, own) ← flattenEntries rest
      return (merged, (key, value) :: own)

def mergedEntries : Node → Except Fault (List (Node × Node))
  | .mapping _ entries => do
    let (merged, own) ← flattenEntries entries
    return merged ++ own
  | .sequence _ items => mergedItems items
  | .scalar _ _ => .error .malformed

def mergedItems : List Node → Except Fault (List (Node × Node))
  | [] => .ok []
  | .mapping _ entries :: rest => do
    let (merged, own) ← flattenEntries entries
    return (← mergedItems rest) ++ merged ++ own
  | _ :: _ => .error .malformed

end

def allEntries (entries : List (Node × Node)) : Except Fault (List (Node × Node)) := do
  let (merged, own) ← flattenEntries entries
  return merged ++ own

def scalarValue (tag : Tag) (text : CodePoints) : Except Fault Value :=
  match tag with
  | .null => .ok .null
  | .bool => (readBool (String.ofList text.shown)).map .bool
  | .integer => (readInteger text.shown).map .integer
  | .real => (readReal text.shown).map .real
  | .binary => (readBinary text.shown).map .bytes
  | .timestamp => (readMoment text.shown).map .moment
  | .text => .ok (.text text)
  | _ => .error .malformed

def isScalarTag (tag : Tag) : Bool :=
  tag ∈ [.null, .bool, .integer, .real, .binary, .timestamp, .text]

def putAll (entries : List (Value × Value)) : List (Value × Value) :=
  entries.foldl (fun m e => Value.put e.1 e.2 m) []

def checkKnown (tag : Tag) : Except Fault Unit :=
  if tag ∈ [.merge, .default, .unknown] then .error .malformed else .ok ()

def isCollectionTag (tag : Tag) : Bool :=
  tag ∈ [.sequence, .mapping, .set, .orderedMapping, .pairs]

def value (level : Nat) : Nat → Node → Leveled Value
  | 0, _ => .error (level, .malformed)
  | fuel + 1, node =>
    match node with
    | .scalar tag text =>
      if isScalarTag tag then atLevel level (scalarValue tag text)
      else if (checkKnown tag).isOk then .error (level + 1, .malformed)
      else .error (level, .malformed)
    | .sequence tag items =>
      match tag with
      | .sequence => (values (items.map (value (level + 1) fuel))).map .list
      | .orderedMapping | .pairs =>
        (values (items.map (pairValue level fuel))).map .list
      | _ => .error (if isScalarTag tag ∨ !(checkKnown tag).isOk then level else level + 1, .malformed)
    | .mapping tag entries =>
      if isScalarTag tag then
        atLevel level ((scalarText (.mapping tag entries)).bind (scalarValue tag))
      else
        match tag with
        | .mapping => (entryValues level fuel entries).map fun es => .mapping (putAll es)
        | .set => (entryValues level fuel entries).map fun es => .set ((putAll es).map (·.1))
        | _ => .error (if !(checkKnown tag).isOk then level else level + 1, .malformed)
where
  values : List (Leveled Value) → Leveled (List Value)
    | [] => .ok []
    | v :: rest => combine (· :: ·) v (values rest)
  pairValue (level fuel : Nat) (node : Node) : Leveled Value :=
    match node with
    | .mapping _ [(k, v)] =>
      combine .pair (value (level + 1) fuel k) (value (level + 1) fuel v)
    | _ => .error (level + 1, .malformed)
  entryValues (level fuel : Nat) (entries : List (Node × Node)) : Leveled (List (Value × Value)) :=
    match allEntries entries with
    | .error fault => .error (level + 1, fault)
    | .ok all =>
      all.foldr (fun (k, v) rest =>
        let key := if isCollectionTag k.tag then .error (level + 1, .malformed)
          else value (level + 1) fuel k
        combine (· :: ·) (combine Prod.mk key (value (level + 1) fuel v)) rest) (.ok [])

end Node

def read (text : List Char) : Except Fault Value := do
  match ← Node.read text with
  | none => return .null
  | some node =>
    match node.value 0 (text.length + 2) with
    | .ok v => return v
    | .error (_, fault) => throw fault

end MarkupLabels.Yaml
