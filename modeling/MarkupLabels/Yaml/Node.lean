import MarkupLabels.Yaml.Token
import MarkupLabels.Yaml.Tag
/-!
Nodes of a YAML document, read from its tokens. An alias stands for a copy of the node that its
anchor marks.
-/

namespace MarkupLabels.Yaml

inductive Node
  | scalar (tag : Tag) (text : CodePoints)
  | sequence (tag : Tag) (items : List Node)
  | mapping (tag : Tag) (entries : List (Node × Node))
deriving Repr, Inhabited

namespace Node

def tag : Node → Tag
  | .scalar t _ => t
  | .sequence t _ => t
  | .mapping t _ => t

def empty : Node := .scalar .null []

end Node

structure Parse where
  tokens : List Token
  anchors : List (String × Option Node)
  handles : List (String × String)
  fault : Option Fault
deriving Repr, Inhabited

namespace Parse

def failure (p : Parse) : Fault :=
  match p.tokens with
  | [] => p.fault.getD .malformed
  | _ :: _ => .malformed

def peek? (p : Parse) : Option Token := p.tokens.head?

def drop (p : Parse) : Parse := { p with tokens := p.tokens.drop 1 }

def isNext (p : Parse) (ts : List Token) : Bool := p.peek?.any fun t => t ∈ ts

def setAnchor (p : Parse) (name : String) (node : Option Node) : Parse :=
  { p with anchors := (name, node) :: p.anchors.filter fun (n, _) => n != name }

def properties (p : Parse) : Option String × Option (Option String × String) × Parse :=
  match p.tokens with
  | .anchor a :: .tag h s :: rest => (some a, some (h, s), { p with tokens := rest })
  | .tag h s :: .anchor a :: rest => (some a, some (h, s), { p with tokens := rest })
  | .anchor a :: rest => (some a, none, { p with tokens := rest })
  | .tag h s :: rest => (none, some (h, s), { p with tokens := rest })
  | _ => (none, none, p)

def expandTag (p : Parse) (tag : Option String × String) : Except Fault String :=
  match tag with
  | (none, whole) => .ok whole
  | (some handle, suffix) =>
    match p.handles.lookup handle with
    | some expansion => .ok (expansion ++ suffix)
    | none => .error .malformed

def scalarTag (tag : Option String) (text : CodePoints) (plain : Bool) : Tag :=
  match tag with
  | none => if plain then .ofPoints text else .text
  | some "!" => .ofPoints text
  | some t => .ofText t

def collectionTag (tag : Option String) (own : Tag) : Tag :=
  match tag with
  | none => own
  | some "!" => own
  | some t => .ofText t

def close (p : Parse) (anchor : Option String) (node : Node) : Node × Parse :=
  match anchor with
  | some a => (node, p.setAnchor a (some node))
  | none => (node, p)

mutual

def node (block indentless : Bool) : Nat → Parse → Except Fault (Node × Parse)
  | 0, _ => .error .malformed
  | fuel + 1, p =>
    match p.peek? with
    | some (.alias name) =>
      match p.anchors.lookup name with
      | some (some n) => .ok (n, p.drop)
      | some none => .error .endless
      | none => .error .malformed
    | _ => do
      let (anchor, written, p) := p.properties
      let tag ← match written with
        | some t => do pure (some (← p.expandTag t))
        | none => pure none
      if anchor.any fun a => (p.anchors.lookup a).isSome then throw .malformed
      let p := match anchor with
        | some a => p.setAnchor a none
        | none => p
      match p.peek? with
      | some (.scalar text plain) =>
        return p.drop.close anchor (.scalar (scalarTag tag text plain) text)
      | some .flowSequenceStart =>
        let (items, p) ← flowSequence true fuel p.drop
        return p.close anchor (.sequence (collectionTag tag .sequence) items)
      | some .flowMappingStart =>
        let (entries, p) ← flowMapping true fuel p.drop
        return p.close anchor (.mapping (collectionTag tag .mapping) entries)
      | some .blockEntry =>
        if indentless then
          let (items, p) ← indentlessSequence fuel p
          return p.close anchor (.sequence (collectionTag tag .sequence) items)
        else emptyNode anchor tag p
      | some .blockSequenceStart =>
        if block then
          let (items, p) ← blockSequence fuel p.drop
          return p.close anchor (.sequence (collectionTag tag .sequence) items)
        else emptyNode anchor tag p
      | some .blockMappingStart =>
        if block then
          let (entries, p) ← blockMapping fuel p.drop
          return p.close anchor (.mapping (collectionTag tag .mapping) entries)
        else emptyNode anchor tag p
      | _ => emptyNode anchor tag p

def emptyNode (anchor tag : Option String) (p : Parse) : Except Fault (Node × Parse) :=
  if anchor.isSome ∨ tag.isSome then .ok (p.close anchor (.scalar (scalarTag tag [] true) []))
  else .error p.failure

def nodeUnless (ends : List Token) (block indentless : Bool) :
    Nat → Parse → Except Fault (Node × Parse)
  | 0, _ => .error .malformed
  | fuel + 1, p => if p.isNext ends then .ok (.empty, p) else node block indentless fuel p

def blockSequence : Nat → Parse → Except Fault (List Node × Parse)
  | 0, _ => .error .malformed
  | fuel + 1, p =>
    match p.peek? with
    | some .blockEntry => do
      let (item, p) ← nodeUnless [.blockEntry, .blockEnd] true false fuel p.drop
      let (items, p) ← blockSequence fuel p
      return (item :: items, p)
    | some .blockEnd => .ok ([], p.drop)
    | _ => .error p.failure

def indentlessSequence : Nat → Parse → Except Fault (List Node × Parse)
  | 0, _ => .error .malformed
  | fuel + 1, p =>
    match p.peek? with
    | some .blockEntry => do
      let (item, p) ← nodeUnless [.blockEntry, .key, .value, .blockEnd] true false fuel p.drop
      let (items, p) ← indentlessSequence fuel p
      return (item :: items, p)
    | _ => .ok ([], p)

def blockMapping : Nat → Parse → Except Fault (List (Node × Node) × Parse)
  | 0, _ => .error .malformed
  | fuel + 1, p =>
    match p.peek? with
    | some .key => do
      let (key, p) ← nodeUnless [.key, .value, .blockEnd] true true fuel p.drop
      let (value, p) ←
        if p.isNext [.value] then nodeUnless [.key, .value, .blockEnd] true true fuel p.drop
        else pure (Node.empty, p)
      let (entries, p) ← blockMapping fuel p
      return ((key, value) :: entries, p)
    | some .blockEnd => .ok ([], p.drop)
    | _ => .error p.failure

def flowSequence (first : Bool) : Nat → Parse → Except Fault (List Node × Parse)
  | 0, _ => .error .malformed
  | fuel + 1, p =>
    if p.isNext [.flowSequenceEnd] then .ok ([], p.drop)
    else if !first ∧ !p.isNext [.flowEntry] then .error p.failure
    else do
      let p := if first then p else p.drop
      if p.isNext [.key] then
        let (key, p) ← nodeUnless [.value, .flowEntry, .flowSequenceEnd] false false fuel p.drop
        let (value, p) ←
          if p.isNext [.value] then
            nodeUnless [.flowEntry, .flowSequenceEnd] false false fuel p.drop
          else pure (Node.empty, p)
        let (items, p) ← flowSequence false fuel p
        return (.mapping .mapping [(key, value)] :: items, p)
      else if p.isNext [.flowSequenceEnd] then return ([], p.drop)
      else
        let (item, p) ← node false false fuel p
        let (items, p) ← flowSequence false fuel p
        return (item :: items, p)

def flowMapping (first : Bool) : Nat → Parse → Except Fault (List (Node × Node) × Parse)
  | 0, _ => .error .malformed
  | fuel + 1, p =>
    if p.isNext [.flowMappingEnd] then .ok ([], p.drop)
    else if !first ∧ !p.isNext [.flowEntry] then .error p.failure
    else do
      let p := if first then p else p.drop
      if p.isNext [.key] then
        let (key, p) ← nodeUnless [.value, .flowEntry, .flowMappingEnd] false false fuel p.drop
        let (value, p) ←
          if p.isNext [.value] then
            nodeUnless [.flowEntry, .flowMappingEnd] false false fuel p.drop
          else pure (Node.empty, p)
        let (entries, p) ← flowMapping false fuel p
        return ((key, value) :: entries, p)
      else if p.isNext [.flowMappingEnd] then return ([], p.drop)
      else
        let (key, p) ← node false false fuel p
        let (entries, p) ← flowMapping false fuel p
        return ((key, .empty) :: entries, p)

end

def defaultHandles : List (String × String) := [("!", "!"), ("!!", Tag.standardPrefix)]

def directives (versioned : Bool) (handles : List (String × String)) :
    List Token → Except Fault (List (String × String) × List Token)
  | .directive (.version major) :: rest =>
    if versioned ∨ major ≠ 1 then .error .malformed else directives true handles rest
  | .directive (.tagHandle handle expansion) :: rest =>
    if (handles.lookup handle).isSome then .error .malformed
    else directives versioned ((handle, expansion) :: handles) rest
  | .directive .other :: rest => directives versioned handles rest
  | rest => .ok (handles ++ defaultHandles, rest)

def checkEnd (p : Parse) : Except Fault Unit :=
  match p.tokens.dropWhile (· == .documentEnd) with
  | [] => .error (p.fault.getD .malformed)
  | .streamEnd :: _ => .ok ()
  | _ => .error .malformed

def document (tokens : List Token) (fault : Option Fault) : Except Fault (Option Node) := do
  let p : Parse := { tokens, anchors := [], handles := defaultHandles, fault }
  let fuel := 8 * tokens.length + 8
  match p.peek? with
  | none => throw p.failure
  | some .streamEnd => return none
  | some .documentStart | some (.directive _) =>
    let (handles, rest) ← directives false [] p.tokens
    let p := { p with tokens := rest, handles }
    if !p.isNext [.documentStart] then throw p.failure
    let p := p.drop
    let contentless := p.peek?.any fun t => match t with
      | .directive _ | .documentStart | .documentEnd | .streamEnd => true
      | _ => false
    let (n, p) ← if contentless then pure (Node.empty, p) else node true false fuel p
    p.checkEnd
    return some n
  | some _ =>
    let (n, p) ← node true false fuel p
    p.checkEnd
    return some n

end Parse

def Node.read (text : List Char) : Except Fault (Option Node) :=
  let (ts, fault) := tokens text
  Parse.document ts fault

end MarkupLabels.Yaml
