import MarkupLabels.Tree.Context
import MarkupLabels.Tree.Rules
/-!
Labelling a forest: every element of the library under a start element is given its labels as
attributes. Labels are only appended, and an element that has one already is left alone.
-/

namespace MarkupLabels

structure Labeller where
  provenance : Provenance
  rules : Rules
  vocabulary : Vocabulary
deriving Repr, Inhabited

inductive Outcome
  | unnamed
  | foreign
  | structural (name : String)
  | existing (name : String)
  | labelled (added : List Attribute) (foundContext : Bool)
deriving DecidableEq, Repr, Inhabited

namespace Outcome

def added : Outcome → List Attribute
  | .labelled attributes _ => attributes
  | _ => []

end Outcome

structure Stats where
  visited : Nat := 0
  annotated : Nat := 0
  skippedUnnamed : Nat := 0
  skippedForeign : Nat := 0
  skippedStructural : Nat := 0
  skippedExisting : Nat := 0
deriving DecidableEq, Repr, Inhabited

namespace Stats

instance : Add Stats where
  add s t :=
    { visited := s.visited + t.visited
      annotated := s.annotated + t.annotated
      skippedUnnamed := s.skippedUnnamed + t.skippedUnnamed
      skippedForeign := s.skippedForeign + t.skippedForeign
      skippedStructural := s.skippedStructural + t.skippedStructural
      skippedExisting := s.skippedExisting + t.skippedExisting }

def ofOutcome : Outcome → Stats
  | .unnamed => { visited := 1, skippedUnnamed := 1 }
  | .foreign => { visited := 1, skippedForeign := 1 }
  | .structural _ => { visited := 1, skippedStructural := 1 }
  | .existing _ => { visited := 1, skippedExisting := 1 }
  | .labelled _ _ => { visited := 1, annotated := 1 }

def ofOutcomes (os : List Outcome) : Stats := os.foldl (fun s o => s + ofOutcome o) {}

end Stats

namespace Labeller

def hasMarker (l : Labeller) (attributes : List Attribute) : Bool :=
  attributes.any fun a => l.vocabulary.isMarker a.name

def outcome (l : Labeller) (e : Element) (around : List Element) : Except Fault Outcome :=
  match e.name with
  | none => .ok .unnamed
  | some name =>
    if !Text.isIdentifier name then .ok .unnamed
    else
      match l.provenance.resolve name with
      | none => .ok .foreign
      | some exported => do
        if ← l.rules.skips exported then return .structural name
        if l.hasMarker e.attributes then return .existing name
        let found := (Context.searchNear l.provenance l.vocabulary around).1
        let props := Props.ofUnlabelled l.vocabulary e.attributes
        let labels := Labels.infer exported props found.join
        return .labelled (labels.attributes l.vocabulary) found.isSome

def around (f : Forest) (i : Nat) : List Element := (f.ancestors i).filterMap f.get?

structure Visit where
  forest : Forest
  outcomes : List Outcome
  fault : Option Fault
deriving Inhabited

def visitAll (l : Labeller) (f : Forest) : List Nat → Visit
  | [] => { forest := f, outcomes := [], fault := none }
  | i :: rest =>
    match l.outcome (f.elements[i]?.getD default) (around f i) with
    | .error fault => { forest := f, outcomes := [], fault := some fault }
    | .ok o =>
      let later := l.visitAll (f.modifyAttributes i (· ++ o.added)) rest
      { later with outcomes := o :: later.outcomes }

def label (l : Labeller) (f : Forest) (start : Nat) : Visit := l.visitAll f (f.walk start)

def labelAll (l : Labeller) (f : Forest) : Visit := l.visitAll f (f.roots.flatMap f.walk)

end Labeller

end MarkupLabels
