import MarkupLabels.Source.Insertion
import MarkupLabels.Tree.Labelling

namespace MarkupLabels.Source

structure Labelled where
  text : List Char
  outcomes : List Outcome
deriving Repr, Inhabited

namespace Labelled

def stats (l : Labelled) : Stats := Stats.ofOutcomes l.outcomes

end Labelled

inductive Note
  | noLibrary
  | visited (o : Outcome)
deriving Repr, Inhabited

structure Attempt where
  notes : List Note
  result : Except Fault Labelled

def effectiveConfig (config : Value) : Value := if config.isTrue then config else .mapping []

def Document.provenance (d : Document) (config : Value) : Except Fault Provenance := do
  let packages ← config.entry? "packages"
  let names ← config.entry? "default_import_names"
  Provenance.ofValues d.imports (packages.getD .null) (names.getD .null)

def Document.labelWith (d : Document) (l : Labeller) : Attempt :=
  let visit := l.labelAll d.forest
  { notes := visit.outcomes.map .visited
    result := match visit.fault with
      | some fault => .error fault
      | none => .ok { text := d.renderWith visit.forest, outcomes := visit.outcomes } }

def Document.attempt (d : Document) (config : Value) : Attempt :=
  match d.provenance (effectiveConfig config) with
  | .error fault => { notes := [], result := .error fault }
  | .ok provenance =>
    let first := if provenance.records.isEmpty then [.noLibrary] else []
    match Rules.ofConfig config with
    | .error fault => { notes := first, result := .error fault }
    | .ok rules =>
      let later := d.labelWith { provenance, rules, vocabulary := .standard }
      { later with notes := first ++ later.notes }

def label (language : Language) (config : Value) (source : List Char) : Except Fault Labelled :=
  ((Document.read language source).attempt config).result

end MarkupLabels.Source
