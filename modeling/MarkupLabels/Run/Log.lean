import MarkupLabels.Source.Labelled

namespace MarkupLabels

inductive Severity
  | debug
  | info
  | warning
  | error
deriving DecidableEq, Repr, Inhabited

inductive LogEvent
  | configMissing (path : String)
  | noLibrary (path : String)
  | noContext
  | skippedStructural (name : String)
  | skippedExisting (name : String)
  | labelled (path : String) (count : Nat)
  | skipped (path reason : String)
  | failed (path : String)
  | reportWritten (path : String)
deriving DecidableEq, Repr, Inhabited

namespace LogEvent

def severity : LogEvent → Severity
  | .configMissing _ => .warning
  | .noLibrary _ => .debug
  | .noContext => .debug
  | .skippedStructural _ => .debug
  | .skippedExisting _ => .debug
  | .labelled _ _ => .info
  | .skipped _ _ => .warning
  | .failed _ => .error
  | .reportWritten _ => .info

def channel : LogEvent → String
  | .configMissing _ => "load_config"
  | .noLibrary _ => "annotate_source"
  | .noContext => "resolve_ancestor_context"
  | .skippedStructural _ => "tree_annotator"
  | .skippedExisting _ => "tree_annotator"
  | _ => "run_annotation"

def message : LogEvent → String
  | .configMissing path => s!"Config file {path} not found, using defaults"
  | .noLibrary path => s!"{path}: no imports from recognized packages"
  | .noContext => s!"No context-providing ancestor within {Context.maxDepth} levels"
  | .skippedStructural name => s!"Skipping structural child <{name}>"
  | .skippedExisting name => s!"Skipping already annotated <{name}>"
  | .labelled path count => s!"{path}: {count} components annotated"
  | .skipped path reason => s!"Skipping {path}: {reason}"
  | .failed path => s!"Failed to annotate {path}"
  | .reportWritten path => s!"Report written to {path}"

def severityText : Severity → String
  | .debug => "DEBUG"
  | .info => "INFO"
  | .warning => "WARNING"
  | .error => "ERROR"

def line (e : LogEvent) : String :=
  s!"{severityText e.severity} semantic_codemod.{e.channel}: {e.message}"

def ofNote (path : String) : Source.Note → List LogEvent
  | .noLibrary => [.noLibrary path]
  | .visited (.structural name) => [.skippedStructural name]
  | .visited (.existing name) => [.skippedExisting name]
  | .visited (.labelled _ false) => [.noContext]
  | .visited _ => []

def isShown (verbose : Bool) (e : LogEvent) : Bool := verbose || e.severity != .debug

end LogEvent

end MarkupLabels
