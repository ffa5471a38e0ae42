import MarkupLabels.Config.Fingerprint
import MarkupLabels.Config.Loading
import MarkupLabels.Files.Discovery
import MarkupLabels.Run.Log

namespace MarkupLabels

inductive Abort
  | load (f : Config.LoadFault)
  | setting (f : Fault)
  | file (f : FileFault)
deriving DecidableEq, Repr, Inhabited

structure Setup where
  config : Value
  fingerprint : String
  selection : Selection
deriving Inhabited

namespace Setup

def load (s : Snapshot) : Option String → List LogEvent × Except Abort Value
  | none | some "" => ([], .ok Config.default)
  | some path =>
    match s.find? (Path.ofText path) with
    | .error f => ([], .error (.file f))
    | .ok none => ([.configMissing path], .ok Config.default)
    | .ok (some .directory) => ([], .error (.file .isDirectory))
    | .ok (some (.file content)) => ([], (Config.ofBytes content).mapError Abort.load)

def member (key : CodePoints) : Value → Except Fault Value
  | .mapping entries => .ok ((Value.lookup key entries).getD .null)
  | v => .error (.noMapping v.sort)

def selectionOf (config : Value) : Except Fault Selection := do
  let extensions ← member "extensions" (← member "files" config)
  let excluded ← member "exclude_dirs" (← member "files" config)
  Selection.ofValues extensions excluded

def ofConfig (config : Value) : Except Fault Setup := do
  let fingerprint ← Config.fingerprint config Vocabulary.standard
  return { config, fingerprint, selection := ← selectionOf config }

def prepare (s : Snapshot) (path : Option String) : List LogEvent × Except Abort Setup :=
  let (log, config) := load s path
  (log, config.bind fun c => (ofConfig c).mapError Abort.setting)

end Setup

end MarkupLabels
