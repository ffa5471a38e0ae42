import MarkupLabels.Run.Options
import MarkupLabels.Run.Processing
import MarkupLabels.Run.Setup
/-!
A whole run: from a snapshot of the files and the options to a new snapshot, the output, the log and
the exit status. Nothing is written before the configuration has proved usable, but a path that cannot be
looked up breaks the run off in the middle.
-/

namespace MarkupLabels

inductive ExitStatus
  | done
  | pending
  | failures
deriving DecidableEq, Repr, Inhabited

namespace ExitStatus

def code : ExitStatus → UInt8
  | .done => 0
  | .pending => 1
  | .failures => 2

end ExitStatus

structure Clock where
  timestamp : Binary64
  duration : Binary64
deriving DecidableEq, Repr, Inhabited

structure Conclusion where
  status : Except Abort ExitStatus
  printed : List String
  log : List LogEvent
  snapshot : Snapshot
deriving Inhabited

namespace Command

def writes (o : Options) : Bool := !(o.dryRun || o.check)

def summary (writes : Bool) (t : Totals) : String :=
  let verb := if writes then "Annotated" else "Would annotate"
  s!"{verb} {t.stats.annotated} components in {t.changed} of {t.files} files ({t.failed} failed)"

def statusFor (o : Options) (r : Report) : ExitStatus :=
  if !r.failed.isEmpty then .failures
  else if o.check && !r.changed.isEmpty then .pending
  else .done

def finish (o : Options) (fingerprint : String) (clock : Clock) (g : Progress) : Conclusion :=
  let report : Report := { fingerprint, results := g.results }
  let printed := g.printed ++ [summary (writes o) report.totals]
  let status := Except.ok (statusFor o report)
  match o.report with
  | none => { status, printed, log := g.log, snapshot := g.snapshot }
  | some path =>
    let text := report.written clock.timestamp clock.duration
    match g.snapshot.writeFile path (Text.encodeUtf8 text.toList) with
    | .error f =>
      { status := .error (.file f), printed := g.printed, log := g.log, snapshot := g.snapshot }
    | .ok snapshot =>
      { status, printed, log := g.log ++ [.reportWritten path.text], snapshot }

def labelFiles (o : Options) (s : Snapshot) (setup : Setup) (log : List LogEvent) : Progress :=
  let start : Progress := { snapshot := s, log }
  start.through setup.config (writes o) (setup.selection.discover s o.paths)

/-- Run up to the end of the last file: how far the run has come and the fingerprint of its
configuration, or how it was broken off, in front of the first file or behind those that were found. -/
def label (o : Options) (s : Snapshot) : Except Conclusion (String × Progress) :=
  match Setup.prepare s o.config with
  | (log, .error e) => .error { status := .error e, printed := [], log, snapshot := s }
  | (log, .ok setup) =>
    let progress := labelFiles o s setup log
    match setup.selection.refusal s o.paths with
    | some f =>
      .error {
        status := .error (.file f)
        printed := progress.printed
        log := progress.log
        snapshot := progress.snapshot }
    | none => .ok (setup.fingerprint, progress)

def run (o : Options) (clock : Clock) (s : Snapshot) : Conclusion :=
  match label o s with
  | .error broken => broken
  | .ok (fingerprint, progress) => finish o fingerprint clock progress

end Command

end MarkupLabels
