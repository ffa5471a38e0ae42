import MarkupLabels.Files.Snapshot
import MarkupLabels.Run.Log
import MarkupLabels.Run.Report
import MarkupLabels.Text.Lines
import MarkupLabels.Text.Quoted
import MarkupLabels.Text.Utf8
/-!
Labelling of files. Whatever goes wrong with one file is kept as its result, and the files behind it
are labelled all the same.
-/

namespace MarkupLabels

def FileFault.message (p : Path) : FileFault → String
  | .missing => "[Errno 2] No such file or directory: " ++ Text.display p.text
  | .notDirectory => "[Errno 20] Not a directory: " ++ Text.display p.text
  | .isDirectory => "[Errno 21] Is a directory: " ++ Text.display p.text
  | .denied => "[Errno 13] Permission denied: " ++ Text.display p.text
  | .nameTooLong => "[Errno 36] File name too long: " ++ Text.display p.text

def Language.ofPath (p : Path) : Language :=
  if p.lowerSuffix = ".jsx" ∨ p.lowerSuffix = ".js" then .javascript else .tsx

structure Processed where
  result : FileResult
  log : List LogEvent
  newText : Option (List Char)
deriving Repr, Inhabited

namespace Processed

def skipped (p : Path) (reason : String) : Processed where
  result := { path := p.text, error := some reason }
  log := [.skipped p.text reason]
  newText := none

def failed (p : Path) (notes : List LogEvent) (f : Fault) : Processed where
  result := { path := p.text, error := some f.message }
  log := notes ++ [.failed p.text]
  newText := none

def labelled (p : Path) (notes : List LogEvent) (source : List Char) (l : Source.Labelled) :
    Processed :=
  if l.text = source then
    { result := { path := p.text, stats := l.stats }, log := notes, newText := none }
  else
    { result := { path := p.text, changed := true, stats := l.stats }
      log := notes ++ [.labelled p.text l.stats.annotated]
      newText := some l.text }

def ofText (config : Value) (p : Path) (source : List Char) : Processed :=
  let attempt := (Source.Document.read (Language.ofPath p) source).attempt config
  let notes := attempt.notes.flatMap (LogEvent.ofNote p.text)
  match attempt.result with
  | .error f => failed p notes f
  | .ok l => labelled p notes source l

def ofContent (config : Value) (p : Path) (content : List UInt8) : Processed :=
  match Text.decodeUtf8 content with
  | .error f => skipped p f.message
  | .ok text => ofText config p (Text.unifyLines text)

end Processed

structure Progress where
  snapshot : Snapshot
  results : List FileResult := []
  log : List LogEvent := []
  printed : List String := []
deriving Inhabited

namespace Progress

def save (s : Snapshot) (p : Path) (done : Processed) : Processed × Snapshot :=
  match done.newText with
  | none => (done, s)
  | some text =>
    match s.writeFile p (Text.encodeUtf8 text) with
    | .ok after => (done, after)
    | .error f => (.skipped p (f.message p), s)

def visit (config : Value) (writes : Bool) (s : Snapshot) (p : Path) : Processed × Snapshot :=
  match s.readFile p with
  | .error f => (.skipped p (f.message p), s)
  | .ok content =>
    let done := Processed.ofContent config p content
    if writes then save s p done else (done, s)

def pendingLine (p : Path) : String := "Would annotate: " ++ p.text

def next (config : Value) (writes : Bool) (g : Progress) (p : Path) : Progress :=
  let (done, snapshot) := visit config writes g.snapshot p
  { snapshot
    results := g.results ++ [done.result]
    log := g.log ++ done.log
    printed := g.printed ++ if done.result.changed && !writes then [pendingLine p] else [] }

def through (config : Value) (writes : Bool) (g : Progress) (paths : List Path) : Progress :=
  paths.foldl (next config writes) g

end Progress

end MarkupLabels
