import MarkupLabels.Run.Command
import Std.Time.DateTime.Timestamp

namespace MarkupLabels.Main

def usage : String :=
  "usage: markup-labels [-h] [--config CONFIG] [--dry-run] [--check] [--report REPORT]\n" ++
  "                     [--verbose] paths [paths ...]"

def help : String := usage ++ "\n\n" ++
  "Label library components in JSX sources with semantic data-* attributes.\n\n" ++
  "  paths            source files or directories to label\n" ++
  "  --config CONFIG  path of a YAML configuration file\n" ++
  "  --dry-run        show what would change without writing files\n" ++
  "  --check          exit with status 1 if any file would change; nothing is written\n" ++
  "  --report REPORT  write a JSON report of the run to this path\n" ++
  "  --verbose, -v    log details"

def placeText (place : List String) : String := "/" ++ "/".intercalate place

def placeOf (workingDirectory : List String) (p : Path) : List String :=
  p.parts.foldl (fun place part => if part = ".." then place.dropLast else place ++ [part])
    (if p.slashes = 0 then workingDirectory else [])

def entryAt? (place : List String) : IO (Option Entry) := do
  let path := (← IO.currentDir) / placeText place
  if ← path.isDir then return some .directory
  if ← path.pathExists then return some (.file [])
  return none

def entriesTo (place : List String) : IO (List (List String × Entry)) :=
  (List.range place.length).filterMapM fun n => do
    let upTo := place.take (n + 1)
    return (← entryAt? upTo).map (upTo, ·)

partial def entriesBelow (place : List String) : IO (List (List String × Entry)) := do
  let path := (← IO.currentDir) / placeText place
  let mut found := []
  for entry in ← path.readDir do
    let inner := place ++ [entry.fileName]
    if let some e ← entryAt? inner then
      found := found ++ [(inner, e)]
      if e = .directory && (← entry.path.symlinkMetadata).type == .dir then
        found := found ++ (← entriesBelow inner)
  return found

def fill (s : Snapshot) (p : Path) : IO Snapshot := do
  match s.locate p with
  | .error _ => return s
  | .ok place =>
    match s.entry? place with
    | some (.file _) =>
      let content ← IO.FS.readBinFile ((← IO.currentDir) / placeText place)
      return s.set place (.file content.toList)
    | _ => return s

def snapshot (o : Options) : IO Snapshot := do
  let here := (Path.ofText (← IO.currentDir).toString).parts
  let named := o.paths ++ o.report.toList ++ (o.config.map Path.ofText).toList
  let mut entries ← entriesTo here
  for p in named do
    entries := entries ++ (← entriesTo (placeOf here p))
  for p in o.paths do
    if (← entryAt? (placeOf here p)) = some .directory then
      entries := entries ++ (← entriesBelow (placeOf here p))
  let mut s : Snapshot := { entries, workingDirectory := here, limits := some .usual }
  for p in (o.config.map Path.ofText).toList do
    s ← fill s p
  match (Setup.prepare s o.config).2 with
  | .error _ => return s
  | .ok setup => (setup.selection.discover s o.paths).foldlM fill s

def writeChanges (before after : Snapshot) : IO Unit :=
  after.entries.forM fun (place, entry) => do
    match entry with
    | .directory => return
    | .file content =>
      if before.entry? place ≠ some entry then
        IO.FS.writeBinFile ((← IO.currentDir) / placeText place) ⟨content.toArray⟩

def abortText : Abort → String
  | .load (.encoding f) => f.message
  | .load (.yaml _) => "the configuration file is not valid YAML"
  | .load (.value f) => f.message
  | .setting f => f.message
  | .file .missing => "there is no such directory"
  | .file .notDirectory => "a file stands where a directory is needed"
  | .file .isDirectory => "a directory stands where a file is needed"
  | .file .denied => "a directory may not be searched"
  | .file .nameTooLong => "a name is too long"

def seconds (nanoseconds : Nat) : Binary64 := Binary64.ofDecimal nanoseconds (-9)

def conclude (o : Options) (before : Snapshot) (c : Conclusion) : IO UInt32 := do
  for e in c.log do
    if e.isShown o.verbose then IO.eprintln e.line
  writeChanges before c.snapshot
  for line in c.printed do
    IO.println line
  match c.status with
  | .ok status => return status.code.toUInt32
  | .error e =>
    IO.eprintln ("error: " ++ abortText e)
    return 1

def run (o : Options) : IO UInt32 := do
  let start ← IO.monoNanosNow
  let before ← snapshot o
  match ← IO.lazyPure fun _ => Command.label o before with
  | .error broken => conclude o before broken
  | .ok (fingerprint, progress) =>
    let now ← Std.Time.Timestamp.now
    let clock : Clock := {
      timestamp := seconds now.toNanosecondsSinceUnixEpoch.toInt.toNat
      duration := seconds ((← IO.monoNanosNow) - start) }
    conclude o before (Command.finish o fingerprint clock progress)

end MarkupLabels.Main

open MarkupLabels in
def main (arguments : List String) : IO UInt32 :=
  match Options.read arguments with
  | .error .help => do
    IO.println Main.help
    return 0
  | .error .usage => do
    IO.eprintln Main.usage
    return 2
  | .ok o => Main.run o
