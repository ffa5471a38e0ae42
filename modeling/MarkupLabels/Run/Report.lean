import MarkupLabels.Json.Tree
import MarkupLabels.Tree.Labelling

namespace MarkupLabels

structure FileResult where
  path : String
  changed : Bool := false
  error : Option String := none
  stats : Stats := {}
deriving DecidableEq, Repr, Inhabited

structure Report where
  fingerprint : String
  results : List FileResult
deriving DecidableEq, Repr, Inhabited

structure Totals where
  files : Nat
  changed : Nat
  failed : Nat
  stats : Stats
deriving DecidableEq, Repr, Inhabited

namespace Report

def changed (r : Report) : List FileResult := r.results.filter (·.changed)

def failed (r : Report) : List FileResult := r.results.filter (·.error.isSome)

def totals (r : Report) : Totals where
  files := r.results.length
  changed := r.changed.length
  failed := r.failed.length
  stats := (r.results.map (·.stats)).foldl (· + ·) {}

open Json

def statsMembers (s : Stats) : List (String × Tree) := [
  ("visited", .natural s.visited),
  ("annotated", .natural s.annotated),
  ("skipped_unnamed", .natural s.skippedUnnamed),
  ("skipped_foreign", .natural s.skippedForeign),
  ("skipped_structural", .natural s.skippedStructural),
  ("skipped_existing", .natural s.skippedExisting)]

def resultTree (r : FileResult) : Tree := .object [
  ("path", .text r.path),
  ("changed", .bool r.changed),
  ("error", r.error.elim .null .text),
  ("stats", .object (statsMembers r.stats))]

def tree (r : Report) (timestamp duration : Binary64) : Tree :=
  let t := r.totals
  .object [
    ("meta", .object [
      ("timestamp", .real timestamp),
      ("duration", .real duration),
      ("config_hash", .text r.fingerprint),
      ("total_files", .natural r.results.length)]),
    ("results", .array (r.results.map resultTree)),
    ("totals", .object ([
      ("files", .natural t.files),
      ("changed", .natural t.changed),
      ("failed", .natural t.failed)] ++ statsMembers t.stats))]

def written (r : Report) (timestamp duration : Binary64) : String :=
  (r.tree timestamp duration).written

end Report

end MarkupLabels
