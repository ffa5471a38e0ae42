import MarkupLabels.Files.Path
import MarkupLabels.Text.Word

namespace MarkupLabels

structure Options where
  paths : List Path
  config : Option String := none
  dryRun : Bool := false
  check : Bool := false
  report : Option Path := none
  verbose : Bool := false
deriving DecidableEq, Repr, Inhabited

inductive Refusal
  | help
  | usage
deriving DecidableEq, Repr, Inhabited

namespace Options

inductive Flag
  | help
  | config
  | dryRun
  | check
  | report
  | verbose
deriving DecidableEq, Repr, Inhabited

def Flag.takesValue : Flag → Bool
  | .config | .report => true
  | _ => false

def longFlags : List (String × Flag) := [
  ("--help", .help), ("--config", .config), ("--dry-run", .dryRun), ("--check", .check),
  ("--report", .report), ("--verbose", .verbose)]

def shortFlag? : Char → Option Flag
  | 'h' => some .help
  | 'v' => some .verbose
  | _ => none

inductive Argument
  | plain (s : String)
  | divider
  | long (f : Flag) (value : Option String)
  | short (f : Flag) (joined : List Char)
  | unknown
deriving DecidableEq, Repr, Inhabited

def isNegativeNumber : List Char → Bool
  | '-' :: rest =>
    let digit := fun c => '0' ≤ c && c ≤ '9'
    let whole := rest.takeWhile digit
    match rest.dropWhile digit with
    | [] => !whole.isEmpty
    | '.' :: fraction => !fraction.isEmpty && fraction.all digit
    | _ => false
  | _ => false

def splitEquals (cs : List Char) : List Char × Option (List Char) :=
  match cs.dropWhile (· ≠ '=') with
  | [] => (cs, none)
  | _ :: rest => (cs.takeWhile (· ≠ '='), some rest)

def leftOver (s : String) : Argument :=
  if isNegativeNumber s.toList ∨ ' ' ∈ s.toList then .plain s else .unknown

def classify (s : String) : Except Refusal Argument :=
  match s.toList with
  | '-' :: '-' :: rest =>
    match longFlags.lookup s with
    | some f => .ok (.long f none)
    | none =>
      let (front, value) := splitEquals ('-' :: '-' :: rest)
      let value := value.map String.ofList
      match longFlags.lookup (String.ofList front) with
      | some f => .ok (.long f value)
      | none =>
        match longFlags.filter fun (name, _) => Text.beginsWith name (String.ofList front) with
        | [] => .ok (leftOver s)
        | [(_, f)] => .ok (.long f value)
        | _ => .error .usage
  | ['-'] => .ok (.plain s)
  | '-' :: c :: rest =>
    match shortFlag? c with
    | some f => .ok (.short f rest)
    | none => .ok (leftOver s)
  | _ => .ok (.plain s)

def classifyAll : List String → Except Refusal (List Argument)
  | [] => .ok []
  | "--" :: rest => .ok (.divider :: rest.map .plain)
  | s :: rest => do return (← classify s) :: (← classifyAll rest)

structure Reading where
  options : Options
  hasPaths : Bool
  hasExtra : Bool
deriving Repr, Inhabited

namespace Reading

def switch (r : Reading) (f : Flag) : Except Refusal Reading :=
  match f with
  | .help => .error .help
  | .dryRun => .ok { r with options := { r.options with dryRun := true } }
  | .check => .ok { r with options := { r.options with check := true } }
  | .verbose => .ok { r with options := { r.options with verbose := true } }
  | .config | .report => .error .usage

def setValue (r : Reading) (f : Flag) (value : String) : Except Refusal Reading :=
  match f with
  | .config => .ok { r with options := { r.options with config := some value } }
  | .report => .ok { r with options := { r.options with report := some (Path.ofText value) } }
  | _ => .error .usage

def joinedFlags : List Char → Except Refusal (List Flag × Bool)
  | [] => .ok ([], false)
  | c :: rest =>
    if c = '=' ∨ c = '-' then .error .usage
    else
      match shortFlag? c with
      | some f => do
        let (flags, hasExtra) ← joinedFlags rest
        return (f :: flags, hasExtra)
      | none => .ok ([], true)

def switchJoined (r : Reading) (f : Flag) (joined : List Char) : Except Refusal Reading := do
  let (flags, hasExtra) ← joinedFlags joined
  let r ← (f :: flags).foldlM switch r
  return { r with hasExtra := r.hasExtra || hasExtra }

def takePaths (r : Reading) (paths : List String) : Reading :=
  if r.hasPaths then { r with hasExtra := true }
  else
    { r with
      options := { r.options with paths := paths.map Path.ofText }
      hasPaths := true }

end Reading

def plainRun : List Argument → List String × List Argument
  | .plain s :: rest => let (more, behind) := plainRun rest; (s :: more, behind)
  | .divider :: rest => plainRun rest
  | rest => ([], rest)

theorem length_plainRun_le (as : List Argument) : (plainRun as).2.length ≤ as.length := by
  induction as with
  | nil => simp [plainRun]
  | cons a as ih => cases a <;> simp only [plainRun, List.length_cons, Nat.le_refl] <;> omega

def readFrom (r : Reading) : List Argument → Except Refusal Reading
  | [] => .ok r
  | .plain s :: rest =>
    let run := plainRun rest
    readFrom (r.takePaths (s :: run.1)) run.2
  | .divider :: rest =>
    let run := plainRun rest
    readFrom (if run.1.isEmpty then { r with hasExtra := true } else r.takePaths run.1) run.2
  | .unknown :: rest => readFrom { r with hasExtra := true } rest
  | .short f joined :: rest => do readFrom (← r.switchJoined f joined) rest
  | .long f (some value) :: rest => do readFrom (← r.setValue f value) rest
  | .long f none :: rest =>
    if f.takesValue then
      match rest with
      | .plain s :: rest => do readFrom (← r.setValue f s) rest
      | _ => .error .usage
    else do readFrom (← r.switch f) rest
termination_by as => as.length
decreasing_by
  all_goals first
    | exact Nat.lt_succ_of_le (length_plainRun_le rest)
    | (simp only [List.length_cons]; omega)

def read (arguments : List String) : Except Refusal Options := do
  let r ← readFrom { options := { paths := [] }, hasPaths := false, hasExtra := false }
    (← classifyAll arguments)
  if r.hasPaths ∧ !r.hasExtra then return r.options else throw .usage

end Options

end MarkupLabels
