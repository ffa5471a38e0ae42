import MarkupLabels.Yaml.Cursor
import MarkupLabels.Number.Literal
import MarkupLabels.Text.CodePoint

namespace MarkupLabels.Yaml

open Cursor

abbrev Read := Except Fault (List Char × Cursor)

abbrev ReadPoints := Except Fault (CodePoints × Cursor)

def escapeLetter : Char → Option Char
  | '0' => some '\x00'
  | 'a' => some '\x07'
  | 'b' => some '\x08'
  | 't' => some '\t'
  | '\t' => some '\t'
  | 'n' => some '\n'
  | 'v' => some '\x0b'
  | 'f' => some '\x0c'
  | 'r' => some '\r'
  | 'e' => some '\x1b'
  | ' ' => some ' '
  | '"' => some '"'
  | '\\' => some '\\'
  | '/' => some '/'
  | 'N' => some '\x85'
  | '_' => some '\xa0'
  | 'L' => some '\u2028'
  | 'P' => some '\u2029'
  | _ => none

def escapeDigits : Char → Option Nat
  | 'x' => some 2
  | 'u' => some 4
  | 'U' => some 8
  | _ => none

def hexValue (ds : List Char) : Nat := ds.foldl (fun n d => n * 16 + (digitValue? d).getD 0) 0

def codePoint (code : Nat) : Except Fault CodePoint :=
  if code ≤ 0x10ffff then .ok (.ofNat code)
  else if code < 0x80000000 then .error .noSuchValue
  else .error .outOfReach

def readQuotedBreaks : Nat → Cursor → Read
  | 0, _ => .error .malformed
  | fuel + 1, c =>
    if c.atSeparator then .error .malformed
    else
      let c := c.skip fun d => d == ' ' || d == '\t'
      if isBreak c.peek then do
        let (b, c) := c.readBreak
        let (more, c) ← readQuotedBreaks fuel c
        return (b ++ more, c)
      else .ok ([], c)

def readQuotedStretch (double : Bool) : Nat → Cursor → ReadPoints
  | 0, _ => .error .malformed
  | fuel + 1, c => do
    let plain := fun d => !(d == '\'' || d == '"' || d == '\\' || isBlankBreakOrEnd d)
    let n := c.count plain
    let front := CodePoints.ofChars (c.take n)
    let c := c.forwardBy n
    let d := c.peek
    let continueWith := fun (text : CodePoints) (c : Cursor) => do
      let (more, c) ← readQuotedStretch double fuel c
      return (front ++ text ++ more, c)
    if !double ∧ d = '\'' ∧ c.peekAt 1 = '\'' then continueWith [.char '\''] (c.forwardBy 2)
    else if (double ∧ d = '\'') ∨ (!double ∧ (d = '"' ∨ d = '\\')) then
      continueWith [.char d] c.forward
    else if double ∧ d = '\\' then
      let c := c.forward
      let e := c.peek
      match escapeLetter e, escapeDigits e with
      | some letter, _ => continueWith [.char letter] c.forward
      | none, some width =>
        let c := c.forward
        let digits := c.take width
        if digits.length = width ∧ digits.all isHexDigit then
          continueWith [← codePoint (hexValue digits)] (c.forwardBy width)
        else .error .malformed
      | none, none =>
        if isBreak e then
          let (_, c) := c.readBreak
          let (breaks, c) ← readQuotedBreaks c.fuel c
          continueWith (.ofChars breaks) c
        else .error .malformed
    else return (front, c)

def readQuotedSpace (c : Cursor) : Read := do
  let n := c.count fun d => d == ' ' || d == '\t'
  let blanks := c.take n
  let c := c.forwardBy n
  if c.peek = endOfText then .error .malformed
  else if isBreak c.peek then
    let (b, c) := c.readBreak
    let (breaks, c) ← readQuotedBreaks c.fuel c
    if b ≠ ['\n'] then return (b ++ breaks, c)
    else if breaks.isEmpty then return ([' '], c)
    else return (breaks, c)
  else return (blanks, c)

def readQuotedRest (double : Bool) (quote : Char) : Nat → Cursor → ReadPoints
  | 0, _ => .error .malformed
  | fuel + 1, c =>
    if c.peek = quote then .ok ([], c.forward)
    else do
      let (space, c) ← readQuotedSpace c
      let (stretch, c) ← readQuotedStretch double c.fuel c
      let (more, c) ← readQuotedRest double quote fuel c
      return (.ofChars space ++ stretch ++ more, c)

def readQuoted (c : Cursor) : ReadPoints := do
  let quote := c.peek
  let double := quote = '"'
  let c := c.forward
  let (stretch, c) ← readQuotedStretch double c.fuel c
  let (more, c) ← readQuotedRest double quote c.fuel c
  return (stretch ++ more, c)

inductive Chomping
  | strip
  | clip
  | keep
deriving DecidableEq, Repr

def readChomping (c : Cursor) : Option Chomping × Cursor :=
  if c.peek = '+' then (some .keep, c.forward)
  else if c.peek = '-' then (some .strip, c.forward)
  else (none, c)

def readIncrement (c : Cursor) : Except Fault (Option Nat × Cursor) :=
  let d := c.peek
  if '0' ≤ d ∧ d ≤ '9' then
    if d = '0' then .error .malformed else .ok (some (d.toNat - '0'.toNat), c.forward)
  else .ok (none, c)

def readBlockHeader (c : Cursor) : Except Fault (Chomping × Option Nat × Cursor) := do
  let (first, c) := readChomping c
  let (increment, c) ← readIncrement c
  let (chomping, c) := match first with
    | some m => (some m, c)
    | none => if increment.isSome then readChomping c else (none, c)
  if isSpaceBreakOrEnd c.peek then return (chomping.getD .clip, increment, c)
  else .error .malformed

def skipLineEnd (c : Cursor) : Except Fault Cursor :=
  let c := c.skipSpaces.skipComment
  if isBreakOrEnd c.peek then .ok c.readBreak.2 else .error .malformed

def readBlockIndentation : Nat → Nat → Cursor → List Char × Nat × Cursor
  | 0, greatest, c => ([], greatest, c)
  | fuel + 1, greatest, c =>
    if c.peek = ' ' then
      let c := c.forward
      readBlockIndentation fuel (max greatest c.column) c
    else if isBreak c.peek then
      let (b, c) := c.readBreak
      let (more, greatest, c) := readBlockIndentation fuel greatest c
      (b ++ more, greatest, c)
    else ([], greatest, c)

def skipIndent (indent : Nat) (c : Cursor) : Cursor :=
  c.forwardBy (min (c.count (· == ' ')) (indent - c.column))

def readBlockBreaks (indent : Nat) : Nat → Cursor → List Char × Cursor
  | 0, c => ([], c)
  | fuel + 1, c =>
    let c := skipIndent indent c
    if isBreak c.peek then
      let (b, c) := c.readBreak
      let (more, c) := readBlockBreaks indent fuel c
      (b ++ more, c)
    else ([], c)

def readBlockLines (folded : Bool) (indent : Nat) :
    Nat → List Char → Cursor → List Char × List Char × List Char × Cursor
  | 0, breaks, c => ([], [], breaks, c)
  | fuel + 1, breaks, c =>
    if c.column = indent ∧ c.peek ≠ endOfText then
      let leading := c.peek ≠ ' ' ∧ c.peek ≠ '\t'
      let n := c.count fun d => !isBreakOrEnd d
      let line := c.take n
      let (b, c) := (c.forwardBy n).readBreak
      let (after, c) := readBlockBreaks indent c.fuel c
      if c.column = indent ∧ c.peek ≠ endOfText then
        let glue :=
          if folded ∧ b = ['\n'] ∧ leading ∧ c.peek ≠ ' ' ∧ c.peek ≠ '\t' then
            if after.isEmpty then [' '] else []
          else b
        let (text, last, tail, c) := readBlockLines folded indent fuel after c
        (breaks ++ line ++ glue ++ text, last, tail, c)
      else (breaks ++ line, b, after, c)
    else ([], [], breaks, c)

def readBlock (around : Int) (c : Cursor) : Read := do
  let folded := c.peek = '>'
  let (chomping, increment, c) ← readBlockHeader c.forward
  let c ← skipLineEnd c
  let least := (max (around + 1) 1).toNat
  let (indent, breaks, c) :=
    match increment with
    | none =>
      let (breaks, greatest, c) := readBlockIndentation c.fuel 0 c
      (max least greatest, breaks, c)
    | some n =>
      let indent := least + n - 1
      let (breaks, c) := readBlockBreaks indent c.fuel c
      (indent, breaks, c)
  let (text, last, tail, c) := readBlockLines folded indent c.fuel breaks c
  return match chomping with
    | .strip => (text, c)
    | .clip => (text ++ last, c)
    | .keep => (text ++ last ++ tail, c)

def endsPlain (flow : Bool) (d next : Char) : Bool :=
  isBlankBreakOrEnd d ||
    (d == ':' && (isBlankBreakOrEnd next || (flow && next ∈ [',', '[', ']', '\x7b', '\x7d']))) ||
    (flow && d ∈ [',', '?', '[', ']', '\x7b', '\x7d'])

def plainLength (flow : Bool) : List Char → Nat
  | [] => 0
  | d :: rest =>
    if endsPlain flow d (rest.head?.getD endOfText) then 0 else plainLength flow rest + 1

def readPlainBreaks : Nat → Cursor → Option (List Char) × Cursor
  | 0, c => (none, c)
  | fuel + 1, c =>
    if c.peek = ' ' then readPlainBreaks fuel c.forward
    else if isBreak c.peek then
      let (b, c) := c.readBreak
      if c.atSeparator then (none, c)
      else
        let (more, c) := readPlainBreaks fuel c
        (more.map (b ++ ·), c)
    else (some [], c)

def readPlainSpace (c : Cursor) : List Char × Bool × Cursor :=
  let n := c.count (· == ' ')
  let spaces := c.take n
  let c := c.forwardBy n
  if isBreak c.peek then
    let (b, c) := c.readBreak
    if c.atSeparator then ([], true, c)
    else
      match readPlainBreaks c.fuel c with
      | (none, c) => ([], true, c)
      | (some breaks, c) =>
        if b ≠ ['\n'] then (b ++ breaks, true, c)
        else if breaks.isEmpty then ([' '], true, c)
        else (breaks, true, c)
  else (spaces, false, c)

/-- A plain scalar. `space` stands before its next stretch, and `broken` says whether a line break
is in it. The result says whether a line break was read behind the last stretch. -/
def readPlainFrom (flow : Bool) (indent : Int) :
    Nat → List Char → Bool → Cursor → List Char × Bool × Cursor
  | 0, _, broken, c => ([], broken, c)
  | fuel + 1, space, broken, c =>
    if c.peek = '#' then ([], broken, c)
    else
      let n := plainLength flow c.rest
      if n = 0 then ([], broken, c)
      else
        let stretch := c.take n
        let (next, broken, c) := readPlainSpace (c.forwardBy n)
        if next.isEmpty ∨ c.peek = '#' ∨ (!flow ∧ (c.column : Int) < indent) then
          (space ++ stretch, broken, c)
        else
          let (more, broken, c) := readPlainFrom flow indent fuel next broken c
          (space ++ stretch ++ more, broken, c)

def readPlain (flow : Bool) (around : Int) (c : Cursor) : List Char × Bool × Cursor :=
  readPlainFrom flow (around + 1) c.fuel [] false c

end MarkupLabels.Yaml
