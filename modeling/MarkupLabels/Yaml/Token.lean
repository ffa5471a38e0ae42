import MarkupLabels.Yaml.ScalarText
import MarkupLabels.Text.Utf8
/-!
Tokens of YAML text. Indentation becomes tokens for the start and the end of blocks, and a key that
is recognised by the colon behind it gets its token in front of it afterwards.
-/

namespace MarkupLabels.Yaml

inductive Directive
  | version (major : Nat)
  | tagHandle (handle expansion : String)
  | other
deriving DecidableEq, Repr, Inhabited

inductive Token
  | streamEnd
  | directive (d : Directive)
  | documentStart
  | documentEnd
  | blockSequenceStart
  | blockMappingStart
  | blockEnd
  | flowSequenceStart
  | flowSequenceEnd
  | flowMappingStart
  | flowMappingEnd
  | blockEntry
  | flowEntry
  | key
  | value
  | alias (name : String)
  | anchor (name : String)
  | tag (handle : Option String) (suffix : String)
  | scalar (text : CodePoints) (plain : Bool)
deriving DecidableEq, Repr, Inhabited

structure KeyStart where
  number : Nat
  required : Bool
  index : Nat
  line : Nat
  column : Nat
deriving DecidableEq, Repr, Inhabited

structure Scan where
  cursor : Cursor
  tokens : List Token
  flowLevel : Nat
  indent : Int
  indents : List Int
  allowsKey : Bool
  keys : List (Nat × KeyStart)
  finished : Bool
deriving Repr, Inhabited

namespace Scan

def start (text : List Char) : Scan :=
  { cursor := .start text, tokens := [], flowLevel := 0, indent := -1, indents := [],
    allowsKey := true, keys := [], finished := false }

def inFlow (s : Scan) : Bool := 0 < s.flowLevel

def push (s : Scan) (t : Token) : Scan := { s with tokens := s.tokens ++ [t] }

def insertAt (s : Scan) (number : Nat) (t : Token) : Scan :=
  { s with tokens := s.tokens.insertIdx number t }

def toNext : Nat → Scan → Scan
  | 0, s => s
  | fuel + 1, s =>
    let c := s.cursor.skipSpaces.skipComment
    if isBreak c.peek then
      toNext fuel { s with cursor := c.readBreak.2, allowsKey := s.allowsKey || !s.inFlow }
    else { s with cursor := c }

def toNextToken (s : Scan) : Scan :=
  let s := if s.cursor.index = 0 ∧ s.cursor.peek = '\ufeff' then
    { s with cursor := s.cursor.forward } else s
  s.toNext s.cursor.fuel

def dropStaleKeys (s : Scan) : Except Fault Scan :=
  let stale := fun (k : KeyStart) =>
    k.line != s.cursor.line || 1024 < s.cursor.index - k.index
  if s.keys.any fun (_, k) => stale k && k.required then .error .malformed
  else .ok { s with keys := s.keys.filter fun (_, k) => !stale k }

def dropKey (s : Scan) : Except Fault Scan :=
  match s.keys.lookup s.flowLevel with
  | some k =>
    if k.required then .error .malformed
    else .ok { s with keys := s.keys.filter fun (level, _) => level != s.flowLevel }
  | none => .ok s

def saveKey (s : Scan) : Except Fault Scan := do
  if !s.allowsKey then return s
  let s ← s.dropKey
  let c := s.cursor
  let k : KeyStart :=
    { number := s.tokens.length
      required := !s.inFlow && s.indent == c.column
      index := c.index
      line := c.line
      column := c.column }
  return { s with keys := (s.flowLevel, k) :: s.keys }

def closeBlocks (column : Int) : List Int → Scan → Scan
  | [], s => s
  | around :: rest, s =>
    if column < s.indent then
      closeBlocks column rest { s.push .blockEnd with indent := around, indents := rest }
    else s

def unwind (column : Int) (s : Scan) : Scan :=
  if s.inFlow then s else closeBlocks column s.indents s

def openBlock (s : Scan) (column : Int) (number : Nat) (t : Token) : Scan :=
  if s.indent < column then
    { s.insertAt number t with indent := column, indents := s.indent :: s.indents }
  else s

def withKeySaved (s : Scan) (read : Cursor → Except Fault (Token × Cursor)) :
    Except Fault Scan := do
  let s ← s.saveKey
  let (t, c) ← read s.cursor
  return { s.push t with cursor := c, allowsKey := false }

def readName (c : Cursor) : Except Fault (String × Cursor) :=
  let n := c.count isNameChar
  let name := c.take n
  let c := c.forwardBy n
  let d := c.peek
  if name.isEmpty then .error .malformed
  else if isBlankBreakOrEnd d ∨ d ∈ ['?', ':', ',', ']', '\x7d', '%', '@', '\x60'] then
    .ok (String.ofList name, c)
  else .error .malformed

def isTagChar (c : Char) : Bool :=
  isNameChar c || c ∈ [';', '/', '?', ':', '@', '&', '=', '+', '$', ',', '.', '!', '~', '*', '\'',
    '(', ')', '[', ']', '%']

def readEscapedBytes : Nat → Cursor → Except Fault (List UInt8 × Cursor)
  | 0, c => .ok ([], c)
  | fuel + 1, c =>
    if c.peek = '%' then
      let digits := c.forward.take 2
      if digits.length = 2 ∧ digits.all isHexDigit then do
        let (more, c) ← readEscapedBytes fuel (c.forwardBy 3)
        return (UInt8.ofNat (hexValue digits) :: more, c)
      else .error .malformed
    else .ok ([], c)

def readTagText : Nat → Cursor → Except Fault (List Char × Cursor)
  | 0, c => .ok ([], c)
  | fuel + 1, c =>
    if c.peek = '%' then do
      let (data, c) ← readEscapedBytes c.fuel c
      match Text.decodeUtf8 data with
      | .ok text =>
        let (more, c) ← readTagText fuel c
        return (text ++ more, c)
      | .error _ => .error .malformed
    else if isTagChar c.peek then do
      let (more, c') ← readTagText fuel c.forward
      return (c.peek :: more, c')
    else .ok ([], c)

def readTagUri (c : Cursor) : Except Fault (String × Cursor) := do
  if !isTagChar c.peek then .error .malformed
  else
    let (text, c) ← readTagText c.fuel c
    return (String.ofList text, c)

def readTagHandle (c : Cursor) : Except Fault (String × Cursor) :=
  if c.peek ≠ '!' then .error .malformed
  else
    let c' := c.forward
    if c'.peek = ' ' then .ok ("!", c')
    else
      let n := c'.count isNameChar
      if c'.peekAt n = '!' then
        .ok (String.ofList (c.take (n + 2)), c.forwardBy (n + 2))
      else .error .malformed

def readTag (c : Cursor) : Except Fault (Token × Cursor) := do
  let d := c.peekAt 1
  let (handle, suffix, c) ←
    if d = '<' then do
      let (suffix, c) ← readTagUri (c.forwardBy 2)
      if c.peek = '>' then pure (none, suffix, c.forward) else .error .malformed
    else if isBlankBreakOrEnd d then pure (none, "!", c.forward)
    else do
      let reach := c.forward.count fun e => !isSpaceBreakOrEnd e && e != '!'
      let (handle, c) ←
        if c.forward.peekAt reach = '!' then readTagHandle c else pure ("!", c.forward)
      let (suffix, c) ← readTagUri c
      pure (some handle, suffix, c)
  if isSpaceBreakOrEnd c.peek then return (.tag handle suffix, c) else .error .malformed

def readVersionNumber (c : Cursor) : Except Fault (Nat × Cursor) :=
  let n := c.count fun d => '0' ≤ d && d ≤ '9'
  if n = 0 then .error .malformed
  else .ok ((c.take n).foldl (fun m d => m * 10 + (digitValue? d).getD 0) 0, c.forwardBy n)

def readDirectiveValue (name : String) (c : Cursor) : Except Fault (Directive × Cursor) :=
  match name with
  | "YAML" => do
    let (major, c) ← readVersionNumber c.skipSpaces
    if c.peek ≠ '.' then .error .malformed
    else
      let (_, c) ← readVersionNumber c.forward
      if isSpaceBreakOrEnd c.peek then return (.version major, c) else .error .malformed
  | "TAG" => do
    let (handle, c) ← readTagHandle c.skipSpaces
    if c.peek ≠ ' ' then .error .malformed
    else
      let (expansion, c) ← readTagUri c.skipSpaces
      if isSpaceBreakOrEnd c.peek then return (.tagHandle handle expansion, c)
      else .error .malformed
  | _ => .ok (.other, c.skip fun d => !isBreakOrEnd d)

def readDirective (c : Cursor) : Except Fault (Token × Cursor) := do
  let c := c.forward
  let n := c.count isNameChar
  let name := c.take n
  let c := c.forwardBy n
  if name.isEmpty ∨ !isSpaceBreakOrEnd c.peek then .error .malformed
  else
    let (d, c) ← readDirectiveValue (String.ofList name) c
    return (.directive d, ← skipLineEnd c)

def atEnd (s : Scan) : Except Fault Scan := do
  let s ← (s.unwind (-1)).dropKey
  return { s.push .streamEnd with allowsKey := false, keys := [], finished := true }

def directive (s : Scan) : Except Fault Scan := do
  let s ← (s.unwind (-1)).dropKey
  let (t, c) ← readDirective s.cursor
  return { s.push t with cursor := c, allowsKey := false }

def separator (s : Scan) (t : Token) : Except Fault Scan := do
  let s ← (s.unwind (-1)).dropKey
  return { s.push t with cursor := s.cursor.forwardBy 3, allowsKey := false }

def flowStart (s : Scan) (t : Token) : Except Fault Scan := do
  let s ← s.saveKey
  return { s.push t with
    cursor := s.cursor.forward, flowLevel := s.flowLevel + 1, allowsKey := true }

def flowEnd (s : Scan) (t : Token) : Except Fault Scan := do
  let s ← s.dropKey
  if s.flowLevel = 0 then .error .malformed
  else
    return { s.push t with
      cursor := s.cursor.forward, flowLevel := s.flowLevel - 1, allowsKey := false }

def flowEntry (s : Scan) : Except Fault Scan := do
  let s ← { s with allowsKey := true }.dropKey
  return { s.push .flowEntry with cursor := s.cursor.forward }

def blockEntry (s : Scan) : Except Fault Scan := do
  if !s.inFlow ∧ !s.allowsKey then .error .malformed
  else
    let s := if s.inFlow then s
      else s.openBlock s.cursor.column s.tokens.length .blockSequenceStart
    let s ← { s with allowsKey := true }.dropKey
    return { s.push .blockEntry with cursor := s.cursor.forward }

def explicitKey (s : Scan) : Except Fault Scan := do
  if !s.inFlow ∧ !s.allowsKey then .error .malformed
  else
    let s := if s.inFlow then s
      else s.openBlock s.cursor.column s.tokens.length .blockMappingStart
    let s ← { s with allowsKey := !s.inFlow }.dropKey
    return { s.push .key with cursor := s.cursor.forward }

def valueMark (s : Scan) : Except Fault Scan := do
  match s.keys.lookup s.flowLevel with
  | some k =>
    let s := { s with keys := s.keys.filter fun (level, _) => level != s.flowLevel }
    let s := s.insertAt k.number .key
    let s := if s.inFlow then s else s.openBlock k.column k.number .blockMappingStart
    return { s.push .value with cursor := s.cursor.forward, allowsKey := false }
  | none =>
    if !s.inFlow ∧ !s.allowsKey then .error .malformed
    else
      let s := if s.inFlow then s
        else s.openBlock s.cursor.column s.tokens.length .blockMappingStart
      let s ← { s with allowsKey := !s.inFlow }.dropKey
      return { s.push .value with cursor := s.cursor.forward }

def blockScalar (s : Scan) : Except Fault Scan := do
  let s ← { s with allowsKey := true }.dropKey
  let (text, c) ← readBlock s.indent s.cursor
  return { s.push (.scalar (.ofChars text) false) with cursor := c }

def plainScalar (s : Scan) : Except Fault Scan := do
  let s ← s.saveKey
  let (text, broken, c) := readPlain s.inFlow s.indent s.cursor
  return { s.push (.scalar (.ofChars text) true) with cursor := c, allowsKey := broken }

def beginsPlain (s : Scan) : Bool :=
  let d := s.cursor.peek
  let indicators := ['-', '?', ':', ',', '[', ']', '\x7b', '\x7d', '#', '&', '*', '!', '|', '>',
    '\'', '"', '%', '@', '\x60']
  !(isBlankBreakOrEnd d || d ∈ indicators) ||
    (!isBlankBreakOrEnd (s.cursor.peekAt 1) &&
      (d == '-' || (!s.inFlow && (d == '?' || d == ':'))))

def next (s : Scan) : Except Fault Scan := do
  let s ← s.toNextToken.dropStaleKeys
  let s := s.unwind s.cursor.column
  let c := s.cursor
  let d := c.peek
  let blankNext := isBlankBreakOrEnd (c.peekAt 1)
  if d = endOfText then s.atEnd
  else if d = '%' ∧ c.column = 0 then s.directive
  else if c.column = 0 ∧ c.atMarker '-' then s.separator .documentStart
  else if c.column = 0 ∧ c.atMarker '.' then s.separator .documentEnd
  else if d = '[' then s.flowStart .flowSequenceStart
  else if d = '\x7b' then s.flowStart .flowMappingStart
  else if d = ']' then s.flowEnd .flowSequenceEnd
  else if d = '\x7d' then s.flowEnd .flowMappingEnd
  else if d = ',' then s.flowEntry
  else if d = '-' ∧ blankNext then s.blockEntry
  else if d = '?' ∧ (s.inFlow ∨ blankNext) then s.explicitKey
  else if d = ':' ∧ (s.inFlow ∨ blankNext) then s.valueMark
  else if d = '*' then
    s.withKeySaved fun c => do let (n, c) ← readName c.forward; return (.alias n, c)
  else if d = '&' then
    s.withKeySaved fun c => do let (n, c) ← readName c.forward; return (.anchor n, c)
  else if d = '!' then s.withKeySaved readTag
  else if (d = '|' ∨ d = '>') ∧ !s.inFlow then s.blockScalar
  else if d = '\'' ∨ d = '"' then
    s.withKeySaved fun c => do
      let (text, c) ← readQuoted c
      return (.scalar text false, c)
  else if s.beginsPlain then s.plainScalar
  else .error .malformed

def run (step : Scan → Except Fault Scan) : Nat → Scan → List Token × Option Fault
  | 0, s => (s.tokens, some .malformed)
  | fuel + 1, s =>
    if s.finished then (s.tokens, none)
    else
      match step s with
      | .ok s => run step fuel s
      | .error fault => (s.tokens, some fault)

end Scan

def isPrintable (c : Char) : Bool :=
  let n := c.toNat
  n == 9 || n == 10 || n == 13 || (0x20 ≤ n && n ≤ 0x7e) || n == 0x85 ||
    (0xa0 ≤ n && n ≤ 0xd7ff) || (0xe000 ≤ n && n ≤ 0xfffd) || 0x10000 ≤ n

def tokens (text : List Char) : List Token × Option Fault :=
  if text.all isPrintable then Scan.run Scan.next (text.length + 2) (Scan.start text)
  else ([], some .malformed)

end MarkupLabels.Yaml
