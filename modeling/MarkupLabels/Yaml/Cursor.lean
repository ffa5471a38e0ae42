
namespace MarkupLabels.Yaml

inductive Fault
  | malformed
  | noSuchValue
  | outOfReach
  | unknownWord
  | emptyNumber
  | noTimestamp
  | endless
deriving DecidableEq, Repr, Inhabited

structure Cursor where
  rest : List Char
  index : Nat
  line : Nat
  column : Nat
deriving DecidableEq, Repr, Inhabited

def endOfText : Char := '\x00'

def isBreak (c : Char) : Bool :=
  c == '\n' || c == '\r' || c == '\x85' || c == '\u2028' || c == '\u2029'

def isBreakOrEnd (c : Char) : Bool := c == endOfText || isBreak c

def isSpaceBreakOrEnd (c : Char) : Bool := c == ' ' || isBreakOrEnd c

def isBlankBreakOrEnd (c : Char) : Bool := c == ' ' || c == '\t' || isBreakOrEnd c

def isNameChar (c : Char) : Bool :=
  ('0' ≤ c && c ≤ '9') || ('A' ≤ c && c ≤ 'Z') || ('a' ≤ c && c ≤ 'z') || c == '-' || c == '_'

def isHexDigit (c : Char) : Bool :=
  ('0' ≤ c && c ≤ '9') || ('A' ≤ c && c ≤ 'F') || ('a' ≤ c && c ≤ 'f')

namespace Cursor

def start (text : List Char) : Cursor := { rest := text, index := 0, line := 0, column := 0 }

def peekAt (c : Cursor) (n : Nat) : Char := c.rest.getD n endOfText

def peek (c : Cursor) : Char := c.peekAt 0

def forward (c : Cursor) : Cursor :=
  match c.rest with
  | [] => c
  | d :: rest =>
    let breaks := d == '\n' || d == '\x85' || d == '\u2028' || d == '\u2029' ||
      (d == '\r' && rest.head? != some '\n')
    { rest
      index := c.index + 1
      line := if breaks then c.line + 1 else c.line
      column := if breaks then 0 else if d = '\ufeff' then c.column else c.column + 1 }

def forwardBy (c : Cursor) : Nat → Cursor
  | 0 => c
  | n + 1 => c.forward.forwardBy n

def count (c : Cursor) (p : Char → Bool) : Nat := (c.rest.takeWhile p).length

def skip (c : Cursor) (p : Char → Bool) : Cursor := c.forwardBy (c.count p)

def take (c : Cursor) (n : Nat) : List Char := c.rest.take n

def skipSpaces (c : Cursor) : Cursor := c.skip (· == ' ')

def skipComment (c : Cursor) : Cursor :=
  if c.peek = '#' then c.skip fun d => !isBreakOrEnd d else c

def readBreak (c : Cursor) : List Char × Cursor :=
  let d := c.peek
  if d = '\r' ∧ c.peekAt 1 = '\n' then (['\n'], c.forwardBy 2)
  else if d = '\r' ∨ d = '\n' ∨ d = '\x85' then (['\n'], c.forward)
  else if d = '\u2028' ∨ d = '\u2029' then ([d], c.forward)
  else ([], c)

def atMarker (c : Cursor) (d : Char) : Bool :=
  c.peek == d && c.peekAt 1 == d && c.peekAt 2 == d && isBlankBreakOrEnd (c.peekAt 3)

def atSeparator (c : Cursor) : Bool := c.atMarker '-' || c.atMarker '.'

/-- More steps than a loop that moves the cursor in each step can take. -/
def fuel (c : Cursor) : Nat := c.rest.length + 1

end Cursor

end MarkupLabels.Yaml
