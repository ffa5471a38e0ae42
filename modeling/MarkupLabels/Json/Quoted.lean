import MarkupLabels.Text.CodePoint

namespace MarkupLabels.Json

def hexDigit (n : Nat) : Char :=
  Char.ofNat (if n < 10 then '0'.toNat + n else 'a'.toNat + (n - 10))

def unitEscape (n : Nat) : List Char :=
  ['\\', 'u', hexDigit (n / 4096 % 16), hexDigit (n / 256 % 16), hexDigit (n / 16 % 16),
    hexDigit (n % 16)]

def escape (c : Char) : List Char :=
  if c = '"' then ['\\', '"']
  else if c = '\\' then ['\\', '\\']
  else if c = '\n' then ['\\', 'n']
  else if c = '\r' then ['\\', 'r']
  else if c = '\t' then ['\\', 't']
  else if c = '\x08' then ['\\', 'b']
  else if c = '\x0c' then ['\\', 'f']
  else if ' ' ≤ c ∧ c ≤ '~' then [c]
  else if c.toNat < 0x10000 then unitEscape c.toNat
  else
    let n := c.toNat - 0x10000
    unitEscape (0xd800 + n / 0x400) ++ unitEscape (0xdc00 + n % 0x400)

def quotedBody (cs : List Char) : List Char := cs.flatMap escape

def quoted (cs : List Char) : List Char := '"' :: (quotedBody cs ++ ['"'])

def escapePoint : CodePoint → List Char
  | .char c => escape c
  | .surrogate n => unitEscape (0xd800 + n)

def quotedPoints (s : CodePoints) : List Char := '"' :: (s.flatMap escapePoint ++ ['"'])

end MarkupLabels.Json
