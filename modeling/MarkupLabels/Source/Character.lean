
namespace MarkupLabels.Source

def isBlank (c : Char) : Bool :=
  let n := c.toNat
  (9 ≤ n && n ≤ 13) || n == 0x20 || n == 0xa0 || n == 0x1680 || (0x2000 ≤ n && n ≤ 0x200b) ||
    n == 0x2028 || n == 0x2029 || n == 0x202f || n == 0x205f || n == 0x2060 || n == 0x3000 ||
    n == 0xfeff

def isPunctuation (c : Char) : Bool :=
  c ∈ [':', ';', '\x60', '"', '\'', '@', '#', '.', ',', '|', '^', '&', '<', '=', '>', '+', '-', '*',
    '/', '%', '?', '!', '~', '(', ')', '[', ']', '\x7b', '\x7d']

def isNameChar (c : Char) : Bool :=
  !(c.toNat < 32 || isBlank c || isPunctuation c)

def isTagNameChar (c : Char) : Bool := isNameChar c || c == '-'

def isDigit (c : Char) : Bool := '0' ≤ c && c ≤ '9'

def isLineEnd (c : Char) : Bool := c == '\n' || c == '\r' || c.toNat == 0x2028 || c.toNat == 0x2029

def runLength (p : Char → Bool) : List Char → Nat
  | [] => 0
  | c :: rest => if p c then runLength p rest + 1 else 0

def startsWith : List Char → List Char → Bool
  | _, [] => true
  | [], _ :: _ => false
  | c :: rest, d :: more => c == d && startsWith rest more

end MarkupLabels.Source
