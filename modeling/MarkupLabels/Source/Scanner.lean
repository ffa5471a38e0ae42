import MarkupLabels.Source.Character
/-!
Scanners, which find how far a lexeme reaches. A scanner looks at one character after another and
decides by its state whether the lexeme goes on.
-/

namespace MarkupLabels.Source

/-- What a scanner makes of a character. -/
inductive Scan (σ : Type)
  | on (next : σ)
  | last (mark : Bool)
  | before

def scan {σ : Type} (step : σ → Char → Scan σ) (s : σ) : List Char → Nat × Bool
  | [] => (0, false)
  | c :: rest =>
    match step s c with
    | .on next => let (n, mark) := scan step next rest; (n + 1, mark)
    | .last mark => (1, mark)
    | .before => (0, false)

def scanBlockComment (starred : Bool) (c : Char) : Scan Bool :=
  if starred ∧ c = '/' then .last false else .on (c = '*')

def scanString (quote : Char) (escaped : Bool) (c : Char) : Scan Bool :=
  if escaped then .on false
  else if c = quote then .last false
  else .on (c = '\\')

def scanQuoted (quote : Char) (_ : Unit) (c : Char) : Scan Unit :=
  if c = quote then .last false else .on ()

inductive TemplateState
  | text
  | backslash
  | dollar
deriving DecidableEq, Repr, Inhabited

/-- A stretch of a template, which is marked if it ends in a substitution. -/
def scanTemplate (s : TemplateState) (c : Char) : Scan TemplateState :=
  if s = .backslash then .on .text
  else if s = .dollar ∧ c = '\x7b' then .last true
  else if c = '\x60' then .last false
  else .on (if c = '\\' then .backslash else if c = '$' then .dollar else .text)

inductive RegexState
  | body (bracketed escaped : Bool)
  | flags
deriving DecidableEq, Repr, Inhabited

def scanRegex (s : RegexState) (c : Char) : Scan RegexState :=
  match s with
  | .flags => if isNameChar c then .on .flags else .before
  | .body bracketed escaped =>
    if escaped then .on (.body bracketed false)
    else if c = '/' ∧ !bracketed then .on .flags
    else .on (.body (c = '[' ∨ (bracketed ∧ c ≠ ']')) (c = '\\'))

def scanNumber (signs marked : Bool) (c : Char) : Scan Bool :=
  if isNameChar c ∨ c = '.' then .on (signs && (c == 'e' || c == 'E'))
  else if marked ∧ (c = '+' ∨ c = '-') then .on false
  else .before

end MarkupLabels.Source
