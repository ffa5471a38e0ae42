import MarkupLabels.Source.Character
/-!
Whether a `<` in front of an operand opens type parameters rather than a tag. The text behind it is
looked at one character after another, until it is settled. Type parameters are a name and then a
comma, a default or a constraint, or else a name in angle brackets, parameters in parentheses and
an arrow. Nothing is settled in favour of type parameters behind what an attribute looks like: a
name directly in front of an equals sign, or a quote between parentheses.
-/

namespace MarkupLabels.Source

inductive Constraint
  | nothing
  | name
  | blank
deriving DecidableEq, Repr, Inhabited

/-- What has been seen behind a `<`. -/
inductive Outlook
  | start
  | name (text : List Char)
  | named (text : List Char)
  | keyword (letters : Nat)
  | constraint (seen : Constraint)
  | closed
  | parameters (depth : Nat)
  | behind (equals : Bool)
  | result (depth : Nat) (equals : Bool)
  | settled (answer : Bool)
deriving DecidableEq, Repr, Inhabited

def endsSearch (c : Char) : Bool := c ∈ ['"', '\'', '\x60', '/', '<']

def opensBracket (c : Char) : Bool := c ∈ ['(', '[', '\x7b']

def closesBracket (c : Char) : Bool := c ∈ [')', ']', '\x7d']

namespace Outlook

def extendsLetters : List Char := ['e', 'x', 't', 'e', 'n', 'd', 's']

def closeParameters (c : Char) : Nat → Outlook
  | 0 => if c = ')' then .behind false else .settled false
  | depth + 1 => .parameters depth

def step (o : Outlook) (c : Char) : Outlook :=
  match o with
  | .settled answer => .settled answer
  | .start => if isBlank c then .start else if isNameChar c then .name [c] else .settled false
  | .name text =>
    if isNameChar c then .name (text ++ [c])
    else if isBlank c then .named text
    else if c = '>' then .closed
    else .settled (c = ',')
  | .named text =>
    if isBlank c then .named text
    else if text = ['c', 'o', 'n', 's', 't'] ∧ isNameChar c then .name [c]
    else if c = 'e' then .keyword 1
    else if c = '>' then .closed
    else .settled (c = ',' ∨ c = '=')
  | .keyword letters =>
    if letters = extendsLetters.length then
      if isBlank c then .constraint .nothing else .settled false
    else if extendsLetters[letters]? = some c then .keyword (letters + 1)
    else .settled false
  | .constraint seen =>
    if isBlank c then .constraint (if seen = .nothing then .nothing else .blank)
    else if isTagNameChar c ∨ c = ':' ∨ c = '.' then .constraint .name
    else if c = '/' then .settled false
    else if c = '>' then .settled (seen ≠ .nothing)
    else if c = '=' then .settled (seen = .blank)
    else .settled true
  | .closed => if isBlank c then .closed else if c = '(' then .parameters 0 else .settled false
  | .parameters depth =>
    if endsSearch c then .settled false
    else if opensBracket c then .parameters (depth + 1)
    else if closesBracket c then closeParameters c depth
    else .parameters depth
  | .behind equals =>
    if equals then .settled (c = '>')
    else if isBlank c then .behind false
    else if c = '=' then .behind true
    else if c = ':' then .result 0 false
    else .settled false
  | .result depth equals =>
    if endsSearch c then .settled false
    else if equals ∧ c = '>' ∧ depth = 0 then .settled true
    else if opensBracket c then .result (depth + 1) false
    else if closesBracket c then
      if depth = 0 then .settled false else .result (depth - 1) false
    else .result depth (c = '=')

def after (o : Outlook) : List Char → Outlook
  | [] => o
  | c :: rest =>
    match o.step c with
    | .settled answer => .settled answer
    | next => next.after rest

end Outlook

def isTypeParameters (cs : List Char) : Bool := Outlook.start.after cs = .settled true

end MarkupLabels.Source
