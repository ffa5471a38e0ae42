import MarkupLabels.Source.Lexeme
import MarkupLabels.Source.Character
/-!
The context of a place in source text: the brackets, tags and templates that are open there, and
what was seen last inside the innermost. It decides how the next characters are read: whether a
slash divides or begins a regular expression, and whether `<` compares, brackets types or opens a
tag. `Context.advance` moves it over one lexeme.
-/

namespace MarkupLabels.Source

inductive Shape
  | program
  | block
  | classBody
  | object
  | parentheses (beforeStatement : Bool)
  | brackets
  | angles
  | substitution
  | container (use : ContainerUse)
deriving DecidableEq, Repr, Inhabited

inductive Last
  | start
  | operand
  | operator
  | dot
  | control
  | arrow
  | typeMark
  | head
  | typeWord
  | question
deriving DecidableEq, Repr, Inhabited

inductive BodyKind
  | block
  | classBody
  | object
deriving DecidableEq, Repr, Inhabited

def BodyKind.shape : BodyKind → Shape
  | .block => .block
  | .classBody => .classBody
  | .object => .object

structure Body where
  kind : BodyKind
  typed : Bool
  after : Last
deriving DecidableEq, Repr, Inhabited

structure Code where
  shape : Shape
  last : Last
  body : Option Body
  /-- Conditional operators that still wait for their colon. -/
  conditions : Nat
  typed : Bool
  /-- Whether a colon in the statement is followed by a type. -/
  declares : Bool
  fresh : Bool
  /-- Whether a word that may name a member stands directly in front. -/
  names : Bool
deriving DecidableEq, Repr, Inhabited

inductive TagPhase
  | opened
  | joined
  | named
  | equals
  | attributes
deriving DecidableEq, Repr, Inhabited

inductive Frame
  | code (c : Code)
  | tag (phase : TagPhase)
  | children
  | closingTag
deriving DecidableEq, Repr, Inhabited

structure Context where
  language : Language
  inner : Frame
  outer : List Frame
deriving DecidableEq, Repr, Inhabited

namespace Code

def inside (shape : Shape) (last : Last) (typed : Bool) : Code :=
  { shape, last, body := none, conditions := 0, typed, declares := false, fresh := false,
    names := false }

def afterOperand (c : Code) : Bool :=
  match c.last with
  | .operand | .dot | .head | .typeWord => true
  | _ => false

def holdsStatements (c : Code) : Bool :=
  match c.shape with
  | .program | .block => true
  | _ => false

def see (c : Code) (last : Last) : Code := { c with last, fresh := false, names := false }

def restart (c : Code) : Code :=
  if c.holdsStatements then
    { c with last := .start, body := none, conditions := 0, typed := false, declares := false }
  else { c with last := .start, conditions := 0 }

def functionBody (c : Code) : Body :=
  { kind := .block, typed := false, after := if c.last = .start then .start else .operand }

def classBody (c : Code) : Body :=
  { kind := .classBody, typed := false, after := if c.last = .start then .start else .operand }

def interfaceBody : Body := { kind := .object, typed := true, after := .start }

def isStatementWord (w : String) : Bool :=
  w ∈ ["const", "let", "var", "return", "if", "for", "while", "do", "else", "switch", "case",
    "default", "try", "finally", "throw", "function", "class", "import", "export"]

def seeLeadingWord (c : Code) (language : Language) (w : String) : Code :=
  if c.last = .control ∧ w = "await" then c.see .control
  else if w ∈ ["return", "throw", "case", "new", "delete", "typeof", "void", "await", "yield", "in",
      "instanceof"] then c.see .operator
  else if w ∈ ["else", "do", "try", "finally", "default", "export"] then c.see .start
  else if w ∈ ["if", "while", "for", "with"] then c.see .control
  else if w ∈ ["const", "let", "var"] then { c.see .operator with declares := true }
  else if w = "function" then { c.see .head with body := some c.functionBody }
  else if w = "class" then { c.see .head with body := some c.classBody }
  else if language = .tsx ∧ c.last = .start ∧ w = "interface" then
    { c.see .operand with body := some interfaceBody }
  else if language = .tsx ∧ c.last = .start ∧ w = "declare" then c.see .start
  else if language = .tsx ∧ c.last = .start ∧ w = "type" then c.see .typeWord
  else c.see .operand

def seeTypeWord (c : Code) (w : String) : Code :=
  if w ∈ ["typeof", "keyof", "readonly", "unique", "infer", "new", "abstract", "asserts"] then
    c.see .typeMark
  else c.see .operand

def seeFollowingWord (c : Code) (language : Language) (w : String) : Code :=
  if c.last = .dot then c.see .operand
  else if w ∈ ["in", "instanceof", "of"] then c.see .operator
  else if w ∈ ["extends", "implements"] then c.see .typeMark
  else if language = .tsx ∧ w ∈ ["as", "satisfies", "is", "keyof"] then c.see .typeMark
  else if isStatementWord w then c.restart.seeLeadingWord language w
  else if c.last = .typeWord then { c.see .operand with typed := true }
  else if c.fresh ∧ c.holdsStatements then c.restart.seeLeadingWord language w
  else c.see .operand

/-- Whether a word may name a member, though it be reserved. Where an operand is due, those in front of
which a tag often stands do not count. -/
def mayName (c : Code) (language : Language) (w : String) : Bool :=
  match language, c.shape with
  | .tsx, .classBody => c.last = .start ∨ c.afterOperand ∨ w ≠ "await"
  | .tsx, .object => w ∉ ["return", "await", "yield"]
  | _, _ => false

def seeWord (c : Code) (language : Language) (w : String) : Code :=
  let seen :=
    if c.afterOperand then c.seeFollowingWord language w
    else if c.last = .typeMark ∨ c.typed then c.seeTypeWord w
    else c.seeLeadingWord language w
  { seen with names := c.mayName language w }

def beginsImport (c : Code) : Bool :=
  c.holdsStatements &&
    (c.last == .start || (c.fresh && (c.last == .operand || c.last == .typeWord)))

def dropHead (c : Code) : Code := if c.last = .head then { c with body := none } else c

def dropQuestion (c : Code) : Code :=
  if c.last = .question then { c with conditions := c.conditions - 1 } else c

def afterColon (c : Code) (language : Language) : Last :=
  match c.shape with
  | .program | .block => if c.declares then typeOrOperand else .start
  | .parentheses _ | .classBody | .angles => typeOrOperand
  | _ => .operator
where
  typeOrOperand : Last := if language = .tsx then .typeMark else .operator

def seeColon (c : Code) (language : Language) : Code :=
  if c.last = .question then
    { c.see (if language = .tsx then .typeMark else .operator) with
      conditions := c.conditions - 1 }
  else if 0 < c.conditions then { c.see .operator with conditions := c.conditions - 1 }
  else c.dropHead.see (c.afterColon language)

def seePunctuation (c : Code) (language : Language) (text : String) : Code :=
  match text with
  | ";" => c.restart.see .start
  | "," => c.dropHead.dropQuestion.see .operator
  | "?" => { c.dropHead.see .question with conditions := c.conditions + 1 }
  | ":" => c.seeColon language
  | "=>" => c.see .arrow
  | "." | "?." => c.see .dot
  | "++" | "--" | "!" => c.see (if c.afterOperand then .operand else .operator)
  | "=" => c.dropHead.see .operator
  | "*" => c.see (if c.last = .head then .head else .operator)
  | _ => c.see .operator

def openBrace (c : Code) : Code × Code :=
  match c.body with
  | some b => ({ c.see b.after with body := none }, .inside b.kind.shape .start (b.typed || c.typed))
  | none =>
    match c.last with
    | .arrow => (c.see .operand, .inside .block .start c.typed)
    | .start | .operand | .control | .dot | .head | .typeWord =>
      (c.see .start, .inside .block .start c.typed)
    | .operator | .typeMark | .question => (c.see .operand, .inside .object .operator c.typed)

def openParenthesis (c : Code) : Code × Code :=
  let control := c.last == .control
  let outer := match c.body with
    | some b => if b.kind = BodyKind.classBody then c.dropHead else c
    | none => c
  (outer.see (if control then .start else .operand),
    .inside (.parentheses control) .operator c.typed)

end Code

namespace Context

def initial (language : Language) : Context :=
  { language, inner := .code (.inside .program .start false), outer := [] }

def push (c : Context) (f : Frame) : Context :=
  { c with inner := f, outer := c.inner :: c.outer }

def pop (c : Context) : Context :=
  match c.outer with
  | [] => c
  | f :: rest => { c with inner := f, outer := rest }

def mapCode (c : Context) (f : Code → Code) : Context :=
  match c.inner with
  | .code k => { c with inner := .code (f k) }
  | _ => c

def complete (c : Context) : Context :=
  match c.inner with
  | .code k => { c with inner := .code (k.see .operand) }
  | .tag _ => { c with inner := .tag .attributes }
  | _ => c

def enter (c : Context) (both : Code × Code) : Context :=
  { c with inner := .code both.2, outer := .code both.1 :: c.outer }

def advanceBlank (c : Context) (text : List Char) : Context :=
  c.mapCode fun k => { k with fresh := k.fresh || text.any isLineEnd, names := false }

def advancePunctuation (c : Context) (k : Code) (text : String) : Context :=
  match text with
  | "\x7b" => c.enter k.openBrace
  | "(" => c.enter k.openParenthesis
  | "[" => c.enter (k.see .operand, .inside .brackets .operator k.typed)
  | "\x7d" | ")" | "]" => c.pop
  | "<" =>
    if k.shape = .angles then c.enter (k.see .operand, .inside .angles .typeMark true)
    else { c with inner := .code (k.see .typeMark) }
  | ">" =>
    if k.shape = .angles then c.pop
    else { c with inner := .code (k.see (if k.typed then .operand else .operator)) }
  | _ => { c with inner := .code (k.seePunctuation c.language text) }

def advanceTemplate (c : Context) (opens closes : Bool) : Context :=
  match opens, closes with
  | true, false => (c.mapCode (·.see .operand)).push (.code (.inside .substitution .operator false))
  | true, true => c.mapCode fun _ => .inside .substitution .operator false
  | false, _ => c.pop

def advance (c : Context) (l : Lexeme) : Context :=
  match l.kind with
  | .blank | .comment => c.advanceBlank l.text
  | .word => c.mapCode (·.seeWord c.language (String.ofList l.text))
  | .importWord => c.mapCode (·.restart.see .operand)
  | .number | .string | .template | .regex => c.mapCode (·.see .operand)
  | .templatePart opens closes => c.advanceTemplate opens closes
  | .punctuation =>
    match c.inner with
    | .code k => c.advancePunctuation k (String.ofList l.text)
    | .tag phase =>
      if l.text = ['<'] then c.push (.code (.inside .angles .typeMark true))
      else if phase = .named ∧ (l.text = ['.'] ∨ l.text = [':']) then { c with inner := .tag .joined }
      else c
    | _ => c
  | .tagOpen => c.push (.tag .opened)
  | .tagName => { c with inner := .tag .named }
  | .attributeName => { c with inner := .tag .attributes }
  | .equals => { c with inner := .tag .equals }
  | .attributeString => { c with inner := .tag .attributes }
  | .containerOpen use => c.push (.code (.inside (.container use) .operator false))
  | .containerClose _ => c.pop.complete
  | .tagEnd => { c with inner := .children }
  | .selfClose => c.pop.complete
  | .closingOpen => { c with inner := .closingTag }
  | .closingName => c
  | .closingEnd => c.pop.complete
  | .content => c

end Context

end MarkupLabels.Source
