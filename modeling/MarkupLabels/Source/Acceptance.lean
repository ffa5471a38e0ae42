import MarkupLabels.Source.Reading
/-!
Which source texts the grammar accepts, as far as brackets, tags and the text between tags are
concerned: brackets are closed by their own kind, tags hold a name and then attributes, no lone
bracket stands in text, and nothing is left open at the end.
-/

namespace MarkupLabels.Source

def Code.admits (k : Code) (l : Lexeme) : Bool :=
  match l.kind with
  | .blank | .comment | .word | .importWord | .number | .string | .template | .regex => true
  | .templatePart opens closes => if closes then k.shape == .substitution else opens
  | .punctuation =>
    if l.text = ['\x7d'] then k.shape ∈ [.block, .classBody, .object]
    else if l.text = [')'] then k.shape ∈ [.parentheses false, .parentheses true]
    else if l.text = [']'] then k.shape == .brackets
    else true
  | .tagOpen => true
  | .containerClose use => k.shape == .container use
  | _ => false

def TagPhase.admits (phase : TagPhase) (l : Lexeme) : Bool :=
  match l.kind with
  | .blank | .comment => true
  | .tagName => phase ∈ [.opened, .joined]
  | .attributeName => phase ∈ [.named, .attributes] && l.text.getLast?.any isTagNameChar
  | .equals => phase == .attributes
  | .attributeString | .containerOpen .value | .tagOpen => phase == .equals
  | .containerOpen .spread => phase ∈ [.named, .attributes]
  | .punctuation => phase == .named && l.text ∈ [['<'], ['.'], [':']]
  | .tagEnd => phase ∈ [.opened, .named, .attributes]
  | .selfClose => phase ∈ [.named, .attributes]
  | _ => false

namespace Context

def admits (c : Context) (l : Lexeme) : Bool :=
  match c.inner with
  | .code k => k.admits l
  | .tag phase => phase.admits l
  | .children =>
    match l.kind with
    | .containerOpen .child | .tagOpen | .closingOpen => true
    | .content => l.text.all fun d => d != '>' && d != '\x7d'
    | _ => false
  | .closingTag => l.kind ∈ [.blank, .comment, .closingName, .closingEnd]

def admitsAll (c : Context) : List Lexeme → Bool
  | [] => c.outer.isEmpty
  | l :: rest => c.admits l && (c.advance l).admitsAll rest

end Context

def accepts (language : Language) (source : List Char) : Bool :=
  (Context.initial language).admitsAll (lexemes language source)

end MarkupLabels.Source
