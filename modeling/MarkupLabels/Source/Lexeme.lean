
namespace MarkupLabels

inductive Language
  | tsx
  | javascript
deriving DecidableEq, Repr, Inhabited

namespace Source

inductive ContainerUse
  | value
  | spread
  | child
deriving DecidableEq, Repr, Inhabited

inductive LexemeKind
  | blank
  | comment
  | word
  | importWord
  | number
  | string
  | template
  | templatePart (opens closes : Bool)
  | regex
  | punctuation
  | tagOpen
  | tagName
  | attributeName
  | equals
  | attributeString
  | containerOpen (use : ContainerUse)
  | containerClose (use : ContainerUse)
  | tagEnd
  | selfClose
  | closingOpen
  | closingName
  | closingEnd
  | content
deriving DecidableEq, Repr, Inhabited

def LexemeKind.isMarkup : LexemeKind → Bool
  | .tagOpen | .tagName | .attributeName | .equals | .attributeString | .containerOpen _
  | .containerClose _ | .tagEnd | .selfClose | .closingOpen | .closingName | .closingEnd
  | .content => true
  | _ => false

structure Lexeme where
  kind : LexemeKind
  text : List Char
deriving DecidableEq, Repr, Inhabited

namespace Lexeme

def texts (ls : List Lexeme) : List Char := ls.flatMap (·.text)

def isSignificant (l : Lexeme) : Bool := l.kind != .blank && l.kind != .comment

def unquoted (l : Lexeme) : String := String.ofList (l.text.drop 1).dropLast

end Lexeme

end Source

end MarkupLabels
