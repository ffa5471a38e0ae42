import MarkupLabels.Source.Lexeme
import MarkupLabels.Number.Literal
import MarkupLabels.Attribute
/-!
What the lexemes of an opening tag say: its name, its attributes and their values, and the item
that stands last in it. An open element is moved over one lexeme by `OpenElement.step`.
-/

namespace MarkupLabels.Source

def numberValue (text : List Char) : AttributeValue :=
  match Literal.natural? text with
  | some n => .integer n
  | none =>
    match Literal.decimal? text with
    | some x => .real x
    | none => .unresolved

def literalValue (l : Lexeme) : AttributeValue :=
  match l.kind with
  | .string | .template => .text l.unquoted
  | .number => numberValue l.text
  | .word =>
    if l.text = ['t', 'r', 'u', 'e'] then .flag true
    else if l.text = ['f', 'a', 'l', 's', 'e'] then .flag false
    else .unresolved
  | _ => .unresolved

inductive Contents
  | nothing
  | single (l : Lexeme)
  | several
deriving DecidableEq, Repr, Inhabited

namespace Contents

def add (l : Lexeme) : Contents → Contents
  | .nothing => .single l
  | _ => .several

def value : Contents → AttributeValue
  | .single l => literalValue l
  | _ => .unresolved

end Contents

inductive Slot
  | closed
  | named (commented : Bool)
  | valued (commented : Bool)
  | container (commented : Bool) (contents : Contents)
deriving DecidableEq, Repr, Inhabited

inductive TagItem
  | nothing
  | attribute
  | other
deriving DecidableEq, Repr, Inhabited

structure OpenElement where
  index : Nat
  name : Option String
  attributes : List Attribute
  slot : Slot
  item : TagItem
  column : Nat
  unnamed : Bool
  named : Bool
deriving DecidableEq, Repr, Inhabited

namespace OpenElement

def start (index : Nat) : OpenElement :=
  { index, name := none, attributes := [], slot := .closed, item := .nothing,
    column := 0, unnamed := true, named := false }

def setValue (e : OpenElement) (v : AttributeValue) : OpenElement :=
  { e with
    attributes := e.attributes.dropLast ++
      (e.attributes.getLast?.map fun a => { a with value := some v }).toList
    slot := .closed }

def plainName (text : List Char) : Option String :=
  if text.any (fun c => c == '.' || c == ':') then none
  else some (String.ofList text)

def settle (commented : Bool) (v : AttributeValue) : AttributeValue :=
  if commented then .unresolved else v

def step (e : OpenElement) (column : Nat) (l : Lexeme) : OpenElement :=
  match e.slot with
  | .container commented contents =>
    match l.kind with
    | .containerClose .value => e.setValue (settle commented contents.value)
    | .blank => e
    | _ => { e with slot := .container commented (contents.add l) }
  | slot =>
    match l.kind with
    | .tagName =>
      { e with
        name := if e.unnamed then plainName l.text else none
        item := .other
        unnamed := false
        named := true }
    | .attributeName =>
      { e with
        attributes := e.attributes ++ [{ name := String.ofList l.text, value := none }]
        slot := .named false
        item := .attribute
        column }
    | .comment =>
      match slot with
      | .named _ => { e with slot := .named true, item := .other }
      | .valued _ => { e with slot := .valued true }
      | _ => { e with item := .other, unnamed := false }
    | .equals =>
      match slot with
      | .named commented => { e with slot := .valued commented, item := .attribute }
      | _ => e
    | .attributeString =>
      match slot with
      | .valued commented => e.setValue (settle commented (.text l.unquoted))
      | _ => e
    | .containerOpen .value =>
      match slot with
      | .valued commented => { e with slot := .container commented .nothing }
      | _ => e
    | .containerOpen .spread => { e with slot := .closed, item := .other }
    | .tagOpen =>
      match slot with
      | .valued _ => e.setValue .unresolved
      | _ => e
    | .punctuation => { e with slot := .closed, item := .other }
    | _ => e

end OpenElement

end MarkupLabels.Source
