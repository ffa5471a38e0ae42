import MarkupLabels.Source.Reading
import MarkupLabels.Source.Tag
import MarkupLabels.Source.ImportDeclaration
import MarkupLabels.Tree.Forest
/-!
Documents: a source text with its elements, its imports, and the places where attributes may be
added. A place is in front of the token that ends an opening tag.
-/

namespace MarkupLabels.Source

/-- How a tag ends, as far as added attributes must fit in. -/
inductive Layout
  | adjacent
  | spaced
  /-- The last item is on an earlier line. Added attributes go to lines of their own from the
  column `attributes` on, and the end of the tag keeps the column `closer`. -/
  | ownLine (attributes closer : Nat)
deriving DecidableEq, Repr, Inhabited

structure TagEnd where
  element : Nat
  offset : Nat
  token : List Char
  named : Bool
  layout : Option Layout
deriving DecidableEq, Repr, Inhabited

def columnAfter (column : Nat) (text : List Char) : Nat :=
  text.foldl (fun n c => if c = '\n' then 0 else n + 1) column

structure Progress where
  offset : Nat
  column : Nat
  gap : List Char
  openElements : List OpenElement
  forest : Forest
deriving Inhabited

namespace Progress

def initial : Progress := { offset := 0, column := 0, gap := [], openElements := [], forest := .empty }

def stepInner (p : Progress) (l : Lexeme) : Progress :=
  match p.openElements with
  | [] => p
  | e :: rest => { p with openElements := e.step p.column l :: rest }

def openTag (p : Progress) : Progress :=
  { p with
    openElements := .start p.forest.size :: p.openElements
    forest := p.forest.add
      { name := none, parent := p.openElements.head?.map (·.index), attributes := [] } }

def closeTag (p : Progress) : Progress :=
  match p.openElements with
  | [] => p
  | e :: rest =>
    { p with
      openElements := .start e.index :: rest
      forest := p.forest.describe e.index e.name e.attributes }

def leave (p : Progress) : Progress := { p with openElements := p.openElements.drop 1 }

def enter (p : Progress) (l : Lexeme) : Progress :=
  match l.kind with
  | .tagOpen => (p.stepInner l).openTag
  | .tagEnd => p.closeTag
  | .selfClose => p.closeTag.leave
  | .closingEnd => p.leave
  | _ => p.stepInner l

def step (p : Progress) (l : Lexeme) : Progress :=
  { p.enter l with
    offset := p.offset + l.text.length
    column := columnAfter p.column l.text
    gap := if l.kind = .blank then p.gap ++ l.text else [] }

def layout (p : Progress) (e : OpenElement) : Option Layout :=
  match e.item with
  | .nothing => none
  | item =>
    if '\n' ∈ p.gap then
      if item = .attribute then some (.ownLine (max e.column p.column) p.column)
      else some (.ownLine (p.column + 2) p.column)
    else if p.gap.isEmpty then some .adjacent
    else some .spaced

def tagEnd? (p : Progress) (l : Lexeme) : Option TagEnd :=
  match l.kind with
  | .tagEnd | .selfClose =>
    p.openElements.head?.map fun e =>
      { element := e.index
        offset := p.offset
        token := l.text
        named := e.named
        layout := p.layout e }
  | _ => none

def tagEnds (p : Progress) : List Lexeme → List TagEnd
  | [] => []
  | l :: rest => (p.tagEnd? l).toList ++ (p.step l).tagEnds rest

end Progress

structure Document where
  source : List Char
  tagEnds : List TagEnd
  forest : Forest
  imports : List ImportRecord
deriving Inhabited

namespace Document

def ofLexemes (language : Language) (ls : List Lexeme) : Document where
  source := Lexeme.texts ls
  tagEnds := Progress.initial.tagEnds ls
  forest := (ls.foldl Progress.step Progress.initial).forest
  imports := importRecords language (NotedLexeme.ofLexemes [] ls)

def read (language : Language) (source : List Char) : Document :=
  ofLexemes language (lexemes language source)

def tagEnd? (d : Document) (i : Nat) : Option TagEnd := d.tagEnds.find? (·.element == i)

def isNamed (d : Document) (i : Nat) : Bool := (d.tagEnd? i).any (·.named)

end Document

end MarkupLabels.Source
