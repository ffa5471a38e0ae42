import MarkupLabels.Source.Document
import MarkupLabels.Json.Quoted
/-!
Writing added attributes into a source text. Each tag that was given attributes becomes an edit,
which puts the token that ends the tag back behind the attributes. The edits are made in the text of
the program, and that takes the place of the program in the source text.
-/

namespace MarkupLabels

def Attribute.markup (a : Attribute) : List Char :=
  let name := a.name.toList
  let value := a.writtenValue.toList
  if '"' ∉ value then name ++ ['=', '"'] ++ value ++ ['"']
  else if '\'' ∉ value then name ++ ['=', '\''] ++ value ++ ['\'']
  else name ++ ['=', '\x7b'] ++ Json.quoted value ++ ['\x7d']

namespace Source

def spaces (n : Nat) : List Char := List.replicate n ' '

structure Edit where
  start : Nat
  stop : Nat
  text : List Char
deriving DecidableEq, Repr, Inhabited

def Layout.replacement (layout : Layout) (token : List Char) (markups : List (List Char)) :
    List Char :=
  match layout with
  | .adjacent =>
    ' ' :: [' '].intercalate markups ++ (if token = ['>'] then [] else [' ']) ++ token
  | .spaced => [' '].intercalate markups ++ ' ' :: token
  | .ownLine attributes closer =>
    -- The lines are written in full, and then what the source text holds in front of the token is
    -- cut off.
    let lines := markups.map (spaces attributes ++ ·) ++ [spaces closer ++ token]
    (['\n'].intercalate lines).drop closer

def TagEnd.edit? (t : TagEnd) (added : List Attribute) : Option Edit :=
  if added.isEmpty then none
  else
    t.layout.map fun layout =>
      { start := t.offset
        stop := t.offset + t.token.length
        text := layout.replacement t.token (added.map Attribute.markup) }

namespace Edit

def makeAll (position : Nat) (text : List Char) : List Edit → List Char
  | [] => text
  | e :: rest =>
    -- An edit that overlaps the one before it is passed over.
    if e.start < position then makeAll position text rest
    else
      text.take (e.start - position) ++ e.text ++
        makeAll e.stop (text.drop (e.stop - position)) rest

def sorted (edits : List Edit) : List Edit := edits.mergeSort fun a b => a.start ≤ b.start

end Edit

def trimmed (cs : List Char) : List Char :=
  ((cs.dropWhile isBlank).reverse.dropWhile isBlank).reverse

def placeOf (part : List Char) : List Char → Nat
  | [] => 0
  | c :: rest => if part.isPrefixOf (c :: rest) then 0 else placeOf part rest + 1

namespace Document

def edits (d : Document) (added : Nat → List Attribute) : List Edit :=
  (List.range d.forest.size).filterMap fun i => (d.tagEnd? i).bind (·.edit? (added i))

def commit (d : Document) (edits : List Edit) : List Char :=
  -- The edits are made in the program, which stands between the blanks at both ends of the source
  -- text, and it is put back where its text is found first.
  let program := trimmed d.source
  let start := placeOf program d.source
  d.source.take start ++ Edit.makeAll (runLength isBlank d.source) program (Edit.sorted edits) ++
    d.source.drop (start + program.length)

def render (d : Document) (added : Nat → List Attribute) : List Char :=
  if (d.edits added).isEmpty then d.source else d.commit (d.edits added)

def addedIn (d : Document) (later : Forest) (i : Nat) : List Attribute :=
  (later.attributes i).drop (d.forest.attributes i).length

def renderWith (d : Document) (later : Forest) : List Char := d.render (d.addedIn later)

end Document

end Source

end MarkupLabels
