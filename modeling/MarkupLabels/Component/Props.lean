import MarkupLabels.Attribute
import MarkupLabels.Component.Vocabulary

namespace MarkupLabels

structure Props where
  entries : List (String × Option AttributeValue)
deriving DecidableEq, Repr, Inhabited

namespace Props

def empty : Props := ⟨[]⟩

def insertEntry (name : String) (value : Option AttributeValue) :
    List (String × Option AttributeValue) → List (String × Option AttributeValue)
  | [] => [(name, value)]
  | (n, v) :: rest =>
    if n = name then (n, value) :: rest else (n, v) :: insertEntry name value rest

def insert (p : Props) (name : String) (value : Option AttributeValue) : Props :=
  ⟨insertEntry name value p.entries⟩

def size (p : Props) : Nat := p.entries.length

def get? (p : Props) (name : String) : Option (Option AttributeValue) := p.entries.lookup name

def has (p : Props) (names : List String) : Bool := names.any fun n => (p.get? n).isSome

def literal (p : Props) (name : String) : Option AttributeValue :=
  match p.get? name with
  | some (some .unresolved) => none
  | some v => v
  | none => none

def text? (p : Props) (name : String) : Option String := (p.literal name).bind AttributeValue.text?

def isFalse (p : Props) (name : String) : Bool := p.get? name == some (some (.flag false))

def ofEntries (entries : List (String × Option AttributeValue)) : Props :=
  entries.foldl (fun p e => p.insert e.1 e.2) empty

def ofAttributes (attributes : List Attribute) : Props :=
  ofEntries (attributes.map fun a => (a.name, some (a.value.getD (.flag true))))

def ofUnlabelled (v : Vocabulary) (attributes : List Attribute) : Props :=
  ofAttributes (attributes.filter fun a => !v.isMarker a.name)

def ofPassed (entries : List (String × Option AttributeValue)) : Props :=
  ofEntries (entries.filter fun e => e.2.isSome)

end Props

end MarkupLabels
