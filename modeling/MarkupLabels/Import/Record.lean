
namespace MarkupLabels

inductive ImportKind
  | named
  | default
  | namespace
  | sideEffect
deriving DecidableEq, Repr, Inhabited

structure ImportRecord where
  source : String
  kind : ImportKind
  localName : Option String
  importedName : Option String
deriving DecidableEq, Repr, Inhabited

end MarkupLabels
