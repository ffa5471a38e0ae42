import MarkupLabels.Text.WordTable
import MarkupLabels.Text.Lowercase

namespace MarkupLabels.Text

def isWordChar (c : Char) : Bool :=
  if c.toNat < 0x80 then c.isAlphanum || c == '_' else inRanges wordRanges c.toNat

def isIdentifier (s : String) : Bool :=
  match s.toList with
  | [] => false
  | c :: rest =>
    (c.isAlpha || c == '_' || c == '$') && rest.all fun d => isWordChar d || d == '$'

def occursIn (part : CodePoints) : CodePoints → Bool
  | [] => part.isEmpty
  | p :: rest => part.isPrefixOf (p :: rest) || occursIn part rest

def contains (whole : String) (part : CodePoints) : Bool := occursIn part whole

def beginsWith (whole start : String) : Bool := start.toList.isPrefixOf whole.toList

end MarkupLabels.Text
