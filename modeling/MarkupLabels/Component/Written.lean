import MarkupLabels.Component.Props
import MarkupLabels.Text.Quoted

namespace MarkupLabels.Props

def writtenValue : Option AttributeValue → String
  | none => "None"
  | some (.text s) => Text.display s
  | some v => v.written

def written (p : Props) : String :=
  let entries := p.entries.map fun (name, value) => Text.display name ++ ": " ++ writtenValue value
  "PropsMap(\x7b" ++ ", ".intercalate entries ++ "\x7d)"

end MarkupLabels.Props
