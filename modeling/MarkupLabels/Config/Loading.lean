import MarkupLabels.Config.Default
import MarkupLabels.Config.Merge
import MarkupLabels.Text.Lines
import MarkupLabels.Yaml.Document

namespace MarkupLabels.Config

inductive LoadFault
  | encoding (f : Text.Utf8Fault)
  | yaml (f : Yaml.Fault)
  | value (f : Fault)
deriving DecidableEq, Repr, Inhabited

def withUser (user : Value) : Except Fault Value :=
  Value.merge default (if user.isTrue then user else .mapping [])

def ofBytes (bytes : List UInt8) : Except LoadFault Value := do
  let text ← (Text.decodeUtf8 bytes).mapError LoadFault.encoding
  let user ← (Yaml.read (Text.unifyLines text)).mapError LoadFault.yaml
  (withUser user).mapError LoadFault.value

end MarkupLabels.Config
