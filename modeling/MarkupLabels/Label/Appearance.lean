import MarkupLabels.Component.Family
import MarkupLabels.Component.Props

namespace MarkupLabels.Label

def compound (parts : List String) : Option String :=
  if parts.isEmpty then none else some ("-".intercalate parts)

def wordIf (condition : Bool) (word : String) : List String := if condition then [word] else []

def wordOf (p : Props) (name : String) : List String :=
  match p.text? name with
  | some s => if s = "" then [] else [s]
  | none => []

def expandsSingly (p : Props) : Bool :=
  p.has ["isSingleExpand", "singleExpand"] &&
    !(p.isFalse "isSingleExpand" || p.isFalse "singleExpand")

def accordionParts (p : Props) : List String :=
  [if expandsSingly p then "single-expand" else "multiple-expand"] ++
    wordIf (p.has ["isBordered"]) "bordered" ++ wordOf p "headingLevel" ++
    wordIf (p.has ["asDefinitionList"]) "definition-list"

def alertParts (p : Props) : List String :=
  (if (wordOf p "variant").isEmpty then ["default"] else wordOf p "variant") ++
    wordIf (p.has ["isInline"]) "inline" ++ wordIf (p.has ["isPlain"]) "plain" ++
    wordIf (p.has ["isExpandable"]) "expandable"

def labelParts (p : Props) : List String :=
  wordOf p "color" ++ wordOf p "variant" ++ wordIf (p.has ["isEditable"]) "editable"

def linkVariant (p : Props) : String :=
  if p.has ["isInline", "inline"] then "inline-link"
  else if p.has ["isDanger", "danger"] then "danger-link"
  else "link"

def impliedVariant (f : Family) (p : Props) : Option String :=
  if p.has ["isWarning", "warning"] then some "warning"
  else if p.has ["isRead", "read", "isUnread", "unread", "isAttention", "attention",
      "needsAttention"] then some "stateful"
  else
    match if f = .textInput then p.text? "type" else none with
    | some inputType => some inputType
    | none =>
      if p.has ["isDanger", "danger"] then some (if f = .link then "danger-link" else "danger")
      else if f = .button ∧ !p.has ["variant"] then some "primary"
      else none

def variant (f : Family) (p : Props) : Option String :=
  match f with
  | .accordion => compound (accordionParts p)
  | .alert => compound (alertParts p)
  | .label => compound (labelParts p)
  | _ =>
    match p.text? "variant" with
    | some explicit => if explicit = "link" then some (linkVariant p) else some explicit
    | none => impliedVariant f p

def avatarSize : String → Option String
  | "sm" => some "small"
  | "md" => some "medium"
  | "lg" => some "large"
  | "xl" => some "extra-large"
  | _ => none

def accordionSize : String → Option String
  | "lg" => some "large"
  | _ => none

def namedSize (f : Family) (p : Props) : Option String :=
  match f with
  | .avatar => (p.text? "size").bind avatarSize
  | .accordion => (p.text? "displaySize").bind accordionSize
  | _ => none

def size (f : Family) (p : Props) : Option String :=
  (namedSize f p).or <| (p.text? "size").or <| (p.text? "displaySize").or <|
    if p.has ["isCompact", "compact"] then some "compact"
    else if p.has ["isLarge", "large"] then some "large"
    else none

end MarkupLabels.Label
