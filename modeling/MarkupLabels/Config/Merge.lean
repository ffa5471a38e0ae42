import MarkupLabels.Config.Order
/-!
Merging a configuration into another. Mappings are merged entry by entry; the lists of additive
keys are united; all else is replaced.
-/

namespace MarkupLabels.Value

def isAdditive : Value → Bool
  | .text key => key == "packages" || key == "default_import_names"
  | _ => false

def united (old new : List Value) : Except Fault Value := do
  checkMembers old
  return .list (← sortDistinct (old ++ new))

mutual

def mergeAt (key : Value) (old : Option Value) (new : Value) : Except Fault Value :=
  match old, new with
  | some (.mapping base), .mapping update => do return .mapping (← mergeEntries base update)
  | some (.list base), .list update =>
    if isAdditive key then united base update else .ok (.list update)
  | _, new => .ok new

def mergeEntries (base : List (Value × Value)) :
    List (Value × Value) → Except Fault (List (Value × Value))
  | [] => .ok base
  | (key, new) :: rest => do
    let value ← mergeAt key (find? key base) new
    mergeEntries (put key value base) rest

end

def merge (base update : Value) : Except Fault Value :=
  match base, update with
  | .mapping base, .mapping update => do return .mapping (← mergeEntries base update)
  | .mapping _, update => .error (.noOperation update.sort "items")
  | base, _ => .error (.noOperation base.sort "copy")

end MarkupLabels.Value
