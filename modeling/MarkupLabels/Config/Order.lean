import MarkupLabels.Config.Fault
import MarkupLabels.Number.Compare
/-!
Sameness and order of configuration values. Numbers are compared by their value, whatever their
sort; texts by code points. Values of different sorts have no order.
-/

namespace MarkupLabels.Value

def number? : Value → Option ExactNumber
  | .bool b => some (.ofInt (if b then 1 else 0))
  | .integer n => some (.ofInt n)
  | .real x => some (.ofReal x)
  | _ => none

def sameMoment : Moment → Moment → Bool
  | .date d, .date e => d == e
  | .timestamp t, .timestamp u => t.offset.isSome == u.offset.isSome && t.instant == u.instant
  | _, _ => false

def same : Value → Value → Bool
  | .null, .null => true
  | .text s, .text t => s == t
  | .bytes a, .bytes b => a == b
  | .moment m, .moment n => sameMoment m n
  | .pair a b, .pair c d => same a c && same b d
  | v, w =>
    match v.number?, w.number? with
    | some x, some y => x.eq y
    | _, _ => false

def isMember : Value → Bool
  | .list _ | .set _ | .mapping _ => false
  | .pair a b => isMember a && isMember b
  | _ => true

def checkMembers (vs : List Value) : Except Fault Unit :=
  match vs.find? fun v => !v.isMember with
  | some v => .error (.noMember v.sort)
  | none => .ok ()

def before (v w : Value) : Except Fault Bool :=
  match v, w with
  | .text s, .text t => .ok (s < t)
  | .moment (.date d), .moment (.date e) => .ok (d.ordinal < e.ordinal)
  | .moment (.timestamp t), .moment (.timestamp u) =>
    if t.offset.isSome = u.offset.isSome then .ok (t.instant < u.instant)
    else .error (.noOrder v.sort w.sort)
  | v, w =>
    match v.number?, w.number? with
    | some x, some y => .ok (x.lt y)
    | _, _ => .error (.noOrder v.sort w.sort)

def insertDistinct (v : Value) : List Value → Except Fault (List Value)
  | [] => .ok [v]
  | w :: rest =>
    if v.same w then .ok (w :: rest)
    else do
      if ← v.before w then return v :: w :: rest
      return w :: (← insertDistinct v rest)

def sortDistinct (vs : List Value) : Except Fault (List Value) := do
  checkMembers vs
  vs.foldlM (fun sorted v => insertDistinct v sorted) []

def find? (key : Value) : List (Value × Value) → Option Value
  | [] => none
  | (k, v) :: rest => if key.same k then some v else find? key rest

def put (key value : Value) : List (Value × Value) → List (Value × Value)
  | [] => [(key, value)]
  | (k, v) :: rest => if key.same k then (k, value) :: rest else (k, v) :: put key value rest

end MarkupLabels.Value
