import MarkupLabels.Config.Order
import MarkupLabels.Json.Quoted
import MarkupLabels.Number.Shortest
import MarkupLabels.Tree.Context
import MarkupLabels.Digest.Sha256
/-!
The fingerprint of a configuration: a hash of the JSON text of all settings that shape the labels.
In that text the keys of every mapping are in ascending order.
-/

namespace MarkupLabels

namespace Value

def realJson (x : Binary64) : List Char :=
  if x.isFinite then x.finiteText
  else if x.isNaN then ['N', 'a', 'N']
  else if x.isNegative then ['-', 'I', 'n', 'f', 'i', 'n', 'i', 't', 'y']
  else ['I', 'n', 'f', 'i', 'n', 'i', 't', 'y']

def boolJson (b : Bool) : List Char :=
  if b then ['t', 'r', 'u', 'e'] else ['f', 'a', 'l', 's', 'e']

def nullJson : List Char := ['n', 'u', 'l', 'l']

def integerJson (n : Int) : List Char := (toString n).toList

def keyJson : Value → Except Fault CodePoints
  | .text s => .ok s
  | .integer n => .ok (.ofChars (integerJson n))
  | .real x => .ok (.ofChars (realJson x))
  | .bool b => .ok (.ofChars (boolJson b))
  | .null => .ok (.ofChars nullJson)
  | v => .error (.noJsonKey v.sort)

def insertEntry {α : Type} (key : Value) (a : α) :
    List (Value × α) → Except Fault (List (Value × α))
  | [] => .ok [(key, a)]
  | (k, b) :: rest => do
    if ← key.before k then return (key, a) :: (k, b) :: rest
    return (k, b) :: (← insertEntry key a rest)

def sortEntries {α : Type} (entries : List (Value × α)) : Except Fault (List (Value × α)) :=
  entries.foldlM (fun sorted e => insertEntry e.1 e.2 sorted) []

def commaJoined : List (List Char) → List Char
  | [] => []
  | [t] => t
  | t :: rest => t ++ ',' :: ' ' :: commaJoined rest

def listJson (items : List (List Char)) : List Char := '[' :: (commaJoined items ++ [']'])

def entryJson (key : CodePoints) (text : List Char) : List Char :=
  Json.quotedPoints key ++ ':' :: ' ' :: text

def mappingJson (entries : List (List Char)) : List Char :=
  '\x7b' :: (commaJoined entries ++ ['\x7d'])

mutual

def json : Value → Except Fault (List Char)
  | .null => .ok nullJson
  | .bool b => .ok (boolJson b)
  | .integer n => .ok (integerJson n)
  | .real x => .ok (realJson x)
  | .text s => .ok (Json.quotedPoints s)
  | .pair a b => do return listJson [← json a, ← json b]
  | .list items => do return listJson (← itemsJson items)
  | .mapping entries => do
    let sorted ← sortEntries (← entriesJson entries)
    let written ← sorted.mapM fun e => do return entryJson (← keyJson e.1) e.2
    return mappingJson written
  | v => .error (.noJson v.sort)

def itemsJson : List Value → Except Fault (List (List Char))
  | [] => .ok []
  | v :: rest => do return (← json v) :: (← itemsJson rest)

def entriesJson : List (Value × Value) → Except Fault (List (Value × List Char))
  | [] => .ok []
  | (key, v) :: rest => do return (key, ← json v) :: (← entriesJson rest)

end

end Value

namespace Config

def strings (ss : List String) : Value := .list ((ss.map CodePoints.ofString).map .text)

def settings (config : Value) (v : Vocabulary) : Value := .mapping [
  (.text "config", config),
  (.text "vocabulary", strings (v.names ++ [v.legacyPrefix])),
  (.text "ancestor_depth", .integer Context.maxDepth),
  (.text "ancestor_purposes", strings Context.givingPurposes)]

def payload (config : Value) (v : Vocabulary) : Except Fault (List Char) :=
  (settings config v).json

def fingerprint (config : Value) (v : Vocabulary) : Except Fault String := do
  let text ← payload config v
  return Sha256.hash (text.map fun c => UInt8.ofNat c.toNat)

end Config

end MarkupLabels
