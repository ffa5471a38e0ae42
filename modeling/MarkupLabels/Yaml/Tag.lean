import MarkupLabels.Yaml.Cursor
import MarkupLabels.Text.CodePoint

namespace MarkupLabels.Yaml

inductive Tag
  | null
  | bool
  | integer
  | real
  | binary
  | timestamp
  | text
  | sequence
  | mapping
  | set
  | orderedMapping
  | pairs
  | merge
  | default
  | unknown
deriving DecidableEq, Repr, Inhabited

namespace Tag

def standardPrefix : String := "tag:yaml.org,2002:"

def ofText (s : String) : Tag :=
  ([("null", Tag.null), ("bool", .bool), ("int", .integer), ("float", .real), ("binary", .binary),
    ("timestamp", .timestamp), ("str", .text), ("seq", .sequence), ("map", .mapping),
    ("set", .set), ("omap", .orderedMapping), ("pairs", .pairs), ("merge", .merge),
    ("value", .default)].findSome? fun (name, t) =>
      if s = standardPrefix ++ name then some t else none).getD .unknown

def isDigit (c : Char) : Bool := '0' ≤ c && c ≤ '9'

def isDigitOrUnderscore (c : Char) : Bool := isDigit c || c == '_'

def dropSign : List Char → List Char
  | '+' :: rest => rest
  | '-' :: rest => rest
  | rest => rest

def isRun (p : Char → Bool) (cs : List Char) : Bool := !cs.isEmpty && cs.all p

def isPositive : List Char → Bool
  | [] => false
  | c :: rest => isDigit c && c != '0' && rest.all isDigitOrUnderscore

def isSixtieth : List Char → Bool
  | [c] => isDigit c
  | [c, d] => '0' ≤ c && c ≤ '5' && isDigit d
  | _ => false

def splitColons : List Char → List (List Char)
  | [] => [[]]
  | c :: rest =>
    match splitColons rest with
    | [] => [[c]]
    | first :: more => if c = ':' then [] :: first :: more else (c :: first) :: more

def looksInteger (cs : List Char) : Bool :=
  match dropSign cs with
  | '0' :: 'b' :: rest => isRun (fun c => c == '0' || c == '1' || c == '_') rest
  | '0' :: 'x' :: rest => isRun (fun c => isHexDigit c || c == '_') rest
  | ['0'] => true
  | '0' :: rest => isRun (fun c => ('0' ≤ c && c ≤ '7') || c == '_') rest
  | rest =>
    match splitColons rest with
    | [whole] => isPositive whole
    | whole :: parts => isPositive whole && parts.all isSixtieth
    | [] => false

def isExponent : List Char → Bool
  | [] => true
  | e :: sign :: rest => (e == 'e' || e == 'E') && (sign == '+' || sign == '-') && isRun isDigit rest
  | _ => false

def isFraction (cs : List Char) : Bool := isExponent (cs.dropWhile isDigitOrUnderscore)

def isGrouped : List Char → Bool
  | [] => false
  | c :: rest => isDigit c && rest.all isDigitOrUnderscore

def looksReal (cs : List Char) : Bool :=
  let unsigned := dropSign cs
  let whole := unsigned.takeWhile (· != '.')
  match unsigned.dropWhile (· != '.') with
  | [] => false
  | _ :: fraction =>
    if whole.isEmpty then
      String.ofList fraction ∈ ["inf", "Inf", "INF"] ||
        (cs.head? == some '.' &&
          (String.ofList fraction ∈ ["nan", "NaN", "NAN"] ||
            (fraction.head?.any isDigit && isFraction fraction)))
    else
      match splitColons whole with
      | [digits] => isGrouped digits && isFraction fraction
      | digits :: parts =>
        isGrouped digits && parts.all isSixtieth && fraction.all isDigitOrUnderscore
      | [] => false

def boolWords : List (List String × Bool) :=
  [(["yes", "Yes", "YES", "true", "True", "TRUE", "on", "On", "ON"], true),
    (["no", "No", "NO", "false", "False", "FALSE", "off", "Off", "OFF"], false)]

def looksBool (s : String) : Bool := boolWords.any fun (words, _) => s ∈ words

def looksNull (s : String) : Bool := s ∈ ["", "~", "null", "Null", "NULL"]

end Tag

structure TimestampText where
  year : List Char
  month : List Char
  day : List Char
  time : Option (List Char × List Char × List Char × List Char)
  zone : Option (Option (Char × List Char × List Char))
deriving Repr, Inhabited

namespace TimestampText

def digits? (least most : Nat) (cs : List Char) : Option (List Char × List Char) :=
  let n := min most (cs.takeWhile Tag.isDigit).length
  if n < least then none else some (cs.take n, cs.drop n)

def expect (c : Char) : List Char → Option (List Char)
  | [] => none
  | d :: rest => if d = c then some rest else none

def zone? (cs : List Char) : Option (Option (Option (Char × List Char × List Char))) :=
  match cs.dropWhile fun c => c == ' ' || c == '\t' with
  | [] => if cs.isEmpty then some none else none
  | ['Z'] => some (some none)
  | sign :: rest =>
    if sign = '+' ∨ sign = '-' then do
      let (hours, rest) ← digits? 1 2 rest
      match rest with
      | [] => return some (some (sign, hours, []))
      | ':' :: rest =>
        let (minutes, rest) ← digits? 2 2 rest
        if rest.isEmpty then return some (some (sign, hours, minutes)) else none
      | _ => none
    else none

def time? (cs : List Char) :
    Option ((List Char × List Char × List Char × List Char) ×
      Option (Option (Char × List Char × List Char))) := do
  let rest ← match cs with
    | 'T' :: rest => some rest
    | 't' :: rest => some rest
    | c :: rest => if c = ' ' ∨ c = '\t' then
        some (rest.dropWhile fun c => c == ' ' || c == '\t') else none
    | [] => none
  let (hour, rest) ← digits? 1 2 rest
  let (minute, rest) ← digits? 2 2 (← expect ':' rest)
  let (second, rest) ← digits? 2 2 (← expect ':' rest)
  let (fraction, rest) := match rest with
    | '.' :: rest => (rest.takeWhile Tag.isDigit, rest.dropWhile Tag.isDigit)
    | rest => ([], rest)
  return ((hour, minute, second, fraction), ← zone? rest)

def read? (cs : List Char) : Option TimestampText := do
  let (year, rest) ← digits? 4 4 cs
  let (month, rest) ← digits? 1 2 (← expect '-' rest)
  let (day, rest) ← digits? 1 2 (← expect '-' rest)
  if rest.isEmpty then return { year, month, day, time := none, zone := none }
  else
    let (time, zone) ← time? rest
    return { year, month, day, time := some time, zone }

def looksTimestamp (cs : List Char) : Bool :=
  match read? cs with
  | some t => t.time.isSome || (t.month.length == 2 && t.day.length == 2)
  | none => false

end TimestampText

def Tag.ofScalar (s : String) : Tag :=
  let cs := s.toList
  if looksBool s then .bool
  else if looksReal cs then .real
  else if looksInteger cs then .integer
  else if s = "<<" then .merge
  else if looksNull s then .null
  else if TimestampText.looksTimestamp cs then .timestamp
  else if s = "=" then .default
  else if s = "!" ∨ s = "&" ∨ s = "*" then .unknown
  else .text

def Tag.ofPoints (s : CodePoints) : Tag := s.string?.elim .text .ofScalar

end MarkupLabels.Yaml
