import MarkupLabels.Text.CaseTable
import MarkupLabels.Text.CodePoint
/-!
Lower-casing of text. Every character has its own small letters, except that a capital sigma at the
end of a word becomes the final form.
-/

namespace MarkupLabels.Text

def inRanges (ranges : List (Nat × Nat)) (n : Nat) : Bool :=
  ranges.any fun (first, last) => first ≤ n && n ≤ last

def isCased (c : Char) : Bool := inRanges casedRanges c.toNat

def isCaseIgnorable (c : Char) : Bool := inRanges caseIgnorableRanges c.toNat

def lowerChar (c : Char) : Char :=
  let n := c.toNat
  if n < 0x80 then c.toLower
  else
    match lowerRuns.find? fun (first, last, step, _) =>
        first ≤ n && n ≤ last && (n - first) % step == 0 with
    | some (_, _, _, distance) => Char.ofNat ((n : Int) + distance).toNat
    | none => c

def startsCased (cs : List Char) : Bool := (cs.dropWhile isCaseIgnorable).head?.any isCased

def isFinalSigma (before after : List Char) : Bool := startsCased before && !startsCased after

def lowerAt (before : List Char) (c : Char) (after : List Char) : List Char :=
  if c = 'Σ' then [if isFinalSigma before after then 'ς' else 'σ']
  else if c = 'İ' then ['i', '\u0307']
  else [lowerChar c]

def lowerFrom (before : List Char) : List Char → List Char
  | [] => []
  | c :: after => lowerAt before c after ++ lowerFrom (c :: before) after

def lowercase (s : String) : String := String.ofList (lowerFrom [] s.toList)

end MarkupLabels.Text

namespace MarkupLabels.CodePoints

def charsAhead : CodePoints → List Char
  | .char c :: rest => c :: charsAhead rest
  | _ => []

-- Half of a pair is neither cased nor passed over, so a word ends at it as at the end of the text.
def lowerFrom (before : List Char) : CodePoints → CodePoints
  | [] => []
  | .char c :: after =>
    ofChars (Text.lowerAt before c (charsAhead after)) ++ lowerFrom (c :: before) after
  | .surrogate n :: after => .surrogate n :: lowerFrom [] after

def lowercase (s : CodePoints) : CodePoints := lowerFrom [] s

end MarkupLabels.CodePoints
