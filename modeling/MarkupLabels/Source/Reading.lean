import MarkupLabels.Source.Context
import MarkupLabels.Source.Scanner
import MarkupLabels.Source.TypeParameters
/-!
Reading source text into lexemes. `Context.read` finds the kind of the lexeme at the front and how
far it reaches, from the context and the text; `lexemes` reads a whole text. Nothing is lost:
`texts_lexemes` puts the lexemes back together.
-/

namespace MarkupLabels.Source

def tagNameLength (cs : List Char) : Nat :=
  runLength (fun c => isTagNameChar c || c == '.' || c == ':') cs

def attributeNameLength (cs : List Char) : Nat :=
  let name := cs.takeWhile isTagNameChar
  let behind := cs.dropWhile isTagNameChar
  match behind.dropWhile isBlank with
  | ':' :: rest =>
    name.length + (behind.takeWhile isBlank).length + 1 + (rest.takeWhile isBlank).length +
      ((rest.dropWhile isBlank).takeWhile isTagNameChar).length
  | _ => name.length

def readSpace? (c : Char) (rest : List Char) : Option (LexemeKind × Nat) :=
  if isBlank c then some (.blank, runLength isBlank rest)
  else if c = '/' then
    match rest with
    | '/' :: more => some (.comment, runLength (fun d => !isLineEnd d) more + 1)
    | '*' :: more => some (.comment, (scan scanBlockComment false more).1 + 1)
    | _ => none
  else none

def Code.readLess (k : Code) (language : Language) (rest : List Char) : LexemeKind × Nat :=
  if k.shape = .angles then (.punctuation, 0)
  else if k.afterOperand then (.punctuation, if rest.head? = some '<' then 1 else 0)
  else if k.names then (.punctuation, 0)
  else if rest.head? = some '!' then
    (.comment, runLength (fun d => !isLineEnd d) rest)
  else if k.last = .typeMark ∨ k.typed then (.punctuation, 0)
  else if language = .tsx ∧ isTypeParameters rest then (.punctuation, 0)
  else (.tagOpen, 0)

def Code.readBrace (k : Code) (rest : List Char) : LexemeKind × Nat :=
  match k.shape with
  | .container use => (.containerClose use, 0)
  | .substitution => let (n, opens) := scan scanTemplate .text rest; (.templatePart opens true, n)
  | _ => (.punctuation, 0)

def punctuationPairs : List (Char × Char) := [('=', '>'), ('+', '+'), ('-', '-'), ('?', '?')]

def punctuationLength (c : Char) (rest : List Char) : Nat :=
  if c = '.' then runLength (· == '.') rest
  else if c = '?' ∧ rest.head? = some '.' then if (rest.drop 1).head?.any isDigit then 0 else 1
  else if rest.head?.any fun d => (c, d) ∈ punctuationPairs then 1
  else 0

def Code.wordKind (k : Code) (word : List Char) : LexemeKind :=
  if word = ['i', 'm', 'p', 'o', 'r', 't'] ∧ k.beginsImport then .importWord else .word

def Code.readMark (k : Code) (language : Language) (c : Char) (rest : List Char) :
    LexemeKind × Nat :=
  match c with
  | '#' => (.word, runLength isNameChar rest)
  | '"' | '\'' => (.string, (scan (scanString c) false rest).1)
  | '\x60' =>
    let (n, opens) := scan scanTemplate .text rest
    (if opens then .templatePart true false else .template, n)
  | '/' =>
    if k.afterOperand then (.punctuation, 0)
    else (.regex, (scan scanRegex (.body false false) rest).1)
  | '<' => k.readLess language rest
  | '\x7d' => k.readBrace rest
  | _ => (.punctuation, punctuationLength c rest)

def Code.read (k : Code) (language : Language) (c : Char) (rest : List Char) : LexemeKind × Nat :=
  match readSpace? c rest with
  | some space => space
  | none =>
    if isDigit c ∨ (c = '.' ∧ rest.head?.any isDigit) then
      let hexadecimal := c = '0' ∧ (rest.head? = some 'x' ∨ rest.head? = some 'X')
      (.number, (scan (scanNumber !hexadecimal) false rest).1)
    else if isNameChar c then
      let n := runLength isNameChar rest
      (k.wordKind (c :: rest.take n), n)
    else k.readMark language c rest

def TagPhase.read (phase : TagPhase) (c : Char) (rest : List Char) : LexemeKind × Nat :=
  match readSpace? c rest with
  | some space => space
  | none =>
    if isTagNameChar c then
      if phase = .opened ∨ phase = .joined then (.tagName, tagNameLength rest)
      else (.attributeName, attributeNameLength rest)
    else
      match c with
      | '>' => (.tagEnd, 0)
      | '/' => if rest.head? = some '>' then (.selfClose, 1) else (.punctuation, 0)
      | '=' => (.equals, 0)
      | '"' | '\'' => (.attributeString, (scan (scanQuoted c) () rest).1)
      | '\x7b' => (.containerOpen (if phase = .equals then .value else .spread), 0)
      | '<' => if phase = .equals then (.tagOpen, 0) else (.punctuation, 0)
      | _ => (.punctuation, 0)

def readChild (c : Char) (rest : List Char) : LexemeKind × Nat :=
  match c with
  | '\x7b' => (.containerOpen .child, 0)
  | '<' => if rest.head? = some '/' then (.closingOpen, 1) else (.tagOpen, 0)
  | _ => (.content, runLength (fun d => d != '<' && d != '\x7b') rest)

def readClosing (c : Char) (rest : List Char) : LexemeKind × Nat :=
  match readSpace? c rest with
  | some space => space
  | none => if c = '>' then (.closingEnd, 0) else (.closingName, runLength isTagNameChar rest)

def Context.read (context : Context) (c : Char) (rest : List Char) : LexemeKind × Nat :=
  match context.inner with
  | .code k => k.read context.language c rest
  | .tag phase => phase.read c rest
  | .children => readChild c rest
  | .closingTag => readClosing c rest

def Context.lexemes (context : Context) : List Char → List Lexeme
  | [] => []
  | c :: rest =>
    let (kind, n) := context.read c rest
    let l : Lexeme := { kind, text := c :: rest.take n }
    l :: (context.advance l).lexemes (rest.drop n)
termination_by cs => cs.length
decreasing_by simp only [List.length_drop, List.length_cons]; omega

def interpreterLine (cs : List Char) : Nat :=
  if startsWith cs ['#', '!'] then runLength (fun c => !isLineEnd c) cs else 0

def lexemes (language : Language) (cs : List Char) : List Lexeme :=
  let n := interpreterLine cs
  let first : List Lexeme := if n = 0 then [] else [{ kind := .comment, text := cs.take n }]
  first ++ (Context.initial language).lexemes (cs.drop n)

theorem Context.texts_lexemes (context : Context) (cs : List Char) :
    Lexeme.texts (context.lexemes cs) = cs := by
  fun_induction Context.lexemes context cs with
  | case1 => rfl
  | case2 context c rest kind n h l ih =>
    simp_all [Lexeme.texts, l]

theorem texts_lexemes (language : Language) (cs : List Char) :
    Lexeme.texts (lexemes language cs) = cs := by
  have h := (Context.initial language).texts_lexemes (cs.drop (interpreterLine cs))
  simp only [lexemes]
  split
  · next hn => simpa [hn] using h
  · simp only [Lexeme.texts, List.singleton_append, List.flatMap_cons] at h ⊢
    rw [h, List.take_append_drop]

end MarkupLabels.Source
