import MarkupLabels.Source.Lexeme
import MarkupLabels.Import.Record

namespace MarkupLabels.Source

structure NotedLexeme where
  comments : List Lexeme
  lexeme : Lexeme
deriving DecidableEq, Repr, Inhabited

namespace NotedLexeme

def kind (l : NotedLexeme) : LexemeKind := l.lexeme.kind

def text (l : NotedLexeme) : List Char := l.lexeme.text

def ofLexemes (comments : List Lexeme) : List Lexeme → List NotedLexeme
  | [] => []
  | l :: rest =>
    if l.isSignificant then { comments, lexeme := l } :: ofLexemes [] rest
    else ofLexemes (if l.kind = .comment then comments ++ [l] else comments) rest

end NotedLexeme

namespace ImportDeclaration

def isPunctuationText (l : NotedLexeme) (text : List Char) : Bool :=
  l.kind == .punctuation && l.text == text

def isWord (l : NotedLexeme) (text : List Char) : Bool := l.kind == .word && l.text == text

def isName (l : NotedLexeme) : Bool := l.kind == .word || l.kind == .importWord

def nameOf (l : NotedLexeme) : String :=
  if l.kind = .string then l.lexeme.unquoted else String.ofList l.text

def splitBrace : List NotedLexeme → List NotedLexeme × List NotedLexeme
  | [] => ([], [])
  | l :: rest =>
    if isPunctuationText l ['\x7d'] then ([], rest)
    else
      let (inside, behind) := splitBrace rest
      (l :: inside, behind)

def splitCommas : List NotedLexeme → List (List NotedLexeme)
  | [] => [[]]
  | l :: rest =>
    match splitCommas rest with
    | [] => [[l]]
    | first :: more =>
      if isPunctuationText l [','] then [] :: first :: more else (l :: first) :: more

def commentNames (l : NotedLexeme) : List String :=
  l.comments.map fun c => String.ofList c.text

def exportedNames (language : Language) (l : NotedLexeme) : List String :=
  if language = .javascript ∧ isWord l ['d', 'e', 'f', 'a', 'u', 'l', 't'] then []
  else [nameOf l]

def parts (language : Language) : List NotedLexeme → List String
  | [a] => [nameOf a]
  | [_, b] => commentNames b ++ [nameOf b]
  | [a, mark, c] => exportedNames language a ++ commentNames mark ++ commentNames c ++ [nameOf c]
  | [_, b, mark, d] =>
    commentNames b ++ exportedNames language b ++ commentNames mark ++ commentNames d ++ [nameOf d]
  | _ => []

def specifierNames? (language : Language) (ls : List NotedLexeme) : Option (String × String) :=
  match parts language ls with
  | [] => none
  | [name] => some (name, name)
  | exported :: bound :: _ => some (exported, bound)

def namedRecords (language : Language) (source : String) (clause : List NotedLexeme) :
    List ImportRecord :=
  (splitCommas clause).filterMap fun specifier =>
    (specifierNames? language specifier).map fun (exported, bound) =>
      { source, kind := .named, localName := some bound, importedName := some exported }

def sourceAfterFrom? : List NotedLexeme → Option String
  | f :: s :: _ =>
    if isWord f ['f', 'r', 'o', 'm'] ∧ s.kind = .string then some s.lexeme.unquoted else none
  | _ => none

def bracedOrNamespace (language : Language) : List NotedLexeme → List ImportRecord
  | [] => []
  | l :: rest =>
    if isPunctuationText l ['\x7b'] then
      let (inside, behind) := splitBrace rest
      match sourceAfterFrom? behind with
      | some source => namedRecords language source inside
      | none => []
    else if isPunctuationText l ['*'] then
      match rest with
      | _ :: name :: behind =>
        match sourceAfterFrom? behind with
        | some source =>
          [{ source, kind := .namespace, localName := some (nameOf name), importedName := none }]
        | none => []
      | _ => []
    else []

def clause (language : Language) : List NotedLexeme → List ImportRecord
  | [] => []
  | l :: rest =>
    if isName l then
      match rest with
      | [] => []
      | next :: more =>
        let (others, source) :=
          if isPunctuationText next [','] then
            (bracedOrNamespace language more, sourceIn? more)
          else ([], sourceAfterFrom? rest)
        match source with
        | some source =>
          { source, kind := .default, localName := some (nameOf l), importedName := none } :: others
        | none => []
    else bracedOrNamespace language (l :: rest)
where
  sourceIn? : List NotedLexeme → Option String
    | [] => none
    | f :: rest => (sourceAfterFrom? (f :: rest)).or (sourceIn? rest)

def isTypeWord (language : Language) (l : NotedLexeme) : Bool :=
  isWord l ['t', 'y', 'p', 'e'] ||
    (language == .tsx && isWord l ['t', 'y', 'p', 'e', 'o', 'f'])

def isTypeModifier : List NotedLexeme → Bool
  | [] => false
  | [l] => isPunctuationText l ['\x7b'] || isPunctuationText l ['*']
  | l :: next :: _ =>
    isPunctuationText l ['\x7b'] || isPunctuationText l ['*'] ||
      (isName l && !(isWord l ['f', 'r', 'o', 'm'] && next.kind == .string))

def records (language : Language) : List NotedLexeme → List ImportRecord
  | [] => []
  | l :: rest =>
    if l.kind = .string then
      [{ source := l.lexeme.unquoted, kind := .sideEffect, localName := none, importedName := none }]
    else if isTypeWord language l ∧ isTypeModifier rest then clause language rest
    else clause language (l :: rest)

end ImportDeclaration

def importRecords (language : Language) : List NotedLexeme → List ImportRecord
  | [] => []
  | l :: rest =>
    (if l.kind = .importWord then
        ImportDeclaration.records language (rest.takeWhile fun m => !m.kind.isMarkup)
      else []) ++
      importRecords language rest

end MarkupLabels.Source
