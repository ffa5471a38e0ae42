import Mathlib
import MarkupLabels.Proofs.Source.Lookahead
import MarkupLabels.Proofs.Source.OpenTags
import MarkupLabels.Proofs.Source.Outlooks

namespace MarkupLabels.Source

namespace Context

def tidy (context : Context) : List Lexeme → List Lexeme
  | [] => []
  | l :: rest =>
    match context.inner with
    | .tag _ => if l.kind = .blank then context.tidy rest else l :: (context.advance l).tidy rest
    | _ => l :: (context.advance l).tidy rest

def reading (context : Context) (cs : List Char) : List Lexeme := context.tidy (context.lexemes cs)

variable {context : Context} {language : Language} {phase : TagPhase} {outer : List Frame}
  {c : Char} {cs t r blanks : List Char} {kind : LexemeKind}

lemma lexemes_eq (context : Context) (c : Char) (rest : List Char) :
    context.lexemes (c :: rest) =
      ⟨(context.read c rest).1, c :: rest.take (context.read c rest).2⟩ ::
        (context.advance ⟨(context.read c rest).1, c :: rest.take (context.read c rest).2⟩).lexemes
          (rest.drop (context.read c rest).2) := by
  rw [lexemes]

lemma lexemes_cons (h : context.read c (t ++ r) = (kind, t.length)) :
    context.lexemes (c :: (t ++ r)) = ⟨kind, c :: t⟩ :: (context.advance ⟨kind, c :: t⟩).lexemes r := by
  rw [lexemes, h]
  simp

lemma tidy_cons {l : Lexeme} (ls : List Lexeme) (hl : l.kind ≠ .blank) :
    context.tidy (l :: ls) = l :: (context.advance l).tidy ls := by
  rw [tidy]
  split
  · rw [if_neg hl]
  · rfl

lemma advance_of_blank {l : Lexeme} (hl : l.kind = .blank) :
    advance ⟨language, .tag phase, outer⟩ l = ⟨language, .tag phase, outer⟩ :=
  advance_space (by simp) (.inl hl)

lemma reading_dropWhile (cs : List Char) :
    reading ⟨language, .tag phase, outer⟩ cs =
      reading ⟨language, .tag phase, outer⟩ (cs.dropWhile isBlank) := by
  cases cs with
  | nil => rfl
  | cons c cs =>
    cases hc : isBlank c with
    | true =>
      have hread : Context.read ⟨language, .tag phase, outer⟩ c cs =
          (.blank, runLength isBlank cs) := TagPhase.read_of_isBlank hc cs
      rw [List.dropWhile_cons_of_pos hc, ← runLength_drop, reading, lexemes, hread]
      simp only [tidy, if_true, advance_of_blank]
      rfl
    | false => rw [List.dropWhile_cons_of_neg (by simp [hc])]

lemma reading_blanks (h : ∀ c ∈ blanks, isBlank c) (cs : List Char) :
    reading ⟨language, .tag phase, outer⟩ (blanks ++ cs) =
      reading ⟨language, .tag phase, outer⟩ cs := by
  rw [reading_dropWhile, List.dropWhile_append_of_pos h, ← reading_dropWhile]

end Context

section Markup

variable {language : Language} {phase : TagPhase} {outer : List Frame} {a : Attribute}

def TagPhase.Named (phase : TagPhase) : Prop := phase ≠ .opened ∧ phase ≠ .joined

lemma TagPhase.named_of_cases (h : phase = .named ∨ phase = .attributes) : phase.Named := by
  rcases h with rfl | rfl <;> exact ⟨by simp, by simp⟩

lemma lexemes_attributeName {cs : List Char} (hphase : phase.Named) (hcs : IsAttributeName cs)
    (r : List Char) :
    Context.lexemes ⟨language, .tag phase, outer⟩ (cs ++ '=' :: r) =
      ⟨.attributeName, cs⟩ :: ⟨.equals, ['=']⟩ ::
        Context.lexemes ⟨language, .tag .equals, outer⟩ r := by
  obtain ⟨c, more, rfl, hc, -⟩ := hcs.exists_cons
  have hslash : c ≠ '/' := by
    rintro rfl
    revert hc
    decide
  have hname : Context.read ⟨language, .tag phase, outer⟩ c (more ++ '=' :: r) =
      (.attributeName, more.length) := by
    change phase.read c (more ++ '=' :: r) = _
    unfold TagPhase.read
    rw [readSpace?_eq_none (not_isBlank_of_isTagNameChar hc) hslash]
    simp [hc, hphase.1, hphase.2, hcs.attributeNameLength_tail]
  have hequals : Context.read ⟨language, .tag .attributes, outer⟩ '=' ([] ++ r) =
      (.equals, ([] : List Char).length) := by
    have hchar : isTagNameChar '=' = false := by decide
    change TagPhase.attributes.read '=' r = _
    unfold TagPhase.read
    rw [readSpace?_eq_none (by decide) (by decide)]
    simp [hchar]
  rw [List.cons_append, Context.lexemes_cons hname]
  exact congrArg _ (Context.lexemes_cons hequals)

lemma lexemes_quotedValue {q : Char} {value : List Char} (hq : q = '"' ∨ q = '\'') (hvalue : q ∉ value)
    (r : List Char) :
    Context.lexemes ⟨language, .tag .equals, outer⟩ (q :: (value ++ [q]) ++ r) =
      ⟨.attributeString, q :: (value ++ [q])⟩ ::
        Context.lexemes ⟨language, .tag .attributes, outer⟩ r := by
  have hread : Context.read ⟨language, .tag .equals, outer⟩ q ((value ++ [q]) ++ r) =
      (.attributeString, (value ++ [q]).length) := by
    have hscan := scan_quoted hvalue r
    have hchar : isBlank q = false ∧ isTagNameChar q = false ∧ q ≠ '/' := by
      rcases hq with rfl | rfl <;> decide
    change TagPhase.equals.read q _ = _
    unfold TagPhase.read
    rw [List.append_assoc, List.singleton_append, readSpace?_eq_none hchar.1 hchar.2.2]
    rcases hq with rfl | rfl <;> simp [hchar, hscan]
  exact Context.lexemes_cons hread

lemma lexemes_bracedValue (value r : List Char) :
    Context.lexemes ⟨language, .tag .equals, outer⟩ ('\x7b' :: (Json.quoted value ++ ['\x7d']) ++ r) =
      [⟨.containerOpen .value, ['\x7b']⟩, ⟨.string, Json.quoted value⟩,
        ⟨.containerClose .value, ['\x7d']⟩] ++
          Context.lexemes ⟨language, .tag .attributes, outer⟩ r := by
  have hopen : Context.read ⟨language, .tag .equals, outer⟩ '\x7b'
      ([] ++ (Json.quoted value ++ ['\x7d'] ++ r)) =
        (.containerOpen .value, ([] : List Char).length) := by
    have hchar : isTagNameChar '\x7b' = false := by decide
    change TagPhase.equals.read '\x7b' (Json.quoted value ++ ['\x7d'] ++ r) = _
    unfold TagPhase.read
    rw [readSpace?_eq_none (by decide) (by decide)]
    simp [hchar]
  -- The braces hold code, in which the string literal is one lexeme.
  let k : Code := .inside (.container .value) .operator false
  have hstring : Context.read ⟨language, .code k, .tag .equals :: outer⟩ '"'
      ((Json.quotedBody value ++ ['"']) ++ ('\x7d' :: r)) =
        (.string, (Json.quotedBody value ++ ['"']).length) := by
    have hchar : isDigit '"' = false ∧ isNameChar '"' = false := by decide
    change k.read language '"' _ = _
    have hscan := scan_quotedBody value ('\x7d' :: r)
    unfold Code.read
    rw [readSpace?_eq_none (by decide) (by decide)]
    simp [hchar, Code.readMark, hscan]
  have hclose : Context.read ⟨language, .code (k.see .operand), .tag .equals :: outer⟩ '\x7d'
      ([] ++ r) = (.containerClose .value, ([] : List Char).length) := by
    have hchar : isDigit '\x7d' = false ∧ isNameChar '\x7d' = false := by decide
    change (k.see .operand).read language '\x7d' r = _
    unfold Code.read
    rw [readSpace?_eq_none (by decide) (by decide)]
    simp [hchar, Code.readMark, Code.readBrace, k]
  have htext : Json.quoted value ++ ['\x7d'] ++ r =
      '"' :: ((Json.quotedBody value ++ ['"']) ++ ('\x7d' :: r)) := by
    simp [Json.quoted]
  refine (Context.lexemes_cons hopen).trans (congrArg _ ?_)
  rw [htext]
  exact (Context.lexemes_cons hstring).trans (congrArg _ (Context.lexemes_cons hclose))

lemma lexemes_markup (hphase : phase.Named) (ha : IsAttributeName a.name.toList) (r : List Char) :
    Context.lexemes ⟨language, .tag phase, outer⟩ (a.markup ++ r) =
      attributeLexemes a ++ Context.lexemes ⟨language, .tag .attributes, outer⟩ r := by
  rcases markup_cases a with ⟨q, hq, hvalue, hm, hl⟩ | ⟨-, -, hm, hl⟩
  · rw [hm, hl, List.append_assoc, List.cons_append, lexemes_attributeName hphase ha,
      lexemes_quotedValue hq hvalue]
    rfl
  · rw [hm, hl, List.append_assoc, List.cons_append, lexemes_attributeName hphase ha,
      lexemes_bracedValue]
    rfl

lemma reading_markup (hphase : phase.Named) (ha : IsAttributeName a.name.toList) (r : List Char) :
    Context.reading ⟨language, .tag phase, outer⟩ (a.markup ++ r) =
      attributeLexemes a ++ Context.reading ⟨language, .tag .attributes, outer⟩ r := by
  rw [Context.reading, lexemes_markup hphase ha]
  rcases markup_cases a with ⟨q, -, -, -, hl⟩ | ⟨-, -, -, hl⟩ <;> rw [hl] <;>
    simp [Context.tidy, Context.advance, Context.push, Context.mapCode, Context.pop,
      Context.complete, Context.reading]

lemma reading_insertion {added : List Attribute} (layout : Layout) (token : List Char)
    (hphase : phase.Named) (hadded : added ≠ []) (hnames : ∀ a ∈ added, IsAttributeName a.name.toList)
    (r : List Char) :
    Context.reading ⟨language, .tag phase, outer⟩ (layout.insertion token added ++ r) =
      added.flatMap attributeLexemes ++ Context.reading ⟨language, .tag .attributes, outer⟩ r := by
  obtain ⟨a, more, rfl⟩ := List.exists_cons_of_ne_nil hadded
  have hmore : ∀ more : List Attribute, (∀ a ∈ more, IsAttributeName a.name.toList) →
      Context.reading ⟨language, .tag .attributes, outer⟩
        (more.flatMap (fun b => layout.separator ++ b.markup) ++ (layout.trail token ++ r)) =
      more.flatMap attributeLexemes ++ Context.reading ⟨language, .tag .attributes, outer⟩ r := by
    intro more
    induction more with
    | nil => exact fun _ => Context.reading_blanks (layout.trail_blank token) r
    | cons b more ih =>
      intro hnames
      rw [List.flatMap_cons, List.flatMap_cons, List.append_assoc, List.append_assoc,
        Context.reading_blanks layout.separator_blank,
        reading_markup ⟨by simp, by simp⟩ (hnames b (by simp)),
        ih fun a ha => hnames a (List.mem_cons_of_mem _ ha), List.append_assoc]
  rw [Layout.insertion, List.append_assoc, List.append_assoc, List.append_assoc,
    Context.reading_blanks layout.lead_blank, reading_markup hphase (hnames a (by simp)),
    hmore more fun b hb => hnames b (List.mem_cons_of_mem _ hb), List.flatMap_cons,
    List.append_assoc]

end Markup

end MarkupLabels.Source
