import Mathlib
import MarkupLabels.Proofs.Source.AttributeText
import MarkupLabels.Proofs.Source.Brackets
import MarkupLabels.Proofs.Source.Weaving

/-! Whether a `<` opens type parameters is settled alike with added attributes behind it. An
attribute settles that it does not, where nothing else has; and where something else settles that it
does, no tag has ended before. -/

namespace MarkupLabels.Source

namespace Outlook

variable {o : Outlook} {c : Char} {cs t r : List Char}

lemma foldl_settled (answer : Bool) (cs : List Char) :
    cs.foldl step (settled answer) = settled answer := by
  induction cs with
  | nil => rfl
  | cons c cs ih => exact ih

lemma after_eq_foldl (o : Outlook) (cs : List Char) : o.after cs = cs.foldl step o := by
  induction cs generalizing o with
  | nil => rfl
  | cons c cs ih =>
    rw [after, List.foldl_cons]
    split
    · next answer h => rw [h, foldl_settled]
    · exact ih _

lemma after_append (o : Outlook) (t r : List Char) : o.after (t ++ r) = (o.after t).after r := by
  simp only [after_eq_foldl, List.foldl_append]

lemma after_settled (answer : Bool) (cs : List Char) : (settled answer).after cs = settled answer := by
  rw [after_eq_foldl, foldl_settled]

lemma after_cons (o : Outlook) (c : Char) (cs : List Char) : o.after (c :: cs) = (o.step c).after cs := by
  simp only [after_eq_foldl, List.foldl_cons]

lemma step_blank (hc : isBlank c) (ho : o ≠ settled true) : o.step c ≠ settled true := by
  have hmarks : c ≠ ',' ∧ c ≠ '>' ∧ c ≠ '=' := by
    refine ⟨?_, ?_, ?_⟩ <;> rintro rfl <;> revert hc <;> decide
  cases o with
  | settled answer => exact ho
  | start => simp [step, hc]
  | name text =>
    simp only [step, hc]
    split <;> simp
  | named text => simp [step, hc]
  | keyword letters =>
    simp only [step, hc]
    repeat' split
    all_goals simp
  | constraint seen => simp [step, hc]
  | closed => simp [step, hc]
  | parameters depth =>
    simp only [step, closeParameters]
    repeat' split
    all_goals simp
  | behind equals => cases equals <;> simp [step, hc, hmarks]
  | result depth equals =>
    simp only [step, hmarks]
    repeat' split
    all_goals simp_all

lemma after_blanks (hcs : ∀ c ∈ cs, isBlank c) (ho : o ≠ settled true) : o.after cs ≠ settled true := by
  induction cs generalizing o with
  | nil => exact ho
  | cons c cs ih =>
    rw [after_cons]
    exact ih (fun d hd => hcs d (List.mem_cons_of_mem _ hd)) (step_blank (hcs c (by simp)) ho)

def BehindName : Outlook → Prop
  | .name _ | .keyword _ | .constraint .name | .parameters _ | .result _ false
  | .settled false => True
  | _ => False

lemma tagNameChar_marks (hc : isTagNameChar c) :
    c ≠ ',' ∧ c ≠ '>' ∧ c ≠ '=' ∧ c ≠ '(' ∧ c ≠ ')' ∧ c ≠ '/' ∧ c ≠ ':' ∧
      endsSearch c = false ∧ opensBracket c = false ∧ closesBracket c = false := by
  have hne : ∀ d : Char, isTagNameChar d = false → c ≠ d := by
    rintro d hd rfl
    simp [hd] at hc
  have h : ∀ ds : List Char, ds.all (!isTagNameChar ·) → decide (c ∈ ds) = false := by
    intro ds hds
    simp only [decide_eq_false_iff_not]
    exact fun hm => hne c (by simpa using List.all_eq_true.mp hds c hm) rfl
  exact ⟨hne _ (by decide), hne _ (by decide), hne _ (by decide), hne _ (by decide),
    hne _ (by decide), hne _ (by decide), hne _ (by decide), h _ (by decide), h _ (by decide),
    h _ (by decide)⟩

lemma step_name (hc : isTagNameChar c) (ho : o ≠ settled true) : (o.step c).BehindName := by
  obtain ⟨h₁, h₂, h₃, h₄, h₅, h₆, h₇, h₈, h₉, h₁₀⟩ := tagNameChar_marks hc
  have hblank := not_isBlank_of_isTagNameChar hc
  cases o with
  | settled answer => cases answer <;> simp_all [step, BehindName]
  | start =>
    simp only [step, hblank, Bool.false_eq_true, if_false]
    split <;> simp [BehindName]
  | name text =>
    simp only [step, hblank, h₁, h₂, Bool.false_eq_true, if_false]
    split <;> simp [BehindName]
  | named text =>
    simp only [step, hblank, h₁, h₂, h₃]
    repeat' split
    all_goals simp_all [BehindName]
  | keyword letters =>
    simp only [step, hblank]
    repeat' split
    all_goals simp_all [BehindName]
  | constraint seen => simp [step, hblank, hc, BehindName]
  | closed => simp [step, hblank, h₄, BehindName]
  | parameters depth => simp [step, h₈, h₉, h₁₀, BehindName]
  | behind equals => cases equals <;> simp [step, hblank, h₂, h₃, h₇, BehindName]
  | result depth equals => simp [step, h₂, h₃, h₈, h₉, h₁₀, BehindName]

lemma BehindName.ne_settled (h : o.BehindName) : o ≠ settled true := by
  rintro rfl
  exact h

lemma BehindName.step_colon (h : o.BehindName) : (o.step ':').BehindName := by
  have hblank : isBlank ':' = false ∧ isNameChar ':' = false := by decide
  have hmarks : endsSearch ':' = false ∧ opensBracket ':' = false ∧ closesBracket ':' = false := by
    decide
  unfold BehindName at h
  split at h
  · simp [step, hblank, BehindName]
  · simp only [step, hblank]
    repeat' split
    all_goals simp_all [BehindName]
  · simp [step, hblank, BehindName]
  · simp [step, hmarks, BehindName]
  · simp [step, hmarks, BehindName]
  · simp [step, BehindName]
  · exact absurd h id

lemma after_name (hcs : IsAttributeName cs) (ho : o ≠ settled true) : (o.after cs).BehindName := by
  obtain ⟨c, more, rfl, hc, hmore⟩ := hcs.exists_cons
  rw [after_cons]
  have h := step_name hc ho
  clear hcs
  generalize o.step c = o' at h
  induction more generalizing o' with
  | nil => exact h
  | cons d more ih =>
    rw [after_cons]
    refine ih (fun e he => hmore e (List.mem_cons_of_mem _ he)) _ ?_
    rcases hmore d (by simp) with hd | rfl
    · exact step_name hd h.ne_settled
    · exact h.step_colon

lemma BehindName.value (h : o.BehindName) (hr : r = '"' :: t ∨ r = '\'' :: t ∨ r = '\x7b' :: '"' :: t) :
    o.after ('=' :: r) = settled false := by
  have hblank : isBlank '=' = false ∧ isNameChar '=' = false ∧ isTagNameChar '=' = false := by decide
  have hmarks : endsSearch '=' = false ∧ opensBracket '=' = false ∧ closesBracket '=' = false := by
    decide
  have hquotes : endsSearch '"' = true ∧ endsSearch '\'' = true ∧ endsSearch '\x7b' = false ∧
      opensBracket '\x7b' = true := by decide
  rw [after_cons]
  unfold BehindName at h
  split at h
  · simp [step, hblank, after_settled]
  · next letters =>
    have hletter : extendsLetters[letters]? ≠ some '=' := by
      intro hl
      have := List.mem_of_getElem? hl
      simp [extendsLetters] at this
    simp [step, hblank, hletter, after_settled]
  · simp [step, hblank, after_settled]
  · rcases hr with rfl | rfl | rfl <;> simp [step, hmarks, hquotes, after_cons, after_settled]
  · rcases hr with rfl | rfl | rfl <;> simp [step, hmarks, hquotes, after_cons, after_settled]
  · exact after_settled _ _
  · exact absurd h id

lemma after_markup {a : Attribute} (ha : IsAttributeName a.name.toList) (ho : o ≠ settled true)
    (r : List Char) : o.after (a.markup ++ r) = settled false := by
  have hname := after_name ha ho
  rcases markup_cases a with ⟨q, hq, -, hm, -⟩ | ⟨-, -, hm, -⟩
  · rw [hm, List.append_assoc, after_append, List.cons_append]
    rcases hq with rfl | rfl
    · exact hname.value (t := a.writtenValue.toList ++ ['"'] ++ r) (.inl (by simp))
    · exact hname.value (t := a.writtenValue.toList ++ ['\''] ++ r) (.inr (.inl (by simp)))
  · rw [hm, List.append_assoc, after_append, List.cons_append]
    exact hname.value (t := Json.quotedBody a.writtenValue.toList ++ ['"', '\x7d'] ++ r)
      (.inr (.inr (by simp [Json.quoted])))

lemma after_write_ne {added : Nat → List Attribute} {p : Progress} {ls : List Lexeme}
    (hnames : ∀ i, ∀ a ∈ added i, IsAttributeName a.name.toList)
    (h : o.after (Lexeme.texts ls) ≠ settled true) : o.after (p.write added ls) ≠ settled true := by
  induction ls generalizing o p with
  | nil => exact h
  | cons l ls ih =>
    have ho : o ≠ settled true := by
      rintro rfl
      exact h (after_settled _ _)
    have htexts : Lexeme.texts (l :: ls) = l.text ++ Lexeme.texts ls := rfl
    rw [htexts, after_append] at h
    have hcopy : o.after (l.text ++ (p.step l).write added ls) ≠ settled true := by
      rw [after_append]
      exact ih h
    rw [Progress.write, List.append_assoc]
    cases ht : p.tagEnd? l with
    | none => simpa [Progress.insertionBefore, ht] using hcopy
    | some t =>
      have hbefore : p.insertionBefore added l = t.insertion (added t.element) := by
        simp [Progress.insertionBefore, ht]
      cases hl : t.layout with
      | none => simpa [hbefore, TagEnd.insertion, hl] using hcopy
      | some layout =>
        cases ha : added t.element with
        | nil => simpa [hbefore, TagEnd.insertion, hl, ha, Layout.insertion] using hcopy
        | cons a more =>
          -- The name of the first attribute and its equals sign settle the question.
          have hname := hnames t.element a (by simp [ha])
          have hlead := after_blanks layout.lead_blank ho
          simp only [hbefore, TagEnd.insertion, hl, ha, Layout.insertion, Option.map_some,
            Option.getD_some, List.append_assoc]
          rw [after_append, after_markup hname hlead]
          simp

def depth : Outlook → Nat
  | .parameters depth => depth + 1
  | .result depth _ => depth
  | _ => 0

structure Breaks (c : Char) : Prop where
  blank : isBlank c = false
  name : isNameChar c = false
  tagName : isTagNameChar c = false
  marks : c ∉ ['>', ':', '.', '=', 'e']
  letters : c ∉ extendsLetters

lemma step_of_breaks (hc : Breaks c) (o : Outlook) :
    (∃ b, o.step c = settled b) ∨ o = closed ∨ (∃ d, o = parameters d) ∨
      ∃ d equals, o = result d equals := by
  obtain ⟨hblank, hname, htagName, hmarks, hletters⟩ := hc
  simp only [List.mem_cons, List.not_mem_nil, or_false, not_or] at hmarks
  obtain ⟨hgreater, hcolon, hdot, hequals, he⟩ := hmarks
  cases o with
  | settled answer => exact .inl ⟨answer, rfl⟩
  | start => simp [step, hblank, hname]
  | name text => simp [step, hblank, hname, hgreater]
  | named text => simp [step, hblank, hname, hgreater, he]
  | keyword letters =>
    have hletter : extendsLetters[letters]? ≠ some c := fun hl => hletters (List.mem_of_getElem? hl)
    simp [step, hblank, hletter]
  | constraint seen =>
    simp only [step, hblank, htagName, hgreater, hcolon, hdot, hequals]
    by_cases hslash : c = '/' <;> simp [hslash]
  | behind equals => cases equals <;> simp [step, hblank, hcolon, hequals]
  | closed => exact .inr (.inl rfl)
  | parameters d => exact .inr (.inr (.inl ⟨d, rfl⟩))
  | result d equals => exact .inr (.inr (.inr ⟨d, equals, rfl⟩))

lemma step_endsSearch (hc : endsSearch c) (o : Outlook) : ∃ b, o.step c = settled b := by
  have hmem : c = '"' ∨ c = '\'' ∨ c = '\x60' ∨ c = '/' ∨ c = '<' := by
    simpa [endsSearch, imp_iff_not_or, -Classical.not_imp] using hc
  have hbreaks : Breaks c := by
    rcases hmem with rfl | rfl | rfl | rfl | rfl <;> constructor <;> decide
  have hparenthesis : c ≠ '(' := by
    rcases hmem with rfl | rfl | rfl | rfl | rfl <;> decide
  rcases step_of_breaks hbreaks o with h | rfl | ⟨d, rfl⟩ | ⟨d, equals, rfl⟩
  · exact h
  · simp [step, hbreaks.blank, hparenthesis]
  · simp [step, hc]
  · simp [step, hc]

lemma step_depth (hc : isBracket c = false) (o : Outlook) :
    (∃ b, o.step c = settled b) ∨ (o.step c).depth = o.depth := by
  obtain ⟨hopens, hcloses⟩ : opensBracket c = false ∧ closesBracket c = false := by
    simpa [isBracket] using hc
  have hparenthesis : c ≠ '(' := by
    rintro rfl
    revert hc
    decide
  cases o with
  | settled answer => exact .inl ⟨answer, rfl⟩
  | parameters depth =>
    simp only [step, hopens, hcloses]
    split <;> simp [Outlook.depth]
  | result depth equals =>
    simp only [step, hopens, hcloses]
    repeat' split
    all_goals simp_all [Outlook.depth]
  | behind equals =>
    simp only [step]
    repeat' split
    all_goals simp [Outlook.depth]
  | _ =>
    simp only [step, hparenthesis]
    repeat' split
    all_goals simp_all [Outlook.depth]

lemma after_depth (ht : ∀ c ∈ t, isBracket c = false) (o : Outlook) :
    (∃ b, o.after t = settled b) ∨ (o.after t).depth = o.depth := by
  induction t generalizing o with
  | nil => exact .inr rfl
  | cons c t ih =>
    rw [after_cons]
    rcases step_depth (ht c (by simp)) o with ⟨b, hb⟩ | hdepth
    · exact .inl ⟨b, by rw [hb, after_settled]⟩
    · rw [← hdepth]
      exact ih (fun d hd => ht d (List.mem_cons_of_mem _ hd)) _

lemma step_opens (hc : opensBracket c) (o : Outlook) :
    (∃ b, o.step c = settled b) ∨ (o.step c).depth = o.depth + 1 := by
  have hmem := opensBracket_cases hc
  have hbreaks : Breaks c := by
    rcases hmem with rfl | rfl | rfl <;> constructor <;> decide
  have hclass : c ≠ '>' ∧ endsSearch c = false := by
    rcases hmem with rfl | rfl | rfl <;> decide
  rcases step_of_breaks hbreaks o with h | rfl | ⟨d, rfl⟩ | ⟨d, equals, rfl⟩
  · exact .inl h
  · simp only [step, hbreaks.blank]
    by_cases hp : c = '(' <;> simp [hp, depth]
  · simp [step, hclass, hc, depth]
  · simp [step, hclass, hc, depth]

lemma step_closes (hc : closesBracket c) (o : Outlook) :
    (∃ b, o.step c = settled b) ∨ o.depth = (o.step c).depth + 1 := by
  have hmem := closesBracket_cases hc
  have hbreaks : Breaks c := by
    rcases hmem with rfl | rfl | rfl <;> constructor <;> decide
  have hclass : c ≠ '>' ∧ c ≠ '(' ∧ endsSearch c = false ∧ opensBracket c = false := by
    rcases hmem with rfl | rfl | rfl <;> decide
  rcases step_of_breaks hbreaks o with h | rfl | ⟨d, rfl⟩ | ⟨d, equals, rfl⟩
  · exact .inl h
  · simp [step, hbreaks.blank, hclass]
  · cases d with
    | zero =>
      simp only [step, hclass, hc, closeParameters]
      by_cases hp : c = ')' <;> simp [hp, depth]
    | succ d => simp [step, hclass, hc, closeParameters, depth]
  · cases d with
    | zero => simp [step, hclass, hc]
    | succ d => simp [step, hclass, hc, depth]

def Layered : Nat → Frame → List Frame → Prop
  | 0, .code k, _ => k.shape ≠ .angles
  | n + 1, .code k, f :: outer => k.shape.IsPlain ∧ Layered n f outer
  | _, _, _ => False

namespace Layered

variable {n : Nat} {f : Frame} {outer : List Frame} {k k' : Code}

lemma exists_code (h : Layered n f outer) : ∃ k, f = .code k ∧ k.shape ≠ .angles := by
  cases n with
  | zero =>
    cases f with
    | code k => exact ⟨k, rfl, h⟩
    | _ => exact absurd h id
  | succ n =>
    cases f with
    | code k =>
      cases outer with
      | nil => exact absurd h id
      | cons g outer =>
        refine ⟨k, rfl, fun hk => ?_⟩
        have := h.1
        rw [hk] at this
        exact this
    | _ => exact absurd h id

lemma reshape (h : Layered n (.code k) outer) (hs : k'.shape = k.shape) :
    Layered n (.code k') outer := by
  cases n with
  | zero => exact fun hk => h (hs ▸ hk)
  | succ n =>
    cases outer with
    | nil => exact absurd h id
    | cons g outer => exact ⟨hs ▸ h.1, h.2⟩

end Layered

variable {context : Context} {rest : List Char}

lemma layered_advance (c : Char) (rest : List Char) (h : Layered o.depth context.inner context.outer) :
    (∃ b, o.after (c :: rest.take (context.read c rest).2) = settled b) ∨
      Layered (o.after (c :: rest.take (context.read c rest).2)).depth
        (context.advance ⟨(context.read c rest).1, c :: rest.take (context.read c rest).2⟩).inner
        (context.advance ⟨(context.read c rest).1, c :: rest.take (context.read c rest).2⟩).outer := by
  obtain ⟨k, hk, hangles⟩ := h.exists_code
  obtain ⟨language, inner, outer⟩ := context
  subst hk
  change Layered o.depth (.code k) outer at h
  have hread : Context.read ⟨language, .code k, outer⟩ c rest = k.read language c rest := rfl
  rw [hread, after_cons]
  -- By what the first character does: settle the question, open a bracket, close one, or none of these.
  by_cases hends : endsSearch c
  · obtain ⟨b, hb⟩ := step_endsSearch hends o
    exact .inl ⟨b, by rw [hb, after_settled]⟩
  by_cases hopens : opensBracket c
  · have hcloses := not_closesBracket_of_opensBracket hopens
    rw [k.read_bracket (c := c) (by simp [isBracket, hopens]) (by simp [hcloses])]
    rcases step_opens hopens o with ⟨b, hb⟩ | hdepth
    · exact .inl ⟨b, by simp [hb, after_settled]⟩
    · obtain ⟨above, inside, habove, hinside, heq⟩ :=
        Context.advance_opensBracket language k outer hopens
      simp only [List.take_zero, heq]
      right
      change Layered (o.step c).depth (.code inside) (.code above :: outer)
      rw [hdepth]
      exact ⟨hinside, h.reshape habove⟩
  by_cases hcloses : closesBracket c
  · rcases step_closes hcloses o with ⟨b, hb⟩ | hdepth
    · exact .inl ⟨b, by rw [hb, after_settled]⟩
    · rw [hdepth] at h
      cases outer with
      | nil => exact absurd h id
      | cons g outer =>
        rw [k.read_bracket (c := c) (by simp [isBracket, hcloses]) fun _ => h.1]
        simp only [List.take_zero, Context.advance_closesBracket hcloses]
        exact .inr h.2
  · have hc : isBracket c = false := by simp [isBracket, hopens, hcloses]
    obtain ⟨hkind, htext⟩ := k.read_plain language rest hc (by simpa using hends)
    have hall : ∀ d ∈ c :: rest.take (k.read language c rest).2, isBracket d = false := by
      rintro d (_ | ⟨_, hd⟩)
      · exact hc
      · exact htext d hd
    have hdepth := after_depth hall o
    rw [after_cons] at hdepth
    rcases hdepth with hb | hdepth
    · exact .inl hb
    · obtain ⟨k', hshape, heq⟩ := Context.advance_plain language outer
        (rest.take (k.read language c rest).2) hkind hc hangles
      rw [hdepth, heq]
      exact .inr (h.reshape hshape)

lemma after_write_eq {added : Nat → List Attribute} {p : Progress}
    (hl : Layered o.depth context.inner context.outer) (h : o.after cs = settled true) :
    o.after (p.write added (context.lexemes cs)) = settled true := by
  fun_induction Context.lexemes context cs generalizing p o
  case case1 => exact h
  case case2 context c rest kind n hread l ih =>
    -- While the question is open only code is read, and in code no tag ends.
    obtain ⟨k, hk, -⟩ := hl.exists_code
    have hnone : p.insertionBefore added l = [] := by
      have hkind : l.kind.endsTag = false := by
        by_contra hends
        have hread : (context.read c rest).1.endsTag := by
          rw [hread]
          simpa using hends
        obtain ⟨phase, hphase, -⟩ := Context.read_endsTag hread
        simp [hk] at hphase
      simp [Progress.insertionBefore, Progress.tagEnd?_eq_none hkind]
    have hsplit : c :: rest = l.text ++ rest.drop n := by simp [l]
    rw [hsplit, after_append] at h
    rw [Progress.write, hnone, List.nil_append, after_append]
    have hadvance := layered_advance c rest hl
    rw [hread] at hadvance
    change (∃ b, o.after l.text = settled b) ∨
      Layered (o.after l.text).depth (context.advance l).inner (context.advance l).outer at hadvance
    rcases hadvance with ⟨b, hb⟩ | hlayered
    · rw [hb, after_settled] at h ⊢
      exact h
    · exact ih hlayered h

end Outlook

end MarkupLabels.Source
