import Mathlib
import MarkupLabels.Proofs.Source.Enrichment
import MarkupLabels.Proofs.Source.Places
import MarkupLabels.Proofs.Tree.Extension

/-! What the lexemes of added attributes say: each element has its attributes and then those that were
added, with their written values. -/

namespace MarkupLabels

def Attribute.readBack (a : Attribute) : Attribute where
  name := a.name
  value := some (.text
    (if '"' ∈ a.writtenValue.toList ∧ '\'' ∈ a.writtenValue.toList then
      String.ofList (Json.quotedBody a.writtenValue.toList)
    else a.writtenValue))

namespace Source

namespace OpenElement

def gain (e : OpenElement) (column : Nat) (a : Attribute) : OpenElement :=
  { e with attributes := e.attributes ++ [a], slot := .closed, item := .attribute, column }

variable {e : OpenElement} {c₁ c₂ c₃ c₄ c₅ : Nat} {name text : List Char}

lemma step_attributeName (h : ¬ e.isHeld) :
    e.step c₁ ⟨.attributeName, name⟩ =
      { e with
        attributes := e.attributes ++ [⟨String.ofList name, none⟩]
        slot := .named false
        item := .attribute
        column := c₁ } := by
  cases hslot : e.slot with
  | container commented contents => simp [isHeld, hslot] at h
  | _ => simp [step, hslot]

lemma unquoted_quoted (q q' : Char) (text : List Char) (kind : LexemeKind) :
    Lexeme.unquoted ⟨kind, q :: (text ++ [q'])⟩ = String.ofList text := by
  simp [Lexeme.unquoted]

lemma step_quoted (q : Char) (h : ¬ e.isHeld) :
    ((e.step c₁ ⟨.attributeName, name⟩).step c₂ ⟨.equals, ['=']⟩).step c₃
        ⟨.attributeString, q :: (text ++ [q])⟩ =
      e.gain c₁ ⟨String.ofList name, some (.text (String.ofList text))⟩ := by
  rw [step_attributeName h]
  simp [step, setValue, gain, settle, unquoted_quoted]

lemma step_braced (h : ¬ e.isHeld) :
    ((((e.step c₁ ⟨.attributeName, name⟩).step c₂ ⟨.equals, ['=']⟩).step c₃
        ⟨.containerOpen .value, ['\x7b']⟩).step c₄ ⟨.string, '"' :: (text ++ ['"'])⟩).step c₅
        ⟨.containerClose .value, ['\x7d']⟩ =
      e.gain c₁ ⟨String.ofList name, some (.text (String.ofList text))⟩ := by
  rw [step_attributeName h]
  simp [step, setValue, gain, settle, Contents.add, Contents.value, literalValue, unquoted_quoted]

end OpenElement

namespace Progress

variable {p q : Progress} {e : OpenElement} {es : List OpenElement} {a : Attribute} {l : Lexeme}

lemma step_inner (hl : l.kind = .attributeName ∨ l.kind = .equals ∨ l.kind = .attributeString ∨
      l.kind = .containerOpen .value ∨ l.kind = .string ∨ l.kind = .containerClose .value)
    (h : p.openElements = e :: es) :
    (p.step l).openElements = e.step p.column l :: es ∧ (p.step l).forest = p.forest := by
  have helements : (p.step l).openElements = (p.stepInner l).openElements := by
    change (p.enter l).openElements = _
    unfold enter
    rcases hl with hk | hk | hk | hk | hk | hk <;> rw [hk]
  refine ⟨by rw [helements, stepInner_openElements, h, List.modifyHead_cons], ?_⟩
  rw [step_forest]
  rcases hl with hk | hk | hk | hk | hk | hk <;> rw [hk]

lemma foldl_attributeLexemes (h : p.openElements = e :: es) (hheld : ¬ e.isHeld) :
    ((attributeLexemes a).foldl step p).openElements = e.gain p.column a.readBack :: es ∧
      ((attributeLexemes a).foldl step p).forest = p.forest := by
  rcases markup_cases a with ⟨q, hq, hvalue, -, hl⟩ | ⟨hdouble, hsingle, -, hl⟩
  · have hback : a.readBack = ⟨String.ofList a.name.toList,
        some (.text (String.ofList a.writtenValue.toList))⟩ := by
      have hnot : ¬ ('"' ∈ a.writtenValue.toList ∧ '\'' ∈ a.writtenValue.toList) := by
        rcases hq with rfl | rfl <;> tauto
      simp only [Attribute.readBack, if_neg hnot, String.ofList_toList]
    rw [hl, hback]
    obtain ⟨h₁, f₁⟩ := step_inner (l := ⟨.attributeName, a.name.toList⟩) (by simp) h
    obtain ⟨h₂, f₂⟩ := step_inner (l := ⟨.equals, ['=']⟩) (by simp) h₁
    obtain ⟨h₃, f₃⟩ := step_inner (l := ⟨.attributeString, q :: (a.writtenValue.toList ++ [q])⟩)
      (by simp) h₂
    rw [OpenElement.step_quoted q hheld] at h₃
    exact ⟨h₃, f₃.trans (f₂.trans f₁)⟩
  · have hback : a.readBack = ⟨String.ofList a.name.toList,
        some (.text (String.ofList (Json.quotedBody a.writtenValue.toList)))⟩ := by
      simp only [Attribute.readBack, hdouble, hsingle, and_self, if_true, String.ofList_toList]
    rw [hl, hback]
    obtain ⟨h₁, f₁⟩ := step_inner (l := ⟨.attributeName, a.name.toList⟩) (by simp) h
    obtain ⟨h₂, f₂⟩ := step_inner (l := ⟨.equals, ['=']⟩) (by simp) h₁
    obtain ⟨h₃, f₃⟩ := step_inner (l := ⟨.containerOpen .value, ['\x7b']⟩) (by simp) h₂
    obtain ⟨h₄, f₄⟩ := step_inner (l := ⟨.string, Json.quoted a.writtenValue.toList⟩) (by simp) h₃
    obtain ⟨h₅, f₅⟩ := step_inner (l := ⟨.containerClose .value, ['\x7d']⟩) (by simp) h₄
    rw [Json.quoted, OpenElement.step_braced hheld] at h₅
    exact ⟨h₅, f₅.trans (f₄.trans (f₃.trans (f₂.trans f₁)))⟩

lemma foldl_attributes (new : List Attribute) (h : p.openElements = e :: es) (hheld : ¬ e.isHeld) :
    ∃ f, ((new.flatMap attributeLexemes).foldl step p).openElements = f :: es ∧ f.index = e.index ∧
      f.name = e.name ∧ f.attributes = e.attributes ++ new.map Attribute.readBack ∧
      ((new.flatMap attributeLexemes).foldl step p).forest = p.forest := by
  induction new generalizing p e with
  | nil => exact ⟨e, h, rfl, rfl, by simp, rfl⟩
  | cons a new ih =>
    obtain ⟨hgain, hforest⟩ := foldl_attributeLexemes (a := a) h hheld
    obtain ⟨f, hf, hindex, hname, hattributes, hforest'⟩ :=
      ih hgain (by simp [OpenElement.isHeld, OpenElement.gain])
    rw [List.flatMap_cons, List.foldl_append]
    refine ⟨f, hf, hindex, hname, ?_, hforest'.trans hforest⟩
    rw [hattributes]
    simp [OpenElement.gain]

def gains (added : Nat → List Attribute) (pending : List Nat) (i : Nat) : List Attribute :=
  if i ∈ pending then [] else (added i).map Attribute.readBack

structure Gained (added : Nat → List Attribute) (pending : List Nat) (p q : Progress) : Prop where
  bare : p.bare = q.bare
  forest : q.forest = p.forest.extend (gains added pending)

lemma Leaves.of_endsTag {pending pending' : List Nat} (h : p.Leaves l pending pending')
    (hl : l.kind.endsTag) (hes : p.openElements = e :: es) : pending = e.index :: pending' := by
  unfold LexemeKind.endsTag at hl
  unfold Leaves at h
  cases hk : l.kind <;> simp_all

namespace Gained

variable {added : Nat → List Attribute} {pending pending' : List Nat} {context : Context}
  {ls : List Lexeme}

lemma size (h : Gained added pending p q) : p.forest.size = q.forest.size := by
  rw [h.forest, Forest.extend_size]

lemma of_initial : Gained added [] .initial .initial where
  bare := rfl
  forest := by
    ext1
    rfl

lemma step (h : Gained added pending p q) (hl : l.kind.endsTag = false)
    (hleaves : p.Leaves l pending pending') : Gained added pending' (p.step l) (q.step l) := by
  refine ⟨step_bare h.bare h.size, ?_⟩
  rw [step_forest, step_forest]
  unfold Leaves at hleaves
  cases hk : l.kind with
  | tagOpen =>
    simp only [hk] at hleaves ⊢
    rw [hleaves, h.forest, head_index h.bare.symm]
    refine Forest.add_extend (fun i hi => ?_) (by simp [gains])
    simp [gains, hi.ne]
  | tagEnd | selfClose => simp [hk, LexemeKind.endsTag] at hl
  | _ =>
    simp only [hk] at hleaves ⊢
    rw [hleaves, h.forest]

lemma step_endsTag (h : Gained added (e.index :: pending') p q) (hl : l.kind.endsTag)
    (hes : p.openElements = e :: es) (hheld : ¬ e.isHeld) (hnodup : (e.index :: pending').Nodup) :
    Gained added pending' (p.step l)
      ((((added e.index).flatMap attributeLexemes).foldl Progress.step q).step l) := by
  obtain ⟨f, fs, hfs, hbare, hbelow⟩ := exists_bare_cons h.bare hes
  have hslot : e.slot = f.slot := show e.bare.slot = f.bare.slot by rw [hbare]
  have hindex : e.index = f.index := show e.bare.index = f.bare.index by rw [hbare]
  have hname : e.name = f.name := show e.bare.name = f.bare.name by rw [hbare]
  have hattributes : e.attributes = f.attributes :=
    show e.bare.attributes = f.bare.attributes by rw [hbare]
  obtain ⟨g, hg, hgindex, hgname, hgattributes, hforest⟩ := foldl_attributes (added e.index) hfs
    (by simpa [OpenElement.isHeld, hslot] using hheld)
  generalize ((added e.index).flatMap attributeLexemes).foldl Progress.step q = q' at hg hforest ⊢
  -- The element itself is pending no longer, and what it gained is all it is to gain.
  have hgains : (added e.index).map Attribute.readBack = gains added pending' e.index := by
    simp [gains, (List.nodup_cons.mp hnodup).1]
  have hclose : q'.closeTag.forest = (p.closeTag.forest).extend (gains added pending') := by
    simp only [closeTag, hg, hes, hforest, h.forest, hgname, hgattributes, hgindex, ← hindex, ← hname,
      ← hattributes, hgains]
    refine Forest.describe_extend _ fun i hi => ?_
    simp [gains, hi]
  have hkind : l.kind = .tagEnd ∨ l.kind = .selfClose := by
    unfold LexemeKind.endsTag at hl
    split at hl <;> simp_all
  refine ⟨step_bare_endsTag hl hes hg (hindex.trans hgindex.symm) hbelow, ?_⟩
  rw [step_forest, step_forest]
  rcases hkind with hk | hk <;> simpa only [hk] using hclose

lemma foldl_enrich (h : Gained added pending p q) (hw : Writable added context p ls)
    (ha : Aligned false context.frames p.openElements pending) (hnodup : pending.Nodup)
    (hlt : ∀ i ∈ pending, i < p.forest.size) :
    ((p.numbering.enrich added ls).foldl Progress.step q).forest =
      (ls.foldl Progress.step p).forest.extend fun i => (added i).map Attribute.readBack := by
  -- Both readings go on side by side. Elements whose tags have not ended are pending: they have gained
  -- nothing so far.
  induction ls generalizing context p q pending with
  | nil =>
    have hnone : pending = [] := by
      have houter : context.outer = [] := by simpa [Context.admitsAll] using hw.admitted
      rw [Context.frames, houter] at ha
      exact ha.pending_of_single
    rw [hnone] at h
    change q.forest = _
    rw [h.forest]
    refine Forest.extend_congr fun i _ => ?_
    simp [gains]
  | cons l ls ih =>
    obtain ⟨pending', hleaves, ha'⟩ := step_aligned hw.admits ha
    obtain ⟨hnodup', hlt'⟩ := hleaves.nodup hnodup hlt
    rw [Numbering.enrich, List.foldl_append, List.foldl_cons, List.foldl_cons, ← numbering_step]
    refine ih ?_ hw.step ha' hnodup' hlt'
    cases hl : l.kind.endsTag with
    | false =>
      rw [Writable.inserted_of_not_endsTag hl]
      exact h.step hl hleaves
    | true =>
      obtain ⟨-, e, es, -, hes, hheld, -, -⟩ := hw.endsTag hl
      rw [Writable.inserted_of_endsTag added hl hes]
      obtain rfl := hleaves.of_endsTag hl hes
      exact h.step_endsTag hl hes hheld hnodup

end Gained

end Progress

section Imports

variable {added : Nat → List Attribute} {s : Numbering} {l : Lexeme} {ls ms rest : List Lexeme}
  {language : Language} {a : Attribute}

lemma inserted_cases (added : Nat → List Attribute) (s : Numbering) (l : Lexeme) :
    s.inserted added l = [] ∨ l.kind.endsTag ∧
      ∃ a more, s.inserted added l = (a :: more).flatMap attributeLexemes := by
  unfold Numbering.inserted
  split
  · next hl =>
    cases h : (s.stack.head?.map added).getD [] with
    | nil => exact .inl rfl
    | cons a more => exact .inr ⟨hl, a, more, rfl⟩
  · exact .inl rfl

lemma attributeLexemes_kind (hl : l ∈ attributeLexemes a) :
    l.isSignificant ∧ l.kind ≠ .importWord ∧ l.kind ≠ .blank ∧ l.kind.endsTag = false := by
  rcases markup_cases a with ⟨q, -, -, -, heq⟩ | ⟨-, -, -, heq⟩
  all_goals
    rw [heq] at hl
    simp only [List.mem_cons, List.not_mem_nil, or_false] at hl
  · rcases hl with rfl | rfl | rfl <;> simp [Lexeme.isSignificant, LexemeKind.endsTag]
  · rcases hl with rfl | rfl | rfl | rfl | rfl <;> simp [Lexeme.isSignificant, LexemeKind.endsTag]

lemma endsTag_kind (hl : l.kind.endsTag) :
    l.isSignificant ∧ l.kind ≠ .importWord ∧ l.kind.isMarkup := by
  unfold LexemeKind.endsTag at hl
  split at hl <;> simp_all [Lexeme.isSignificant, LexemeKind.isMarkup]

lemma ofLexemes_cons (comments : List Lexeme) (hl : l.isSignificant) :
    NotedLexeme.ofLexemes comments (l :: ls) = ⟨comments, l⟩ :: NotedLexeme.ofLexemes [] ls := by
  rw [NotedLexeme.ofLexemes, if_pos hl]

lemma takeWhile_enrich (comments : List Lexeme) :
    (NotedLexeme.ofLexemes comments (s.enrich added ls)).takeWhile (fun m => !m.kind.isMarkup) =
      (NotedLexeme.ofLexemes comments ls).takeWhile fun m => !m.kind.isMarkup := by
  induction ls generalizing s comments with
  | nil => rfl
  | cons l ls ih =>
    rw [Numbering.enrich]
    rcases inserted_cases added s l with hnone | ⟨hl, a, more, hsome⟩
    · rw [hnone, List.nil_append, NotedLexeme.ofLexemes, NotedLexeme.ofLexemes]
      split
      · simp only [List.takeWhile_cons, ih]
      · exact ih _
    · obtain ⟨hsignificant, -, hmarkup⟩ := endsTag_kind hl
      have hname : LexemeKind.attributeName.isMarkup := rfl
      rw [hsome, ofLexemes_cons comments hsignificant]
      simp [attributeLexemes, NotedLexeme.ofLexemes, Lexeme.isSignificant, NotedLexeme.kind, hname,
        hmarkup]

lemma importRecords_append (comments : List Lexeme)
    (hms : ∀ l ∈ ms, l.isSignificant ∧ l.kind ≠ .importWord) (hne : ms ≠ []) :
    importRecords language (NotedLexeme.ofLexemes comments (ms ++ rest)) =
      importRecords language (NotedLexeme.ofLexemes [] rest) := by
  induction ms generalizing comments with
  | nil => exact absurd rfl hne
  | cons l ms ih =>
    obtain ⟨hsignificant, hkind⟩ := hms l (by simp)
    rw [List.cons_append, ofLexemes_cons comments hsignificant, importRecords,
      if_neg (by simpa [NotedLexeme.kind] using hkind), List.nil_append]
    by_cases hnil : ms = []
    · rw [hnil, List.nil_append]
    · exact ih [] (fun m hm => hms m (List.mem_cons_of_mem _ hm)) hnil

lemma importRecords_enrich (comments : List Lexeme) :
    importRecords language (NotedLexeme.ofLexemes comments (s.enrich added ls)) =
      importRecords language (NotedLexeme.ofLexemes comments ls) := by
  induction ls generalizing s comments with
  | nil => rfl
  | cons l ls ih =>
    rw [Numbering.enrich]
    rcases inserted_cases added s l with hnone | ⟨hl, a, more, hsome⟩
    · rw [hnone, List.nil_append, NotedLexeme.ofLexemes, NotedLexeme.ofLexemes]
      split
      · rw [importRecords, importRecords, ih, takeWhile_enrich]
      · exact ih _
    · obtain ⟨hsignificant, hkind, -⟩ := endsTag_kind hl
      have hsplit : s.inserted added l ++ l :: (s.step l).enrich added ls =
          (s.inserted added l ++ [l]) ++ (s.step l).enrich added ls := by simp
      have hone : [l] ++ ls = l :: ls := rfl
      rw [hsplit, importRecords_append comments _ (by simp), ih, ← hone,
        importRecords_append comments _ (by simp)]
      · rintro m hm
        obtain rfl := List.mem_singleton.mp hm
        exact ⟨hsignificant, hkind⟩
      · intro m hm
        rcases List.mem_append.mp hm with hm | hm
        · rw [hsome] at hm
          obtain ⟨b, -, hb⟩ := List.mem_flatMap.mp hm
          obtain ⟨h₁, h₂, -⟩ := attributeLexemes_kind hb
          exact ⟨h₁, h₂⟩
        · obtain rfl := List.mem_singleton.mp hm
          exact ⟨hsignificant, hkind⟩

lemma solid_enrich : solid (s.enrich added ls) = s.enrich added (solid ls) := by
  induction ls generalizing s with
  | nil => rfl
  | cons l ls ih =>
    have hinserted : solid (s.inserted added l) = s.inserted added l := by
      refine List.filter_eq_self.mpr fun m hm => ?_
      rcases inserted_cases added s l with hnone | ⟨-, a, more, hsome⟩
      · simp [hnone] at hm
      · rw [hsome] at hm
        obtain ⟨b, -, hb⟩ := List.mem_flatMap.mp hm
        simpa using (attributeLexemes_kind hb).2.2.1
    rw [Numbering.enrich, solid, List.filter_append, ← solid, hinserted]
    by_cases hl : l.kind = .blank
    · have hstep : s.step l = s := by simp [Numbering.step, hl]
      have hnone : s.inserted added l = [] := by simp [Numbering.inserted, hl, LexemeKind.endsTag]
      have hsolid : ∀ ls, solid (l :: ls) = solid ls := fun ls => by simp [solid, hl]
      change _ ++ solid (l :: _) = _
      rw [hnone, List.nil_append, hsolid, hsolid, ih, hstep]
    · have hsolid : ∀ ls, solid (l :: ls) = l :: solid ls := fun ls => by simp [solid, hl]
      change _ ++ solid (l :: _) = _
      rw [hsolid, hsolid, ih, Numbering.enrich]

end Imports

section Acceptance

variable {language : Language} {phase : TagPhase} {outer : List Frame} {a : Attribute}
  {ls : List Lexeme}

lemma IsAttributeName.getLast {cs : List Char} (h : IsAttributeName cs) :
    cs.getLast?.any isTagNameChar := by
  obtain ⟨name, hne, hname, rfl | ⟨own, hown, hchars, rfl⟩⟩ := h
  · simp [List.getLast?_eq_some_getLast hne, hname]
  · have hlast : (name ++ ':' :: own).getLast? = own.getLast? := by
      rw [List.getLast?_append_of_ne_nil _ (by simp), List.getLast?_cons_of_ne_nil hown]
    simp [hlast, List.getLast?_eq_some_getLast hown, hchars]

lemma admitsAll_attributeLexemes (hphase : phase = .named ∨ phase = .attributes)
    (ha : IsAttributeName a.name.toList) :
    Context.admitsAll ⟨language, .tag phase, outer⟩ (attributeLexemes a ++ ls) =
      Context.admitsAll ⟨language, .tag .attributes, outer⟩ ls := by
  have hlast := ha.getLast
  rcases markup_cases a with ⟨q, -, -, -, heq⟩ | ⟨-, -, -, heq⟩
  · rw [heq]
    simp [Context.admitsAll, Context.admits, Context.advance, TagPhase.admits, hphase, hlast]
  · rw [heq]
    simp [Context.admitsAll, Context.admits, Context.advance, TagPhase.admits, Code.admits,
      Context.push, Context.mapCode, Context.pop, Context.complete, hphase, hlast]

lemma admitsAll_attributes (new : List Attribute) (hphase : phase = .named ∨ phase = .attributes)
    (hnew : new ≠ []) (hnames : ∀ a ∈ new, IsAttributeName a.name.toList) :
    Context.admitsAll ⟨language, .tag phase, outer⟩ (new.flatMap attributeLexemes ++ ls) =
      Context.admitsAll ⟨language, .tag .attributes, outer⟩ ls := by
  induction new generalizing phase with
  | nil => exact absurd rfl hnew
  | cons a new ih =>
    rw [List.flatMap_cons, List.append_assoc, admitsAll_attributeLexemes hphase (hnames a (by simp))]
    by_cases hnil : new = []
    · rw [hnil]
      rfl
    · exact ih (.inr rfl) hnil fun b hb => hnames b (List.mem_cons_of_mem _ hb)

lemma admitsAll_tagEnd {l : Lexeme} (hl : l = ⟨.tagEnd, ['>']⟩ ∨ l = ⟨.selfClose, ['/', '>']⟩) :
    Context.admitsAll ⟨language, .tag .attributes, outer⟩ (l :: ls) =
      (Context.advance ⟨language, .tag phase, outer⟩ l).admitsAll ls := by
  rcases hl with rfl | rfl
  · simp [Context.admitsAll, Context.admits, Context.advance, TagPhase.admits]
  · cases outer <;>
      simp [Context.admitsAll, Context.admits, Context.advance, TagPhase.admits, Context.pop,
        Context.complete]

lemma admitsAll_enrich {context : Context} {p : Progress} {added : Nat → List Attribute}
    (h : p.Writable added context ls) :
    context.admitsAll (p.numbering.enrich added (context.tidy ls)) := by
  induction ls generalizing context p with
  | nil => exact h.admitted
  | cons l ls ih =>
    have ih := ih h.step
    rw [Progress.numbering_step] at ih
    by_cases htag : l.kind = .blank ∧ ∃ phase, context.inner = .tag phase
    · obtain ⟨hk, phase, hphase⟩ := htag
      obtain ⟨language, inner, outer⟩ := context
      subst hphase
      have hstep : p.numbering.step l = p.numbering := by simp [Numbering.step, hk]
      rw [Context.tidy_blank _ hk]
      rwa [Context.advance_of_blank hk, hstep] at ih
    · rw [Context.tidy_cons_of_blank _ fun hk phase hphase => htag ⟨hk, phase, hphase⟩,
        Numbering.enrich]
      rcases h.insertionBefore_cases with ⟨-, hinserted⟩ |
        ⟨phase, layout, e, hphase, hnamed, hl, -, ha, -, hinserted, -⟩
      · rw [hinserted, List.nil_append, Context.admitsAll, h.admits, ih, Bool.and_self]
      · obtain ⟨language, inner, outer⟩ := context
        subst hphase
        rw [hinserted, admitsAll_attributes _ hnamed ha (h.attributeNames e.index),
          admitsAll_tagEnd hl]
        exact ih

end Acceptance

end Source

end MarkupLabels
