import Mathlib
import MarkupLabels.Proofs.Source.OpenTags
import MarkupLabels.Proofs.Label.LineFeeds

namespace MarkupLabels

variable {A : Set Char}

structure Element.Over (alphabet : Set Char) (e : Element) : Prop where
  name : ∀ n ∈ e.name, TextOver alphabet n
  attributes : ∀ a ∈ e.attributes, a.Over alphabet

namespace Source

variable {l : Lexeme} {ls : List Lexeme} {language : Language} {source : List Char}

def Lexeme.Over (alphabet : Set Char) (l : Lexeme) : Prop := ∀ c ∈ l.text, c ∈ alphabet

lemma Lexeme.Over.unquoted (h : l.Over A) : TextOver A l.unquoted := by
  apply over_ofList.mpr
  intro c hc
  exact h c (List.mem_of_mem_drop (List.dropLast_subset _ hc))

lemma over_of_mem_lexemes (hsource : ∀ c ∈ source, c ∈ A) (hl : l ∈ lexemes language source) :
    l.Over A := by
  intro c hc
  apply hsource
  rw [← texts_lexemes language source]
  exact List.mem_flatMap.mpr ⟨l, hl, hc⟩

section Tags

lemma numberValue_ne_text (cs : List Char) (s : String) : numberValue cs ≠ .text s := by
  unfold numberValue
  repeat' split
  all_goals simp

lemma Lexeme.Over.of_literalValue (h : l.Over A) {s : String} (hs : literalValue l = .text s) :
    TextOver A s := by
  unfold literalValue at hs
  split at hs
  · exact AttributeValue.text.inj hs ▸ h.unquoted
  · exact AttributeValue.text.inj hs ▸ h.unquoted
  · exact absurd hs (numberValue_ne_text _ _)
  · split at hs
    · simp at hs
    · split at hs <;> simp at hs
  · simp at hs

structure OpenElement.Over (alphabet : Set Char) (e : OpenElement) : Prop where
  name : ∀ n ∈ e.name, TextOver alphabet n
  attributes : ∀ a ∈ e.attributes, a.Over alphabet
  contents : ∀ commented l, e.slot = .container commented (.single l) → l.Over alphabet

namespace OpenElement.Over

variable {e : OpenElement}

lemma start (i : Nat) : (OpenElement.start i).Over A where
  name := by simp [OpenElement.start]
  attributes := by simp [OpenElement.start]
  contents := by simp [OpenElement.start]

lemma setValue (h : e.Over A) {v : AttributeValue} (hv : ∀ s, v = .text s → TextOver A s) :
    (e.setValue v).Over A where
  name := h.name
  attributes := by
    intro a ha
    rcases List.mem_append.mp ha with ha | ha
    · exact h.attributes a (List.dropLast_subset _ ha)
    · obtain ⟨b, -, rfl⟩ := Option.map_eq_some_iff.mp (Option.mem_toList.mp ha)
      intro s hs
      exact hv s (Option.some.inj hs)
  contents := by simp [OpenElement.setValue]

lemma settle {commented : Bool} {v : AttributeValue} (hv : ∀ s, v = .text s → TextOver A s)
    (s : String) (hs : OpenElement.settle commented v = .text s) : TextOver A s := by
  unfold OpenElement.settle at hs
  split at hs
  · simp at hs
  · exact hv s hs

lemma plainName (hl : l.Over A) : ∀ n ∈ OpenElement.plainName l.text, TextOver A n := by
  intro n hn
  unfold OpenElement.plainName at hn
  split at hn
  · simp at hn
  · obtain rfl := Option.some.inj hn
    exact over_ofList.mpr hl

lemma step (h : e.Over A) (column : Nat) (hl : l.Over A) : (e.step column l).Over A := by
  unfold OpenElement.step
  split
  · -- A container is being read: it ends, or holds one lexeme more.
    next commented contents hslot =>
    split
    · apply h.setValue
      apply settle
      intro s hs
      cases contents with
      | single m => exact (h.contents commented m hslot).of_literalValue hs
      | nothing => simp [Contents.value] at hs
      | several => simp [Contents.value] at hs
    · exact h
    · refine ⟨h.name, h.attributes, fun c m hm => ?_⟩
      cases contents <;> simp [Contents.add] at hm
      exact hm.2 ▸ hl
  · split
    · refine ⟨?_, h.attributes, h.contents⟩
      simp only
      split
      · exact plainName hl
      · simp
    · refine ⟨h.name, ?_, by simp⟩
      intro a ha
      rcases List.mem_append.mp ha with ha | ha
      · exact h.attributes a ha
      · obtain rfl := List.mem_singleton.mp ha
        simp [Attribute.Over]
    · split
      · exact ⟨h.name, h.attributes, by simp⟩
      · exact ⟨h.name, h.attributes, by simp⟩
      · exact ⟨h.name, h.attributes, h.contents⟩
    · split
      · exact ⟨h.name, h.attributes, by simp⟩
      · exact h
    · split
      · apply h.setValue
        apply settle
        intro s hs
        exact AttributeValue.text.inj hs ▸ hl.unquoted
      · exact h
    · split
      · exact ⟨h.name, h.attributes, by simp⟩
      · exact h
    · exact ⟨h.name, h.attributes, by simp⟩
    · split
      · exact h.setValue (by simp)
      · exact h
    · exact ⟨h.name, h.attributes, by simp⟩
    · exact h

end OpenElement.Over

namespace Progress

variable {p : Progress}

lemma elements_over_step (hopen : ∀ e ∈ p.openElements, e.Over A)
    (hforest : ∀ e ∈ p.forest.elements, e.Over A) : ∀ e ∈ (p.step l).forest.elements, e.Over A := by
  have hclose : ∀ e ∈ p.closeTag.forest.elements, e.Over A := by
    unfold closeTag
    split
    · exact hforest
    · next o rest ho =>
      intro e he
      obtain ⟨i, hi⟩ := List.mem_iff_getElem?.mp he
      simp only [Forest.describe, List.getElem?_modify] at hi
      obtain ⟨b, hb, rfl⟩ := Option.map_eq_some_iff.mp hi
      have hover := hforest b (List.mem_of_getElem? hb)
      split
      · exact ⟨(hopen o (by simp [ho])).name, (hopen o (by simp [ho])).attributes⟩
      · exact hover
  rw [step_forest]
  split
  · intro e he
    rcases List.mem_append.mp he with he | he
    · exact hforest e he
    · obtain rfl := List.mem_singleton.mp he
      exact ⟨by simp, by simp⟩
  · exact hclose
  · exact hclose
  · exact hforest

lemma elements_over_foldl (hls : ∀ l ∈ ls, l.Over A) (hopen : ∀ e ∈ p.openElements, e.Over A)
    (hforest : ∀ e ∈ p.forest.elements, e.Over A) :
    ∀ e ∈ (ls.foldl step p).forest.elements, e.Over A := by
  induction ls generalizing p with
  | nil => exact hforest
  | cons l ls ih =>
    apply ih (fun m hm => hls m (List.mem_cons_of_mem _ hm))
    · exact step_forall hopen (fun _ column he => he.step column (hls l (by simp)))
        (fun _ _ => .start _) fun _ => .start _
    · exact elements_over_step hopen hforest

end Progress

end Tags

section Imports

structure NotedLexeme.Over (alphabet : Set Char) (n : NotedLexeme) : Prop where
  lexeme : n.lexeme.Over alphabet
  comments : ∀ l ∈ n.comments, l.Over alphabet

variable {n : NotedLexeme} {ns : List NotedLexeme} {r : ImportRecord} {name : String}

lemma NotedLexeme.over_of_mem_ofLexemes {comments : List Lexeme} (hcomments : ∀ l ∈ comments, l.Over A)
    (hls : ∀ l ∈ ls, l.Over A) : ∀ n ∈ ofLexemes comments ls, n.Over A := by
  induction ls generalizing comments with
  | nil => simp [ofLexemes]
  | cons l ls ih =>
    have hl := hls l (by simp)
    have hrest : ∀ m ∈ ls, m.Over A := fun m hm => hls m (List.mem_cons_of_mem _ hm)
    rw [ofLexemes]
    split
    · rintro n (_ | ⟨_, hn⟩)
      · exact ⟨hl, hcomments⟩
      · exact ih (by simp) hrest n hn
    · refine ih ?_ hrest
      split
      · intro m hm
        rcases List.mem_append.mp hm with hm | hm
        · exact hcomments m hm
        · exact List.mem_singleton.mp hm ▸ hl
      · exact hcomments

namespace ImportDeclaration

lemma mem_of_mem_splitBrace (hn : n ∈ (splitBrace ns).1) : n ∈ ns := by
  induction ns with
  | nil => simp [splitBrace] at hn
  | cons m ns ih =>
    rw [splitBrace] at hn
    split at hn
    · simp at hn
    · rcases List.mem_cons.mp hn with rfl | hn
      · exact List.mem_cons_self
      · exact List.mem_cons_of_mem _ (ih hn)

lemma mem_of_mem_splitCommas {specifier : List NotedLexeme} (hs : specifier ∈ splitCommas ns)
    (hn : n ∈ specifier) : n ∈ ns := by
  induction ns generalizing specifier with
  | nil => simp_all [splitCommas]
  | cons m ns ih =>
    rw [splitCommas] at hs
    split at hs
    · obtain rfl := List.mem_singleton.mp hs
      exact List.mem_singleton.mp hn ▸ List.mem_cons_self
    · next first more hsplit =>
      have hfirst : first ∈ splitCommas ns := by simp [hsplit]
      split at hs
      · rcases List.mem_cons.mp hs with rfl | hs
        · simp at hn
        · exact List.mem_cons_of_mem _ (ih (hsplit ▸ hs) hn)
      · rcases List.mem_cons.mp hs with rfl | hs
        · rcases List.mem_cons.mp hn with rfl | hn
          · exact List.mem_cons_self
          · exact List.mem_cons_of_mem _ (ih hfirst hn)
        · exact List.mem_cons_of_mem _ (ih (by simp [hsplit, hs]) hn)

lemma nameOf_over (h : n.Over A) : TextOver A (nameOf n) := by
  unfold nameOf
  split
  · exact h.lexeme.unquoted
  · exact over_ofList.mpr h.lexeme

lemma commentNames_over (h : n.Over A) : ∀ s ∈ commentNames n, TextOver A s := by
  intro s hs
  obtain ⟨c, hc, rfl⟩ := List.mem_map.mp hs
  exact over_ofList.mpr (h.comments c hc)

lemma exportedNames_over (h : n.Over A) : ∀ s ∈ exportedNames language n, TextOver A s := by
  unfold exportedNames
  split
  · simp
  · simpa using nameOf_over h

lemma parts_over (h : ∀ n ∈ ns, n.Over A) : ∀ s ∈ parts language ns, TextOver A s := by
  unfold parts
  split
  · simp_all [nameOf_over]
  · next b =>
    have hb := h b (by simp)
    simp only [List.mem_append, List.mem_singleton]
    rintro s (hs | rfl)
    · exact commentNames_over hb s hs
    · exact nameOf_over hb
  · next a mark c =>
    have hc := h c (by simp)
    simp only [List.mem_append, List.mem_singleton]
    rintro s (((hs | hs) | hs) | rfl)
    · exact exportedNames_over (h a (by simp)) s hs
    · exact commentNames_over (h mark (by simp)) s hs
    · exact commentNames_over hc s hs
    · exact nameOf_over hc
  · next b mark d =>
    have hb := h b (by simp)
    have hd := h d (by simp)
    simp only [List.mem_append, List.mem_singleton]
    rintro s ((((hs | hs) | hs) | hs) | rfl)
    · exact commentNames_over hb s hs
    · exact exportedNames_over hb s hs
    · exact commentNames_over (h mark (by simp)) s hs
    · exact commentNames_over hd s hs
    · exact nameOf_over hd
  · simp

def ExportsOver (alphabet : Set Char) (r : ImportRecord) : Prop :=
  ∀ name ∈ r.importedName, TextOver alphabet name

lemma namedRecords_over {from' : String} (h : ∀ n ∈ ns, n.Over A) :
    ∀ r ∈ namedRecords language from' ns, ExportsOver A r := by
  intro r hr
  obtain ⟨specifier, hspecifier, hnames⟩ := List.mem_filterMap.mp hr
  obtain ⟨⟨exported, bound⟩, hparts, rfl⟩ := Option.map_eq_some_iff.mp hnames
  have hover : ∀ s ∈ parts language specifier, TextOver A s :=
    parts_over fun n hn => h n (mem_of_mem_splitCommas hspecifier hn)
  have hexported : exported ∈ parts language specifier := by
    unfold specifierNames? at hparts
    split at hparts <;> simp_all
  intro name hname
  obtain rfl := Option.some.inj hname
  exact hover _ hexported

lemma bracedOrNamespace_over (h : ∀ n ∈ ns, n.Over A) :
    ∀ r ∈ bracedOrNamespace language ns, ExportsOver A r := by
  unfold bracedOrNamespace
  split
  · simp
  · next l rest =>
    have hinside : ∀ n ∈ (splitBrace rest).1, n.Over A := fun n hn =>
      h n (List.mem_cons_of_mem _ (mem_of_mem_splitBrace hn))
    generalize splitBrace rest = split at hinside
    obtain ⟨inside, behind⟩ := split
    split
    · simp only
      split
      · exact namedRecords_over hinside
      · simp
    · repeat' split
      all_goals simp [ExportsOver]

lemma clause_over (h : ∀ n ∈ ns, n.Over A) : ∀ r ∈ clause language ns, ExportsOver A r := by
  unfold clause
  split
  · simp
  · next l rest =>
    split
    · split
      · simp
      · next next' more =>
        have hmore : ∀ r ∈ bracedOrNamespace language more, ExportsOver A r :=
          bracedOrNamespace_over fun n hn =>
            h n (List.mem_cons_of_mem _ (List.mem_cons_of_mem _ hn))
        by_cases hcomma : isPunctuationText next' [',']
        · simp only [hcomma, if_true]
          split
          · rintro r (_ | ⟨_, hr⟩)
            · simp [ExportsOver]
            · exact hmore r hr
          · simp
        · simp only [hcomma]
          split
          · simp [ExportsOver]
          · simp
    · exact bracedOrNamespace_over h

lemma records_over (h : ∀ n ∈ ns, n.Over A) : ∀ r ∈ records language ns, ExportsOver A r := by
  unfold records
  split
  · simp
  · split
    · simp [ExportsOver]
    · split
      · exact clause_over fun n hn => h n (List.mem_cons_of_mem _ hn)
      · exact clause_over h

end ImportDeclaration

lemma importRecords_over (h : ∀ n ∈ ns, n.Over A) :
    ∀ r ∈ importRecords language ns, ImportDeclaration.ExportsOver A r := by
  induction ns with
  | nil => simp [importRecords]
  | cons n ns ih =>
    have hrest : ∀ m ∈ ns, m.Over A := fun m hm => h m (List.mem_cons_of_mem _ hm)
    intro r hr
    rw [importRecords] at hr
    rcases List.mem_append.mp hr with hr | hr
    · split at hr
      · exact ImportDeclaration.records_over
          (fun m hm => hrest m (List.takeWhile_subset _ hm)) r hr
      · simp at hr
    · exact ih hrest r hr

end Imports

namespace Document

variable {r : ImportRecord} {e : Element}

lemma element_over (hsource : ∀ c ∈ source, c ∈ A)
    (he : e ∈ (read language source).forest.elements) : e.Over A :=
  Progress.elements_over_foldl (p := .initial) (fun _ hl => over_of_mem_lexemes hsource hl)
    (by simp [Progress.initial]) (by simp [Progress.initial, Forest.empty]) e he

lemma import_over (hsource : ∀ c ∈ source, c ∈ A) (hr : r ∈ (read language source).imports) :
    ImportDeclaration.ExportsOver A r :=
  importRecords_over (NotedLexeme.over_of_mem_ofLexemes (by simp)
    fun _ hl => over_of_mem_lexemes hsource hl) r hr

end Document

end Source

end MarkupLabels
