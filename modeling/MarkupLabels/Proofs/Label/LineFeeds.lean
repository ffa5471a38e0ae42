import Mathlib
import MarkupLabels.Proofs.Component.Lookup
import MarkupLabels.Proofs.Text.Alphabet
import MarkupLabels.Label.Labels

namespace MarkupLabels

def Attribute.Over (alphabet : Set Char) (a : Attribute) : Prop :=
  ∀ s, a.value = some (.text s) → TextOver alphabet s

def Props.Over (alphabet : Set Char) (p : Props) : Prop :=
  ∀ name, ∀ s ∈ p.text? name, TextOver alphabet s

variable {A : Set Char} {attributes : List Attribute}

lemma Props.ofAttributes_over (h : ∀ a ∈ attributes, a.Over A) : (Props.ofAttributes attributes).Over A := by
  intro name s hs
  unfold text? literal at hs
  rw [get?_ofAttributes] at hs
  cases hfind : attributes.reverse.find? (·.name == name) with
  | none => simp [hfind] at hs
  | some a =>
    have ha : a ∈ attributes := List.mem_reverse.mp (List.mem_of_find?_eq_some hfind)
    refine h a ha s ?_
    rw [hfind] at hs
    rcases hvalue : a.value with _ | (_ | _ | _ | _ | _) <;>
      simp [hvalue, AttributeValue.text?] at hs
    rw [hs]

lemma Props.ofUnlabelled_over {v : Vocabulary} (h : ∀ a ∈ attributes, a.Over A) :
    (Props.ofUnlabelled v attributes).Over A :=
  ofAttributes_over fun a ha => h a (List.mem_of_mem_filter ha)

lemma Component.role_over {name : String} (h : TextOver noReturns name) :
    TextOver noReturns (Component.role name) := by
  have hcatalog : ∀ entry ∈ roleCatalog, TextOver noReturns entry.2 := by decide
  unfold role
  cases hlookup : roleCatalog.lookup (Text.lowercase name) with
  | none => exact Text.lowercase_over h
  | some role =>
    obtain ⟨before, after, hrole, -⟩ := List.lookup_eq_some_iff.mp hlookup
    exact hcatalog (Text.lowercase name, role) (by simp [hrole])

namespace Label

variable {p : Props} {f : Family} {parts : List String} {traits : Trait → Bool}
  {inherited : Option String}

lemma purpose_over : TextOver noReturns (purpose f p) := by
  unfold purpose cardPurpose familyPurpose
  simp only
  repeat' split
  all_goals decide

lemma suggestedContext_over : ∀ s ∈ suggestedContext traits p, TextOver noReturns s := by
  unfold suggestedContext
  repeat' split
  all_goals decide

lemma context_over (hp : p.Over noReturns) (hinherited : ∀ s ∈ inherited, TextOver noReturns s) :
    ∀ s ∈ context traits p inherited, TextOver noReturns s := by
  unfold context
  split
  · next explicit htext => simpa using hp _ explicit htext
  · split
    · split
      · exact suggestedContext_over
      · exact hinherited
    · exact suggestedContext_over

lemma buttonAction_over (type : String) : ∀ s ∈ buttonAction type, TextOver noReturns s := by
  unfold buttonAction
  split <;> decide

lemma actionType_over : ∀ s ∈ actionType f p, TextOver noReturns s := by
  unfold actionType
  repeat' split
  all_goals first | decide | skip
  intro s hs
  obtain ⟨type, -, hs⟩ := Option.bind_eq_some_iff.mp hs
  exact buttonAction_over type s hs

lemma direction_over {d : Direction} (hd : d ∈ directions) : ∀ s ∈ d.state p, TextOver noReturns s := by
  have hall : ∀ d ∈ directions, TextOver noReturns d.on ∧ TextOver noReturns d.off := by decide
  unfold Direction.state
  split
  · rintro s ⟨⟩
    split
    · exact (hall d hd).2
    · exact (hall d hd).1
  · simp

lemma state_over : ∀ s ∈ state f p, TextOver noReturns s := by
  unfold state
  split; · decide
  split; · decide
  split; · decide
  split
  · next s hfind =>
    obtain ⟨d, hd, hs⟩ := List.exists_of_findSome?_eq_some hfind
    rintro t ⟨⟩
    exact direction_over hd s hs
  · repeat' split
    all_goals decide

lemma wordOf_over (hp : p.Over noReturns) (name : String) :
    ∀ s ∈ wordOf p name, TextOver noReturns s := by
  unfold wordOf
  split
  · next t ht =>
    split
    · simp
    · simpa using hp name t ht
  · simp

lemma wordIf_over {condition : Bool} {word : String} (h : TextOver noReturns word) :
    ∀ s ∈ wordIf condition word, TextOver noReturns s := by
  unfold wordIf
  split
  · simpa using h
  · simp

lemma mem_intercalate {c : Char} {separator : List Char} {pieces : List (List Char)}
    (h : c ∈ separator.intercalate pieces) : c ∈ separator ∨ ∃ piece ∈ pieces, c ∈ piece := by
  induction pieces with
  | nil => simp at h
  | cons piece pieces ih =>
    by_cases hnil : pieces = []
    · exact .inr ⟨piece, by simp, by simpa [hnil] using h⟩
    rw [List.intercalate_cons_of_ne_nil hnil, List.mem_append, List.mem_append] at h
    rcases h with (h | h) | h
    · exact .inr ⟨piece, by simp, h⟩
    · exact .inl h
    · exact (ih h).imp_right fun ⟨piece, hpiece, hc⟩ => ⟨piece, by simp [hpiece], hc⟩

lemma compound_over (h : ∀ s ∈ parts, TextOver noReturns s) :
    ∀ s ∈ compound parts, TextOver noReturns s := by
  unfold compound
  split
  · simp
  · simp only [Option.mem_def, Option.some.injEq, forall_eq']
    intro c hc
    rw [String.toList_intercalate] at hc
    rcases mem_intercalate hc with hc | ⟨piece, hpiece, hc⟩
    · obtain rfl : c = '-' := by simpa using hc
      simp [noReturns]
    · obtain ⟨s, hs, rfl⟩ := List.mem_map.mp hpiece
      exact h s hs c hc

lemma accordionParts_over (hp : p.Over noReturns) : ∀ s ∈ accordionParts p, TextOver noReturns s := by
  unfold accordionParts
  simp only [List.forall_mem_append]
  refine ⟨⟨⟨?_, wordIf_over (by decide)⟩, wordOf_over hp _⟩, wordIf_over (by decide)⟩
  split <;> decide

lemma alertParts_over (hp : p.Over noReturns) : ∀ s ∈ alertParts p, TextOver noReturns s := by
  unfold alertParts
  simp only [List.forall_mem_append]
  refine ⟨⟨⟨?_, wordIf_over (by decide)⟩, wordIf_over (by decide)⟩,
    wordIf_over (by decide)⟩
  split
  · decide
  · exact wordOf_over hp _

lemma labelParts_over (hp : p.Over noReturns) : ∀ s ∈ labelParts p, TextOver noReturns s := by
  unfold labelParts
  simp only [List.forall_mem_append]
  exact ⟨⟨wordOf_over hp _, wordOf_over hp _⟩, wordIf_over (by decide)⟩

lemma linkVariant_over : TextOver noReturns (linkVariant p) := by
  unfold linkVariant
  repeat' split
  all_goals decide

lemma impliedVariant_over (hp : p.Over noReturns) : ∀ s ∈ impliedVariant f p, TextOver noReturns s := by
  unfold impliedVariant
  split; · decide
  split; · decide
  split
  · next inputType htype =>
    split at htype
    · simpa using hp _ inputType htype
    · simp at htype
  · split
    · rintro s ⟨⟩
      split <;> decide
    · split <;> decide

lemma variant_over (hp : p.Over noReturns) : ∀ s ∈ variant f p, TextOver noReturns s := by
  unfold variant
  split
  · exact compound_over (accordionParts_over hp)
  · exact compound_over (alertParts_over hp)
  · exact compound_over (labelParts_over hp)
  · split
    · next explicit htext =>
      split
      · rintro s ⟨⟩
        exact linkVariant_over
      · simpa using hp _ explicit htext
    · exact impliedVariant_over hp

lemma namedSize_over : ∀ s ∈ namedSize f p, TextOver noReturns s := by
  have havatar : ∀ size, ∀ s ∈ avatarSize size, TextOver noReturns s := by
    intro size
    unfold avatarSize
    split <;> decide
  have haccordion : ∀ size, ∀ s ∈ accordionSize size, TextOver noReturns s := by
    intro size
    unfold accordionSize
    split <;> decide
  unfold namedSize
  split
  · intro s hs
    obtain ⟨size, -, hs⟩ := Option.bind_eq_some_iff.mp hs
    exact havatar size s hs
  · intro s hs
    obtain ⟨size, -, hs⟩ := Option.bind_eq_some_iff.mp hs
    exact haccordion size s hs
  · simp

lemma size_over (hp : p.Over noReturns) : ∀ s ∈ size f p, TextOver noReturns s := by
  unfold size
  intro s hs
  rcases Option.or_eq_some_iff.mp hs with hs | ⟨-, hs⟩
  · exact namedSize_over s hs
  rcases Option.or_eq_some_iff.mp hs with hs | ⟨-, hs⟩
  · exact hp _ s hs
  rcases Option.or_eq_some_iff.mp hs with hs | ⟨-, hs⟩
  · exact hp _ s hs
  clear * - hs
  revert s
  repeat' split
  all_goals decide

end Label

def Attribute.HasText (alphabet : Set Char) (a : Attribute) : Prop :=
  ∃ s, a.value = some (.text s) ∧ TextOver alphabet s

lemma Labels.infer_over {name : String} {p : Props} {inherited : Option String} (v : Vocabulary)
    (hname : TextOver noReturns name) (hp : p.Over noReturns)
    (hinherited : ∀ s ∈ inherited, TextOver noReturns s) :
    ∀ a ∈ (Labels.infer name p inherited).attributes v, a.HasText noReturns := by
  have hvalues : ∀ value ∈ (Labels.infer name p inherited).values, ∀ s ∈ value, TextOver noReturns s := by
    unfold infer values
    simp only [List.forall_mem_cons, Option.mem_def, Option.some.injEq, forall_eq']
    exact ⟨Component.role_over hname, Label.purpose_over, Label.variant_over hp,
      Label.context_over hp hinherited, Label.state_over, Label.actionType_over,
      Label.size_over hp, by simp⟩
  intro a ha
  obtain ⟨⟨attributeName, value⟩, hnamed, rfl⟩ := List.mem_map.mp ha
  obtain ⟨⟨_, found⟩, hzip, hmap⟩ := List.mem_filterMap.mp hnamed
  obtain ⟨written, hfound, heq⟩ := Option.map_eq_some_iff.mp hmap
  obtain ⟨-, rfl⟩ := Prod.mk.inj heq
  exact ⟨written, rfl, hvalues found (List.of_mem_zip hzip).2 written hfound⟩

end MarkupLabels
