import Mathlib
import MarkupLabels.Label.Labels
import MarkupLabels.Proofs.Component.Lookup

namespace MarkupLabels

namespace Label

def presenceNames : List String := [
  "href", "form", "toolbar", "navigation", "variant",
  "onClick", "onSubmit", "onChange", "actionLinks", "actionClose",
  "isSelectable", "isSelectableRaised", "isClickable",
  "isDanger", "danger", "isWarning", "warning", "isInline", "inline",
  "isDisabled", "disabled", "isAriaDisabled", "isReadOnly", "readOnly", "isSelected", "selected",
  "isExpanded", "expanded", "isOpen", "open", "isChecked", "checked",
  "isRead", "read", "isUnread", "unread", "isAttention", "attention", "needsAttention",
  "isSingleExpand", "singleExpand", "isBordered", "asDefinitionList",
  "isPlain", "isExpandable", "isEditable", "isCompact", "compact", "isLarge", "large"]

def textNames : List String :=
  ["variant", "type", "color", "headingLevel", "context", "size", "displaySize"]

def polarityNames : List String := [
  "isSingleExpand", "singleExpand", "isExpanded", "expanded", "isOpen", "open", "isChecked",
  "checked"]

end Label

namespace Props

open Label

/-- Props that no label tells apart. -/
structure Alike (p q : Props) : Prop where
  has : ∀ n ∈ presenceNames, p.has [n] = q.has [n]
  text : ∀ n ∈ textNames, p.text? n = q.text? n
  isFalse : ∀ n ∈ polarityNames, p.isFalse n = q.isFalse n

variable {p q : Props} {names : List String}

lemma any_congr_of_mem {g g' : String → Bool} (h : ∀ n ∈ names, g n = g' n) :
    names.any g = names.any g' := by
  simpa only [List.any_map, Function.comp_def, id] using
    congrArg (List.any · id) (List.map_congr_left h)

lemma Alike.has_names (h : p.Alike q) (hnames : ∀ n ∈ names, n ∈ presenceNames) :
    p.has names = q.has names := by
  refine any_congr_of_mem fun n hn => ?_
  simpa [Props.has] using h.has n (hnames n hn)

end Props

namespace Label

variable {p q : Props} {f : Family}

lemma purpose_congr (h : p.Alike q) : purpose f p = purpose f q := by
  -- Each question is about names of the lists, which `decide` confirms.
  simp (disch := decide) only [purpose, cardPurpose, h.has_names]

lemma context_congr (h : p.Alike q) (traits : Trait → Bool) (inherited : Option String) :
    context traits p inherited = context traits q inherited := by
  simp (disch := decide) only [context, suggestedContext, h.has_names, h.text]

lemma actionType_congr (h : p.Alike q) : actionType f p = actionType f q := by
  simp (disch := decide) only [actionType, h.has_names, h.text]

lemma direction_congr (h : p.Alike q) {d : Direction} (hd : d ∈ directions) :
    d.state p = d.state q := by
  have hnames : ∀ d ∈ directions,
      (∀ n ∈ d.names, n ∈ presenceNames) ∧ ∀ n ∈ d.names, n ∈ polarityNames := by decide
  obtain ⟨hpresence, hpolarity⟩ := hnames d hd
  have hfalse : d.names.any p.isFalse = d.names.any q.isFalse :=
    Props.any_congr_of_mem fun n hn => h.isFalse n (hpolarity n hn)
  rw [Direction.state, Direction.state, h.has_names hpresence, hfalse]

lemma state_congr (h : p.Alike q) : state f p = state f q := by
  have hstates : directions.map (·.state p) = directions.map (·.state q) :=
    List.map_congr_left fun d hd => direction_congr h hd
  have hdirections : directions.findSome? (·.state p) = directions.findSome? (·.state q) := by
    simpa only [List.findSome?_map, Function.comp_def, id] using
      congrArg (List.findSome? id) hstates
  simp (disch := decide) only [state, hdirections, h.has_names]

lemma wordOf_congr (h : p.Alike q) {n : String} (hn : n ∈ textNames) : wordOf p n = wordOf q n := by
  rw [wordOf, wordOf, h.text n hn]

lemma expandsSingly_congr (h : p.Alike q) : expandsSingly p = expandsSingly q := by
  simp (disch := decide) only [expandsSingly, h.has_names, h.isFalse]

lemma impliedVariant_congr (h : p.Alike q) : impliedVariant f p = impliedVariant f q := by
  simp (disch := decide) only [impliedVariant, h.has_names, h.text]

lemma linkVariant_congr (h : p.Alike q) : linkVariant p = linkVariant q := by
  simp (disch := decide) only [linkVariant, h.has_names]

lemma compoundParts_congr (h : p.Alike q) :
    accordionParts p = accordionParts q ∧ alertParts p = alertParts q ∧
      labelParts p = labelParts q := by
  simp (disch := decide) only [accordionParts, alertParts, labelParts, expandsSingly_congr h,
    h.has_names, wordOf_congr h, and_self]

lemma variant_congr (h : p.Alike q) : variant f p = variant f q := by
  obtain ⟨haccordion, halert, hlabel⟩ := compoundParts_congr h
  unfold variant
  rw [haccordion, halert, hlabel, h.text "variant" (by decide), linkVariant_congr h,
    impliedVariant_congr h]

lemma namedSize_congr (h : p.Alike q) : namedSize f p = namedSize f q := by
  unfold namedSize
  rw [h.text "size" (by decide), h.text "displaySize" (by decide)]

lemma size_congr (h : p.Alike q) : size f p = size f q := by
  simp (disch := decide) only [size, namedSize_congr h, h.has_names, h.text]

end Label

namespace Props

open Label

variable {p q : Props} {n : String} {v w : Option AttributeValue}

lemma Alike.of_get? (h : ∀ n, n ∈ presenceNames ∨ n ∈ textNames ∨ n ∈ polarityNames →
    p.get? n = q.get? n) : p.Alike q where
  has n hn := by simp [Props.has, h n (.inl hn)]
  text n hn := by simp [text?, literal, h n (.inr (.inl hn))]
  isFalse n hn := by simp [Props.isFalse, h n (.inr (.inr hn))]

lemma alike_insert (hv : v.bind AttributeValue.text? = none) (hw : w.bind AttributeValue.text? = none)
    (hfalse : n ∈ polarityNames → (v = some (.flag false) ↔ w = some (.flag false))) :
    (p.insert n v).Alike (p.insert n w) where
  has m _ := by
    simp only [Props.has, List.any_cons, get?_insert]
    split <;> rfl
  text m _ := by
    rw [text?_insert, text?_insert, hv, hw]
  isFalse m hm := by
    rw [isFalse_insert, isFalse_insert]
    split
    · next h => simp [hfalse (h ▸ hm)]
    · rfl

end Props

namespace Labels

open Label

lemma infer_congr {p q : Props} (h : p.Alike q) (name : String) (inherited : Option String) :
    infer name p inherited = infer name q inherited := by
  simp only [infer, purpose_congr h, variant_congr h, context_congr h, state_congr h,
    actionType_congr h, size_congr h]

/-- Labels depend on nothing but what `Alike` props share. So the order of the props has no influence,
nor have props that no label asks for, nor has the value of a prop that is no string, but for those
that may be false. -/
theorem infer_noninterference (name : String) (inherited : Option String) :
    (∀ p q : Props, p.Alike q → infer name p inherited = infer name q inherited) ∧
    (∀ p q : Props, (p.entries.map Prod.fst).Nodup → p.entries.Perm q.entries →
      infer name p inherited = infer name q inherited) ∧
    (∀ (p : Props) (n : String) (v : Option AttributeValue),
      n ∉ presenceNames → n ∉ textNames → n ∉ polarityNames →
      infer name (p.insert n v) inherited = infer name p inherited) ∧
    (∀ (p : Props) (n : String) (v w : Option AttributeValue),
      v.bind AttributeValue.text? = none → w.bind AttributeValue.text? = none →
      (n ∈ polarityNames → (v = some (.flag false) ↔ w = some (.flag false))) →
      infer name (p.insert n v) inherited = infer name (p.insert n w) inherited) := by
  refine ⟨fun p q h => infer_congr h name inherited, fun p q hnodup hperm => ?_,
    fun p n v hpresence htext hpolarity => ?_, fun p n v w hv hw hfalse => ?_⟩
  · exact infer_congr (.of_get? fun n _ => Props.lookup_perm hperm hnodup) name inherited
  · refine infer_congr (.of_get? fun m hm => ?_) name inherited
    have hne : m ≠ n := by
      rintro rfl
      tauto
    rw [Props.get?_insert, if_neg hne]
  · exact infer_congr (Props.alike_insert hv hw hfalse) name inherited

theorem infer_noninterference_card :
    let p : Props := ⟨[("isExpanded", some (.flag false)), ("onClick", some .unresolved),
      ("variant", some (.text "plain"))]⟩
    let q : Props := ⟨[("variant", some (.text "plain")), ("ouiaId", some (.integer 7)),
      ("onClick", some (.integer 1)), ("isExpanded", some (.flag false))]⟩
    p.Alike q ∧ infer "Card" p none = infer "Card" q none := by
  intro p q
  have h : p.Alike q := ⟨by decide, by decide, by decide⟩
  exact ⟨h, (infer_noninterference "Card" none).1 p q h⟩

end Labels

end MarkupLabels
