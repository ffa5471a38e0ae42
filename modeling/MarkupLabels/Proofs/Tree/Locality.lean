import Mathlib
import MarkupLabels.Proofs.Tree.Markers

namespace MarkupLabels

def Vocabulary.unmarked (v : Vocabulary) (attributes : List Attribute) : List Attribute :=
  attributes.filter fun a => !v.isMarker a.name

namespace Context

variable {p p' : Provenance} {v : Vocabulary} {es fs : List Element}

def seen (p : Provenance) (v : Vocabulary) (e : Element) : Option (String × List Attribute) :=
  (p.resolve (e.name.getD "")).map fun exported => (exported, v.unmarked e.attributes)

def givenBySight (sight : String × List Attribute) : Option (Option String) :=
  let props := Props.ofAttributes sight.2
  if Label.purpose (Component.family sight.1) props ∈ givingPurposes then
    some (Label.context (Component.hasTrait sight.1) props none)
  else none

lemma given_eq (e : Element) : given p v e = (seen p v e).bind givenBySight := by
  rw [given, seen]
  cases p.resolve (e.name.getD "") <;> rfl

lemma searchNear_of_seen (h : (es.take 10).map (seen p v) = (fs.take 10).map (seen p' v)) :
    searchNear p v es = searchNear p' v fs := by
  have hgiven : ∀ (p : Provenance) (es : List Element),
      es.map (given p v) = (es.map (seen p v)).map (Option.bind · givenBySight) := by
    intro p es
    rw [List.map_map]
    exact List.map_congr_left fun e _ => given_eq e
  refine search_congr ?_
  rw [hgiven, hgiven p', maxDepth, h]

end Context

namespace Labeller

variable {l : Labeller} {f f' : Forest} {i i' : Nat} {e e' : Element} {p p' : Provenance}
  {r : Rules} {v : Vocabulary}

lemma due_of_not_usable (h : ¬ l.rules.Usable) (f : Forest) (i : Nat) : l.due f i = [] := by
  by_contra hdue
  obtain ⟨_, _, -, hskips, -⟩ := knows_of_due hdue
  exact h (Rules.usable_of_kept hskips)

lemma visitAll_of_not_usable (h : ¬ l.rules.Usable) (f : Forest) (ids : List Nat) :
    (l.visitAll f ids).forest = f := by
  induction ids with
  | nil => rfl
  | cons i ids ih =>
    have hdue := due_of_not_usable h f i
    cases ho : l.outcomeAt f i with
    | error fault => rw [visitAll_error ho]
    | ok o =>
      have hnone : o.added = [] := by simpa [due, ho] using hdue
      rw [visitAll_ok ho, hnone, Forest.modifyAttributes_nil, ih]

lemma visitAll_forest (l : Labeller) (f : Forest) (ids : List Nat) :
    (l.visitAll f ids).forest = f.extend fun j => if j ∈ ids then l.due f j else [] := by
  -- Rules that fault on some name keep no name at all: then every visit faults or skips the element.
  by_cases h : l.rules.Usable
  · simpa [Forest.extend_nil] using (visitAll_extend (fun _ => []) h f ids fun _ => .inl rfl).1
  · rw [visitAll_of_not_usable h]
    simp [due_of_not_usable h, Forest.extend_nil]

lemma outcome_local (hname : e.name = e'.name)
    (hresolve : p.resolve (e.name.getD "") = p'.resolve (e'.name.getD ""))
    (hattributes : e.attributes = e'.attributes) {es fs : List Element}
    (hsearch : Context.searchNear p v es = Context.searchNear p' v fs) :
    (⟨p, r, v⟩ : Labeller).outcome e es = (⟨p', r, v⟩ : Labeller).outcome e' fs := by
  rw [← hname] at hresolve
  rcases unnamed_or_foreign_or_knows ⟨p, r, v⟩ e with
    h | ⟨name, hn, hidentifier, hnone⟩ | ⟨name, exported, h⟩
  · rw [outcome_of_unnamed h, outcome_of_unnamed (hname ▸ h)]
  · have hsame : p.resolve name = p'.resolve name := by simpa [hn] using hresolve
    rw [outcome_of_foreign hn hidentifier hnone,
      outcome_of_foreign (hname ▸ hn) hidentifier (hsame ▸ hnone)]
  · have hsame : p.resolve name = p'.resolve name := by simpa [h.name_eq] using hresolve
    have h' : (⟨p', r, v⟩ : Labeller).Knows e' name exported :=
      ⟨hname ▸ h.name_eq, h.isIdentifier, hsame ▸ h.resolve_eq⟩
    have hmarker : (⟨p, r, v⟩ : Labeller).hasMarker = (⟨p', r, v⟩ : Labeller).hasMarker := rfl
    rw [outcome_of_knows h, outcome_of_knows h']
    simp only [Context.inherited, hsearch, hattributes, hmarker]

/-- Labelling puts some attributes behind those of an element, from whichever element around it the
labelling starts. -/
def Appends (l : Labeller) (f : Forest) (i : Nat) (added : List Attribute) : Prop :=
  ∃ e, f.get? i = some e ∧
    (∀ s, f.Under s i →
      (l.label f s).forest.get? i = some { e with attributes := e.attributes ++ added }) ∧
    (l.labelAll f).forest.get? i = some { e with attributes := e.attributes ++ added }

lemma appends_due (l : Labeller) (he : f.get? i = some e) : l.Appends f i (l.due f i) := by
  have hvisit : ∀ ids, i ∈ ids → (l.visitAll f ids).forest.get? i =
      some { e with attributes := e.attributes ++ l.due f i } := by
    intro ids hi
    rw [Forest.get?] at he
    rw [visitAll_forest, Forest.get?, Forest.extend_getElem?, he]
    simp [hi]
  exact ⟨e, he, fun s hs => hvisit _ (Forest.mem_walk.mpr hs),
    hvisit _ (Forest.mem_walk_roots (List.getElem?_eq_some_iff.mp he).1)⟩

/-- Two elements without labels get the same ones if their tags say the same and the library knows
them, and the nearest ten elements around them, by the same names. -/
theorem appends_local (he : f.get? i = some e) (he' : f'.get? i' = some e')
    (hname : e.name = e'.name)
    (hresolve : p.resolve (e.name.getD "") = p'.resolve (e'.name.getD ""))
    (hattributes : v.unmarked e.attributes = v.unmarked e'.attributes)
    (hfree : ∀ a ∈ e.attributes, v.isMarker a.name = false)
    (hfree' : ∀ a ∈ e'.attributes, v.isMarker a.name = false)
    (haround : ((around f i).take 10).map (Context.seen p v) =
      ((around f' i').take 10).map (Context.seen p' v)) :
    ∃ added, (⟨p, r, v⟩ : Labeller).Appends f i added ∧
      (⟨p', r, v⟩ : Labeller).Appends f' i' added := by
  -- Neither tag has labels, so what is unmarked is all there is.
  have hunmarked : ∀ {attributes : List Attribute}, (∀ a ∈ attributes, v.isMarker a.name = false) →
      v.unmarked attributes = attributes := fun h =>
    List.filter_eq_self.mpr fun a ha => by simp [h a ha]
  rw [hunmarked hfree, hunmarked hfree'] at hattributes
  have houtcome : (⟨p, r, v⟩ : Labeller).outcomeAt f i = (⟨p', r, v⟩ : Labeller).outcomeAt f' i' := by
    rw [outcomeAt, outcomeAt, visited_of_get? he, visited_of_get? he']
    exact outcome_local hname hresolve hattributes (Context.searchNear_of_seen haround)
  refine ⟨(⟨p, r, v⟩ : Labeller).due f i, appends_due _ he, ?_⟩
  rw [due, houtcome, ← due]
  exact appends_due _ he'

theorem appends_local_button :
    let p : Provenance := ⟨[⟨"@patternfly/react-core", .named, some "Button", some "Button"⟩,
      ⟨"@patternfly/react-core", .named, some "Form", some "Form"⟩], []⟩
    let f : Forest := ((Forest.empty.add ⟨"Form", none, []⟩).add ⟨"div", some 0, []⟩).add
      ⟨"Button", some 1, []⟩
    let f' : Forest := ((((Forest.empty.add
      ⟨"Form", none, [⟨"data-context", some (.text "modal")⟩]⟩).add
      ⟨"section", some 0, [⟨"className", some (.text "narrow")⟩]⟩).add ⟨"Card", some 1, []⟩).add
      ⟨"Button", some 1, []⟩).add ⟨"Icon", some 3, []⟩
    let l : Labeller := ⟨p, .standard, .standard⟩
    f.get? 2 = some ⟨"Button", some 1, []⟩ ∧ f'.get? 3 = some ⟨"Button", some 1, []⟩ ∧
      ((around f 2).take 10).map (Context.seen p .standard) =
        ((around f' 3).take 10).map (Context.seen p .standard) ∧
      ∃ added, l.Appends f 2 added ∧ l.Appends f' 3 added := by
  intro p f f' l
  have he : f.get? 2 = some ⟨"Button", some 1, []⟩ := by decide
  have he' : f'.get? 3 = some ⟨"Button", some 1, []⟩ := by decide
  have haround : ((around f 2).take 10).map (Context.seen p .standard) =
      ((around f' 3).take 10).map (Context.seen p .standard) := by decide +kernel
  exact ⟨he, he', haround, appends_local he he' rfl rfl rfl (by simp) (by simp) haround⟩

end Labeller

end MarkupLabels
