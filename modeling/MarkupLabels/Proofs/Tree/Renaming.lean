import Mathlib
import MarkupLabels.Proofs.Import.Aliases
import MarkupLabels.Proofs.Tree.Markers
import MarkupLabels.Proofs.Tree.NearestContext

namespace MarkupLabels

variable {ρ : String → String}

def Element.rename (ρ : String → String) (e : Element) : Element := { e with name := e.name.map ρ }

namespace Forest

variable {f : Forest}

def rename (ρ : String → String) (f : Forest) : Forest where
  elements := f.elements.map (Element.rename ρ)
  parent_lt := by
    intro i p h
    apply f.parent_lt i p
    rw [List.getElem?_map] at h
    cases hi : f.elements[i]? <;> simp_all [Element.rename]

def names (f : Forest) : List String := f.elements.filterMap Element.name

@[simp] lemma rename_getElem? (i : Nat) :
    (f.rename ρ).elements[i]? = f.elements[i]?.map (Element.rename ρ) := by
  rw [rename, List.getElem?_map]

lemma rename_attributes (i : Nat) : (f.rename ρ).attributes i = f.attributes i := by
  rw [attributes, rename_getElem?, attributes]
  cases f.elements[i]? <;> rfl

lemma rename_parents : (f.rename ρ).parents = f.parents := by
  rw [parents, rename, List.map_map, parents]
  rfl

lemma rename_modifyAttributes (i : Nat) (g : List Attribute → List Attribute) :
    (f.rename ρ).modifyAttributes i g = (f.modifyAttributes i g).rename ρ := by
  ext1
  apply List.ext_getElem?
  intro j
  rw [rename_getElem?, modifyAttributes, modifyAttributes, List.getElem?_modify, List.getElem?_modify,
    rename_getElem?]
  cases f.elements[j]? with
  | none => simp
  | some e => by_cases hij : i = j <;> simp [hij, Element.rename]

lemma modifyAttributes_names (i : Nat) (g : List Attribute → List Attribute) :
    (f.modifyAttributes i g).names = f.names := by
  change (f.elements.modify i fun e => { e with attributes := g e.attributes }).filterMap Element.name =
    f.elements.filterMap Element.name
  generalize f.elements = es
  induction es generalizing i with
  | nil => rw [List.modify_nil]
  | cons e es ih =>
    cases i with
    | zero => rfl
    | succ i => rw [List.modify_succ_cons, List.filterMap_cons, List.filterMap_cons, ih]

end Forest

def Outcome.rename (ρ : String → String) : Outcome → Outcome
  | .structural name => .structural (ρ name)
  | .existing name => .existing (ρ name)
  | o => o

lemma Outcome.rename_added (o : Outcome) : (o.rename ρ).added = o.added := by
  cases o <;> rfl

lemma Stats.ofOutcomes_rename (os : List Outcome) :
    ofOutcomes (os.map (Outcome.rename ρ)) = ofOutcomes os := by
  have hcount : ∀ o : Outcome, ofOutcome (o.rename ρ) = ofOutcome o := fun o => by cases o <;> rfl
  rw [ofOutcomes, List.foldl_map, ofOutcomes]
  simp only [hcount]

section

variable {p p' : Provenance} {r : Rules} {v : Vocabulary} {e : Element} {f : Forest} {es : List Element}
  {visit visit' : Labeller.Visit}

lemma Context.given_rename (h : ∀ name ∈ e.name, p.Keeps ρ p' name) :
    given p' v (e.rename ρ) = given p v e := by
  have hresolve : (e.rename ρ).name.bind p'.resolve = e.name.bind p.resolve := by
    rw [Element.rename]
    cases hname : e.name with
    | none => rfl
    | some name => exact (h name hname).resolve_eq
  rw [given, given, resolve_name, resolve_name, hresolve]
  rfl

lemma Context.searchNear_rename (h : ∀ e ∈ es, ∀ name ∈ e.name, p.Keeps ρ p' name) :
    searchNear p' v (es.map (Element.rename ρ)) = searchNear p v es := by
  rw [searchNear, searchNear, ← List.map_take]
  apply search_congr
  rw [List.map_map]
  apply List.map_congr_left
  intro e he
  exact given_rename (h e (List.mem_of_mem_take he))

namespace Labeller

lemma outcome_rename (he : ∀ name ∈ e.name, p.Keeps ρ p' name)
    (hes : ∀ e ∈ es, ∀ name ∈ e.name, p.Keeps ρ p' name) :
    outcome ⟨p', r, v⟩ (e.rename ρ) (es.map (Element.rename ρ)) =
      (outcome ⟨p, r, v⟩ e es).map (Outcome.rename ρ) := by
  have hname : ∀ {name}, e.name = some name → (e.rename ρ).name = some (ρ name) := fun h => by
    rw [Element.rename, h, Option.map_some]
  rcases unnamed_or_foreign_or_knows ⟨p, r, v⟩ e with
    h | ⟨name, hn, hidentifier, hnone⟩ | ⟨name, exported, h⟩
  · have h' : ∀ name, (e.rename ρ).name = some name → Text.isIdentifier name = false := by
      intro name hrenamed
      obtain ⟨old, hold, rfl⟩ := Option.map_eq_some_iff.mp hrenamed
      rw [(he old hold).isIdentifier_eq, h old hold]
    rw [outcome_of_unnamed h, outcome_of_unnamed h']
    rfl
  · have hkeeps := he name hn
    rw [outcome_of_foreign hn hidentifier hnone, outcome_of_foreign (hname hn)
      (hkeeps.isIdentifier_eq ▸ hidentifier) (hkeeps.resolve_eq.trans hnone)]
    rfl
  · have hkeeps := he name h.name_eq
    have h' : (⟨p', r, v⟩ : Labeller).Knows (e.rename ρ) (ρ name) exported :=
      ⟨hname h.name_eq, hkeeps.isIdentifier_eq ▸ h.isIdentifier, hkeeps.resolve_eq.trans h.resolve_eq⟩
    rw [outcome_of_knows h, outcome_of_knows h', Context.inherited, Context.searchNear_rename hes]
    dsimp only
    cases r.skips exported with
    | error fault => rfl
    | ok skip =>
      simp only [Except.map, apply_ite (Outcome.rename ρ)]
      rfl

lemma around_rename (i : Nat) : around (f.rename ρ) i = (around f i).map (Element.rename ρ) := by
  rw [around, Forest.ancestors_congr Forest.rename_parents, around, List.map_filterMap]
  apply List.filterMap_congr
  intro j _
  rw [Forest.get?, Forest.rename_getElem?, Forest.get?]

structure Visit.Renamed (ρ : String → String) (visit visit' : Visit) : Prop where
  forest_eq : visit'.forest = visit.forest.rename ρ
  outcomes_eq : visit'.outcomes = visit.outcomes.map (Outcome.rename ρ)
  fault_eq : visit'.fault = visit.fault

lemma visitAll_rename (h : ∀ name ∈ f.names, p.Keeps ρ p' name) (ids : List Nat) :
    Visit.Renamed ρ (visitAll ⟨p, r, v⟩ f ids) (visitAll ⟨p', r, v⟩ (f.rename ρ) ids) := by
  induction ids generalizing f with
  | nil => exact ⟨rfl, rfl, rfl⟩
  | cons i ids ih =>
    have hnames : ∀ {j : Nat} {e : Element}, f.elements[j]? = some e → ∀ name ∈ e.name,
        p.Keeps ρ p' name :=
      fun he name hname => h name (List.mem_filterMap.mpr ⟨_, List.mem_of_getElem? he, hname⟩)
    have haround : ∀ e ∈ around f i, ∀ name ∈ e.name, p.Keeps ρ p' name := by
      intro e he
      obtain ⟨j, -, hj⟩ := List.mem_filterMap.mp he
      exact hnames hj
    have houtcome : outcomeAt ⟨p', r, v⟩ (f.rename ρ) i =
        (outcomeAt ⟨p, r, v⟩ f i).map (Outcome.rename ρ) := by
      rw [outcomeAt, outcomeAt, around_rename, visited, visited, Forest.rename_getElem?]
      cases he : f.elements[i]? with
      | none => exact outcome_rename (e := default) (by rintro _ ⟨⟩) haround
      | some e => exact outcome_rename (hnames he) haround
    cases ho : outcomeAt ⟨p, r, v⟩ f i with
    | error fault =>
      rw [ho] at houtcome
      rw [visitAll_error ho, visitAll_error houtcome]
      exact ⟨rfl, rfl, rfl⟩
    | ok o =>
      rw [ho] at houtcome
      rw [visitAll_ok ho, visitAll_ok houtcome, Outcome.rename_added, Forest.rename_modifyAttributes]
      have hlater := ih (f := f.modifyAttributes i (· ++ o.added)) (by rwa [Forest.modifyAttributes_names])
      exact ⟨hlater.forest_eq, by rw [hlater.outcomes_eq, List.map_cons], hlater.fault_eq⟩

structure Visit.SameLabels (visit visit' : Visit) : Prop where
  attributes_eq : ∀ i, visit'.forest.attributes i = visit.forest.attributes i
  stats_eq : Stats.ofOutcomes visit'.outcomes = Stats.ofOutcomes visit.outcomes
  fault_eq : visit'.fault = visit.fault

lemma Visit.Renamed.sameLabels (h : Renamed ρ visit visit') : SameLabels visit visit' where
  attributes_eq i := by rw [h.forest_eq, Forest.rename_attributes]
  stats_eq := by rw [h.outcomes_eq, Stats.ofOutcomes_rename]
  fault_eq := h.fault_eq

lemma label_rename (h : ∀ name ∈ f.names, p.Keeps ρ p' name) (start : Nat) :
    Visit.Renamed ρ (label ⟨p, r, v⟩ f start) (label ⟨p', r, v⟩ (f.rename ρ) start) := by
  rw [label, label, Forest.walk_congr Forest.rename_parents]
  exact visitAll_rename h _

lemma labelAll_rename (h : ∀ name ∈ f.names, p.Keeps ρ p' name) :
    Visit.Renamed ρ (labelAll ⟨p, r, v⟩ f) (labelAll ⟨p', r, v⟩ (f.rename ρ)) := by
  have hwalk : (f.rename ρ).walk = f.walk := funext (Forest.walk_congr Forest.rename_parents)
  rw [labelAll, labelAll, Forest.roots_congr Forest.rename_parents, hwalk]
  exact visitAll_rename h _

end Labeller

end

namespace Labeller

variable {f : Forest} {before after : List ImportRecord} {record : ImportRecord} {exported x y : String}
  {packages names : Value} {p : Provenance}

/-- Where a name stands for nothing but what one record imports under it, a new name in its place makes no
difference to labels. -/
theorem label_renamed (hp : Provenance.ofValues (before ++ record :: after) packages names = .ok p)
    (hbound : ∀ r ∈ before ++ record :: after, r.kind ≠ .sideEffect)
    (hkind : record.kind = .named) (hexported : record.importedName = some exported)
    (hnonempty : exported ≠ "") (hlocal : record.localName = some x)
    (hname : ∀ r ∈ before ++ record :: after, r.importedName ≠ some x)
    (hother : ∀ r ∈ before ++ after, r.localName ≠ some x)
    (hfresh : ∀ r ∈ before ++ record :: after, r.localName ≠ some y ∧ r.importedName ≠ some y)
    (htags : y ∉ f.names) (hx : Text.isIdentifier x) (hy : Text.isIdentifier y) (rules : Rules)
    (v : Vocabulary) :
    ∃ p', Provenance.ofValues (before ++ { record with localName := some y } :: after) packages names =
        .ok p' ∧
      (∀ start, Visit.SameLabels (label ⟨p, rules, v⟩ f start)
        (label ⟨p', rules, v⟩ (f.rename (replaced x y)) start)) ∧
      Visit.SameLabels (labelAll ⟨p, rules, v⟩ f)
        (labelAll ⟨p', rules, v⟩ (f.rename (replaced x y))) := by
  have hsame : ∀ rs : List ImportRecord, (∀ r ∈ rs, r ∈ before ++ after) →
      rs.map (ImportRecord.rename (replaced x y)) = rs := by
    intro rs hrs
    conv_rhs => rw [← List.map_id rs]
    exact List.map_congr_left fun r hr => Provenance.rename_of_ne (hother r (hrs r hr))
  have hrecords : (before ++ record :: after).map (ImportRecord.rename (replaced x y)) =
      before ++ { record with localName := some y } :: after := by
    rw [List.map_append, List.map_cons, hsame before fun r => List.mem_append_left _,
      hsame after fun r => List.mem_append_right _, ImportRecord.rename, hlocal]
    simp [replaced]
  -- The record itself is the only one that says anything of the old name, and it binds it.
  have hrenamable : ∀ r ∈ p.records, r.Renamable x y := by
    intro r hr
    have hmem := Provenance.mem_of_mem_records hp hr
    refine ⟨hbound r hmem, hfresh r hmem, hname r hmem, fun hx => ?_⟩
    rcases List.mem_append.mp hmem with hbefore | hmem
    · exact absurd hx (hother r (List.mem_append_left _ hbefore))
    · rcases List.mem_cons.mp hmem with rfl | hafter
      · exact ⟨hkind, exported, hexported, hnonempty⟩
      · exact absurd hx (hother r (List.mem_append_right _ hafter))
  have hkeeps : ∀ name ∈ f.names,
      p.Keeps (replaced x y) (p.rename (replaced x y)) name := by
    intro name hmem
    exact Provenance.keeps_rename hrenamable hx hy fun heq => htags (heq ▸ hmem)
  refine ⟨p.rename (replaced x y), hrecords ▸ Provenance.ofValues_rename hp, fun start => ?_, ?_⟩
  · exact (label_rename hkeeps start).sameLabels
  · exact (labelAll_rename hkeeps).sameLabels

theorem label_renamed_button :
    let form : ImportRecord := ⟨"@patternfly/react-core", .named, some "Form", some "Form"⟩
    let button : ImportRecord := ⟨"@patternfly/react-core", .named, some "Action", some "Button"⟩
    let f : Forest := (Forest.empty.add ⟨"Form", none, []⟩).add ⟨"Action", some 0, []⟩
    let p : Provenance := ⟨[form, button], Provenance.defaultNames.map CodePoints.lowercase⟩
    p.resolve "Action" = some "Button" ∧
      ∃ p', Provenance.ofValues [form, { button with localName := some "Send" }] .null .null = .ok p' ∧
        (∀ start, Visit.SameLabels (label ⟨p, .standard, .standard⟩ f start)
          (label ⟨p', .standard, .standard⟩ (f.rename (replaced "Action" "Send")) start)) ∧
        Visit.SameLabels (labelAll ⟨p, .standard, .standard⟩ f)
          (labelAll ⟨p', .standard, .standard⟩ (f.rename (replaced "Action" "Send"))) := by
  intro form button f p
  have hp : Provenance.ofValues ([form] ++ button :: []) .null .null = .ok p := by decide
  refine ⟨by decide, ?_⟩
  change ∃ p', Provenance.ofValues ([form] ++ { button with localName := some "Send" } :: []) _ _ =
    .ok p' ∧ _
  exact label_renamed hp (by decide) rfl rfl (by decide) rfl (by decide)
    (by decide) (by decide) (by decide) (by decide) (by decide) .standard .standard

end Labeller

end MarkupLabels
