import Mathlib
import MarkupLabels.Proofs.Tree.Extension
import MarkupLabels.Proofs.Tree.Judgement

/-! Labels on elements are of no account to later labelling, except that an element with labels is
left alone. -/

namespace MarkupLabels

namespace Labels

variable {v : Vocabulary}

lemma name_mem_of_mem_attributes (labels : Labels) {a : Attribute} (h : a ∈ labels.attributes v) :
    a.name ∈ v.names := by
  obtain ⟨⟨name, value⟩, hnamed, rfl⟩ := List.mem_map.mp h
  obtain ⟨⟨n, w⟩, hzip, hw⟩ := List.mem_filterMap.mp hnamed
  obtain ⟨-, -, rfl, -⟩ : ∃ u, w = some u ∧ n = name ∧ u = value := by
    cases w <;> simp_all
  exact (List.of_mem_zip hzip).1

lemma isMarker_of_mem_names {name : String} (h : name ∈ v.names) : v.isMarker name := by
  simp [Vocabulary.isMarker, h]

lemma attributes_ne_nil (labels : Labels) : labels.attributes v ≠ [] := by
  simp [attributes, named, values, Vocabulary.names]

end Labels

def Vocabulary.AllMarkers (v : Vocabulary) (attributes : List Attribute) : Prop :=
  ∀ a ∈ attributes, v.isMarker a.name

namespace Context

variable {p : Provenance} {v : Vocabulary} {new : List Attribute} {added : Nat → List Attribute}

lemma ofUnlabelled_append (attributes : List Attribute) (hnew : v.AllMarkers new) :
    Props.ofUnlabelled v (attributes ++ new) = Props.ofUnlabelled v attributes := by
  have hnone : new.filter (fun a => !v.isMarker a.name) = [] :=
    List.filter_eq_nil_iff.mpr fun a ha => by simp [hnew a ha]
  rw [Props.ofUnlabelled, List.filter_append, hnone, List.append_nil, Props.ofUnlabelled]

lemma given_append (e : Element) (hnew : v.AllMarkers new) :
    given p v { e with attributes := e.attributes ++ new } = given p v e := by
  simp only [given, ofUnlabelled_append e.attributes hnew]

lemma search_congr {p' : Provenance} {es fs : List Element}
    (h : es.map (given p v) = fs.map (given p' v)) : search p v es = search p' v fs := by
  induction es generalizing fs with
  | nil =>
    obtain rfl : fs = [] := by simpa using h.symm
    rfl
  | cons e es ih =>
    cases fs with
    | nil => simp at h
    | cons f fs =>
      obtain ⟨hgiven, hrest⟩ := List.cons_eq_cons.mp h
      rw [search, search, hgiven, ih hrest]

lemma searchNear_extend (f : Forest) (i : Nat) (hadded : ∀ j, v.AllMarkers (added j)) :
    searchNear p v (Labeller.around (f.extend added) i) = searchNear p v (Labeller.around f i) := by
  refine search_congr ?_
  rw [List.map_take, List.map_take, Labeller.around, Labeller.around,
    Forest.ancestors_congr f.extend_parents, List.map_filterMap, List.map_filterMap]
  congr 2
  funext j
  rw [Forest.get?, Forest.get?, Forest.extend_getElem?]
  cases f.elements[j]? with
  | none => rfl
  | some e => exact congrArg some (given_append e (hadded j))

end Context

def Outcome.again (e : Element) : Outcome → Outcome
  | .labelled _ _ => .existing (e.name.getD "")
  | o => o

namespace Labeller

variable {l : Labeller} {new : List Attribute} {added : Nat → List Attribute}

def visited (f : Forest) (i : Nat) : Element := f.elements[i]?.getD default

lemma visited_of_get? {f : Forest} {i : Nat} {e : Element} (he : f.get? i = some e) :
    visited f i = e := by
  simpa [visited, Forest.get?] using congrArg (·.getD default) he

def outcomeAt (l : Labeller) (f : Forest) (i : Nat) : Except Fault Outcome :=
  l.outcome (visited f i) (around f i)

lemma visitAll_error {f : Forest} {i : Nat} {fault : Fault} {ids : List Nat}
    (h : l.outcomeAt f i = .error fault) :
    l.visitAll f (i :: ids) = { forest := f, outcomes := [], fault := some fault } := by
  rw [outcomeAt, visited] at h
  rw [visitAll, h]

lemma visitAll_ok {f : Forest} {i : Nat} {o : Outcome} {ids : List Nat}
    (h : l.outcomeAt f i = .ok o) :
    l.visitAll f (i :: ids) =
      { l.visitAll (f.modifyAttributes i (· ++ o.added)) ids with
        outcomes := o :: (l.visitAll (f.modifyAttributes i (· ++ o.added)) ids).outcomes } := by
  rw [outcomeAt, visited] at h
  rw [visitAll, h]

lemma outcome_congr (e : Element) (es fs : List Element)
    (h : Context.searchNear l.provenance l.vocabulary es =
      Context.searchNear l.provenance l.vocabulary fs) : l.outcome e es = l.outcome e fs := by
  unfold outcome
  rw [h]

lemma outcome_append (e : Element) (es : List Element) (hnew : l.vocabulary.AllMarkers new) :
    l.outcome { e with attributes := e.attributes ++ new } es =
      (l.outcome e es).map fun o => if new = [] then o else o.again e := by
  by_cases hnil : new = []
  · subst hnil
    simp only [List.append_nil, if_true]
    cases l.outcome e es <;> rfl
  · have hmarker : l.hasMarker (e.attributes ++ new) = true := by
      obtain ⟨a, more, rfl⟩ := List.exists_cons_of_ne_nil hnil
      simp [hasMarker, hnew a (by simp)]
    have hknows : ∀ {name exported}, l.Knows e name exported →
        l.Knows { e with attributes := e.attributes ++ new } name exported :=
      fun h => ⟨h.name_eq, h.isIdentifier, h.resolve_eq⟩
    -- The name and what the library calls it are as before, and now there is a label: whatever was to be
    -- labelled is passed over, and all else is judged as it was.
    have hjudged := outcome_judged l e es
    simp only [hnil, if_false]
    generalize l.outcome e es = r at hjudged ⊢
    cases hjudged with
    | unnamed h => exact outcome_of_unnamed h
    | foreign hname hidentifier hresolve => exact outcome_of_foreign hname hidentifier hresolve
    | fault h hskips | structural h hskips =>
      rw [outcome_of_knows (hknows h), hskips]
      rfl
    | existing h hskips _ | labelled h hskips _ =>
      rw [outcome_of_knows (hknows h), hskips]
      simp [hmarker, h.name_eq, Outcome.again, Except.map]

lemma outcomeAt_extend (f : Forest) (i : Nat) (hadded : ∀ j, l.vocabulary.AllMarkers (added j)) :
    l.outcomeAt (f.extend added) i =
      (l.outcomeAt f i).map fun o => if added i = [] then o else o.again (visited f i) := by
  rw [outcomeAt, outcomeAt,
    outcome_congr _ _ _ (Context.searchNear_extend f i hadded)]
  cases he : f.elements[i]? with
  | none =>
    have hdefault : visited (f.extend added) i = default ∧ visited f i = default := by
      simp [visited, he]
    rw [hdefault.1, hdefault.2]
    change Except.ok Outcome.unnamed = Except.ok _
    split <;> rfl
  | some e =>
    have hvisited : visited (f.extend added) i =
        { e with attributes := e.attributes ++ added i } ∧ visited f i = e := by
      simp [visited, he]
    rw [hvisited.1, hvisited.2]
    exact outcome_append e _ (hadded i)

def verdict (l : Labeller) (f : Forest) (i : Nat) : Outcome :=
  match l.outcomeAt f i with
  | .ok o => o
  | .error _ => .unnamed

def due (l : Labeller) (f : Forest) (i : Nat) : List Attribute :=
  match l.outcomeAt f i with
  | .ok o => o.added
  | .error _ => []

lemma due_of_knows {f : Forest} {i : Nat} {e : Element} {name exported : String}
    (he : f.get? i = some e) (h : l.Knows e name exported)
    (hskips : l.rules.skips exported = .ok false) (hmarker : l.hasMarker e.attributes = false) :
    l.due f i = (Labels.infer exported (Props.ofUnlabelled l.vocabulary e.attributes)
      (Context.inherited l.provenance l.vocabulary (around f i))).attributes l.vocabulary := by
  rw [due, outcomeAt, visited_of_get? he, outcome_of_knows h, hskips]
  simp [hmarker, Except.map, Outcome.added]

lemma outcome_cases {e : Element} {es : List Element} {o : Outcome} (h : l.outcome e es = .ok o) :
    (o.added = [] ∧ ∀ f, o.again f = o) ∨
      ∃ (labels : Labels) (found : Bool), o = .labelled (labels.attributes l.vocabulary) found := by
  have hjudged := outcome_judged l e es
  rw [h] at hjudged
  cases hjudged with
  | labelled => exact .inr ⟨_, _, rfl⟩
  | _ => exact .inl ⟨rfl, fun _ => rfl⟩

lemma mem_due {f : Forest} {i : Nat} {a : Attribute} (h : a ∈ l.due f i) :
    a.name ∈ l.vocabulary.names := by
  unfold due at h
  split at h
  · next o ho =>
    rcases outcome_cases ho with ⟨hnone, -⟩ | ⟨labels, found, rfl⟩
    · simp [hnone] at h
    · exact labels.name_mem_of_mem_attributes h
  · simp at h

lemma due_markers (f : Forest) (i : Nat) : l.vocabulary.AllMarkers (l.due f i) :=
  fun _ ha => Labels.isMarker_of_mem_names (mem_due ha)

lemma knows_of_due {f : Forest} {i : Nat} (h : l.due f i ≠ []) :
    ∃ name exported, l.Knows (visited f i) name exported ∧ l.rules.skips exported = .ok false ∧
      l.hasMarker (visited f i).attributes = false := by
  have hjudged := outcome_judged l (visited f i) (around f i)
  rw [← outcomeAt] at hjudged
  unfold due at h
  generalize l.outcomeAt f i = o at hjudged h
  cases hjudged with
  | labelled hknows hskips hmarker => exact ⟨_, _, hknows, hskips, hmarker⟩
  | _ => exact absurd rfl h

lemma name?_of_due {f : Forest} {i : Nat} (h : l.due f i ≠ []) : (f.name? i).isSome := by
  obtain ⟨name, exported, hknows, -⟩ := knows_of_due h
  have hname := hknows.name_eq
  unfold visited at hname
  unfold Forest.name?
  cases he : f.elements[i]? with
  | none =>
    rw [he] at hname
    cases hname
  | some e => simpa [he] using Option.isSome_of_eq_some hname

lemma again_of_due_eq_nil {f : Forest} {i : Nat} {o : Outcome} (ho : l.outcomeAt f i = .ok o)
    (h : l.due f i = []) (e : Element) : o.again e = o := by
  rw [due, ho] at h
  rcases outcome_cases ho with ⟨-, hagain⟩ | ⟨labels, found, rfl⟩
  · exact hagain e
  · exact absurd h labels.attributes_ne_nil

lemma added_again (e : Element) (o : Outcome) : (o.again e).added = [] := by
  cases o <;> rfl

end Labeller

def Rules.Usable (r : Rules) : Prop := ∀ name, ∃ skip, r.skips name = .ok skip

lemma Value.anyWithin_texts (whole : String) (vs : List Value) (h : ∀ v ∈ vs, ∃ s, v = .text s) :
    ∃ found, Value.anyWithin whole vs = .ok found := by
  induction vs with
  | nil => exact ⟨false, rfl⟩
  | cons v vs ih =>
    obtain ⟨s, rfl⟩ := h v (by simp)
    obtain ⟨found, hfound⟩ := ih fun w hw => h w (List.mem_cons_of_mem _ hw)
    cases hs : Text.contains whole s with
    | true => exact ⟨true, by simp [anyWithin, within, hs, bind, Except.bind, pure, Except.pure]⟩
    | false =>
      exact ⟨found, by simp [anyWithin, within, hs, bind, Except.bind, hfound]⟩

lemma Rules.usable_of_texts {r : Rules} (h : ∀ v ∈ r.structural, ∃ s, v = .text s) : r.Usable := by
  intro name
  unfold skips
  split
  · exact Value.anyWithin_texts _ _ h
  · exact ⟨false, rfl⟩

lemma Value.texts_of_anyWithin {whole : String} {vs : List Value}
    (h : Value.anyWithin whole vs = .ok false) : ∀ v ∈ vs, ∃ s, v = .text s := by
  induction vs with
  | nil => simp
  | cons v vs ih =>
    cases v with
    | text s =>
      cases hs : Text.contains whole s with
      | true => simp [anyWithin, within, hs, bind, Except.bind, pure, Except.pure] at h
      | false => simpa using ih (by simpa [anyWithin, within, hs, bind, Except.bind] using h)
    | _ => simp [anyWithin, within, bind, Except.bind] at h

lemma Rules.usable_of_kept {r : Rules} {name : String} (h : r.skips name = .ok false) : r.Usable := by
  -- Nothing was found, so every keyword has been looked at: all of them are texts.
  unfold skips at h
  split at h
  · exact usable_of_texts (Value.texts_of_anyWithin h)
  · next hoff => exact fun _ => ⟨false, by rw [skips, if_neg hoff]⟩

lemma Rules.standard_usable : Rules.standard.Usable := by
  refine usable_of_texts fun v hv => ?_
  obtain ⟨s, -, rfl⟩ := List.mem_map.mp hv
  exact ⟨_, rfl⟩

namespace Labeller

variable {l : Labeller} {added : Nat → List Attribute}

lemma outcomeAt_ok (husable : l.rules.Usable) (f : Forest) (i : Nat) :
    ∃ o, l.outcomeAt f i = .ok o := by
  have hjudged := outcome_judged l (visited f i) (around f i)
  rw [← outcomeAt] at hjudged
  cases ho : l.outcomeAt f i with
  | ok o => exact ⟨o, rfl⟩
  | error fault =>
    rw [ho] at hjudged
    cases hjudged with
    | fault h hskips =>
      obtain ⟨skip, hskip⟩ := husable _
      cases hskips.symm.trans hskip

lemma outcomeAt_eq (husable : l.rules.Usable) (f : Forest) (i : Nat) :
    l.outcomeAt f i = .ok (l.verdict f i) := by
  obtain ⟨o, ho⟩ := outcomeAt_ok husable f i
  rw [verdict, ho]

lemma due_eq (f : Forest) (i : Nat) : l.due f i = (l.verdict f i).added := by
  unfold due verdict
  cases l.outcomeAt f i <;> rfl

lemma visit_extend (husable : l.rules.Usable) (f : Forest) (i : Nat)
    (hadded : ∀ j, added j = [] ∨ added j = l.due f j) :
    ∃ o, l.outcomeAt (f.extend added) i = .ok o ∧
      (o = l.verdict f i ∨ o = (l.verdict f i).again (visited f i)) ∧
      (f.extend added).modifyAttributes i (· ++ o.added) =
        f.extend fun j => if j = i then l.due f j else added j := by
  have hmarkers : ∀ j, l.vocabulary.AllMarkers (added j) := by
    intro j
    rcases hadded j with h | h <;> rw [h]
    · simp [Vocabulary.AllMarkers]
    · exact l.due_markers f j
  refine ⟨if added i = [] then l.verdict f i else (l.verdict f i).again (visited f i), ?_, ?_, ?_⟩
  · rw [outcomeAt_extend f i hmarkers, outcomeAt_eq husable]
    rfl
  · split
    · exact .inl rfl
    · exact .inr rfl
  · rw [Forest.modifyAttributes_append, Forest.extend_extend]
    refine Forest.extend_congr fun j _ => ?_
    by_cases hj : j = i
    · subst hj
      simp only [if_true]
      rcases hadded j with h | h
      · simp [h, due_eq]
      · by_cases hnil : added j = []
        · simp [hnil, due_eq]
        · rw [if_neg hnil, added_again, List.append_nil, h]
    · simp [hj]

lemma visitAll_extend (added : Nat → List Attribute) (husable : l.rules.Usable) (f : Forest) (ids : List Nat)
    (hadded : ∀ j, added j = [] ∨ added j = l.due f j) :
    (l.visitAll (f.extend added) ids).forest =
        f.extend (fun j => if j ∈ ids then l.due f j else added j) ∧
      (l.visitAll (f.extend added) ids).fault = none ∧
      List.Forall₂ (fun i o => o = l.verdict f i ∨ o = (l.verdict f i).again (visited f i)) ids
        (l.visitAll (f.extend added) ids).outcomes := by
  -- The invariant: each element has all that it is due, or nothing.
  induction ids generalizing added with
  | nil => simp [visitAll]
  | cons i ids ih =>
    obtain ⟨o, ho, hverdict, hforest⟩ := visit_extend husable f i hadded
    obtain ⟨hf, hfault, houtcomes⟩ :=
      ih (fun j => if j = i then l.due f j else added j) fun j => by
        by_cases hj : j = i
        · exact .inr (if_pos hj)
        · simpa [hj] using hadded j
    rw [visitAll_ok ho, hforest]
    refine ⟨hf.trans (Forest.extend_congr fun j _ => ?_), hfault, .cons hverdict houtcomes⟩
    by_cases hj : j = i
    · simp [hj]
    · simp [hj]

lemma visitAll_settled (husable : l.rules.Usable) (f : Forest) (ids : List Nat)
    (hmarkers : ∀ j, l.vocabulary.AllMarkers (added j))
    (hsettled : ∀ i ∈ ids, added i = [] → l.due f i = []) :
    l.visitAll (f.extend added) ids =
      { forest := f.extend added
        outcomes := ids.map fun i => (l.verdict f i).again (visited f i)
        fault := none } := by
  induction ids with
  | nil => rfl
  | cons i ids ih =>
    have hverdict := outcomeAt_eq husable f i
    have ho : l.outcomeAt (f.extend added) i = .ok ((l.verdict f i).again (visited f i)) := by
      rw [outcomeAt_extend f i hmarkers, hverdict]
      change Except.ok _ = _
      split
      · next hnil => rw [again_of_due_eq_nil hverdict (hsettled i (by simp) hnil)]
      · rfl
    rw [visitAll_ok ho, added_again, Forest.modifyAttributes_nil,
      ih fun j hj => hsettled j (List.mem_cons_of_mem _ hj)]
    rfl

end Labeller

namespace Stats

def again (s : Stats) : Stats :=
  { s with annotated := 0, skippedExisting := s.skippedExisting + s.annotated }

lemma again_counts (s : Stats) :
    s.again.visited = s.visited ∧ s.again.skippedUnnamed = s.skippedUnnamed ∧
      s.again.skippedForeign = s.skippedForeign ∧ s.again.skippedStructural = s.skippedStructural ∧
      s.again.annotated = 0 ∧ s.again.skippedExisting = s.skippedExisting + s.annotated :=
  ⟨rfl, rfl, rfl, rfl, rfl, rfl⟩

lemma again_add (s t : Stats) : (s + t).again = s.again + t.again := by
  have hsum : (s.skippedExisting + t.skippedExisting) + (s.annotated + t.annotated) =
      (s.skippedExisting + s.annotated) + (t.skippedExisting + t.annotated) := by omega
  change Stats.mk _ _ _ _ _ ((s.skippedExisting + t.skippedExisting) + (s.annotated + t.annotated)) = _
  rw [hsum]
  rfl

lemma again_again (s : Stats) : s.again.again = s.again := rfl

lemma ofOutcome_again (e : Element) (o : Outcome) : ofOutcome (o.again e) = (ofOutcome o).again := by
  cases o <;> rfl

lemma ofOutcomes_again {os later : List Outcome}
    (h : List.Forall₂ (fun o o' => ofOutcome o' = (ofOutcome o).again) os later) :
    ofOutcomes later = (ofOutcomes os).again := by
  have hfold : ∀ s : Stats, later.foldl (fun s o => s + ofOutcome o) s.again =
      (os.foldl (fun s o => s + ofOutcome o) s).again := by
    induction h with
    | nil => exact fun _ => rfl
    | cons ho _ ih =>
      intro s
      rw [List.foldl_cons, List.foldl_cons, ho, ← again_add]
      exact ih _
  exact hfold {}

end Stats

namespace Labeller

variable {l : Labeller} {added : Nat → List Attribute}

def assigned (l : Labeller) (f : Forest) (i : Nat) : List Attribute :=
  if i ∈ f.roots.flatMap f.walk then l.due f i else []

lemma assigned_cases (f : Forest) (i : Nat) : l.assigned f i = [] ∨ l.assigned f i = l.due f i := by
  unfold assigned
  split
  · exact .inr rfl
  · exact .inl rfl

lemma mem_assigned {f : Forest} {i : Nat} {a : Attribute} (h : a ∈ l.assigned f i) :
    a.name ∈ l.vocabulary.names := by
  rcases l.assigned_cases f i with hi | hi
  · simp [hi] at h
  · exact mem_due (hi ▸ h)

lemma labelAll_extend (husable : l.rules.Usable) (f : Forest) :
    (l.labelAll f).forest = f.extend (l.assigned f) ∧ (l.labelAll f).fault = none ∧
      List.Forall₂ (fun i o => o = l.verdict f i ∨ o = (l.verdict f i).again (visited f i))
        (f.roots.flatMap f.walk) (l.labelAll f).outcomes := by
  have h := visitAll_extend (fun _ => []) husable f (f.roots.flatMap f.walk) fun _ => .inl rfl
  rwa [Forest.extend_nil] at h

lemma labelAll_again (added : Nat → List Attribute) (husable : l.rules.Usable) (f : Forest)
    (hmarkers : ∀ j, l.vocabulary.AllMarkers (added j))
    (hadded : ∀ i, added i = [] → l.assigned f i = []) :
    (l.labelAll (f.extend added)).forest = f.extend added ∧
      (l.labelAll (f.extend added)).fault = none ∧
      Stats.ofOutcomes (l.labelAll (f.extend added)).outcomes =
        (Stats.ofOutcomes (l.labelAll f).outcomes).again := by
  have hids : (f.extend added).roots.flatMap (f.extend added).walk = f.roots.flatMap f.walk := by
    rw [Forest.roots_congr Forest.extend_parents]
    exact List.flatMap_congr fun i _ => Forest.walk_congr Forest.extend_parents i
  have hsettled := visitAll_settled husable f (f.roots.flatMap f.walk) hmarkers fun i hi hnil => by
    have hassigned := hadded i hnil
    rwa [assigned, if_pos hi] at hassigned
  rw [labelAll, hids, hsettled]
  refine ⟨rfl, rfl, Stats.ofOutcomes_again ?_⟩
  rw [List.forall₂_map_right_iff]
  refine List.Forall₂.flip ((labelAll_extend husable f).2.2.imp fun i o ho => ?_)
  change Stats.ofOutcome ((l.verdict f i).again (visited f i)) = (Stats.ofOutcome o).again
  rw [Stats.ofOutcome_again]
  rcases ho with rfl | rfl
  · rfl
  · rw [Stats.ofOutcome_again, Stats.again_again]

end Labeller

end MarkupLabels
