import Mathlib
import MarkupLabels.Proofs.Config.Payload
import MarkupLabels.Proofs.Config.Usable
import MarkupLabels.Proofs.Import.Resolution

/-! Labels do not depend on the order of entries in a configuration. What is read from it is looked up by
keys, or asked for its members. -/

namespace MarkupLabels

namespace Fault

variable {α β γ δ : Type} {R : α → β → Prop} {S : γ → δ → Prop} {x : Except Fault α}
  {y : Except Fault β} {f : α → Except Fault γ} {g : β → Except Fault δ}

inductive Agree (R : α → β → Prop) : Except Fault α → Except Fault β → Prop
  | error (fault : Fault) : Agree R (.error fault) (.error fault)
  | ok {a : α} {b : β} (h : R a b) : Agree R (.ok a) (.ok b)

lemma Agree.bind (h : Agree R x y) (hnext : ∀ a b, R a b → Agree S (f a) (g b)) :
    Agree S (x >>= f) (y >>= g) := by
  cases h with
  | error fault => exact .error fault
  | ok h => exact hnext _ _ h

end Fault

open Fault

namespace Value

variable {v w : Value} {xs ys : List Value} {key : CodePoints} {members : List (CodePoints × Value)}

lemma JsonAlike.sort_eq (h : JsonAlike v w) : v.sort = w.sort := by
  cases h <;> rfl

lemma JsonAlike.within_eq (h : JsonAlike v w) (whole : String) : v.within whole = w.within whole := by
  cases h <;> rfl

lemma JsonAlike.isTrue_eq (h : JsonAlike v w) : v.isTrue = w.isTrue := by
  cases h with
  | @list items items' hlength =>
    rcases items with _ | ⟨v, items⟩ <;> rcases items' with _ | ⟨v', items'⟩
    · rfl
    · cases hlength
    · cases hlength
    · rfl
  | @mapping members members' _ _ hkeys =>
    rcases members with _ | ⟨m, members⟩ <;> rcases members' with _ | ⟨m', members'⟩
    · rfl
    · simpa using hkeys m'.1
    · simpa using hkeys m.1
    · rfl
  | _ => rfl

structure Alike (v w : Value) : Prop where
  left : Plain v
  right : Plain w
  reordered : Reordered v w

lemma Alike.jsonAlike (h : Alike v w) : JsonAlike v w := h.reordered.jsonAlike h.left h.right

lemma lookup_textEntries (hkeys : (members.map Prod.fst).Nodup) :
    lookup key (textEntries members) = some v ↔ (key, v) ∈ members := by
  induction members with
  | nil => simp [textEntries, lookup]
  | cons m members ih =>
    rw [List.map_cons, List.nodup_cons] at hkeys
    change (if m.1 = key then some m.2 else lookup key (textEntries members)) = some v ↔ _
    rw [List.mem_cons, Prod.ext_iff]
    by_cases hm : m.1 = key
    · subst hm
      have hnone : (m.1, v) ∉ members := fun hmem =>
        hkeys.1 (List.mem_map.mpr ⟨_, hmem, rfl⟩)
      simp [hnone, eq_comm]
    · rw [if_neg hm, ih hkeys.2]
      simp [Ne.symm hm]

lemma lookup_textEntries_eq_none :
    lookup key (textEntries members) = none ↔ key ∉ members.map Prod.fst := by
  induction members with
  | nil => simp [textEntries, lookup]
  | cons m members ih =>
    change (if m.1 = key then some m.2 else lookup key (textEntries members)) = none ↔ _
    by_cases hm : m.1 = key
    · simp [hm]
    · rw [if_neg hm, ih]
      simp [Ne.symm hm]

lemma lookup_alike {members' : List (CodePoints × Value)} (hdistinct : (members.map Prod.fst).Nodup)
    (hdistinct' : (members'.map Prod.fst).Nodup)
    (hkeys : ∀ key, key ∈ members.map Prod.fst ↔ key ∈ members'.map Prod.fst)
    (hmembers : ∀ key v v', (key, v) ∈ members → (key, v') ∈ members' → JsonAlike v v') :
    Option.Rel JsonAlike (lookup key (textEntries members)) (lookup key (textEntries members')) := by
  cases hfound : lookup key (textEntries members) with
  | none =>
    rw [lookup_textEntries_eq_none, hkeys, ← lookup_textEntries_eq_none] at hfound
    rw [hfound]
    exact .none
  | some v =>
    have hmem := (lookup_textEntries hdistinct).mp hfound
    obtain ⟨v', hmem'⟩ := exists_mem_of_key ((hkeys key).mp (List.mem_map_of_mem hmem))
    rw [(lookup_textEntries hdistinct').mpr hmem']
    exact .some (hmembers key v v' hmem hmem')

lemma JsonAlike.entry (h : JsonAlike v w) (key : CodePoints) :
    Agree (Option.Rel JsonAlike) (v.entry? key) (w.entry? key) := by
  cases h with
  | mapping hdistinct hdistinct' hkeys hmembers =>
    exact .ok (lookup_alike hdistinct hdistinct' hkeys hmembers)
  | _ => exact .error _

lemma Plain.jsonAlike (h : Plain v) : JsonAlike v v := h.reordered.jsonAlike h h

lemma plain_empty : Plain (.mapping []) := @Plain.mapping [] .nil (by simp)

lemma JsonAlike.orEmpty (h : JsonAlike v w) :
    JsonAlike (if v.isTrue then v else .mapping []) (if w.isTrue then w else .mapping []) := by
  rw [h.isTrue_eq]
  split
  · exact h
  · exact plain_empty.jsonAlike

lemma JsonAlike.getD {o o' : Option Value} (h : Option.Rel JsonAlike o o') {d : Value}
    (hd : JsonAlike d d) : JsonAlike (o.getD d) (o'.getD d) := by
  cases h with
  | none => exact hd
  | some h => exact h

def TextsAlike (xs ys : List Value) : Prop :=
  ∃ ss ss' : List CodePoints, xs = ss.map .text ∧ ys = ss'.map .text ∧ ∀ s, s ∈ ss ↔ s ∈ ss'

inductive ItemsAlike (xs ys : List Value) : Prop
  | items (h : List.Forall₂ JsonAlike xs ys)
  | texts (h : TextsAlike xs ys)

lemma textsAlike_refl (ss : List CodePoints) : TextsAlike (ss.map .text) (ss.map .text) :=
  ⟨ss, ss, rfl, rfl, fun _ => Iff.rfl⟩

lemma JsonAlike.items (h : JsonAlike v w) : Agree ItemsAlike v.items w.items := by
  cases h with
  | text s =>
    apply Agree.ok
    have htexts := textsAlike_refl (s.map fun p => [p])
    rw [List.map_map] at htexts
    exact .texts htexts
  | list hlength hitems =>
    apply Agree.ok
    apply ItemsAlike.items
    apply List.forall₂_iff_get.mpr ⟨hlength, ?_⟩
    intro i hi hi'
    exact hitems i _ _ (List.getElem?_eq_getElem hi) (List.getElem?_eq_getElem hi')
  | @mapping members members' _ _ hkeys =>
    apply Agree.ok
    apply ItemsAlike.texts
    refine ⟨members.map Prod.fst, members'.map Prod.fst, ?_, ?_, hkeys⟩
    · rw [textEntries, List.map_map, List.map_map]
      rfl
    · rw [textEntries, List.map_map, List.map_map]
      rfl
  | _ => exact .error _

lemma TextsAlike.anyWithin_eq (h : TextsAlike xs ys) (whole : String) :
    anyWithin whole xs = anyWithin whole ys := by
  obtain ⟨ss, ss', rfl, rfl, hmem⟩ := h
  rw [anyWithin_map_text, anyWithin_map_text]
  congr 1
  rw [Bool.eq_iff_iff, List.any_eq_true, List.any_eq_true]
  simp only [hmem]

lemma ItemsAlike.anyWithin_eq (h : ItemsAlike xs ys) (whole : String) :
    anyWithin whole xs = anyWithin whole ys := by
  cases h with
  | items h =>
    induction h with
    | nil => rfl
    | cons hxy _ ih => rw [anyWithin, anyWithin, hxy.within_eq, ih]
  | texts h => exact h.anyWithin_eq whole

lemma ItemsAlike.lower (h : ItemsAlike xs ys) : Agree TextsAlike (xs.mapM lower) (ys.mapM lower) := by
  cases h with
  | items h =>
    induction h with
    | nil => exact .ok (textsAlike_refl [])
    | @cons x y xs ys hxy _ ih =>
      rw [List.mapM_cons, List.mapM_cons]
      have hlower : Agree (fun a b => ∃ s, a = .text s ∧ b = .text s) x.lower y.lower := by
        cases hxy with
        | text s => exact .ok ⟨_, rfl, rfl⟩
        | _ => exact .error _
      apply hlower.bind
      rintro a b ⟨s, rfl, rfl⟩
      apply ih.bind
      rintro xs ys ⟨ss, ss', rfl, rfl, hmem⟩
      exact .ok ⟨s :: ss, s :: ss', rfl, rfl, by simp [hmem]⟩
  | texts h =>
    obtain ⟨ss, ss', rfl, rfl, hmem⟩ := h
    rw [mapM_lower, mapM_lower]
    refine .ok ⟨ss.map CodePoints.lowercase, ss'.map CodePoints.lowercase, ?_, ?_, by simp [hmem]⟩
    · rw [List.map_map]
      rfl
    · rw [List.map_map]
      rfl

end Value

open Value

namespace Provenance

variable {p p' : Provenance} {v w : Value} {xs ys : List Value} {packages packages' names names' : Value}

structure Alike (p p' : Provenance) : Prop where
  records_eq : p.records = p'.records
  mem_trusted : ∀ name, name ∈ p.trusted ↔ name ∈ p'.trusted

lemma Alike.resolve_eq (h : Alike p p') (name : String) : p.resolve name = p'.resolve name := by
  have hby : resolveBy p.trusted name = resolveBy p'.trusted name := by
    funext r
    unfold resolveBy
    simp only [h.mem_trusted]
  rw [resolve, resolve, h.records_eq, hby]

lemma catalogItems_alike (default : List CodePoints) (h : v.JsonAlike w) :
    Agree ItemsAlike (catalogItems default v) (catalogItems default w) := by
  have hitems := h.items
  cases h with
  | null => exact .ok (.texts (textsAlike_refl default))
  | _ => exact hitems

lemma keepRecords_alike (h : ItemsAlike xs ys) (records : List ImportRecord) :
    keepRecords xs records = keepRecords ys records := by
  induction records with
  | nil => rfl
  | cons r records ih => rw [keepRecords, keepRecords, h.anyWithin_eq, ih]

lemma ofValues_alike (records : List ImportRecord) (hpackages : packages.JsonAlike packages')
    (hnames : names.JsonAlike names') :
    Agree Alike (ofValues records packages names) (ofValues records packages' names') := by
  apply (catalogItems_alike defaultPackages hpackages).bind
  intro xs ys hxy
  apply (catalogItems_alike defaultNames hnames).bind
  intro ns ms hnm
  apply hnm.lower.bind
  intro ns ms hnm
  rw [keepRecords_alike hxy]
  cases keepRecords ys records with
  | error fault => exact .error fault
  | ok kept =>
    obtain ⟨ss, ss', rfl, rfl, hmem⟩ := hnm
    exact .ok ⟨rfl, fun name => by simp [mem_textsOf, hmem]⟩

end Provenance

namespace Rules

variable {r r' : Rules} {c c' : Value}

def Alike (r r' : Rules) : Prop := ∀ name, r.skips name = r'.skips name

lemma ofConfig_alike (h : c.JsonAlike c') : Agree Alike (ofConfig c) (ofConfig c') := by
  apply (h.orEmpty.entry "rules").bind
  intro o o' ho
  have hrules := Value.JsonAlike.getD ho plain_empty.jsonAlike
  apply (hrules.entry "skip_structural_children").bind
  intro skip skip' hskip
  apply (hrules.entry "structural_children").bind
  intro structural structural' hstructural
  apply (Value.JsonAlike.getD hstructural (plain_texts defaultStructural).jsonAlike).items.bind
  intro xs ys hxy
  apply hxy.lower.bind
  intro xs ys hxy
  apply Agree.ok
  intro name
  have hswitch := Value.JsonAlike.getD hskip (Plain.bool false).jsonAlike
  simp only [skips, hswitch.isTrue_eq, hxy.anyWithin_eq]

end Rules

namespace Labeller

variable {p p' : Provenance} {r r' : Rules}

lemma search_alike (hp : p.Alike p') (v : Vocabulary) (around : List Element) :
    Context.search p v around = Context.search p' v around := by
  induction around with
  | nil => rfl
  | cons e around ih => rw [Context.search, Context.search, Context.given, Context.given, hp.resolve_eq, ih]

lemma outcome_alike (hp : p.Alike p') (hr : r.Alike r') (v : Vocabulary) (e : Element)
    (around : List Element) : outcome ⟨p, r, v⟩ e around = outcome ⟨p', r', v⟩ e around := by
  simp only [outcome, hasMarker, Context.searchNear, hp.resolve_eq, hr _, search_alike hp]
  rfl

lemma visitAll_alike (hp : p.Alike p') (hr : r.Alike r') (v : Vocabulary) (f : Forest) (is : List Nat) :
    visitAll ⟨p, r, v⟩ f is = visitAll ⟨p', r', v⟩ f is := by
  induction is generalizing f with
  | nil => rfl
  | cons i is ih =>
    rw [visitAll, visitAll, outcome_alike hp hr]
    simp only [ih]

end Labeller

namespace Source

variable {c c' : Value}

lemma attempt_alike (d : Document) (h : c.JsonAlike c') : d.attempt c = d.attempt c' := by
  have hconfig : (effectiveConfig c).JsonAlike (effectiveConfig c') := h.orEmpty
  have hprovenance : Agree Provenance.Alike (d.provenance (effectiveConfig c))
      (d.provenance (effectiveConfig c')) := by
    apply (hconfig.entry "packages").bind
    intro packages packages' hpackages
    apply (hconfig.entry "default_import_names").bind
    intro names names' hnames
    exact Provenance.ofValues_alike d.imports (Value.JsonAlike.getD hpackages Plain.null.jsonAlike)
      (Value.JsonAlike.getD hnames Plain.null.jsonAlike)
  have hrules := Rules.ofConfig_alike h
  unfold Document.attempt
  generalize d.provenance (effectiveConfig c) = x at hprovenance
  generalize d.provenance (effectiveConfig c') = y at hprovenance
  cases hprovenance with
  | error fault => rfl
  | @ok p p' hp =>
    generalize Rules.ofConfig c = r at hrules
    generalize Rules.ofConfig c' = r' at hrules
    cases hrules with
    | error fault => simp only [hp.records_eq]
    | @ok r r' hr =>
      simp only [hp.records_eq, Document.labelWith, Labeller.labelAll, Labeller.visitAll_alike hp hr]

lemma label_alike (h : c.Alike c') (language : Language) (source : List Char) :
    label language c source = label language c' source := by
  rw [label, label, attempt_alike _ h.jsonAlike]

end Source

end MarkupLabels
