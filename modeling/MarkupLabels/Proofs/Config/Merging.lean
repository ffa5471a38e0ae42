import Mathlib
import MarkupLabels.Config.Loading
import MarkupLabels.Proofs.Config.Keys
import MarkupLabels.Proofs.Config.Usable
import MarkupLabels.Proofs.Text.CodePoints

namespace MarkupLabels

namespace Value

variable {key old new v : Value} {s : CodePoints} {ss ts : List CodePoints}
  {base update merged : List (Value × Value)}

lemma checkMembers_texts (ss : List CodePoints) : checkMembers (ss.map .text) = .ok () := by
  have hnone : (ss.map text).find? (fun v => !v.isMember) = none := by
    rw [List.find?_eq_none, List.forall_mem_map]
    exact fun s _ => by simp [isMember]
  rw [checkMembers, hnone]

lemma insertDistinct_text_cons (s t : CodePoints) (rest : List Value) :
    insertDistinct (.text s) (.text t :: rest) =
      if s = t then .ok (.text t :: rest)
      else if s < t then .ok (.text s :: .text t :: rest)
      else (insertDistinct (.text s) rest).map (.text t :: ·) := by
  rw [insertDistinct]
  by_cases heq : s = t
  · rw [if_pos heq, if_pos (text_same_iff.mpr (congrArg text heq.symm))]
  · have hne : (text s).same (text t) ≠ true := fun h => heq (text.inj (text_same_iff.mp h)).symm
    rw [if_neg heq, if_neg hne]
    by_cases hlt : s < t
    · simp [before, hlt, bind, Except.bind, pure, Except.pure]
    · cases h : insertDistinct (.text s) rest <;>
        simp [before, hlt, bind, Except.bind, Except.map, pure, Except.pure]

lemma insertDistinct_texts (s : CodePoints) (h : ts.Pairwise (· < ·)) :
    ∃ us : List CodePoints, insertDistinct (.text s) (ts.map .text) = .ok (us.map .text) ∧
      us.Pairwise (· < ·) ∧ ∀ t, t ∈ us ↔ t = s ∨ t ∈ ts := by
  induction ts with
  | nil => exact ⟨[s], rfl, List.pairwise_singleton _ s, by simp⟩
  | cons t ts ih =>
    obtain ⟨hhead, htail⟩ := List.pairwise_cons.mp h
    rw [List.map_cons, insertDistinct_text_cons]
    rcases lt_trichotomy s t with hlt | rfl | hgt
    · refine ⟨s :: t :: ts, ?_, ?_, by simp⟩
      · rw [if_neg hlt.ne, if_pos hlt, List.map_cons, List.map_cons]
      · apply List.pairwise_cons.mpr ⟨?_, h⟩
        exact List.forall_mem_cons.mpr ⟨hlt, fun u hu => hlt.trans (hhead u hu)⟩
    · exact ⟨s :: ts, by rw [if_pos rfl, List.map_cons], h, by simp⟩
    · obtain ⟨us, hus, hsorted, hmem⟩ := ih htail
      refine ⟨t :: us, ?_, ?_, ?_⟩
      · rw [if_neg hgt.ne', if_neg hgt.not_gt, hus, List.map_cons]
        rfl
      · apply List.pairwise_cons.mpr ⟨?_, hsorted⟩
        intro u hu
        rcases (hmem u).mp hu with rfl | hu
        · exact hgt
        · exact hhead u hu
      · intro u
        rw [List.mem_cons, hmem, List.mem_cons]
        tauto

lemma sortDistinct_texts (ss : List CodePoints) :
    ∃ ts : List CodePoints, sortDistinct (ss.map .text) = .ok (ts.map .text) ∧
      ts.Pairwise (· < ·) ∧ ∀ t, t ∈ ts ↔ t ∈ ss := by
  suffices h : ∀ sorted : List CodePoints, sorted.Pairwise (· < ·) → ∃ ts : List CodePoints,
      (ss.map text).foldlM (fun sorted v => insertDistinct v sorted) (sorted.map text) =
        .ok (ts.map .text) ∧ ts.Pairwise (· < ·) ∧ ∀ t, t ∈ ts ↔ t ∈ sorted ∨ t ∈ ss by
    obtain ⟨ts, hts, hsorted, hmem⟩ := h [] .nil
    refine ⟨ts, ?_, hsorted, by simpa using hmem⟩
    rw [sortDistinct, checkMembers_texts]
    exact hts
  induction ss with
  | nil => exact fun sorted hsorted => ⟨sorted, rfl, hsorted, by simp⟩
  | cons s ss ih =>
    intro sorted hsorted
    obtain ⟨us, hus, hsorted, hmem⟩ := insertDistinct_texts s hsorted
    obtain ⟨ts, hts, hsorted, hmem'⟩ := ih us hsorted
    refine ⟨ts, ?_, hsorted, ?_⟩
    · rw [List.map_cons, List.foldlM_cons, hus]
      exact hts
    · intro t
      rw [hmem', hmem, List.mem_cons]
      tauto

lemma united_texts (ss ts : List CodePoints) :
    ∃ us : List CodePoints, united (ss.map .text) (ts.map .text) = .ok (.list (us.map .text)) ∧
      us.Pairwise (· < ·) ∧ ∀ t, t ∈ us ↔ t ∈ ss ∨ t ∈ ts := by
  obtain ⟨us, hus, hsorted, hmem⟩ := sortDistinct_texts (ss ++ ts)
  refine ⟨us, ?_, hsorted, by simpa using hmem⟩
  rw [united, checkMembers_texts, ← List.map_append, hus]
  rfl

lemma mergeAt_none (key new : Value) : mergeAt key none new = .ok new := by
  cases new <;> rw [mergeAt] <;> simp

lemma mergeAt_of_not_mapping (hold : old.sort ≠ .mapping) (hkey : isAdditive key → old.sort ≠ .list) :
    mergeAt key (some old) new = .ok new := by
  cases old with
  | mapping base => exact absurd rfl hold
  | list base =>
    have hplain : isAdditive key ≠ true := fun h => hkey h rfl
    cases new with
    | list update => rw [mergeAt, if_neg hplain]
    | _ => rw [mergeAt] <;> simp
  | _ => cases new <;> rw [mergeAt] <;> simp

lemma mergeEntries_ok (hkeys : KeysDistinct update)
    (hbase : ∀ k ∈ update.map Prod.fst, ∀ c ∈ base.map Prod.fst, k.same c = true → k = c)
    (h : ∀ e ∈ update, ∃ v, mergeAt e.1 (find? e.1 base) e.2 = .ok v) :
    ∃ merged, mergeEntries base update = .ok merged := by
  induction update generalizing base with
  | nil => exact ⟨base, by rw [mergeEntries]⟩
  | cons e rest ih =>
    obtain ⟨key, new⟩ := e
    obtain ⟨hfirst, hrest⟩ := List.pairwise_cons.mp hkeys
    obtain ⟨hkey, hothers⟩ := List.forall_mem_cons.mp hbase
    obtain ⟨⟨v, hv⟩, hmore⟩ := List.forall_mem_cons.mp h
    -- Keys are different, so the first entry changes nothing for those that come later.
    have hlater : ∀ e ∈ rest, find? e.1 (put key v base) = find? e.1 base := by
      intro e he
      have hmem := List.mem_map_of_mem (f := Prod.fst) he
      exact find?_put (hfirst _ hmem) fun k hk => ⟨hkey k hk, hothers _ hmem k hk⟩
    rw [mergeEntries, hv]
    apply ih hrest
    · intro k hk c hc hsame
      rcases key_mem_put hc with hc | rfl
      · exact hothers k hk c hc hsame
      · rw [hfirst k hk] at hsame
        cases hsame
    · intro e he
      rw [hlater e he]
      exact hmore e he

lemma lookup_mergeEntries (hkeys : KeysDistinct update) (h : mergeEntries base update = .ok merged)
    (s : CodePoints) :
    (lookup s update = none → lookup s merged = lookup s base) ∧
      ∀ new, lookup s update = some new →
        ∃ v, mergeAt (.text s) (lookup s base) new = .ok v ∧ lookup s merged = some v := by
  induction update generalizing base with
  | nil =>
    rw [mergeEntries] at h
    obtain rfl := Except.ok.inj h
    exact ⟨fun _ => rfl, by rintro _ ⟨⟩⟩
  | cons e rest ih =>
    obtain ⟨key, first⟩ := e
    obtain ⟨hfirst, hrest⟩ := List.pairwise_cons.mp hkeys
    rw [mergeEntries] at h
    obtain ⟨v, hv, h⟩ := Fault.bind_eq_ok.mp h
    obtain ⟨hnone, hsome⟩ := ih hrest h
    by_cases hkey : key = .text s
    · subst hkey
      have hgone : lookup s rest = none := by
        apply lookup_eq_none
        intro hmem
        cases (hfirst _ hmem).symm.trans (text_same_iff.mpr rfl)
      rw [find?_text] at hv
      rw [lookup_cons_self, hnone hgone, lookup_put_self]
      exact ⟨by rintro ⟨⟩, fun new hnew => ⟨v, Option.some.inj hnew ▸ hv, rfl⟩⟩
    · rw [lookup_put_of_ne hkey] at hnone hsome
      rw [lookup_cons_of_ne hkey]
      exact ⟨hnone, hsome⟩

lemma mergeEntries_ok_of_texts (hkeys : KeysDistinct update)
    (hbase : ∀ k ∈ base.map Prod.fst, ∃ s, k = .text s)
    (h : ∀ e ∈ base, ∀ new, (e.1, new) ∈ update → ∃ v, mergeAt e.1 (some e.2) new = .ok v) :
    ∃ merged, mergeEntries base update = .ok merged := by
  have hspelled : ∀ key, ∀ k ∈ base.map Prod.fst, key.same k = true → key = k := by
    intro key k hk hsame
    obtain ⟨s, rfl⟩ := hbase k hk
    exact same_text_iff.mp hsame
  apply mergeEntries_ok hkeys fun key _ => hspelled key
  intro e he
  cases hfound : find? e.1 base with
  | none => exact ⟨_, mergeAt_none _ _⟩
  | some old =>
    obtain ⟨k, hmem, hsame⟩ := mem_of_find? hfound
    obtain rfl := hspelled e.1 k (List.mem_map_of_mem hmem) hsame
    exact h _ hmem e.2 he

structure Flat (base : List (Value × Value)) : Prop where
  keys : ∀ k ∈ base.map Prod.fst, ∃ s, k = .text s
  values : ∀ e ∈ base, e.2.sort ≠ .mapping ∧ (isAdditive e.1 → e.2.sort ≠ .list)

def Accepts (key old : Value) : Prop :=
  ∀ new, WellKeyed new → (isAdditive key → Provenance.IsCatalog new) →
    ∃ v, mergeAt key (some old) new = .ok v

def ExtendsCatalog (default : List CodePoints) (catalog : Value) : Prop :=
  ∃ ts : List CodePoints, Provenance.catalogItems default catalog = .ok (ts.map .text) ∧ default ⊆ ts

lemma mergeAt_catalog (hkey : isAdditive key) (ss : List CodePoints) (hnew : Provenance.IsCatalog new) :
    ∃ v, mergeAt key (some (.list (ss.map .text))) new = .ok v ∧ ExtendsCatalog ss v := by
  rcases hnew with rfl | ⟨ts, rfl⟩
  · -- Null is no list, so it takes the place of the default catalog, and then stands for it.
    refine ⟨.null, ?_, ss, rfl, List.Subset.refl ss⟩
    rw [mergeAt] <;> simp
  · obtain ⟨us, hus, -, hmem⟩ := united_texts ss ts
    refine ⟨.list (us.map .text), ?_, us, rfl, fun s hs => (hmem s).mpr (.inl hs)⟩
    rw [mergeAt, if_pos hkey, hus]

lemma accepts_texts (hkey : isAdditive key) (ss : List CodePoints) : Accepts key (.list (ss.map .text)) := by
  intro new _ hnew
  obtain ⟨v, hv, -⟩ := mergeAt_catalog hkey ss (hnew hkey)
  exact ⟨v, hv⟩

lemma accepts_mapping (key : Value) (h : Flat base) : Accepts key (.mapping base) := by
  intro new hnew _
  cases new with
  | mapping update =>
    obtain ⟨merged, hmerged⟩ := mergeEntries_ok_of_texts (wellKeyed_mapping.mp hnew).1 h.keys
      fun e he new _ => ⟨new, mergeAt_of_not_mapping (h.values e he).1 (h.values e he).2⟩
    exact ⟨.mapping merged, by rw [mergeAt, hmerged]; rfl⟩
  | _ => exact ⟨_, by rw [mergeAt] <;> simp⟩

lemma isAdditive_iff :
    isAdditive key = true ↔ key = .text "packages" ∨ key = .text "default_import_names" := by
  cases key <;> simp [isAdditive]

end Value

namespace Config

open Value

variable {base entries merged : List (Value × Value)} {key : CodePoints} {ss : List CodePoints} {user : Value}

structure UserEntries (entries : List (Value × Value)) : Prop where
  wellKeyed : WellKeyed (.mapping entries)
  catalogs : ∀ key, isAdditive (.text key) → Provenance.IsCatalog ((lookup key entries).getD .null)

lemma UserEntries.isCatalog (h : UserEntries entries) {e : Value × Value} (he : e ∈ entries)
    (hkey : isAdditive e.1) : Provenance.IsCatalog e.2 := by
  obtain ⟨key, v⟩ := e
  obtain ⟨s, rfl⟩ : ∃ s, key = .text s := by
    rcases isAdditive_iff.mp hkey with hkey | hkey <;> exact ⟨_, hkey⟩
  have hlookup := lookup_of_mem (wellKeyed_mapping.mp h.wellKeyed).1 he
  have hcatalog := h.catalogs s hkey
  rwa [hlookup] at hcatalog

lemma UserEntries.extendsCatalog (h : UserEntries entries)
    (hmerged : mergeEntries base entries = .ok merged) (hkey : isAdditive (.text key))
    (hbase : lookup key base = some (texts ss)) :
    ExtendsCatalog ss ((lookup key merged).getD .null) := by
  obtain ⟨hnone, hsome⟩ := lookup_mergeEntries (wellKeyed_mapping.mp h.wellKeyed).1 hmerged key
  have hcatalog := h.catalogs key hkey
  cases hlookup : lookup key entries with
  | none =>
    rw [hnone hlookup, hbase]
    exact ⟨ss, rfl, List.Subset.refl ss⟩
  | some new =>
    rw [hlookup] at hcatalog
    obtain ⟨v, hv, hfound⟩ := hsome new hlookup
    obtain ⟨v', hv', hextends⟩ := mergeAt_catalog hkey ss hcatalog
    rw [hbase] at hv
    obtain rfl := Except.ok.inj (hv.symm.trans hv')
    rwa [hfound]

lemma default_spec : ∃ base, default = .mapping base ∧ (∀ k ∈ base.map Prod.fst, ∃ s, k = .text s) ∧
    (∀ e ∈ base, Accepts e.1 e.2) ∧ lookup "packages" base = some (texts Provenance.defaultPackages) ∧
      lookup "default_import_names" base = some (texts Provenance.defaultNames) := by
  refine ⟨_, rfl, by simp, ?_, rfl, rfl⟩
  simp only [List.forall_mem_cons, List.not_mem_nil, false_imp_iff, implies_true, and_true]
  refine ⟨accepts_texts rfl _, accepts_texts rfl _, accepts_mapping _ ⟨?_, ?_⟩,
    accepts_mapping _ ⟨?_, ?_⟩⟩ <;> simp [texts, sort, isAdditive]

lemma UserEntries.withUser_ok (h : UserEntries entries)
    (huser : Source.effectiveConfig user = .mapping entries) :
    ∃ merged, withUser user = .ok (.mapping merged) ∧
      ExtendsCatalog Provenance.defaultPackages ((lookup "packages" merged).getD .null) ∧
        ExtendsCatalog Provenance.defaultNames ((lookup "default_import_names" merged).getD .null) := by
  obtain ⟨base, hbase, htexts, haccepts, hpackages, hnames⟩ := default_spec
  obtain ⟨hkeys, hentries⟩ := wellKeyed_mapping.mp h.wellKeyed
  obtain ⟨merged, hmerged⟩ := mergeEntries_ok_of_texts hkeys htexts fun e he new hnew =>
    haccepts e he new (hentries _ hnew) (h.isCatalog hnew)
  refine ⟨merged, ?_, h.extendsCatalog hmerged rfl hpackages,
    h.extendsCatalog hmerged rfl hnames⟩
  change merge default (Source.effectiveConfig user) = _
  rw [huser, hbase, merge, hmerged]
  rfl

end Config

end MarkupLabels
