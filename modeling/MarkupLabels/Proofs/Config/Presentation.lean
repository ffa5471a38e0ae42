import Mathlib
import MarkupLabels.Proofs.Config.Interchange
import MarkupLabels.Proofs.Config.Paths

namespace MarkupLabels

open Fault Value

namespace Value

variable {key : CodePoints} {v w : Value} {xs ys items : List Value} {ss : List CodePoints}
  {base update update' members : List (CodePoints × Value)} {merged merged' : List (Value × Value)}

lemma JsonAlike.wellKeyed (h : JsonAlike v w) : WellKeyed v := by
  induction h with
  | mapping hdistinct _ hkeys _ ih =>
    refine .mapping (keysDistinct_textEntries.mpr hdistinct) fun e he => ?_
    obtain ⟨m, hm, rfl⟩ := mem_textEntries he
    obtain ⟨v', hv'⟩ := exists_mem_of_key ((hkeys m.1).mp (List.mem_map_of_mem hm))
    exact ih m.1 m.2 v' hm hv'
  | _ => exact .leaf nofun

lemma JsonAlike.symm (h : JsonAlike v w) : JsonAlike w v := by
  induction h with
  | list hlength _ ih => exact .list hlength.symm fun i v v' hi hi' => ih i v' v hi' hi
  | mapping hdistinct hdistinct' hkeys _ ih =>
    exact .mapping hdistinct' hdistinct (fun key => (hkeys key).symm) fun key v v' hv hv' =>
      ih key v' v hv' hv
  | _ => constructor

section Catalogs

lemma insertDistinct_ne_text {t : CodePoints} (hv : ∀ s, v ≠ .text s) (rest : List Value) :
    ∃ fault, insertDistinct v (.text t :: rest) = .error fault := by
  have hsame : v.same (.text t) ≠ true := fun h => hv t (same_text_iff.mp h)
  have hbefore : ∃ fault, v.before (.text t) = .error fault := by
    cases v with
    | text s => exact absurd rfl (hv s)
    | moment m => cases m <;> exact ⟨_, rfl⟩
    | _ => exact ⟨_, rfl⟩
  obtain ⟨fault, hfault⟩ := hbefore
  refine ⟨fault, ?_⟩
  rw [insertDistinct, if_neg hsame, hfault]
  rfl

lemma texts_of_foldlM {ts : List CodePoints} (hts : ts.Pairwise (· < ·)) (hne : ts ≠ [])
    (h : items.foldlM (fun sorted v => insertDistinct v sorted) (ts.map .text) = .ok xs) :
    ∃ ss : List CodePoints, items = ss.map .text := by
  induction items generalizing ts with
  | nil => exact ⟨[], rfl⟩
  | cons v items ih =>
    rw [List.foldlM_cons] at h
    obtain ⟨sorted, hsorted, h⟩ := bind_eq_ok.mp h
    by_cases hv : ∃ s, v = .text s
    · obtain ⟨s, rfl⟩ := hv
      obtain ⟨us, hus, hascending, hmem⟩ := insertDistinct_texts s hts
      obtain rfl := Except.ok.inj (hsorted.symm.trans hus)
      obtain ⟨ss, rfl⟩ := ih hascending (List.ne_nil_of_mem ((hmem s).mpr (.inl rfl))) h
      exact ⟨s :: ss, rfl⟩
    · obtain ⟨t, ts, rfl⟩ := List.exists_cons_of_ne_nil hne
      obtain ⟨fault, hfault⟩ := insertDistinct_ne_text (not_exists.mp hv) (t := t) (ts.map .text)
      rw [List.map_cons, hfault] at hsorted
      cases hsorted

lemma texts_of_united (hne : ss ≠ []) (h : united (ss.map .text) items = .ok v) :
    ∃ ts : List CodePoints, items = ts.map .text := by
  rw [united] at h
  obtain ⟨_, -, h⟩ := bind_eq_ok.mp h
  obtain ⟨sorted, hsorted, -⟩ := bind_eq_ok.mp h
  rw [sortDistinct] at hsorted
  obtain ⟨_, -, hsorted⟩ := bind_eq_ok.mp hsorted
  rw [List.foldlM_append] at hsorted
  obtain ⟨first, hfirst, hsorted⟩ := bind_eq_ok.mp hsorted
  obtain ⟨ts, hts, hascending, hmem⟩ := sortDistinct_texts ss
  rw [sortDistinct, checkMembers_texts] at hts
  obtain rfl := Except.ok.inj (hfirst.symm.trans hts)
  obtain ⟨s, hs⟩ := List.exists_mem_of_ne_nil ss hne
  exact texts_of_foldlM hascending (List.ne_nil_of_mem ((hmem s).mpr hs)) hsorted

end Catalogs

section Merging

lemma mergeEntries_alike (hbase : (base.map Prod.fst).Nodup) (hsame : ∀ m ∈ base, JsonAlike m.2 m.2)
    (hdistinct : (update.map Prod.fst).Nodup) (hdistinct' : (update'.map Prod.fst).Nodup)
    (hkeys : ∀ key, key ∈ update.map Prod.fst ↔ key ∈ update'.map Prod.fst)
    (hvalues : ∀ key new new' v v', (key, new) ∈ update → (key, new') ∈ update' →
      mergeAt (.text key) (lookup key (textEntries base)) new = .ok v →
      mergeAt (.text key) (lookup key (textEntries base)) new' = .ok v' → JsonAlike v v')
    (h : mergeEntries (textEntries base) (textEntries update) = .ok merged)
    (h' : mergeEntries (textEntries base) (textEntries update') = .ok merged') :
    JsonAlike (.mapping merged) (.mapping merged') := by
  obtain ⟨ms, rfl, hms⟩ :=
    exists_textEntries (keys_mergeEntries (map_fst_textEntries base) hdistinct h)
  obtain ⟨ms', rfl, hms'⟩ :=
    exists_textEntries (keys_mergeEntries (map_fst_textEntries base) hdistinct' h')
  have hnodup : ∀ {keys : List CodePoints}, keys.Nodup →
      (base.map Prod.fst ++ keys.filter (· ∉ base.map Prod.fst)).Nodup := by
    intro keys hnew
    refine List.nodup_append.mpr ⟨hbase, hnew.filter _, ?_⟩
    rintro key hold _ hkey rfl
    exact absurd hold (by simpa using (List.mem_filter.mp hkey).2)
  have hfound := lookup_mergeEntries (keysDistinct_textEntries.mpr hdistinct) h
  have hfound' := lookup_mergeEntries (keysDistinct_textEntries.mpr hdistinct') h'
  refine .mapping (hms ▸ hnodup hdistinct) (hms' ▸ hnodup hdistinct') ?_ ?_
  · intro key
    simp only [hms, hms', List.mem_append, List.mem_filter, hkeys]
  · intro key v v' hv hv'
    replace hv := (lookup_textEntries (hms ▸ hnodup hdistinct)).mpr hv
    replace hv' := (lookup_textEntries (hms' ▸ hnodup hdistinct')).mpr hv'
    cases hnew : lookup key (textEntries update) with
    | none =>
      have hnew' : lookup key (textEntries update') = none := by
        rwa [lookup_textEntries_eq_none, ← hkeys, ← lookup_textEntries_eq_none]
      rw [(hfound key).1 hnew] at hv
      rw [(hfound' key).1 hnew', hv] at hv'
      rw [← Option.some.inj hv']
      exact hsame _ (mem_of_lookup hv)
    | some new =>
      obtain ⟨new', hmem'⟩ :=
        exists_mem_of_key ((hkeys key).mp (List.mem_map_of_mem (mem_of_lookup hnew)))
      obtain ⟨u, hu, hfoundu⟩ := (hfound key).2 new hnew
      obtain ⟨u', hu', hfoundu'⟩ := (hfound' key).2 new' ((lookup_textEntries hdistinct').mpr hmem')
      obtain rfl := Option.some.inj (hv.symm.trans hfoundu)
      obtain rfl := Option.some.inj (hv'.symm.trans hfoundu')
      exact hvalues key new new' v v' (mem_of_lookup hnew) hmem' hu hu'

def Rephrased (key : CodePoints) (v w : Value) : Prop :=
  JsonAlike v w ∨ IsCatalogKey key ∧ ∃ ss ts : List CodePoints,
    v = .list (ss.map .text) ∧ w = .list (ts.map .text) ∧ ∀ s, s ∈ ss ↔ s ∈ ts

lemma JsonAlike.texts_eq (h : JsonAlike (.list (ss.map .text)) w) : w = .list (ss.map .text) := by
  generalize hv : Value.list (ss.map .text) = v at h
  cases h with
  | @list items items' hlength hitems =>
    obtain rfl := list.inj hv
    congr 1
    refine List.ext_getElem hlength.symm fun i hi hi' => ?_
    have hi'' : i < ss.length := by simpa using hi'
    have halike := hitems i _ _ (List.getElem?_eq_getElem hi') (List.getElem?_eq_getElem hi)
    rw [List.getElem_map] at halike ⊢
    generalize items'[i] = w at halike ⊢
    cases halike
    rfl
  | _ => cases hv

lemma Rephrased.symm (h : Rephrased key v w) : Rephrased key w v := by
  rcases h with halike | ⟨hkey, ss, ts, hv, hw, hmem⟩
  · exact .inl halike.symm
  · exact .inr ⟨hkey, ts, ss, hw, hv, fun s => (hmem s).symm⟩

lemma Rephrased.wellKeyed (h : Rephrased key v w) : WellKeyed v := by
  rcases h with halike | ⟨-, ss, -, rfl, -⟩
  · exact halike.wellKeyed
  · exact (jsonAlike_texts ss).wellKeyed

lemma Rephrased.fitting (h : Rephrased key v w) (hfitting : Fitting key v) : Fitting key w := by
  rcases h with halike | ⟨-, -, ts, -, rfl, -⟩
  · intro items hw hkey
    subst hw
    cases halike with
    | @list xs ys hlength hitems =>
      obtain ⟨ss, rfl⟩ := hfitting xs rfl hkey
      exact ⟨ss, list.inj (JsonAlike.list hlength hitems).texts_eq⟩
  · exact fitting_texts key ts

lemma mergeAt_rephrased (hkey : IsCatalogKey key) (hne : ss ≠ []) {new new' v v' : Value}
    (hnew : Rephrased key new new')
    (h : mergeAt (.text key) (some (.list (ss.map .text))) new = .ok v)
    (h' : mergeAt (.text key) (some (.list (ss.map .text))) new' = .ok v') : JsonAlike v v' := by
  have hlists : ∀ ys, mergeAt (.text key) (some (.list (ss.map .text))) (.list ys) =
      united (ss.map .text) ys := fun ys => by rw [mergeAt, if_pos (isCatalogKey_iff.mpr hkey)]
  rcases hnew with hnew | ⟨-, ts, ts', rfl, rfl, hmem⟩
  · by_cases hlist : ∃ ys, new = .list ys
    · obtain ⟨ys, rfl⟩ := hlist
      obtain ⟨ts, rfl⟩ := texts_of_united hne ((hlists ys).symm.trans h)
      obtain rfl := hnew.texts_eq
      obtain rfl := Except.ok.inj (h.symm.trans h')
      obtain ⟨us, hus, -⟩ := united_texts ss ts
      rw [hlists, hus] at h
      rw [← Except.ok.inj h]
      exact jsonAlike_texts us
    · have hlist' : ∀ ys, new' ≠ .list ys := by
        rintro ys rfl
        cases hnew with
        | list => exact hlist ⟨_, rfl⟩
      rw [mergeAt_replaced (by rintro _ _ ⟨⟩) fun _ _ ys _ heq => hlist ⟨ys, heq⟩] at h
      rw [mergeAt_replaced (by rintro _ _ ⟨⟩) fun _ _ ys _ => hlist' ys] at h'
      rw [← Except.ok.inj h, ← Except.ok.inj h']
      exact hnew
  · -- Ascending lists with the same texts are one list.
    obtain ⟨us, hus, hsorted, hus'⟩ := united_texts ss ts
    obtain ⟨ws, hws, hsorted', hws'⟩ := united_texts ss ts'
    have heq : us = ws := hsorted.eq_of_mem_iff hsorted' fun s => by rw [hus', hws', hmem]
    rw [hlists, hus] at h
    rw [hlists, hws, ← heq] at h'
    rw [← Except.ok.inj h, ← Except.ok.inj h']
    exact jsonAlike_texts us

lemma mergeAt_flat (hplain : Plain (.mapping (textEntries base))) (hflat : Flat (textEntries base))
    {new new' v v' : Value} (hnew : JsonAlike new new')
    (h : mergeAt (.text key) (some (.mapping (textEntries base))) new = .ok v)
    (h' : mergeAt (.text key) (some (.mapping (textEntries base))) new' = .ok v') : JsonAlike v v' := by
  obtain ⟨hdistinct, hvalues⟩ := plain_mapping.mp hplain
  by_cases hmapping : ∃ entries, new = .mapping entries
  · obtain ⟨entries, rfl⟩ := hmapping
    cases hnew with
    | @mapping update update' hupdate hupdate' hkeys hmembers =>
      rw [mergeAt] at h h'
      obtain ⟨merged, hmerged, h⟩ := bind_eq_ok.mp h
      obtain ⟨merged', hmerged', h'⟩ := bind_eq_ok.mp h'
      rw [← Except.ok.inj h, ← Except.ok.inj h']
      refine mergeEntries_alike hdistinct (fun m hm => (hvalues m hm).jsonAlike) hupdate hupdate' hkeys ?_
        hmerged hmerged'
      intro key new new' v v' hmem hmem' hv hv'
      -- What a flat mapping holds is replaced.
      have hreplaced : ∀ new, mergeAt (.text key) (lookup key (textEntries base)) new = .ok new := by
        intro new
        cases hold : lookup key (textEntries base) with
        | none => exact mergeAt_none _ _
        | some old =>
          have hentry : (Value.text key, old) ∈ textEntries base :=
            List.mem_map_of_mem (f := fun m => (Value.text m.1, m.2)) (mem_of_lookup hold)
          exact mergeAt_of_not_mapping (hflat.values _ hentry).1 (hflat.values _ hentry).2
      rw [hreplaced] at hv hv'
      rw [← Except.ok.inj hv, ← Except.ok.inj hv']
      exact hmembers key new new' hmem hmem'
  · have hmapping' : ∀ entries, new' ≠ .mapping entries := by
      rintro entries rfl
      cases hnew with
      | mapping => exact hmapping ⟨_, rfl⟩
    rw [mergeAt_replaced (fun _ es _ heq => hmapping ⟨es, heq⟩) (by rintro _ _ _ ⟨⟩)] at h
    rw [mergeAt_replaced (fun _ es _ => hmapping' es) (by rintro _ _ _ ⟨⟩)] at h'
    rw [← Except.ok.inj h, ← Except.ok.inj h']
    exact hnew

end Merging

end Value

namespace Config

variable {members members' : List (CodePoints × Value)}

structure RephrasedEntries (members members' : List (CodePoints × Value)) : Prop where
  distinct : (members.map Prod.fst).Nodup
  distinct' : (members'.map Prod.fst).Nodup
  keys : ∀ key, key ∈ members.map Prod.fst ↔ key ∈ members'.map Prod.fst
  values : ∀ key v v', (key, v) ∈ members → (key, v') ∈ members' → Rephrased key v v'

def defaultFiles : List (CodePoints × Value) :=
  [("extensions", texts defaultExtensions), ("exclude_dirs", texts defaultExcluded)]

def defaultRules : List (CodePoints × Value) :=
  [("skip_structural_children", .bool false), ("structural_children", texts Rules.defaultStructural)]

def defaultMembers : List (CodePoints × Value) :=
  [("packages", texts Provenance.defaultPackages), ("default_import_names", texts Provenance.defaultNames),
    ("files", .mapping (textEntries defaultFiles)), ("rules", .mapping (textEntries defaultRules))]

lemma default_eq : default = .mapping (textEntries defaultMembers) := rfl

lemma plain_defaultFiles : Plain (.mapping (textEntries defaultFiles)) :=
  .mapping (by simp [defaultFiles]) (by simp [defaultFiles, texts, plain_texts])

lemma plain_defaultRules : Plain (.mapping (textEntries defaultRules)) :=
  .mapping (by simp [defaultRules]) (by simp [defaultRules, texts, plain_texts, Plain.bool])

lemma plain_defaultMembers : Plain (.mapping (textEntries defaultMembers)) :=
  .mapping (by simp [defaultMembers])
    (by simp [defaultMembers, texts, plain_texts, plain_defaultFiles, plain_defaultRules])

lemma plain_default : Plain default := default_eq ▸ plain_defaultMembers

lemma flat_defaultFiles : Flat (textEntries defaultFiles) := by
  constructor <;> simp [textEntries, defaultFiles, texts, sort, isAdditive]

lemma flat_defaultRules : Flat (textEntries defaultRules) := by
  constructor <;> simp [textEntries, defaultRules, texts, sort, isAdditive]

lemma defaultMembers_cases {m : CodePoints × Value} (h : m ∈ defaultMembers) :
    (IsCatalogKey m.1 ∧ ∃ ss : List CodePoints, ss ≠ [] ∧ m.2 = .list (ss.map .text)) ∨
      (¬ IsCatalogKey m.1 ∧ ∃ flat : List (CodePoints × Value), m.2 = .mapping (textEntries flat) ∧
        Plain (.mapping (textEntries flat)) ∧ Flat (textEntries flat)) := by
  simp only [defaultMembers, List.mem_cons, List.not_mem_nil, or_false] at h
  rcases h with rfl | rfl | rfl | rfl
  · exact .inl ⟨.inl rfl, _, List.cons_ne_nil _ _, rfl⟩
  · exact .inl ⟨.inr rfl, _, List.cons_ne_nil _ _, rfl⟩
  · exact .inr ⟨by simp [IsCatalogKey], _, rfl, plain_defaultFiles, flat_defaultFiles⟩
  · exact .inr ⟨by simp [IsCatalogKey], _, rfl, plain_defaultRules, flat_defaultRules⟩

lemma exists_catalog {key : CodePoints} (hkey : IsCatalogKey key) : ∃ ss : List CodePoints, ss ≠ [] ∧
    lookup key (textEntries defaultMembers) = some (.list (ss.map .text)) := by
  rcases hkey with rfl | rfl
  · exact ⟨_, List.cons_ne_nil _ _, rfl⟩
  · exact ⟨_, List.cons_ne_nil _ _, rfl⟩

lemma withUser_mapping (members : List (CodePoints × Value)) :
    withUser (.mapping (textEntries members)) =
      (mergeEntries (textEntries defaultMembers) (textEntries members)).map .mapping := by
  have hmerge : ∀ entries, merge default (.mapping entries) =
      (mergeEntries (textEntries defaultMembers) entries).map .mapping := by
    intro entries
    rw [default_eq, merge]
    cases mergeEntries (textEntries defaultMembers) entries <;> rfl
  rw [withUser]
  cases members with
  | nil => exact hmerge []
  | cons m members => exact hmerge _

lemma exists_merged (hdistinct : (members.map Prod.fst).Nodup)
    (halike : ∀ m ∈ members, WellKeyed m.2) (hfitting : ∀ m ∈ members, Fitting m.1 m.2) :
    ∃ merged, mergeEntries (textEntries defaultMembers) (textEntries members) = .ok merged := by
  apply mergeEntries_ok_of_texts (keysDistinct_textEntries.mpr hdistinct)
  · intro k hk
    rw [map_fst_textEntries] at hk
    obtain ⟨s, -, rfl⟩ := List.mem_map.mp hk
    exact ⟨s, rfl⟩
  · intro e he new hnew
    obtain ⟨m, hm, rfl⟩ := mem_textEntries he
    obtain ⟨n, hn, heq⟩ := mem_textEntries hnew
    obtain ⟨hkey, rfl⟩ := Prod.mk.inj heq
    rcases defaultMembers_cases hm with ⟨hcatalog, ss, -, hss⟩ | ⟨hcatalog, flat, hflat, -, hreplaced⟩
    · rw [hss]
      by_cases hlist : ∃ items, n.2 = .list items
      · obtain ⟨items, hitems⟩ := hlist
        have hfits := hfitting n hn
        rw [hitems, ← text.inj hkey] at hfits
        obtain ⟨us, hus, -⟩ := (fitting_texts m.1 ss).lists hcatalog hfits
        exact ⟨_, hitems ▸ hus⟩
      · exact ⟨n.2, mergeAt_replaced (by rintro _ _ ⟨⟩) fun _ _ ys _ heq => hlist ⟨ys, heq⟩⟩
    · rw [hflat]
      exact accepts_mapping _ hreplaced n.2 (halike n hn) fun hadditive =>
        absurd (isCatalogKey_iff.mp hadditive) hcatalog

lemma fitting_of_merged {merged : List (Value × Value)} (hdistinct : (members.map Prod.fst).Nodup)
    (h : mergeEntries (textEntries defaultMembers) (textEntries members) = .ok merged) :
    ∀ m ∈ members, Fitting m.1 m.2 := by
  intro m hm items hitems hkey
  obtain ⟨ss, hne, hss⟩ := exists_catalog hkey
  have hfound := (lookup_textEntries hdistinct).mpr hm
  obtain ⟨v, hv, -⟩ := (lookup_mergeEntries (keysDistinct_textEntries.mpr hdistinct) h m.1).2 _ hfound
  rw [hss, hitems, mergeAt, if_pos (isCatalogKey_iff.mpr hkey)] at hv
  exact texts_of_united hne hv

namespace RephrasedEntries

variable {merged merged' : List (Value × Value)}

lemma symm (h : RephrasedEntries members members') : RephrasedEntries members' members where
  distinct := h.distinct'
  distinct' := h.distinct
  keys := fun key => (h.keys key).symm
  values := fun key v v' hv hv' => (h.values key v' v hv' hv).symm

lemma exists_rephrased (h : RephrasedEntries members members') {m : CodePoints × Value} (hm : m ∈ members) :
    ∃ v, (m.1, v) ∈ members' ∧ Rephrased m.1 m.2 v := by
  obtain ⟨v, hv⟩ := exists_mem_of_key ((h.keys m.1).mp (List.mem_map_of_mem hm))
  exact ⟨v, hv, h.values m.1 m.2 v hm hv⟩

lemma wellKeyed (h : RephrasedEntries members members') : ∀ m ∈ members, WellKeyed m.2 := by
  intro m hm
  obtain ⟨v, -, hv⟩ := h.exists_rephrased hm
  exact hv.wellKeyed

lemma fitting (h : RephrasedEntries members members') (hfitting : ∀ m ∈ members, Fitting m.1 m.2) :
    ∀ m ∈ members', Fitting m.1 m.2 := by
  intro m hm
  obtain ⟨v, hv, hrephrased⟩ := h.symm.exists_rephrased hm
  exact hrephrased.symm.fitting (hfitting _ hv)

lemma merged_alike (h : RephrasedEntries members members')
    (hmerged : mergeEntries (textEntries defaultMembers) (textEntries members) = .ok merged)
    (hmerged' : mergeEntries (textEntries defaultMembers) (textEntries members') = .ok merged') :
    JsonAlike (.mapping merged) (.mapping merged') := by
  obtain ⟨hdistinct, hplain⟩ := plain_mapping.mp plain_defaultMembers
  refine mergeEntries_alike hdistinct (fun m hm => (hplain m hm).jsonAlike) h.distinct h.distinct' h.keys
    ?_ hmerged hmerged'
  intro key new new' v v' hnew hnew' hv hv'
  have hrephrased := h.values key new new' hnew hnew'
  cases hold : lookup key (textEntries defaultMembers) with
  | none =>
    rw [hold, mergeAt_none] at hv hv'
    obtain rfl := Except.ok.inj hv
    obtain rfl := Except.ok.inj hv'
    refine hrephrased.resolve_right fun ⟨hkey, _⟩ => ?_
    obtain ⟨ss, -, hss⟩ := exists_catalog hkey
    rw [hold] at hss
    cases hss
  | some old =>
    rw [hold] at hv hv'
    rcases defaultMembers_cases (mem_of_lookup hold) with
      ⟨hkey, ss, hne, hss⟩ | ⟨hkey, flat, hss, hflat, hreplaced⟩
    · obtain rfl : old = .list (ss.map .text) := hss
      exact mergeAt_rephrased hkey hne hrephrased hv hv'
    · obtain rfl : old = .mapping (textEntries flat) := hss
      exact mergeAt_flat hflat hreplaced (hrephrased.resolve_right fun h => hkey h.1) hv hv'

end RephrasedEntries

/-- The presentation of a user's configuration does not show in what it is merged into. Either the
catalogs of both, where they are lists, hold texts only, and both are merged; or both are refused. -/
theorem withUser_presentation (h : RephrasedEntries members members') :
    ((∀ m ∈ members, Fitting m.1 m.2) ∧ ∃ c c', withUser (.mapping (textEntries members)) = .ok c ∧
      withUser (.mapping (textEntries members')) = .ok c' ∧ Interchangeable c c') ∨
    ((¬ ∀ m ∈ members, Fitting m.1 m.2) ∧
      (∃ fault, withUser (.mapping (textEntries members)) = .error fault) ∧
        ∃ fault, withUser (.mapping (textEntries members')) = .error fault) := by
  rw [withUser_mapping, withUser_mapping]
  by_cases hfitting : ∀ m ∈ members, Fitting m.1 m.2
  · left
    obtain ⟨merged, hmerged⟩ := exists_merged h.distinct h.wellKeyed hfitting
    obtain ⟨merged', hmerged'⟩ := exists_merged h.distinct' h.symm.wellKeyed (h.fitting hfitting)
    rw [hmerged, hmerged']
    exact ⟨hfitting, _, _, rfl, rfl, interchangeable_of_alike (h.merged_alike hmerged hmerged')⟩
  · right
    have hrefused : ∀ {members : List (CodePoints × Value)}, (members.map Prod.fst).Nodup →
        (¬ ∀ m ∈ members, Fitting m.1 m.2) → ∃ fault,
          (mergeEntries (textEntries defaultMembers) (textEntries members)).map Value.mapping =
            .error fault := by
      intro members hdistinct hunfit
      cases hmerged : mergeEntries (textEntries defaultMembers) (textEntries members) with
      | error fault => exact ⟨fault, rfl⟩
      | ok merged => exact absurd (fitting_of_merged hdistinct hmerged) hunfit
    exact ⟨hfitting, hrefused h.distinct hfitting,
      hrefused h.distinct' fun hfitting' => hfitting (h.symm.fitting hfitting')⟩

theorem withUser_presentation_names :
    let members : List (CodePoints × Value) := [
      ("default_import_names", texts ["Card", "Button"]),
      ("rules", .mapping (textEntries [("a", .real ⟨0⟩), ("b", .null)]))]
    let members' : List (CodePoints × Value) := [
      ("rules", .mapping (textEntries [("b", .null), ("a", .real ⟨0⟩)])),
      ("default_import_names", texts ["Button", "Card", "Button"])]
    RephrasedEntries members members' ∧
      ∃ c c', withUser (.mapping (textEntries members)) = .ok c ∧
        withUser (.mapping (textEntries members')) = .ok c' ∧ Interchangeable c c' := by
  intro members members'
  have hrules : JsonAlike (.mapping (textEntries [("a", .real ⟨0⟩), ("b", .null)]))
      (.mapping (textEntries [("b", .null), ("a", .real ⟨0⟩)])) := by
    refine .mapping (by decide) (by decide) (by simp [or_comm]) ?_
    rintro key v v' hv hv'
    simp only [List.mem_cons, List.not_mem_nil, or_false, Prod.mk.injEq] at hv hv'
    rcases hv with ⟨rfl, rfl⟩ | ⟨rfl, rfl⟩
    · obtain rfl := (hv'.resolve_left (by simp)).2
      exact .real _
    · obtain rfl := (hv'.resolve_right (by simp)).2
      exact .null
  have h : RephrasedEntries members members' := by
    refine ⟨by decide, by decide, by simp [members, members', or_comm], ?_⟩
    intro key v v' hv hv'
    simp only [members, members', List.mem_cons, List.not_mem_nil, or_false, Prod.mk.injEq] at hv hv'
    rcases hv with ⟨rfl, rfl⟩ | ⟨rfl, rfl⟩
    · obtain rfl := (hv'.resolve_left (by simp)).2
      exact .inr ⟨.inr rfl, _, _, rfl, rfl, by simp [or_comm]⟩
    · obtain rfl := (hv'.resolve_right (by simp)).2
      exact .inl hrules
  refine ⟨h, ?_⟩
  obtain ⟨-, hsame⟩ | ⟨hunfit, -⟩ := withUser_presentation h
  · exact hsame
  · refine absurd ?_ hunfit
    simpa [members] using ⟨fitting_texts _ ["Card", "Button"], fitting_of_not_list (by simp [Value.sort])⟩

end Config

end MarkupLabels
