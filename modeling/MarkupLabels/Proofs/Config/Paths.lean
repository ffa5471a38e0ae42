import Mathlib
import MarkupLabels.Proofs.Config.Merging
import MarkupLabels.Proofs.Config.Plain

/-! A merge path by path: where both configurations hold mappings, so does the merged one, with the keys
of both, and what stands under a key is told by what stood there in each. -/

namespace MarkupLabels.Value

variable {key : CodePoints} {path below : List CodePoints} {v w old new : Value}
  {entries base update merged : List (Value × Value)} {members : List (CodePoints × Value)}

def valueAt? : List CodePoints → Value → Option Value
  | [], v => some v
  | key :: path, .mapping entries => (lookup key entries).bind (valueAt? path)
  | _ :: _, _ => none

def IsCatalogKey (key : CodePoints) : Prop := key = "packages" ∨ key = "default_import_names"

def Fitting (key : CodePoints) (v : Value) : Prop :=
  ∀ items, v = .list items → IsCatalogKey key → ∃ ss : List CodePoints, items = ss.map .text

inductive Nested : Value → Prop
  | mapping {members : List (CodePoints × Value)} (hkeys : (members.map Prod.fst).Nodup)
      (hmembers : ∀ m ∈ members, Nested m.2) (hfitting : ∀ m ∈ members, Fitting m.1 m.2) :
      Nested (.mapping (textEntries members))
  | leaf {v : Value} (h : v.sort ≠ .mapping) : Nested v

/-- How what stands under a key after a merge is told by what stood there before, in the old
configuration and in the new one. -/
structure MergedUnder (key : CodePoints) (old new merged : Option Value) : Prop where
  kept : new = none → merged = old
  mappings : ∀ base update, old = some (.mapping base) → new = some (.mapping update) →
    ∃ v, merge (.mapping base) (.mapping update) = .ok v ∧ merged = some v
  lists : IsCatalogKey key → ∀ xs ys, old = some (.list xs) → new = some (.list ys) →
    ∃ ss : List CodePoints, merged = some (.list (ss.map .text)) ∧ ss.Pairwise (· < ·) ∧
      ∀ s, s ∈ ss ↔ .text s ∈ xs ∨ .text s ∈ ys
  replaced : ∀ v, new = some v →
    (∀ base update, old = some (.mapping base) → v ≠ .mapping update) →
    (IsCatalogKey key → ∀ xs ys, old = some (.list xs) → v ≠ .list ys) → merged = some v

lemma fitting_of_not_list (h : v.sort ≠ .list) : Fitting key v := by
  rintro items rfl
  exact absurd rfl h

lemma fitting_texts (key : CodePoints) (ss : List CodePoints) : Fitting key (.list (ss.map .text)) :=
  fun _ heq _ => ⟨ss, (list.inj heq).symm⟩

lemma isCatalogKey_iff : isAdditive (.text key) = true ↔ IsCatalogKey key := by
  rw [isAdditive_iff, text.injEq, text.injEq, IsCatalogKey]

lemma map_fst_textEntries (members : List (CodePoints × Value)) :
    (textEntries members).map Prod.fst = (members.map Prod.fst).map .text := by
  rw [textEntries, List.map_map, List.map_map]
  rfl

lemma keysDistinct_textEntries : KeysDistinct (textEntries members) ↔ (members.map Prod.fst).Nodup := by
  rw [KeysDistinct, map_fst_textEntries, List.pairwise_map, List.Nodup]
  apply List.Pairwise.iff
  intro s t
  rw [← Bool.not_eq_true, text_same_iff, text.injEq]

lemma exists_textEntries {ss : List CodePoints} (h : entries.map Prod.fst = ss.map .text) :
    ∃ members, entries = textEntries members ∧ members.map Prod.fst = ss := by
  induction ss generalizing entries with
  | nil => exact ⟨[], by simpa [textEntries] using h, rfl⟩
  | cons s ss ih =>
    obtain ⟨⟨k, v⟩, rest, rfl⟩ := List.exists_cons_of_ne_nil (l := entries) (by
      rintro rfl
      cases h)
    obtain ⟨rfl, hrest⟩ := List.cons.inj h
    obtain ⟨members, rfl, hkeys⟩ := ih hrest
    exact ⟨(s, v) :: members, rfl, by rw [List.map_cons, hkeys]⟩

lemma mem_textEntries {e : Value × Value} (h : e ∈ textEntries members) :
    ∃ m ∈ members, e = (.text m.1, m.2) := by
  obtain ⟨m, hm, rfl⟩ := List.mem_map.mp h
  exact ⟨m, hm, rfl⟩

lemma mem_of_lookup (h : lookup key (textEntries members) = some v) : (key, v) ∈ members := by
  rw [← find?_text] at h
  obtain ⟨k, hmem, hsame⟩ := mem_of_find? h
  obtain rfl := text_same_iff.mp hsame
  obtain ⟨m, hm, heq⟩ := mem_textEntries hmem
  obtain ⟨hkey, rfl⟩ := Prod.mk.inj heq
  rwa [text.inj hkey]

section Keys

lemma keys_put_text {keys : List CodePoints} (hbase : base.map Prod.fst = keys.map .text) :
    (put (.text key) v base).map Prod.fst =
      (keys ++ if key ∈ keys then [] else [key]).map .text := by
  by_cases hkey : key ∈ keys
  · rw [if_pos hkey, List.append_nil, ← hbase]
    refine (keys_put (.text key) v base).resolve_right ?_
    rintro ⟨hnew, -⟩
    have hsame := hnew (.text key) (hbase ▸ List.mem_map_of_mem hkey)
    rw [text_same_iff.mpr rfl] at hsame
    cases hsame
  · rw [if_neg hkey, List.map_append, ← hbase]
    refine ((keys_put (.text key) v base).resolve_left ?_).2
    intro hsame
    have hfound : lookup key (put (.text key) v base) = some v := lookup_put_self
    rw [lookup_eq_none] at hfound
    · cases hfound
    · rw [hsame, hbase]
      simpa using hkey

lemma keys_mergeEntries {keys : List CodePoints} (hbase : base.map Prod.fst = keys.map .text)
    (hkeys : (members.map Prod.fst).Nodup) (h : mergeEntries base (textEntries members) = .ok merged) :
    merged.map Prod.fst = (keys ++ (members.map Prod.fst).filter (· ∉ keys)).map .text := by
  induction members generalizing base keys with
  | nil =>
    rw [textEntries, List.map_nil, mergeEntries] at h
    rw [← Except.ok.inj h, hbase, List.map_nil, List.filter_nil, List.append_nil]
  | cons m members ih =>
    obtain ⟨hnew, hkeys⟩ := List.nodup_cons.mp hkeys
    change mergeEntries base ((.text m.1, m.2) :: textEntries members) = _ at h
    rw [mergeEntries] at h
    obtain ⟨v, -, h⟩ := Fault.bind_eq_ok.mp h
    rw [ih (keys_put_text hbase) hkeys h, List.map_cons, List.filter_cons]
    congr 1
    by_cases hm : m.1 ∈ keys
    · simp [hm]
    · -- The first key is not among the later ones, so these are sifted as before.
      have hsifted : (members.map Prod.fst).filter (fun k => decide (k ∉ keys ++ [m.1])) =
          (members.map Prod.fst).filter (fun k => decide (k ∉ keys)) := by
        refine List.filter_congr fun k hk => ?_
        have hne : k ≠ m.1 := fun heq => hnew (heq ▸ hk)
        simp [hne]
      rw [if_neg hm, hsifted, if_pos (decide_eq_true hm), List.append_assoc, List.singleton_append]

end Keys

section Success

lemma Nested.member (h : Nested (.mapping entries)) (hv : lookup key entries = some v) :
    Nested v ∧ Fitting key v := by
  generalize hw : Value.mapping entries = w at h
  cases h with
  | mapping hkeys hmembers hfitting =>
    obtain rfl := mapping.inj hw
    have hmem := mem_of_lookup hv
    exact ⟨hmembers _ hmem, hfitting _ hmem⟩
  | leaf h => exact absurd (hw ▸ rfl) h

lemma Nested.exists_members (h : Nested (.mapping entries)) :
    ∃ members, entries = textEntries members ∧ (members.map Prod.fst).Nodup := by
  generalize hw : Value.mapping entries = w at h
  cases h with
  | mapping hkeys => exact ⟨_, mapping.inj hw, hkeys⟩
  | leaf h => exact absurd (hw ▸ rfl) h

lemma Fitting.lists (hkey : IsCatalogKey key) {xs ys : List Value} (hold : Fitting key (.list xs))
    (hnew : Fitting key (.list ys)) :
    ∃ ss : List CodePoints, mergeAt (.text key) (some (.list xs)) (.list ys) = .ok (.list (ss.map .text)) ∧
      ss.Pairwise (· < ·) ∧ ∀ s, s ∈ ss ↔ .text s ∈ xs ∨ .text s ∈ ys := by
  obtain ⟨ss, rfl⟩ := hold xs rfl hkey
  obtain ⟨ts, rfl⟩ := hnew ys rfl hkey
  obtain ⟨us, hus, hsorted, hmem⟩ := united_texts ss ts
  refine ⟨us, ?_, hsorted, by simpa using hmem⟩
  rw [mergeAt, if_pos (isCatalogKey_iff.mpr hkey), hus]

lemma mergeAt_replaced {o : Option Value}
    (hmappings : ∀ base update, o = some (.mapping base) → v ≠ .mapping update)
    (hlists : IsCatalogKey key → ∀ xs ys, o = some (.list xs) → v ≠ .list ys) :
    mergeAt (.text key) o v = .ok v := by
  rw [mergeAt.eq_def]
  split
  · next base update => exact absurd rfl (hmappings base update rfl)
  · next xs ys =>
    rw [if_neg]
    exact fun hkey => hlists (isCatalogKey_iff.mp hkey) xs ys rfl rfl
  · rfl

lemma Nested.mergeAt_ok (hold : Nested old) (hnew : Nested new) (hfitting : Fitting key old)
    (hfitting' : Fitting key new) : ∃ v, mergeAt (.text key) (some old) new = .ok v := by
  induction hold generalizing key new with
  | @leaf old h =>
    by_cases hlists : IsCatalogKey key ∧ ∃ xs ys, old = .list xs ∧ new = .list ys
    · obtain ⟨hkey, xs, ys, rfl, rfl⟩ := hlists
      obtain ⟨ss, hss, -⟩ := hfitting.lists hkey hfitting'
      exact ⟨_, hss⟩
    · refine ⟨new, mergeAt_replaced ?_ ?_⟩
      · rintro base update ⟨⟩
        exact absurd rfl h
      · rintro hkey xs ys ⟨⟩ rfl
        exact hlists ⟨hkey, xs, ys, rfl, rfl⟩
  | @mapping base hkeys hmembers hfits ih =>
    by_cases hmapping : ∃ update, new = .mapping update
    · obtain ⟨update, rfl⟩ := hmapping
      obtain ⟨members, rfl, hdistinct⟩ := hnew.exists_members
      have htexts : ∀ k ∈ (textEntries base).map Prod.fst, ∃ s, k = .text s := by
        intro k hk
        rw [map_fst_textEntries] at hk
        obtain ⟨s, -, rfl⟩ := List.mem_map.mp hk
        exact ⟨s, rfl⟩
      obtain ⟨merged, hmerged⟩ := mergeEntries_ok_of_texts (keysDistinct_textEntries.mpr hdistinct)
        htexts (fun e he new' hnew' => by
          obtain ⟨m, hm, rfl⟩ := mem_textEntries he
          have hfound := lookup_of_mem (keysDistinct_textEntries.mpr hdistinct) hnew'
          obtain ⟨hnested, hfits'⟩ := hnew.member hfound
          exact ih m hm hnested (hfits m hm) hfits')
      exact ⟨.mapping merged, by rw [mergeAt, hmerged]; rfl⟩
    · exact ⟨new, mergeAt_replaced (fun _ update _ heq => hmapping ⟨update, heq⟩)
        (by rintro _ _ _ ⟨⟩)⟩

lemma Nested.mergeEntries_ok (hbase : Nested (.mapping base)) (hupdate : Nested (.mapping update)) :
    ∃ merged, mergeEntries base update = .ok merged := by
  obtain ⟨v, hv⟩ : ∃ v, mergeAt (.text "") (some (.mapping base)) (.mapping update) = .ok v :=
    hbase.mergeAt_ok hupdate (fitting_of_not_list (by simp [sort])) (fitting_of_not_list (by simp [sort]))
  rw [mergeAt] at hv
  obtain ⟨merged, hmerged, -⟩ := Fault.bind_eq_ok.mp hv
  exact ⟨merged, hmerged⟩

end Success

section Paths

lemma Nested.mergedUnder (hbase : Nested (.mapping base)) (hupdate : Nested (.mapping update))
    (h : mergeEntries base update = .ok merged) (key : CodePoints) :
    MergedUnder key (lookup key base) (lookup key update) (lookup key merged) := by
  obtain ⟨members, rfl, hdistinct⟩ := hupdate.exists_members
  obtain ⟨hnone, hsome⟩ := lookup_mergeEntries (keysDistinct_textEntries.mpr hdistinct) h key
  refine ⟨hnone, ?_, ?_, ?_⟩
  · intro old new hold hnew
    obtain ⟨v, hv, hfound⟩ := hsome _ hnew
    rw [hold, mergeAt] at hv
    exact ⟨v, by rw [merge, hv], hfound⟩
  · intro hkey xs ys hold hnew
    obtain ⟨v, hv, hfound⟩ := hsome _ hnew
    obtain ⟨ss, hss, hsorted, hmem⟩ :=
      Fitting.lists hkey (hbase.member hold).2 (hupdate.member hnew).2
    rw [hold, hss] at hv
    exact ⟨ss, hfound.trans (congrArg some (Except.ok.inj hv).symm), hsorted, hmem⟩
  · intro new hnew hmappings hlists
    obtain ⟨v, hv, hfound⟩ := hsome _ hnew
    rw [mergeAt_replaced hmappings hlists] at hv
    rw [hfound, Except.ok.inj hv]

lemma valueAt?_append (path below : List CodePoints) (v : Value) :
    valueAt? (path ++ below) v = (valueAt? path v).bind (valueAt? below) := by
  induction path generalizing v with
  | nil => rfl
  | cons key path ih =>
    cases v with
    | mapping entries =>
      rw [List.cons_append, valueAt?, valueAt?, Option.bind_assoc]
      congr 1
      exact funext ih
    | _ => rfl

lemma valueAt?_concat (h : valueAt? path v = some (.mapping entries)) (key : CodePoints) :
    valueAt? (path ++ [key]) v = lookup key entries := by
  rw [valueAt?_append, h, Option.bind_some, valueAt?]
  exact Option.bind_fun_some _

lemma exists_of_valueAt? (h : valueAt? path v = some (.mapping entries)) : ∃ es, v = .mapping es := by
  cases path with
  | nil => exact ⟨entries, Option.some.inj h⟩
  | cons key path =>
    cases v with
    | mapping es => exact ⟨es, rfl⟩
    | _ => cases h

lemma Nested.mergeEntries_at {old new : List (Value × Value)} (hbase : Nested (.mapping base))
    (hupdate : Nested (.mapping update)) (h : mergeEntries base update = .ok merged)
    (hold : valueAt? path (.mapping base) = some (.mapping old))
    (hnew : valueAt? path (.mapping update) = some (.mapping new)) :
    ∃ both, valueAt? path (.mapping merged) = some (.mapping both) ∧ Nested (.mapping old) ∧
      Nested (.mapping new) ∧ mergeEntries old new = .ok both := by
  induction path generalizing base update merged with
  | nil =>
    obtain rfl := mapping.inj (Option.some.inj hold)
    obtain rfl := mapping.inj (Option.some.inj hnew)
    exact ⟨merged, rfl, hbase, hupdate, h⟩
  | cons key path ih =>
    rw [valueAt?] at hold hnew ⊢
    obtain ⟨v, hv, hold⟩ := Option.bind_eq_some_iff.mp hold
    obtain ⟨w, hw, hnew⟩ := Option.bind_eq_some_iff.mp hnew
    obtain ⟨vs, rfl⟩ := exists_of_valueAt? hold
    obtain ⟨ws, rfl⟩ := exists_of_valueAt? hnew
    obtain ⟨u, hu, hmerged⟩ := (hbase.mergedUnder hupdate h key).mappings vs ws hv hw
    rw [merge] at hu
    obtain ⟨us, hus, hu⟩ := Fault.bind_eq_ok.mp hu
    obtain rfl := Except.ok.inj hu
    rw [hmerged]
    exact ih (hbase.member hv).1 (hupdate.member hw).1 hus hold hnew

/-- Two configurations of nested mappings can be merged. At every path where both hold mappings the
merged one has the old keys, in their order, and behind them the new ones; and under each of these
there stands what is told by what stood there before. -/
theorem merge_along_paths {base update : List (CodePoints × Value)}
    (hbase : Nested (.mapping (textEntries base))) (hupdate : Nested (.mapping (textEntries update))) :
    ∃ merged, merge (.mapping (textEntries base)) (.mapping (textEntries update)) = .ok merged ∧
      ∀ (path : List CodePoints) (old new : List (CodePoints × Value)),
        valueAt? path (.mapping (textEntries base)) = some (.mapping (textEntries old)) →
        valueAt? path (.mapping (textEntries update)) = some (.mapping (textEntries new)) →
        (∃ both, valueAt? path merged = some (.mapping (textEntries both)) ∧
          both.map Prod.fst = old.map Prod.fst ++ (new.map Prod.fst).filter (· ∉ old.map Prod.fst)) ∧
        ∀ key, MergedUnder key (valueAt? (path ++ [key]) (.mapping (textEntries base)))
          (valueAt? (path ++ [key]) (.mapping (textEntries update))) (valueAt? (path ++ [key]) merged) := by
  obtain ⟨merged, hmerged⟩ := hbase.mergeEntries_ok hupdate
  refine ⟨.mapping merged, by rw [merge, hmerged]; rfl, fun path old new hold hnew => ?_⟩
  obtain ⟨both, hboth, hnested, hnested', h⟩ := hbase.mergeEntries_at hupdate hmerged hold hnew
  obtain ⟨members, hmembers, hdistinct⟩ := hnested'.exists_members
  obtain rfl := textEntries_inj.mp hmembers
  obtain ⟨members, rfl, hkeys⟩ :=
    exists_textEntries (keys_mergeEntries (map_fst_textEntries old) hdistinct h)
  refine ⟨⟨members, hboth, hkeys⟩, fun key => ?_⟩
  rw [valueAt?_concat hold, valueAt?_concat hnew, valueAt?_concat hboth]
  exact hnested.mergedUnder hnested' h key

theorem merge_along_paths_catalogs :
    let base : List (CodePoints × Value) := [("rules", .integer 1),
      ("files", .mapping (textEntries [("packages", .list (["b", "a"].map .text))]))]
    let update : List (CodePoints × Value) := [("files", .mapping (textEntries [("packages", .list (["c", "a"].map .text))])),
      ("rules", .mapping (textEntries []))]
    Nested (.mapping (textEntries base)) ∧ Nested (.mapping (textEntries update)) ∧
      ∃ merged, merge (.mapping (textEntries base)) (.mapping (textEntries update)) = .ok merged ∧
        valueAt? ["rules"] merged = some (.mapping (textEntries [])) ∧
        ∃ ss : List CodePoints, valueAt? ["files", "packages"] merged = some (.list (ss.map .text)) ∧
          ss.Pairwise (· < ·) ∧ ∀ s, s ∈ ss ↔ s ∈ (["b", "a"] : List CodePoints) ∨ s ∈ (["c", "a"] : List CodePoints) := by
  intro base update
  have hcatalog : ∀ ss : List CodePoints,
      Nested (.mapping (textEntries [("packages", .list (ss.map .text))])) := by
    intro ss
    refine .mapping (by simp) ?_ ?_
    · simpa using Nested.leaf (by simp [sort])
    · simpa using fitting_texts "packages" ss
  have hbase : Nested (.mapping (textEntries base)) := by
    refine .mapping (by decide) ?_ ?_
    · simpa [base] using ⟨Nested.leaf (v := .integer 1) (by simp [sort]), hcatalog ["b", "a"]⟩
    · simpa [base] using ⟨fitting_of_not_list (by simp [sort]), fitting_of_not_list (by simp [sort])⟩
  have hupdate : Nested (.mapping (textEntries update)) := by
    refine .mapping (by decide) ?_ ?_
    · simpa [update] using ⟨hcatalog ["c", "a"], @Nested.mapping [] .nil (by simp) (by simp)⟩
    · simpa [update] using ⟨fitting_of_not_list (by simp [sort]), fitting_of_not_list (by simp [sort])⟩
  obtain ⟨merged, hmerged, hpaths⟩ := merge_along_paths hbase hupdate
  have hrules := (hpaths [] base update rfl rfl).2 "rules"
  have hpackages := (hpaths ["files"] [("packages", .list (["b", "a"].map .text))]
    [("packages", .list (["c", "a"].map .text))] rfl rfl).2 "packages"
  obtain ⟨ss, hss, hsorted, hmem⟩ := hpackages.lists (.inl rfl) _ _ rfl rfl
  refine ⟨hbase, hupdate, merged, hmerged, ?_, ss, hss, hsorted, by simpa using hmem⟩
  exact hrules.replaced _ rfl (by rintro _ _ ⟨⟩) (by rintro _ _ _ ⟨⟩)

end Paths

end MarkupLabels.Value
