import Mathlib
import MarkupLabels.Config.Fingerprint
import MarkupLabels.Proofs.Text.CodePoints

/-! The JSON text of a plain value. The entries of its mappings are written in the order of their keys,
so it does not matter in which order they stand. -/

namespace MarkupLabels.Value

variable {α β : Type} {m : CodePoints × α} {l members members' : List (CodePoints × α)} {v w : Value}

def textEntries (members : List (CodePoints × α)) : List (Value × α) :=
  members.map fun m => (.text m.1, m.2)

inductive Plain : Value → Prop
  | null : Plain .null
  | bool (b : Bool) : Plain (.bool b)
  | integer (n : Int) : Plain (.integer n)
  | text (s : CodePoints) : Plain (.text s)
  | list {items : List Value} (hitems : ∀ v ∈ items, Plain v) : Plain (.list items)
  | mapping {members : List (CodePoints × Value)} (hkeys : (members.map Prod.fst).Nodup)
      (hmembers : ∀ m ∈ members, Plain m.2) : Plain (.mapping (textEntries members))

inductive Reordered : Value → Value → Prop
  | null : Reordered .null .null
  | bool (b : Bool) : Reordered (.bool b) (.bool b)
  | integer (n : Int) : Reordered (.integer n) (.integer n)
  | text (s : CodePoints) : Reordered (.text s) (.text s)
  | list {items items' : List Value} (hlength : items.length = items'.length)
      (hitems : ∀ (i : Nat) v v', items[i]? = some v → items'[i]? = some v' → Reordered v v') :
      Reordered (.list items) (.list items')
  | mapping {members members' : List (CodePoints × Value)}
      (hkeys : ∀ key, key ∈ members.map Prod.fst ↔ key ∈ members'.map Prod.fst)
      (hmembers : ∀ key v v', (key, v) ∈ members → (key, v') ∈ members' → Reordered v v') :
      Reordered (.mapping (textEntries members)) (.mapping (textEntries members'))

inductive JsonAlike : Value → Value → Prop
  | null : JsonAlike .null .null
  | bool (b : Bool) : JsonAlike (.bool b) (.bool b)
  | integer (n : Int) : JsonAlike (.integer n) (.integer n)
  | real (x : Binary64) : JsonAlike (.real x) (.real x)
  | text (s : CodePoints) : JsonAlike (.text s) (.text s)
  | list {items items' : List Value} (hlength : items.length = items'.length)
      (hitems : ∀ (i : Nat) v v', items[i]? = some v → items'[i]? = some v' → JsonAlike v v') :
      JsonAlike (.list items) (.list items')
  | mapping {members members' : List (CodePoints × Value)}
      (hdistinct : (members.map Prod.fst).Nodup) (hdistinct' : (members'.map Prod.fst).Nodup)
      (hkeys : ∀ key, key ∈ members.map Prod.fst ↔ key ∈ members'.map Prod.fst)
      (hmembers : ∀ key v v', (key, v) ∈ members → (key, v') ∈ members' → JsonAlike v v') :
      JsonAlike (.mapping (textEntries members)) (.mapping (textEntries members'))

def KeyBefore (m n : CodePoints × α) : Prop := m.1 < n.1

instance : DecidableRel (KeyBefore : CodePoints × α → CodePoints × α → Prop) :=
  fun m n => inferInstanceAs (Decidable (m.1 < n.1))

instance : Std.Irrefl (KeyBefore : CodePoints × α → CodePoints × α → Prop) := ⟨fun m => lt_irrefl m.1⟩

instance : Std.Antisymm (KeyBefore : CodePoints × α → CodePoints × α → Prop) :=
  ⟨fun _ _ hmn hnm => absurd hmn (lt_asymm hnm)⟩

def insertAll (sorted members : List (CodePoints × α)) : List (CodePoints × α) :=
  members.foldl (fun sorted m => sorted.orderedInsert KeyBefore m) sorted

def sortMembers (members : List (CodePoints × α)) : List (CodePoints × α) := insertAll [] members

lemma insertEntry_textEntries (m : CodePoints × α) (l : List (CodePoints × α)) :
    insertEntry (.text m.1) m.2 (textEntries l) = .ok (textEntries (l.orderedInsert KeyBefore m)) := by
  induction l with
  | nil => rfl
  | cons n l ih =>
    change (if decide (m.1 < n.1) = true then Except.ok ((.text m.1, m.2) :: textEntries (n :: l))
      else (insertEntry (.text m.1) m.2 (textEntries l)).bind
        fun more => .ok ((.text n.1, n.2) :: more)) = _
    rw [ih, List.orderedInsert_cons]
    by_cases h : KeyBefore m n
    · have hlt : m.1 < n.1 := h
      rw [if_pos h, if_pos (decide_eq_true hlt)]
      rfl
    · have hlt : ¬ m.1 < n.1 := h
      rw [if_neg h, if_neg (mt of_decide_eq_true hlt)]
      rfl

lemma sortEntries_textEntries (members : List (CodePoints × α)) :
    sortEntries (textEntries members) = .ok (textEntries (sortMembers members)) := by
  suffices h : ∀ sorted : List (CodePoints × α),
      (textEntries members).foldlM (fun sorted e => insertEntry e.1 e.2 sorted) (textEntries sorted) =
        .ok (textEntries (insertAll sorted members)) from h []
  induction members with
  | nil => exact fun sorted => rfl
  | cons m members ih =>
    intro sorted
    change ((insertEntry (.text m.1) m.2 (textEntries sorted)).bind _) = _
    rw [insertEntry_textEntries]
    exact ih _

lemma mem_insertAll (sorted : List (CodePoints × α)) :
    m ∈ insertAll sorted members ↔ m ∈ sorted ∨ m ∈ members := by
  induction members generalizing sorted with
  | nil => simp [insertAll]
  | cons n members ih =>
    rw [insertAll, List.foldl_cons, ← insertAll, ih, List.mem_orderedInsert, List.mem_cons]
    tauto

lemma pairwise_orderedInsert (hm : m.1 ∉ l.map Prod.fst) (h : l.Pairwise KeyBefore) :
    (l.orderedInsert KeyBefore m).Pairwise KeyBefore := by
  induction l with
  | nil => exact List.pairwise_singleton _ m
  | cons n l ih =>
    rw [List.map_cons, List.mem_cons, not_or] at hm
    obtain ⟨hhead, htail⟩ := List.pairwise_cons.mp h
    rw [List.orderedInsert_cons]
    split
    · next hlt =>
      apply List.pairwise_cons.mpr ⟨?_, h⟩
      intro k hk
      rcases List.mem_cons.mp hk with rfl | hk
      · exact hlt
      · exact lt_trans hlt (hhead k hk)
    · next hlt =>
      apply List.pairwise_cons.mpr ⟨?_, ih hm.2 htail⟩
      intro k hk
      rcases (List.mem_orderedInsert _).mp hk with rfl | hk
      · exact lt_of_le_of_ne (not_lt.mp hlt) (Ne.symm hm.1)
      · exact hhead k hk

lemma pairwise_insertAll {sorted : List (CodePoints × α)} (h : (members.map Prod.fst).Nodup)
    (hsorted : sorted.Pairwise KeyBefore)
    (hnew : ∀ key ∈ sorted.map Prod.fst, key ∉ members.map Prod.fst) :
    (insertAll sorted members).Pairwise KeyBefore := by
  induction members generalizing sorted with
  | nil => exact hsorted
  | cons m members ih =>
    rw [List.map_cons, List.nodup_cons] at h
    have hm : m.1 ∉ sorted.map Prod.fst := fun hm => hnew _ hm (by simp)
    apply ih h.2 (pairwise_orderedInsert hm hsorted)
    intro key hkey
    obtain ⟨n, hn, rfl⟩ := List.mem_map.mp hkey
    rcases (List.mem_orderedInsert _).mp hn with rfl | hn
    · exact h.1
    · exact fun hmore => hnew _ (List.mem_map_of_mem hn) (by simp [hmore])

lemma sortMembers_congr (h : (members.map Prod.fst).Nodup) (h' : (members'.map Prod.fst).Nodup)
    (hmem : ∀ m, m ∈ members ↔ m ∈ members') : sortMembers members = sortMembers members' := by
  have hsorted := pairwise_insertAll h .nil (by simp)
  apply hsorted.eq_of_mem_iff (pairwise_insertAll h' .nil (by simp))
  intro m
  rw [mem_insertAll, mem_insertAll, hmem]

lemma textEntries_inj : textEntries members = textEntries members' ↔ members = members' := by
  apply (List.map_injective_iff.mpr ?_).eq_iff
  rintro ⟨s, a⟩ ⟨t, b⟩ h
  simpa using h

lemma plain_list {items : List Value} : Plain (.list items) ↔ ∀ v ∈ items, Plain v := by
  constructor
  · rintro ⟨⟩
    assumption
  · exact .list

lemma plain_mapping {members : List (CodePoints × Value)} : Plain (.mapping (textEntries members)) ↔
    (members.map Prod.fst).Nodup ∧ ∀ m ∈ members, Plain m.2 := by
  constructor
  · generalize hentries : textEntries members = entries
    intro h
    cases h with
    | mapping hkeys hmembers =>
      obtain rfl := textEntries_inj.mp hentries
      exact ⟨hkeys, hmembers⟩
  · exact fun h => .mapping h.1 h.2

def written (v : Value) : List Char := (json v).toOption.getD []

lemma itemsJson_eq {items : List Value} (h : ∀ v ∈ items, json v = .ok v.written) :
    itemsJson items = .ok (items.map written) := by
  induction items with
  | nil => rw [itemsJson, List.map_nil]
  | cons v items ih =>
    rw [itemsJson, h v (by simp), ih fun w hw => h w (List.mem_cons_of_mem v hw)]
    rfl

lemma entriesJson_eq {members : List (CodePoints × Value)} (h : ∀ m ∈ members, json m.2 = .ok m.2.written) :
    entriesJson (textEntries members) =
      .ok (textEntries (members.map fun m => (m.1, m.2.written))) := by
  induction members with
  | nil => rw [textEntries, List.map_nil, entriesJson, List.map_nil, textEntries, List.map_nil]
  | cons m members ih =>
    change entriesJson ((.text m.1, m.2) :: textEntries members) = _
    rw [entriesJson, h m (by simp), ih fun n hn => h n (List.mem_cons_of_mem m hn)]
    rfl

def entryTexts (members : List (CodePoints × List Char)) : List (List Char) :=
  members.map fun m => entryJson m.1 m.2

lemma mapM_entryJson (members : List (CodePoints × List Char)) :
    ((textEntries members).mapM fun e => do return entryJson (← keyJson e.1) e.2 :
      Except Fault (List (List Char))) = .ok (entryTexts members) := by
  induction members with
  | nil => rfl
  | cons m members ih =>
    rw [textEntries, List.map_cons, List.mapM_cons, ← textEntries, ih]
    rfl

lemma json_list {items : List Value} (h : ∀ v ∈ items, json v = .ok v.written) :
    json (.list items) = .ok (listJson (items.map written)) := by
  rw [json, itemsJson_eq h]
  rfl

lemma json_mapping {members : List (CodePoints × Value)} (h : ∀ m ∈ members, json m.2 = .ok m.2.written) :
    json (.mapping (textEntries members)) = .ok (mappingJson (entryTexts
      (sortMembers (members.map fun m => (m.1, m.2.written))))) := by
  rw [json, entriesJson_eq h]
  change (sortEntries _).bind _ = _
  rw [sortEntries_textEntries]
  change Except.bind (List.mapM _ (textEntries _)) _ = _
  rw [mapM_entryJson]
  rfl

lemma written_of_json {t : List Char} (h : json v = .ok t) : v.written = t := by
  rw [written, h]
  rfl

lemma json_eq_written {t : List Char} (h : json v = .ok t) : json v = .ok v.written := by
  rw [written_of_json h, h]

lemma Plain.json_eq (h : Plain v) : json v = .ok v.written := by
  induction h with
  | null => exact json_eq_written rfl
  | bool b => exact json_eq_written rfl
  | integer n => exact json_eq_written rfl
  | text s => exact json_eq_written rfl
  | list hitems ih => exact json_eq_written (json_list ih)
  | mapping hkeys hmembers ih => exact json_eq_written (json_mapping ih)

@[simp] lemma written_null : written .null = nullJson := written_of_json rfl

@[simp] lemma written_bool (b : Bool) : written (.bool b) = boolJson b := written_of_json rfl

@[simp] lemma written_integer (n : Int) : written (.integer n) = integerJson n := written_of_json rfl

@[simp] lemma written_text (s : CodePoints) : written (.text s) = Json.quotedPoints s :=
  written_of_json rfl

lemma written_list {items : List Value} (h : ∀ v ∈ items, Plain v) :
    written (.list items) = listJson (items.map written) :=
  written_of_json (json_list fun v hv => (h v hv).json_eq)

def writtenMembers (members : List (CodePoints × Value)) : List (CodePoints × List Char) :=
  sortMembers (members.map fun m => (m.1, m.2.written))

lemma written_mapping {members : List (CodePoints × Value)} (h : ∀ m ∈ members, Plain m.2) :
    written (.mapping (textEntries members)) = mappingJson (entryTexts (writtenMembers members)) :=
  written_of_json (json_mapping fun m hm => (h m hm).json_eq)

lemma mem_writtenMembers {members : List (CodePoints × Value)} {key : CodePoints} {t : List Char} :
    (key, t) ∈ writtenMembers members ↔ ∃ v, (key, v) ∈ members ∧ v.written = t := by
  rw [writtenMembers, sortMembers, mem_insertAll]
  simp

lemma nodup_keys {members : List (CodePoints × Value)} (h : (members.map Prod.fst).Nodup) :
    ((members.map fun m => (m.1, m.2.written)).map Prod.fst).Nodup := by
  rwa [List.map_map]

lemma exists_mem_of_key {members : List (CodePoints × Value)} {key : CodePoints}
    (h : key ∈ members.map Prod.fst) : ∃ v, (key, v) ∈ members := by
  obtain ⟨⟨k, v⟩, hmem, rfl⟩ := List.mem_map.mp h
  exact ⟨v, hmem⟩

lemma json_list_congr {items items' : List Value} (hlength : items.length = items'.length)
    (h : ∀ (i : Nat) v v', items[i]? = some v → items'[i]? = some v' →
      json v = .ok v.written ∧ json v' = .ok v.written) :
    json (.list items) = .ok (written (.list items)) ∧
      json (.list items') = .ok (written (.list items)) := by
  have hboth : ∀ i (hi : i < items.length) (hi' : i < items'.length),
      json items[i] = .ok items[i].written ∧ json items'[i] = .ok items[i].written :=
    fun i hi hi' => h i _ _ (List.getElem?_eq_getElem hi) (List.getElem?_eq_getElem hi')
  have hitems : ∀ v ∈ items, json v = .ok v.written := by
    intro v hv
    obtain ⟨i, hi, rfl⟩ := List.mem_iff_getElem.mp hv
    exact (hboth i hi (hlength ▸ hi)).1
  have hitems' : ∀ v ∈ items', json v = .ok v.written := by
    intro v hv
    obtain ⟨i, hi, rfl⟩ := List.mem_iff_getElem.mp hv
    exact json_eq_written (hboth i (hlength ▸ hi) hi).2
  have hsame : items'.map written = items.map written := by
    refine List.ext_getElem (by simp [hlength]) fun i hi hi' => ?_
    rw [List.getElem_map, List.getElem_map]
    exact written_of_json (hboth i (by simpa using hi') (by simpa using hi)).2
  have hlist := json_list hitems
  rw [written_of_json hlist, json_list hitems', hsame]
  exact ⟨hlist, rfl⟩

lemma json_mapping_congr {members members' : List (CodePoints × Value)}
    (hdistinct : (members.map Prod.fst).Nodup) (hdistinct' : (members'.map Prod.fst).Nodup)
    (hkeys : ∀ key, key ∈ members.map Prod.fst ↔ key ∈ members'.map Prod.fst)
    (h : ∀ key v v', (key, v) ∈ members → (key, v') ∈ members' →
      json v = .ok v.written ∧ json v' = .ok v.written) :
    json (.mapping (textEntries members)) = .ok (written (.mapping (textEntries members))) ∧
      json (.mapping (textEntries members')) = .ok (written (.mapping (textEntries members))) := by
  have hleft : ∀ key v, (key, v) ∈ members → ∃ v', (key, v') ∈ members' ∧
      json v = .ok v.written ∧ json v' = .ok v.written := by
    intro key v hv
    obtain ⟨v', hv'⟩ := exists_mem_of_key ((hkeys key).mp (List.mem_map_of_mem hv))
    exact ⟨v', hv', h key v v' hv hv'⟩
  have hright : ∀ key v', (key, v') ∈ members' → ∃ v, (key, v) ∈ members ∧
      json v' = .ok v'.written ∧ v.written = v'.written := by
    intro key v' hv'
    obtain ⟨v, hv⟩ := exists_mem_of_key ((hkeys key).mpr (List.mem_map_of_mem hv'))
    have hjson := (h key v v' hv hv').2
    exact ⟨v, hv, json_eq_written hjson, (written_of_json hjson).symm⟩
  have hsorted : writtenMembers members' = writtenMembers members := by
    apply sortMembers_congr (nodup_keys hdistinct') (nodup_keys hdistinct)
    rintro ⟨key, t⟩
    simp only [List.mem_map, Prod.mk.injEq, Prod.exists]
    constructor
    · rintro ⟨_, v', hmem', rfl, rfl⟩
      obtain ⟨v, hmem, -, heq⟩ := hright _ v' hmem'
      exact ⟨_, v, hmem, rfl, heq⟩
    · rintro ⟨_, v, hmem, rfl, rfl⟩
      obtain ⟨v', hmem', -, hjson⟩ := hleft _ v hmem
      exact ⟨_, v', hmem', rfl, written_of_json hjson⟩
  have hmapping : json (.mapping (textEntries members)) =
      .ok (mappingJson (entryTexts (writtenMembers members))) :=
    json_mapping fun m hm => (hleft m.1 m.2 hm).choose_spec.2.1
  have hmapping' : json (.mapping (textEntries members')) =
      .ok (mappingJson (entryTexts (writtenMembers members'))) :=
    json_mapping fun m hm => (hright m.1 m.2 hm).choose_spec.2.1
  rw [written_of_json hmapping, hmapping', hsorted]
  exact ⟨hmapping, rfl⟩

lemma JsonAlike.json_eq (h : JsonAlike v w) : json v = .ok v.written ∧ json w = .ok v.written := by
  induction h with
  | null => exact ⟨Plain.null.json_eq, Plain.null.json_eq⟩
  | bool b => exact ⟨(Plain.bool b).json_eq, (Plain.bool b).json_eq⟩
  | integer n => exact ⟨(Plain.integer n).json_eq, (Plain.integer n).json_eq⟩
  | real x =>
    have hx : json (.real x) = .ok (realJson x) := rfl
    exact ⟨json_eq_written hx, json_eq_written hx⟩
  | text s => exact ⟨(Plain.text s).json_eq, (Plain.text s).json_eq⟩
  | list hlength _ ih => exact json_list_congr hlength ih
  | mapping hdistinct hdistinct' hkeys _ ih => exact json_mapping_congr hdistinct hdistinct' hkeys ih

lemma Reordered.jsonAlike (h : Reordered v w) (hv : Plain v) (hw : Plain w) : JsonAlike v w := by
  induction h with
  | null => exact .null
  | bool b => exact .bool b
  | integer n => exact .integer n
  | text s => exact .text s
  | list hlength hitems ih =>
    rw [plain_list] at hv hw
    exact .list hlength fun i v v' hi hi' =>
      ih i v v' hi hi' (hv v (List.mem_of_getElem? hi)) (hw v' (List.mem_of_getElem? hi'))
  | mapping hkeys hmembers ih =>
    obtain ⟨hdistinct, hv⟩ := plain_mapping.mp hv
    obtain ⟨hdistinct', hw⟩ := plain_mapping.mp hw
    exact .mapping hdistinct hdistinct' hkeys fun key v v' hmem hmem' =>
      ih key v v' hmem hmem' (hv _ hmem) (hw _ hmem')

lemma Reordered.written_eq (h : Reordered v w) (hv : Plain v) (hw : Plain w) :
    v.written = w.written :=
  (written_of_json (h.jsonAlike hv hw).json_eq.2).symm

end MarkupLabels.Value
