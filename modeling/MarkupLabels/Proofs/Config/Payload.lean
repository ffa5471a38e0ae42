import Mathlib
import MarkupLabels.Proofs.Config.Plain
import MarkupLabels.Proofs.Json.Literals

/-! The text that is hashed tells the configuration and the vocabulary: JSON text of a plain value can
be read in one way only, up to the order of entries. -/

namespace MarkupLabels

namespace Value

variable {c : Char} {t t' r r' : List Char} {v w : Value}

def IsIntegerChar (c : Char) : Prop := c = '-' ∨ c.isDigit

lemma isDigit_of_mem_toDigits (n : Nat) (h : c ∈ Nat.toDigits 10 n) : c.isDigit := by
  induction n using Nat.strongRecOn with
  | ind n ih =>
    rw [Nat.toDigits_eq_if (by decide)] at h
    split at h
    · next hlt =>
      rw [List.mem_singleton.mp h, Nat.isDigit_digitChar]
      exact decide_eq_true hlt
    · next hle =>
      rcases List.mem_append.mp h with h | h
      · exact ih (n / 10) (by omega) h
      · rw [List.mem_singleton.mp h, Nat.isDigit_digitChar]
        exact decide_eq_true (Nat.mod_lt n (by decide))

lemma integerJson_eq (n : Int) : integerJson n =
    if 0 ≤ n then Nat.toDigits 10 n.toNat else '-' :: Nat.toDigits 10 (-n).toNat := by
  rw [integerJson, Int.toString_eq_repr, Int.repr_eq_if]
  split
  · rw [Nat.repr_eq_ofList_toDigits, String.toList_ofList]
  · rw [Nat.repr_eq_ofList_toDigits, String.toList_append]
    simp

lemma isIntegerChar_of_mem {n : Int} (h : c ∈ integerJson n) : IsIntegerChar c := by
  rw [integerJson_eq] at h
  split at h
  · exact .inr (isDigit_of_mem_toDigits _ h)
  · rcases List.mem_cons.mp h with h | h
    · exact .inl h
    · exact .inr (isDigit_of_mem_toDigits _ h)

lemma integerJson_ne_nil (n : Int) : integerJson n ≠ [] := by
  rw [integerJson_eq]
  split
  · exact Nat.toDigits_ne_nil
  · exact List.cons_ne_nil _ _

lemma integerJson_inj {n m : Int} (h : integerJson n = integerJson m) : n = m := by
  rw [integerJson, integerJson, String.toList_inj, Int.toString_eq_repr, Int.toString_eq_repr] at h
  exact Int.repr_inj.mp h

def Delimited (r : List Char) : Prop := ∀ c ∈ r.head?, c = ',' ∨ c = ']' ∨ c = '\x7d'

def Separated (t t' : List Char) : Prop :=
  ∀ r r', Delimited r → Delimited r' → t ++ r = t' ++ r' → t = t' ∧ r = r'

lemma delimited_cons (h : c = ',' ∨ c = ']' ∨ c = '\x7d') : Delimited (c :: r) := by
  rintro d ⟨⟩
  exact h

lemma not_isIntegerChar (h : c = ',' ∨ c = ']' ∨ c = '\x7d') : ¬ IsIntegerChar c := by
  rcases h with rfl | rfl | rfl <;> simp [IsIntegerChar]

lemma integerJson_append_inj {n m : Int} (hr : Delimited r) (hr' : Delimited r')
    (h : integerJson n ++ r = integerJson m ++ r') : n = m ∧ r = r' := by
  classical
  have htake : ∀ (n : Int) {r}, Delimited r →
      (integerJson n ++ r).takeWhile (fun c => decide (IsIntegerChar c)) = integerJson n := by
    intro n r hr
    rw [List.takeWhile_append_of_pos fun c hc => decide_eq_true (isIntegerChar_of_mem hc)]
    cases r with
    | nil => simp
    | cons c r => simp [not_isIntegerChar (hr c rfl)]
  have hsame := congrArg (List.takeWhile fun c => decide (IsIntegerChar c)) h
  rw [htake n hr, htake m hr'] at hsame
  obtain rfl := integerJson_inj hsame
  exact ⟨rfl, List.append_cancel_left h⟩

section Lists

variable {ts ts' : List (List Char)}

def commaTail : List (List Char) → List Char
  | [] => []
  | t :: ts => ',' :: ' ' :: commaJoined (t :: ts)

lemma commaJoined_cons (t : List Char) (ts : List (List Char)) :
    commaJoined (t :: ts) = t ++ commaTail ts := by
  cases ts with
  | nil => rw [commaJoined, commaTail, List.append_nil]
  | cons u ts =>
    rw [commaJoined, commaTail]
    exact nofun

lemma delimited_commaTail (hc : c = ']' ∨ c = '\x7d') (ts : List (List Char)) (r : List Char) :
    Delimited (commaTail ts ++ c :: r) := by
  cases ts with
  | nil => exact delimited_cons (.inr hc)
  | cons t ts => exact delimited_cons (.inl rfl)

lemma commaJoined_ne (hc : c = ']' ∨ c = '\x7d') (ht : ¬ Delimited t) :
    commaJoined (t :: ts) ++ r ≠ c :: r' := by
  intro h
  rw [commaJoined_cons] at h
  cases t with
  | nil => exact ht nofun
  | cons d t =>
    obtain ⟨rfl, -⟩ := List.cons.inj h
    exact ht (delimited_cons (.inr hc))

lemma commaJoined_inj (hc : c = ']' ∨ c = '\x7d')
    (hsep : ∀ t ∈ ts, ∀ t' ∈ ts', Separated t t')
    (hopen : ∀ t ∈ ts, ¬ Delimited t) (hopen' : ∀ t ∈ ts', ¬ Delimited t)
    (h : commaJoined ts ++ c :: r = commaJoined ts' ++ c :: r') : ts = ts' ∧ r = r' := by
  induction ts generalizing ts' with
  | nil =>
    cases ts' with
    | nil => exact ⟨rfl, (List.cons.inj h).2⟩
    | cons t' ts' => exact absurd h.symm (commaJoined_ne hc (hopen' t' (by simp)))
  | cons t ts ih =>
    cases ts' with
    | nil => exact absurd h (commaJoined_ne hc (hopen t (by simp)))
    | cons t' ts' =>
      rw [commaJoined_cons, commaJoined_cons, List.append_assoc, List.append_assoc] at h
      obtain ⟨rfl, htail⟩ := hsep t (by simp) t' (by simp) _ _ (delimited_commaTail hc ts r)
        (delimited_commaTail hc ts' r') h
      have hcomma : c ≠ ',' := by rcases hc with rfl | rfl <;> decide
      cases ts with
      | nil =>
        cases ts' with
        | nil => exact ⟨rfl, (List.cons.inj htail).2⟩
        | cons u' ts' => exact absurd (List.cons.inj htail).1 hcomma
      | cons u ts =>
        cases ts' with
        | nil => exact absurd (List.cons.inj htail).1.symm hcomma
        | cons u' ts' =>
          have hmore := (List.cons.inj (List.cons.inj htail).2).2
          obtain ⟨heq, hrest⟩ := ih (fun t ht t' ht' => hsep t (by simp [ht]) t' (by simp [ht']))
            (fun t ht => hopen t (by simp [ht])) (fun t ht => hopen' t (by simp [ht])) hmore
          exact ⟨by rw [heq], hrest⟩

lemma listJson_inj (hsep : ∀ t ∈ ts, ∀ t' ∈ ts', Separated t t')
    (hopen : ∀ t ∈ ts, ¬ Delimited t) (hopen' : ∀ t ∈ ts', ¬ Delimited t)
    (h : listJson ts ++ r = listJson ts' ++ r') : ts = ts' ∧ r = r' := by
  apply commaJoined_inj (c := ']') (.inl rfl) hsep hopen hopen'
  simpa [listJson] using h

lemma mappingJson_inj (hsep : ∀ t ∈ ts, ∀ t' ∈ ts', Separated t t')
    (hopen : ∀ t ∈ ts, ¬ Delimited t) (hopen' : ∀ t ∈ ts', ¬ Delimited t)
    (h : mappingJson ts ++ r = mappingJson ts' ++ r') : ts = ts' ∧ r = r' := by
  apply commaJoined_inj (c := '\x7d') (.inr rfl) hsep hopen hopen'
  simpa [mappingJson] using h

end Lists

lemma entryJson_append_inj {k k' : CodePoints} (h : entryJson k t ++ r = entryJson k' t' ++ r') :
    Json.quotedPoints k = Json.quotedPoints k' ∧ t ++ r = t' ++ r' := by
  rw [entryJson, entryJson, List.append_assoc, List.append_assoc] at h
  obtain ⟨hkey, hrest⟩ := Json.quotedPoints_append_inj h
  exact ⟨hkey, (List.cons.inj (List.cons.inj hrest).2).2⟩

lemma entryTexts_inj {l l' : List (CodePoints × List Char)} (hl : ∀ m ∈ l, m.1.Unpaired)
    (hl' : ∀ m ∈ l', m.1.Unpaired) (h : entryTexts l = entryTexts l') : l = l' := by
  induction l generalizing l' with
  | nil => exact (List.map_eq_nil_iff.mp h.symm).symm
  | cons m l ih =>
    obtain ⟨hm, hl⟩ := List.forall_mem_cons.mp hl
    cases l' with
    | nil => cases h
    | cons n l' =>
      obtain ⟨hn, hl'⟩ := List.forall_mem_cons.mp hl'
      obtain ⟨hfirst, hrest⟩ := List.cons.inj h
      have hentry : entryJson m.1 m.2 ++ [] = entryJson n.1 n.2 ++ [] := congrArg (· ++ []) hfirst
      obtain ⟨hkey, htext⟩ := entryJson_append_inj hentry
      rw [Prod.ext (Json.quotedPoints_inj hm hn hkey) (List.append_cancel_right htext), ih hl hl' hrest]

lemma Separated.entry (h : Separated t t') (k k' : CodePoints) :
    Separated (entryJson k t) (entryJson k' t') := by
  intro r r' hr hr' hentry
  obtain ⟨hkey, htext⟩ := entryJson_append_inj hentry
  obtain ⟨rfl, hrest⟩ := h r r' hr hr' htext
  rw [entryJson, hkey, ← entryJson]
  exact ⟨rfl, hrest⟩

def headSort (c : Char) : ValueSort :=
  if c = '"' then .text
  else if c = '[' then .list
  else if c = '\x7b' then .mapping
  else if c = 'n' then .null
  else if c = 't' ∨ c = 'f' then .bool
  else if c = ',' ∨ c = ']' ∨ c = '\x7d' then .pair
  else .integer

lemma headSort_integer (h : IsIntegerChar c) : headSort c = .integer := by
  have hother : ∀ d, ¬ IsIntegerChar d → c ≠ d := fun d hd heq => hd (heq ▸ h)
  have hne : ∀ d ∈ ['"', '[', '\x7b', 'n', 't', 'f', ',', ']', '\x7d'], c ≠ d := fun d hd =>
    hother d (by revert d; simp [IsIntegerChar])
  simp at hne
  simp [headSort, hne]

lemma Plain.exists_head (h : Plain v) : ∃ c rest, v.written = c :: rest ∧ headSort c = v.sort := by
  cases h with
  | null => exact ⟨_, _, written_null, rfl⟩
  | bool b => cases b <;> exact ⟨_, _, written_bool _, by decide⟩
  | integer n =>
    obtain ⟨c, rest, hn⟩ := List.exists_cons_of_ne_nil (integerJson_ne_nil n)
    have hc : c ∈ integerJson n := hn ▸ List.mem_cons_self
    exact ⟨c, rest, (written_integer n).trans hn, headSort_integer (isIntegerChar_of_mem hc)⟩
  | text s => exact ⟨_, _, written_text s, rfl⟩
  | list hitems => exact ⟨_, _, written_list hitems, rfl⟩
  | mapping hkeys hmembers => exact ⟨_, _, written_mapping hmembers, rfl⟩

lemma Plain.not_delimited (h : Plain v) : ¬ Delimited v.written := by
  obtain ⟨c, rest, hc, hsort⟩ := h.exists_head
  intro hdelimited
  rw [hc] at hdelimited
  have hpair : headSort c = .pair := by
    rcases hdelimited c rfl with rfl | rfl | rfl <;> decide
  rw [hpair] at hsort
  cases h <;> exact nomatch hsort

lemma Plain.sort_eq (hv : Plain v) (hw : Plain w) (h : v.written ++ r = w.written ++ r') :
    v.sort = w.sort := by
  obtain ⟨c, rest, hc, hsort⟩ := hv.exists_head
  obtain ⟨d, rest', hd, hsort'⟩ := hw.exists_head
  rw [hc, hd] at h
  rw [← hsort, ← hsort', (List.cons.inj h).1]

/-- Values in whose texts no half of a pair stands directly in front of one that completes it. -/
inductive Unpaired : Value → Prop
  | null : Unpaired .null
  | bool (b : Bool) : Unpaired (.bool b)
  | integer (n : Int) : Unpaired (.integer n)
  | text {s : CodePoints} (h : s.Unpaired) : Unpaired (.text s)
  | list {items : List Value} (hitems : ∀ v ∈ items, Unpaired v) : Unpaired (.list items)
  | mapping {members : List (CodePoints × Value)} (hkeys : ∀ m ∈ members, m.1.Unpaired)
      (hmembers : ∀ m ∈ members, Unpaired m.2) : Unpaired (.mapping (textEntries members))

lemma unpaired_text {s : CodePoints} : Unpaired (.text s) ↔ s.Unpaired := by
  constructor
  · rintro ⟨⟩
    assumption
  · exact .text

lemma unpaired_list {items : List Value} : Unpaired (.list items) ↔ ∀ v ∈ items, Unpaired v := by
  constructor
  · rintro ⟨⟩
    assumption
  · exact .list

lemma unpaired_mapping {members : List (CodePoints × Value)} :
    Unpaired (.mapping (textEntries members)) ↔
      (∀ m ∈ members, m.1.Unpaired) ∧ ∀ m ∈ members, Unpaired m.2 := by
  constructor
  · generalize hentries : textEntries members = entries
    intro h
    cases h with
    | mapping hkeys hmembers =>
      obtain rfl := textEntries_inj.mp hentries
      exact ⟨hkeys, hmembers⟩
  · exact fun h => .mapping h.1 h.2

def Told (v w : Value) : Prop :=
  ∀ r r', Delimited r → Delimited r' → v.written ++ r = w.written ++ r' → Reordered v w ∧ r = r'

lemma Told.reordered (h : Told v w) (heq : v.written = w.written) : Reordered v w :=
  (h [] [] nofun nofun (by rw [heq])).1

lemma Told.separated (h : Told v w) (hv : Plain v) (hw : Plain w) :
    Separated v.written w.written := by
  intro r r' hr hr' heq
  obtain ⟨hreordered, hrest⟩ := h r r' hr hr' heq
  exact ⟨hreordered.written_eq hv hw, hrest⟩

lemma key_mem_iff {members : List (CodePoints × Value)} {key : CodePoints} :
    key ∈ members.map Prod.fst ↔ ∃ t, (key, t) ∈ writtenMembers members := by
  constructor
  · intro h
    obtain ⟨v, hv⟩ := exists_mem_of_key h
    exact ⟨_, mem_writtenMembers.mpr ⟨v, hv, rfl⟩⟩
  · rintro ⟨t, ht⟩
    obtain ⟨v, hv, -⟩ := mem_writtenMembers.mp ht
    exact List.mem_map_of_mem hv

lemma not_delimited_entryTexts {l : List (CodePoints × List Char)} : ∀ t ∈ entryTexts l, ¬ Delimited t := by
  intro t ht hdelimited
  obtain ⟨m, -, rfl⟩ := List.mem_map.mp ht
  rcases hdelimited '"' rfl with h | h | h <;> cases h

lemma told_list {items items' : List Value} (hitems : ∀ v ∈ items, Plain v)
    (hitems' : ∀ v ∈ items', Plain v) (htold : ∀ v ∈ items, ∀ w ∈ items', Told v w) :
    Told (.list items) (.list items') := by
  have hsep : ∀ t ∈ items.map written, ∀ t' ∈ items'.map written, Separated t t' := by
    simp only [List.forall_mem_map]
    exact fun v hv w hw => (htold v hv w hw).separated (hitems v hv) (hitems' w hw)
  have hopen : ∀ {items : List Value}, (∀ v ∈ items, Plain v) →
      ∀ t ∈ items.map written, ¬ Delimited t := by
    intro items hitems
    simp only [List.forall_mem_map]
    exact fun v hv => (hitems v hv).not_delimited
  intro r r' hr hr' h
  rw [written_list hitems, written_list hitems'] at h
  obtain ⟨hwritten, hrest⟩ := listJson_inj hsep (hopen hitems) (hopen hitems') h
  refine ⟨.list ?_ ?_, hrest⟩
  · simpa using congrArg List.length hwritten
  · intro i v v' hi hi'
    apply (htold v (List.mem_of_getElem? hi) v' (List.mem_of_getElem? hi')).reordered
    have hboth := congrArg (fun l : List (List Char) => l[i]?) hwritten
    simpa [hi, hi'] using hboth

lemma writtenMembers_unpaired {members : List (CodePoints × Value)} (h : ∀ m ∈ members, m.1.Unpaired) :
    ∀ m ∈ writtenMembers members, m.1.Unpaired := by
  rintro ⟨key, t⟩ hm
  obtain ⟨v, hv, -⟩ := mem_writtenMembers.mp hm
  exact h _ hv

lemma told_mapping {members members' : List (CodePoints × Value)} (hmembers : ∀ m ∈ members, Plain m.2)
    (hmembers' : ∀ m ∈ members', Plain m.2) (hkeys' : (members'.map Prod.fst).Nodup)
    (hunpaired : ∀ m ∈ members, m.1.Unpaired) (hunpaired' : ∀ m ∈ members', m.1.Unpaired)
    (htold : ∀ m ∈ members, ∀ n ∈ members', Told m.2 n.2) :
    Told (.mapping (textEntries members)) (.mapping (textEntries members')) := by
  have hsep : ∀ t ∈ entryTexts (writtenMembers members),
      ∀ t' ∈ entryTexts (writtenMembers members'), Separated t t' := by
    intro t ht t' ht'
    obtain ⟨⟨k, t⟩, hmem, rfl⟩ := List.mem_map.mp ht
    obtain ⟨⟨k', t'⟩, hmem', rfl⟩ := List.mem_map.mp ht'
    obtain ⟨v, hv, rfl⟩ := mem_writtenMembers.mp hmem
    obtain ⟨v', hv', rfl⟩ := mem_writtenMembers.mp hmem'
    exact ((htold _ hv _ hv').separated (hmembers _ hv) (hmembers' _ hv')).entry k k'
  intro r r' hr hr' h
  rw [written_mapping hmembers, written_mapping hmembers'] at h
  obtain ⟨htexts, hrest⟩ := mappingJson_inj hsep not_delimited_entryTexts not_delimited_entryTexts h
  have hwritten := entryTexts_inj (writtenMembers_unpaired hunpaired)
    (writtenMembers_unpaired hunpaired') htexts
  refine ⟨.mapping ?_ ?_, hrest⟩
  · intro key
    rw [key_mem_iff, key_mem_iff, hwritten]
  · intro key v v' hv hv'
    apply (htold _ hv _ hv').reordered
    have hmem : (key, v.written) ∈ writtenMembers members' :=
      hwritten ▸ mem_writtenMembers.mpr ⟨v, hv, rfl⟩
    obtain ⟨u, hu, heq⟩ := mem_writtenMembers.mp hmem
    have hsame := List.inj_on_of_nodup_map hkeys' hu hv' rfl
    rw [← heq, (Prod.mk.inj hsame).2]

lemma Plain.told (hv : Plain v) (hw : Plain w) (hunpaired : Unpaired v) (hunpaired' : Unpaired w) :
    Told v w := by
  induction hv generalizing w with
  | null =>
    intro r r' _ _ h
    have hsort := sort_eq .null hw h
    cases hw
    case null => exact ⟨.null, List.append_cancel_left h⟩
    all_goals exact nomatch hsort
  | bool b =>
    intro r r' _ _ h
    have hsort := sort_eq (.bool b) hw h
    cases hw
    case bool b' =>
      obtain rfl : b = b' := by
        cases b <;> cases b' <;> simp [boolJson] at h ⊢
      exact ⟨.bool b, List.append_cancel_left h⟩
    all_goals exact nomatch hsort
  | integer n =>
    intro r r' hr hr' h
    have hsort := sort_eq (.integer n) hw h
    cases hw
    case integer m =>
      rw [written_integer, written_integer] at h
      obtain ⟨rfl, hrest⟩ := integerJson_append_inj hr hr' h
      exact ⟨.integer n, hrest⟩
    all_goals exact nomatch hsort
  | text s =>
    intro r r' _ _ h
    have hsort := sort_eq (.text s) hw h
    cases hw
    case text s' =>
      rw [written_text, written_text] at h
      obtain ⟨hs, hrest⟩ := Json.quotedPoints_append_inj h
      rw [Json.quotedPoints_inj (unpaired_text.mp hunpaired) (unpaired_text.mp hunpaired') hs]
      exact ⟨.text s', hrest⟩
    all_goals exact nomatch hsort
  | list hitems ih =>
    intro r r' hr hr' h
    have hsort := sort_eq (.list hitems) hw h
    cases hw
    case list hitems' =>
      have hboth := unpaired_list.mp hunpaired
      have hboth' := unpaired_list.mp hunpaired'
      exact told_list hitems hitems' (fun v hv w hw => ih v hv (hitems' w hw) (hboth v hv) (hboth' w hw))
        r r' hr hr' h
    all_goals exact nomatch hsort
  | mapping hkeys hmembers ih =>
    intro r r' hr hr' h
    have hsort := sort_eq (.mapping hkeys hmembers) hw h
    cases hw
    case mapping hkeys' hmembers' =>
      obtain ⟨htexts, hboth⟩ := unpaired_mapping.mp hunpaired
      obtain ⟨htexts', hboth'⟩ := unpaired_mapping.mp hunpaired'
      exact told_mapping hmembers hmembers' hkeys' htexts htexts'
        (fun m hm n hn => ih m hm (hmembers' n hn) (hboth m hm) (hboth' n hn)) r r' hr hr' h
    all_goals exact nomatch hsort

lemma Plain.written_eq_iff (hv : Plain v) (hw : Plain w) (hunpaired : Unpaired v)
    (hunpaired' : Unpaired w) : v.written = w.written ↔ Reordered v w :=
  ⟨(hv.told hw hunpaired hunpaired').reordered, fun h => h.written_eq hv hw⟩

lemma mem_commaJoined {ts : List (List Char)} (h : c ∈ commaJoined ts) :
    c = ',' ∨ c = ' ' ∨ ∃ t ∈ ts, c ∈ t := by
  induction ts with
  | nil => cases h
  | cons t ts ih =>
    rw [commaJoined_cons, List.mem_append] at h
    rcases h with h | h
    · exact .inr (.inr ⟨t, by simp, h⟩)
    · cases ts with
      | nil => cases h
      | cons u ts =>
        rw [commaTail, List.mem_cons, List.mem_cons] at h
        rcases h with h | h | h
        · exact .inl h
        · exact .inr (.inl h)
        · apply (ih h).imp_right (Or.imp_right _)
          rintro ⟨t', ht', hc⟩
          exact ⟨t', List.mem_cons_of_mem t ht', hc⟩

lemma commaJoined_ascii {ts : List (List Char)} (hts : ∀ t ∈ ts, ∀ d ∈ t, d.toNat < 128)
    (h : c ∈ commaJoined ts) : c.toNat < 128 := by
  rcases mem_commaJoined h with rfl | rfl | ⟨t, ht, hc⟩
  · decide
  · decide
  · exact hts t ht c hc

lemma isIntegerChar_ascii (h : IsIntegerChar c) : c.toNat < 128 := by
  rcases h with rfl | h
  · decide
  · rw [Char.isDigit, Bool.and_eq_true, decide_eq_true_eq, decide_eq_true_eq] at h
    exact lt_of_le_of_lt (b := 57) h.2 (by decide)

lemma Plain.ascii (h : Plain v) : ∀ c ∈ v.written, c.toNat < 128 := by
  induction h with
  | null =>
    simp [nullJson]
  | bool b =>
    cases b <;> simp [boolJson]
  | integer n =>
    intro c hc
    rw [written_integer] at hc
    exact isIntegerChar_ascii (isIntegerChar_of_mem hc)
  | text s =>
    intro c hc
    rw [written_text] at hc
    exact Json.quotedPoints_ascii hc
  | list hitems ih =>
    intro c hc
    rw [written_list hitems, listJson, List.mem_cons, List.mem_append, List.mem_singleton] at hc
    rcases hc with rfl | hc | rfl
    · decide
    · exact commaJoined_ascii (by simpa using ih) hc
    · decide
  | mapping hkeys hmembers ih =>
    intro c hc
    rw [written_mapping hmembers, mappingJson, List.mem_cons, List.mem_append,
      List.mem_singleton] at hc
    rcases hc with rfl | hc | rfl
    · decide
    · apply commaJoined_ascii _ hc
      intro t ht d hd
      obtain ⟨⟨k, t⟩, hmem, rfl⟩ := List.mem_map.mp ht
      obtain ⟨v, hv, rfl⟩ := mem_writtenMembers.mp hmem
      rw [entryJson, List.mem_append, List.mem_cons, List.mem_cons] at hd
      rcases hd with hd | rfl | rfl | hd
      · exact Json.quotedPoints_ascii hd
      · decide
      · decide
      · exact ih _ hv d hd
    · decide

lemma Plain.reordered (h : Plain v) : Reordered v v := by
  induction h with
  | null => exact .null
  | bool b => exact .bool b
  | integer n => exact .integer n
  | text s => exact .text s
  | list _ ih =>
    refine .list rfl fun i v v' hi hi' => ?_
    obtain rfl := Option.some.inj (hi.symm.trans hi')
    exact ih v (List.mem_of_getElem? hi)
  | mapping hkeys _ ih =>
    refine .mapping (fun key => Iff.rfl) fun key v v' hv hv' => ?_
    rw [← (Prod.mk.inj (List.inj_on_of_nodup_map hkeys hv hv' rfl)).2]
    exact ih _ hv

lemma reordered_text {s s' : CodePoints} (h : Reordered (.text s) (.text s')) : s = s' := by
  cases h
  rfl

lemma reordered_list {items items' : List Value} (h : Reordered (.list items) (.list items')) :
    items.length = items'.length ∧
      ∀ (i : Nat) v v', items[i]? = some v → items'[i]? = some v' → Reordered v v' := by
  cases h with
  | list hlength hitems => exact ⟨hlength, hitems⟩

lemma reordered_mapping {members members' : List (CodePoints × Value)}
    (h : Reordered (.mapping (textEntries members)) (.mapping (textEntries members'))) :
    (∀ key, key ∈ members.map Prod.fst ↔ key ∈ members'.map Prod.fst) ∧
      ∀ key v v', (key, v) ∈ members → (key, v') ∈ members' → Reordered v v' := by
  generalize hentries : textEntries members = entries at h
  generalize hentries' : textEntries members' = entries' at h
  cases h with
  | mapping hkeys hmembers =>
    obtain rfl := textEntries_inj.mp hentries
    obtain rfl := textEntries_inj.mp hentries'
    exact ⟨hkeys, hmembers⟩

lemma plain_texts (ss : List CodePoints) : Plain (.list (ss.map .text)) := by
  apply Plain.list
  simp only [List.forall_mem_map]
  exact fun s _ => .text s

lemma reordered_texts {ss ss' : List CodePoints}
    (h : Reordered (.list (ss.map .text)) (.list (ss'.map .text))) : ss = ss' := by
  obtain ⟨hlength, hitems⟩ := reordered_list h
  rw [List.length_map, List.length_map] at hlength
  apply List.ext_getElem hlength
  intro i hi hi'
  exact reordered_text (hitems i (.text ss[i]) (.text ss'[i]) (by simp [hi]) (by simp [hi']))

end Value

namespace Config

open Value

variable {c c' : Value} {v v' : Vocabulary}

lemma reordered_strings {ss ss' : List String} (h : Reordered (strings ss) (strings ss')) : ss = ss' :=
  List.map_injective_iff.mpr (fun _ _ => CodePoints.ofString_inj.mp) (reordered_texts h)

def settingMembers (c : Value) (v : Vocabulary) : List (CodePoints × Value) := [
  ("config", c),
  ("vocabulary", strings (v.names ++ [v.legacyPrefix])),
  ("ancestor_depth", .integer Context.maxDepth),
  ("ancestor_purposes", strings Context.givingPurposes)]

lemma settings_eq (c : Value) (v : Vocabulary) :
    settings c v = .mapping (textEntries (settingMembers c v)) := rfl

lemma nodup_settingMembers (c : Value) (v : Vocabulary) : ((settingMembers c v).map Prod.fst).Nodup := by
  change (["config", "vocabulary", "ancestor_depth", "ancestor_purposes"] : List CodePoints).Nodup
  decide

lemma plain_settings (h : Plain c) (v : Vocabulary) : Plain (settings c v) := by
  rw [settings_eq, plain_mapping]
  refine ⟨nodup_settingMembers c v, ?_⟩
  simp only [settingMembers, List.forall_mem_cons, List.not_mem_nil, false_imp_iff, implies_true]
  exact ⟨h, plain_texts _, .integer _, plain_texts _, trivial⟩

lemma unpaired_strings (ss : List String) : Unpaired (strings ss) := by
  apply Unpaired.list
  simp only [List.forall_mem_map]
  exact fun s _ => .text (Json.ofChars_unpaired s.toList)

lemma unpaired_settings (h : Unpaired c) (v : Vocabulary) : Unpaired (settings c v) := by
  rw [settings_eq, unpaired_mapping]
  simp only [settingMembers, List.forall_mem_cons, List.not_mem_nil, false_imp_iff, implies_true, and_true]
  exact ⟨⟨Json.ofChars_unpaired _, Json.ofChars_unpaired _, Json.ofChars_unpaired _,
    Json.ofChars_unpaired _⟩, h, unpaired_strings _, .integer _, unpaired_strings _⟩

lemma vocabulary_eq (h : v.names ++ [v.legacyPrefix] = v'.names ++ [v'.legacyPrefix]) : v = v' := by
  cases v
  cases v'
  simpa [Vocabulary.names] using h

lemma reordered_settings (h : Plain c) :
    Reordered (settings c v) (settings c' v') ↔ v = v' ∧ Reordered c c' := by
  constructor
  · intro hsettings
    rw [settings_eq, settings_eq] at hsettings
    obtain ⟨-, hmembers⟩ := reordered_mapping hsettings
    have hconfig := hmembers "config" c c' (by simp [settingMembers]) (by simp [settingMembers])
    have hnames := hmembers "vocabulary" (strings (v.names ++ [v.legacyPrefix]))
      (strings (v'.names ++ [v'.legacyPrefix])) (by simp [settingMembers]) (by simp [settingMembers])
    exact ⟨vocabulary_eq (reordered_strings hnames), hconfig⟩
  · rintro ⟨rfl, hconfig⟩
    apply @Reordered.mapping (settingMembers c v) (settingMembers c' v)
    · exact fun key => Iff.rfl
    · intro key w w' hw hw'
      have hsettings := plain_settings h v
      rw [settings_eq, plain_mapping] at hsettings
      have hplain := hsettings.2 _ hw
      simp only [settingMembers, List.mem_cons, List.not_mem_nil, or_false, Prod.mk.injEq] at hw hw'
      rcases hw with ⟨rfl, rfl⟩ | ⟨rfl, rfl⟩ | ⟨rfl, rfl⟩ | ⟨rfl, rfl⟩ <;>
        simp at hw'
      · exact hw' ▸ hconfig
      all_goals exact hw' ▸ hplain.reordered

def bytes (text : List Char) : List UInt8 := text.map fun c => UInt8.ofNat c.toNat

lemma map_bytes {text : List Char} (h : ∀ c ∈ text, c.toNat < 128) :
    (bytes text).map (fun b => Char.ofNat b.toNat) = text := by
  rw [bytes, List.map_map]
  conv_rhs => rw [← List.map_id text]
  apply List.map_congr_left
  intro c hc
  have hlow := h c hc
  rw [Function.comp_apply, UInt8.toNat_ofNat', Nat.mod_eq_of_lt (by omega), Char.ofNat_toNat, id]

end Config

end MarkupLabels
