import Mathlib
import MarkupLabels.Files.Discovery

namespace MarkupLabels

def Entry.mapContent (g : List UInt8 → List UInt8) : Entry → Entry
  | .file content => .file (g content)
  | .directory => .directory

namespace Snapshot

variable {s t : Snapshot} {g h : List String → List UInt8 → List UInt8} {p : Path} {e : Entry}
  {place more : List String} {content : List UInt8} {sel : Selection}

def mapContents (s : Snapshot) (g : List String → List UInt8 → List UInt8) : Snapshot :=
  { s with entries := s.entries.map fun (place, e) => (place, e.mapContent (g place)) }

lemma entry?_nil : s.entry? [] = some .directory := rfl

lemma entry?_of_ne (h : place ≠ []) : s.entry? place = s.entries.lookup place := if_neg h

section Contents

lemma lookup_mapContents (entries : List (List String × Entry)) :
    (entries.map fun (q, e) => (q, e.mapContent (g q))).lookup place =
      (entries.lookup place).map (Entry.mapContent (g place)) := by
  induction entries with
  | nil => rfl
  | cons entry entries ih =>
    obtain ⟨q, e⟩ := entry
    rw [List.map_cons, List.lookup_cons, List.lookup_cons, ih]
    by_cases hq : place = q
    · simp [hq]
    · simp [beq_eq_false_iff_ne.mpr hq]

@[simp] lemma entry?_mapContents :
    Snapshot.entry? (s.mapContents g) place = (s.entry? place).map (Entry.mapContent (g place)) := by
  unfold entry?
  split
  · rfl
  · exact lookup_mapContents s.entries

lemma follow_mapContents (parts : List String) :
    (s.mapContents g).follow place parts = s.follow place parts := by
  induction parts generalizing place with
  | nil => rfl
  | cons part parts ih =>
    rw [follow, follow, entry?_mapContents]
    rcases s.entry? place with _ | (_ | _)
    · rfl
    · rfl
    · simp only [Option.map_some, Entry.mapContent, ih]
      rfl

@[simp] lemma locate_mapContents : (s.mapContents g).locate p = s.locate p := by
  unfold locate
  rw [follow_mapContents]
  rfl

lemma entry?_mapContents_of_fixed (hg : ∀ content, g place content = content) :
    Snapshot.entry? (s.mapContents g) place = s.entry? place := by
  rw [entry?_mapContents]
  rcases s.entry? place with _ | (content | _)
  · rfl
  · exact congrArg (some ∘ Entry.file) (hg content)
  · rfl

lemma readFile_mapContents (hg : ∀ place content, s.locate p = .ok place → g place content = content) :
    (s.mapContents g).readFile p = s.readFile p := by
  unfold readFile
  rw [locate_mapContents]
  cases hp : s.locate p with
  | error f => rfl
  | ok place =>
    have hentry := entry?_mapContents_of_fixed (s := s) fun content => hg place content hp
    simp only [bind, Except.bind, hentry]

lemma find?_eq_some :
    s.find? p = .ok (some e) ↔ ∃ place, s.locate p = .ok place ∧ s.entry? place = some e := by
  unfold find?
  rcases s.locate p with (_ | _ | _ | _ | _) | place <;> simp

lemma isFile_iff : s.isFile p = .ok true ↔
    ∃ place content, s.locate p = .ok place ∧ s.entry? place = some (.file content) := by
  have hfile : s.isFile p = .ok true ↔ ∃ content, s.find? p = .ok (some (.file content)) := by
    unfold isFile
    rcases s.find? p with f | _ | _ | _ <;> simp [bind, Except.bind, pure, Except.pure]
  rw [hfile, exists_comm]
  exact exists_congr fun content => find?_eq_some

lemma readFile_eq_ok :
    s.readFile p = .ok content ↔
      ∃ place, s.locate p = .ok place ∧ s.entry? place = some (.file content) := by
  unfold readFile
  cases s.locate p with
  | error f => simp [bind, Except.bind]
  | ok place =>
    simp only [bind, Except.bind]
    rcases hentry : s.entry? place with _ | (content | _) <;>
      simp [hentry, pure, Except.pure, throw, throwThe, MonadExceptOf.throw]

lemma isFile_iff_readFile : s.isFile p = .ok true ↔ ∃ content, s.readFile p = .ok content := by
  simp only [isFile_iff, readFile_eq_ok]
  exact exists_comm

@[simp] lemma isFile_mapContents : (s.mapContents g).isFile p = s.isFile p := by
  unfold isFile find?
  rw [locate_mapContents]
  rcases s.locate p with (_ | _ | _ | _ | _) | place
  case ok =>
    simp only [entry?_mapContents]
    rcases s.entry? place with _ | _ | _ <;> rfl
  all_goals rfl

lemma under_mapContents : (s.mapContents g).under place = s.under place := by
  unfold under mapContents
  rw [List.filterMap_map]
  rfl

lemma filesAmong_mapContents (all : List (List String)) :
    (s.mapContents g).filesAmong p all = s.filesAmong p all := by
  induction all with
  | nil => rfl
  | cons names all ih => rw [filesAmong, filesAmong, isFile_mapContents, ih]

lemma gather_mapContents (arguments : List Path) :
    sel.gather (s.mapContents g) arguments = sel.gather s arguments := by
  have hcandidates : sel.candidates (s.mapContents g) = sel.candidates s := by
    ext1 p
    unfold Selection.candidates
    simp only [isFile_mapContents, locate_mapContents, under_mapContents, filesAmong_mapContents]
  induction arguments with
  | nil => rfl
  | cons argument arguments ih => rw [Selection.gather, Selection.gather, hcandidates, ih]

@[simp] lemma discover_mapContents (arguments : List Path) :
    sel.discover (s.mapContents g) arguments = sel.discover s arguments :=
  congrArg (sel.keepNew [] <| Prod.fst ·) (gather_mapContents arguments)

@[simp] lemma refusal_mapContents (arguments : List Path) :
    sel.refusal (s.mapContents g) arguments = sel.refusal s arguments :=
  congrArg Prod.snd (gather_mapContents arguments)

lemma mapContents_mapContents :
    (s.mapContents g).mapContents h = s.mapContents fun place => h place ∘ g place := by
  simp only [mapContents, List.map_map, Snapshot.mk.injEq, and_true]
  congr 1
  ext1 entry
  obtain ⟨q, _ | _⟩ := entry <;> rfl

lemma mapContents_congr
    (hgh : ∀ place content, (place, Entry.file content) ∈ s.entries → g place content = h place content) :
    s.mapContents g = s.mapContents h := by
  simp only [mapContents, Snapshot.mk.injEq, and_true]
  refine List.map_congr_left fun entry hentry => ?_
  obtain ⟨q, content | _⟩ := entry
  · simp [Entry.mapContent, hgh q content hentry]
  · rfl

lemma mapContents_self (hg : ∀ place content, (place, Entry.file content) ∈ s.entries →
    g place content = content) : s.mapContents g = s := by
  rw [mapContents_congr hg]
  simp only [mapContents]
  congr 1
  refine (List.map_congr_left fun entry _ => ?_).trans (List.map_id _)
  obtain ⟨q, _ | _⟩ := entry <;> rfl

lemma set_eq_mapContents (hdistinct : (s.entries.map Prod.fst).Nodup)
    (he : s.entry? place = some (.file content)) (new : List UInt8) :
    s.set place (.file new) = s.mapContents fun q c => if q = place then new else c := by
  have hlookup : s.entries.lookup place = some (.file content) := by
    unfold entry? at he
    split at he
    · simp at he
    · exact he
  simp only [set, mapContents, Snapshot.mk.injEq, and_true]
  generalize s.entries = entries at hdistinct hlookup
  induction entries with
  | nil => simp at hlookup
  | cons entry entries ih =>
    obtain ⟨q, f⟩ := entry
    obtain ⟨hq, hdistinct⟩ := List.nodup_cons.mp hdistinct
    rw [setEntry, List.map_cons]
    by_cases hplace : q = place
    · -- No later entry stands at the place.
      subst hplace
      obtain rfl : f = .file content := by simpa using hlookup
      rw [if_pos rfl]
      congr 1
      · simp [Entry.mapContent]
      refine ((List.map_congr_left fun entry hentry => ?_).trans (List.map_id _)).symm
      obtain ⟨r, _ | _⟩ := entry
      · have hr : r ≠ q := fun hr => hq (List.mem_map.mpr ⟨_, hentry, hr⟩)
        simp [Entry.mapContent, hr]
      · rfl
    · have hlater : entries.lookup place = some (.file content) := by
        rwa [List.lookup_cons, beq_eq_false_iff_ne.mpr (Ne.symm hplace)] at hlookup
      rw [if_neg hplace, ih hdistinct hlater]
      congr 1
      cases f <;> simp [Entry.mapContent, hplace]

end Contents

section Soundness

def IsName (part : String) : Prop := part ≠ "" ∧ part ≠ "." ∧ part ≠ ".." ∧ '/' ∉ part.toList

instance (part : String) : Decidable (IsName part) := inferInstanceAs (Decidable (_ ∧ _))

/-- What holds of a file system: an entry is known by one name, and stands in a directory. -/
structure Sound (s : Snapshot) : Prop where
  distinct : (s.entries.map Prod.fst).Nodup
  named : ∀ entry ∈ s.entries, entry.1 ≠ [] ∧ ∀ part ∈ entry.1, IsName part
  inDirectory : ∀ entry ∈ s.entries, s.entry? entry.1.dropLast = some .directory
  standsIn : s.entry? s.workingDirectory = some .directory

instance (s : Snapshot) : Decidable s.Sound :=
  decidable_of_iff
    ((s.entries.map Prod.fst).Nodup ∧
      (∀ entry ∈ s.entries, entry.1 ≠ [] ∧ ∀ part ∈ entry.1, IsName part) ∧
      (∀ entry ∈ s.entries, s.entry? entry.1.dropLast = some .directory) ∧
      s.entry? s.workingDirectory = some .directory)
    ⟨fun ⟨hdistinct, hnamed, hin, hstands⟩ => ⟨hdistinct, hnamed, hin, hstands⟩,
      fun ⟨hdistinct, hnamed, hin, hstands⟩ => ⟨hdistinct, hnamed, hin, hstands⟩⟩

lemma mem_of_entry_eq (hplace : place ≠ []) (he : s.entry? place = some e) : (place, e) ∈ s.entries := by
  rw [entry?_of_ne hplace] at he
  obtain ⟨before, after, hentries, -⟩ := List.lookup_eq_some_iff.mp he
  simp [hentries]

lemma follow_cons {part : String} {parts q : List String} :
    s.follow place (part :: parts) = .ok q ↔ s.entry? place = some .directory ∧ place ∉ s.closed ∧
      s.fits part ∧ s.follow (if part = ".." then place.dropLast else place ++ [part]) parts = .ok q := by
  rw [follow]
  rcases s.entry? place with _ | (_ | _)
  · simp
  · simp
  · by_cases hclosed : place ∈ s.closed
    · simp [hclosed]
    · by_cases hfits : s.fits part <;> simp [hclosed, hfits]

lemma follow_append {parts q : List String} : s.follow place (parts ++ more) = .ok q ↔
    ∃ between, s.follow place parts = .ok between ∧ s.follow between more = .ok q := by
  induction parts generalizing place with
  | nil => simp [follow]
  | cons part parts ih => simp only [List.cons_append, follow_cons, ih, exists_and_left, and_assoc]

lemma locate_eq_ok : s.locate p = .ok place ↔ s.takes p ∧ s.follow (s.start p) p.parts = .ok place := by
  rw [locate]
  split
  · next htakes => simp [htakes]
  · next htakes => simp [htakes]

namespace Sound

lemma mapContents (hs : s.Sound) : (s.mapContents g).Sound where
  distinct := by
    have hkeys : (s.mapContents g).entries.map Prod.fst = s.entries.map Prod.fst := by
      simp only [Snapshot.mapContents, List.map_map]
      rfl
    exact hkeys ▸ hs.distinct
  named := by
    intro entry hentry
    obtain ⟨old, hold, rfl⟩ := List.mem_map.mp hentry
    exact hs.named old hold
  inDirectory := by
    intro entry hentry
    obtain ⟨old, hold, rfl⟩ := List.mem_map.mp hentry
    rw [entry?_mapContents, hs.inDirectory old hold]
    rfl
  standsIn := by
    rw [entry?_mapContents]
    exact (congrArg (Option.map _) hs.standsIn).trans rfl

lemma entry?_of_mem (hs : s.Sound) (he : (place, e) ∈ s.entries) : s.entry? place = some e := by
  rw [entry?_of_ne (hs.named _ he).1]
  cases hfound : s.entries.lookup place with
  | none => simpa using List.lookup_eq_none_iff.mp hfound _ he
  | some f =>
    obtain ⟨before, after, hentries, -⟩ := List.lookup_eq_some_iff.mp hfound
    have hf : (place, f) ∈ s.entries := by simp [hentries]
    have heq := List.inj_on_of_nodup_map hs.distinct hf he rfl
    exact congrArg (some ·.2) heq

lemma entry?_dropLast (hs : s.Sound) (he : s.entry? place = some e) :
    s.entry? place.dropLast = some .directory := by
  by_cases hplace : place = []
  · simp [hplace, entry?]
  · exact hs.inDirectory _ (mem_of_entry_eq hplace he)

lemma entry?_of_append (hs : s.Sound) (hmore : more ≠ []) (he : s.entry? (place ++ more) = some e) :
    s.entry? place = some .directory := by
  induction more using List.reverseRecOn generalizing e with
  | nil => exact absurd rfl hmore
  | append_singleton more part ih =>
    have hparent := hs.entry?_dropLast he
    rw [← List.append_assoc, List.dropLast_concat] at hparent
    by_cases hnil : more = []
    · simpa [hnil] using hparent
    · exact ih hnil hparent

lemma getLast?_place (hs : s.Sound) (hp : s.locate p = .ok place)
    (he : s.entry? place = some (.file content)) : place.getLast? = p.parts.getLast? := by
  have hstart : s.entry? (s.start p) = some .directory := by
    unfold start
    split
    · exact hs.standsIn
    · exact entry?_nil
  obtain ⟨-, hfollow⟩ := locate_eq_ok.mp hp
  rcases List.eq_nil_or_concat p.parts with hnil | ⟨parts, last, hparts⟩
  · rw [hnil] at hfollow
    obtain rfl := Except.ok.inj hfollow
    simp [hstart] at he
  · rw [hparts, List.concat_eq_append, follow_append] at hfollow
    obtain ⟨parent, -, hlast⟩ := hfollow
    obtain ⟨hparent, -, -, hlast⟩ := follow_cons.mp hlast
    obtain rfl := Except.ok.inj hlast
    split at he
    · -- A step back leads to a directory.
      rw [hs.entry?_dropLast hparent] at he
      cases he
    · next hname => simp [hparts, hname]

end Sound

end Soundness

end Snapshot

end MarkupLabels
