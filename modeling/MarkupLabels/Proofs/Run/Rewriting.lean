import Mathlib
import MarkupLabels.Proofs.Files.Discovery
import MarkupLabels.Proofs.Source.LineFeeds
import MarkupLabels.Proofs.Text.Encoding
import MarkupLabels.Run.Command

/-! What a run does to files. A file is judged by its content and its name alone, and written at most
there where it stands; so a run over many files comes to a change of their contents. -/

namespace MarkupLabels

variable {config : Value} {language : Language} {p q : Path} {content : List UInt8}
  {s : Snapshot} {g : Progress} {paths : List Path}

def Language.ofPlace (place : List String) : Language := .ofPath ⟨1, place⟩

lemma Language.ofPath_congr (h : p.parts.getLast? = q.parts.getLast?) : ofPath p = ofPath q := by
  unfold ofPath Path.lowerSuffix Path.name
  rw [h]

namespace Processed

def rewritten (config : Value) (language : Language) (content : List UInt8) : List UInt8 :=
  match Text.decodeUtf8 content with
  | .error _ => content
  | .ok text =>
    match Source.label language config (Text.unifyLines text) with
    | .error _ => content
    | .ok l => if l.text = Text.unifyLines text then content else Text.encodeUtf8 l.text

/-- What can come of a file: it holds no text, or one that cannot be labelled, or one that can. -/
inductive Judgement (config : Value) (p : Path) (content : List UInt8) : Processed → Prop
  | undecodable {f : Text.Utf8Fault} (hf : Text.decodeUtf8 content = .error f) :
    Judgement config p content (skipped p f.message)
  | faulty {text : List Char} {f : Fault} (notes : List LogEvent)
    (htext : Text.decodeUtf8 content = .ok text)
    (hf : Source.label (.ofPath p) config (Text.unifyLines text) = .error f) :
    Judgement config p content (failed p notes f)
  | labelled {text : List Char} {l : Source.Labelled} (notes : List LogEvent)
    (htext : Text.decodeUtf8 content = .ok text)
    (hl : Source.label (.ofPath p) config (Text.unifyLines text) = .ok l) :
    Judgement config p content (labelled p notes (Text.unifyLines text) l)

lemma ofContent_judgement (config : Value) (p : Path) (content : List UInt8) :
    Judgement config p content (ofContent config p content) := by
  unfold ofContent
  cases htext : Text.decodeUtf8 content with
  | error f => exact .undecodable htext
  | ok text =>
    change Judgement config p content (ofText config p (Text.unifyLines text))
    unfold ofText
    simp only
    cases hl : Source.label (.ofPath p) config (Text.unifyLines text) with
    | error f =>
      unfold Source.label at hl
      rw [hl]
      exact .faulty _ htext hl
    | ok l =>
      unfold Source.label at hl
      rw [hl]
      exact .labelled _ htext hl

lemma newText_eq_some {text' : List Char} :
    (ofContent config p content).newText = some text' ↔
      ∃ text l, Text.decodeUtf8 content = .ok text ∧
        Source.label (.ofPath p) config (Text.unifyLines text) = .ok l ∧
        l.text ≠ Text.unifyLines text ∧ text' = l.text := by
  have hjudged := ofContent_judgement config p content
  generalize ofContent config p content = done at hjudged
  cases hjudged with
  | undecodable hf => simp [skipped, hf]
  | faulty notes htext hf => simp [failed, htext, hf]
  | @labelled text l notes htext hl =>
    unfold labelled
    split
    · next hsame => simp [htext, hl, hsame]
    · next hsame => simp [htext, hl, hsame, eq_comm]

lemma rewritten_eq (config : Value) (p : Path) (content : List UInt8) :
    rewritten config (.ofPath p) content =
      ((ofContent config p content).newText.map Text.encodeUtf8).getD content := by
  have hjudged := ofContent_judgement config p content
  generalize ofContent config p content = done at hjudged
  unfold rewritten
  cases hjudged with
  | undecodable hf => simp [skipped, hf]
  | faulty notes htext hf => simp [failed, htext, hf]
  | labelled notes htext hl =>
    simp only [htext, hl]
    unfold labelled
    split <;> simp

lemma ofContent_path : (ofContent config p content).result.path = p.text := by
  have hjudged := ofContent_judgement config p content
  generalize ofContent config p content = done at hjudged
  cases hjudged with
  | undecodable => rfl
  | faulty => rfl
  | labelled =>
    unfold labelled
    split <;> rfl

lemma ofContent_changed :
    (ofContent config p content).result.changed = (ofContent config p content).newText.isSome := by
  have hjudged := ofContent_judgement config p content
  generalize ofContent config p content = done at hjudged
  cases hjudged with
  | undecodable => rfl
  | faulty => rfl
  | labelled =>
    unfold labelled
    split <;> rfl

lemma ofContent_failed (h : (ofContent config p content).result.error.isSome) :
    (ofContent config p content).result.stats = {} ∧
      (ofContent config p content).result.changed = false ∧
      (ofContent config p content).newText = none := by
  have hjudged := ofContent_judgement config p content
  generalize ofContent config p content = done at hjudged h
  cases hjudged with
  | undecodable => exact ⟨rfl, rfl, rfl⟩
  | faulty => exact ⟨rfl, rfl, rfl⟩
  | labelled =>
    unfold labelled at h
    split at h <;> simp at h

def Accepted (language : Language) (content : List UInt8) : Prop :=
  ∀ text, Text.decodeUtf8 content = .ok text → Source.accepts language (Text.unifyLines text)

instance : Decidable (Accepted language content) :=
  match h : Text.decodeUtf8 content with
  | .error _ => .isTrue fun text htext => by simp [h] at htext
  | .ok text =>
    decidable_of_iff (Source.accepts language (Text.unifyLines text))
      ⟨fun haccepts _ htext => Except.ok.inj (h.symm.trans htext) ▸ haccepts, fun haccepts => haccepts text h⟩

lemma ofContent_rewritten (h : Accepted (.ofPath p) content) :
    (ofContent config p (rewritten config (.ofPath p) content)).newText = none ∧
      ((ofContent config p (rewritten config (.ofPath p) content)).result.error.isSome ↔
        (ofContent config p content).result.error.isSome) := by
  rw [rewritten_eq]
  cases hnew : (ofContent config p content).newText with
  | none => exact ⟨hnew, Iff.rfl⟩
  | some text' =>
    obtain ⟨text, l, htext, hl, -, rfl⟩ := newText_eq_some.mp hnew
    have hreturns := Source.notMem_of_label (h text htext) (Text.notMem_unifyLines text) hl
    obtain ⟨-, second, hsecond, hsame⟩ := Source.label_settled (h text htext) hl
    have hunified := Text.unifyLines_of_notMem hreturns
    have hagain : Text.decodeUtf8 (Text.encodeUtf8 l.text) = .ok l.text :=
      Text.decodeUtf8_encodeUtf8 l.text
    constructor
    · by_contra hsome
      obtain ⟨text', htext'⟩ := Option.ne_none_iff_exists'.mp hsome
      obtain ⟨again, l', hdecode, hl', hne, -⟩ := newText_eq_some.mp htext'
      obtain rfl := Except.ok.inj (hagain.symm.trans hdecode)
      rw [hunified] at hl' hne
      exact hne (Except.ok.inj (hl'.symm.trans hsecond) ▸ hsame)
    · have hfine : ∀ {c : List UInt8} {cs : List Char} {m : Source.Labelled},
          Text.decodeUtf8 c = .ok cs → Source.label (.ofPath p) config (Text.unifyLines cs) = .ok m →
          ¬ (ofContent config p c).result.error.isSome := by
        intro c cs m hc hm
        have hjudged := ofContent_judgement config p c
        generalize ofContent config p c = done at hjudged
        cases hjudged with
        | undecodable hf => simp [hc] at hf
        | faulty _ htext hf =>
          obtain rfl := Except.ok.inj (hc.symm.trans htext)
          simp [hm] at hf
        | labelled =>
          unfold labelled
          split <;> simp
      have hsecond' : Source.label (.ofPath p) config (Text.unifyLines l.text) = .ok second :=
        hunified.symm ▸ hsecond
      exact iff_of_false (hfine hagain hsecond') (hfine htext hl)

lemma rewritten_again (h : Accepted (.ofPath p) content) :
    rewritten config (.ofPath p) (rewritten config (.ofPath p) content) =
      rewritten config (.ofPath p) content := by
  conv_lhs => rw [rewritten_eq, (ofContent_rewritten h).1]
  rfl

lemma iterate_rewritten (h : Accepted (.ofPath p) content) (n : Nat) :
    (rewritten config (.ofPath p))^[n] content =
      if n = 0 then content else rewritten config (.ofPath p) content := by
  cases n with
  | zero => rfl
  | succ n =>
    rw [Function.iterate_succ_apply, Function.iterate_fixed (rewritten_again h), if_neg n.succ_ne_zero]

end Processed

namespace Snapshot

def places (s : Snapshot) (paths : List Path) : List (List String) :=
  paths.filterMap fun p => (s.locate p).toOption

lemma places_mapContents {f : List String → List UInt8 → List UInt8} :
    (s.mapContents f).places paths = s.places paths := by
  simp [places]

lemma mem_places {place : List String} (hp : p ∈ paths) (hplace : s.locate p = .ok place) :
    place ∈ s.places paths :=
  List.mem_filterMap.mpr ⟨p, hp, by rw [hplace]; rfl⟩

lemma exists_of_mem_places {place : List String} (h : place ∈ s.places paths) :
    ∃ p ∈ paths, s.locate p = .ok place := by
  obtain ⟨p, hp, hplace⟩ := List.mem_filterMap.mp h
  cases hlocate : s.locate p with
  | error f => simp [hlocate, Except.toOption] at hplace
  | ok found =>
    rw [hlocate] at hplace
    exact ⟨p, hp, by rw [hlocate, Option.some.inj hplace]⟩

lemma Sound.ofPath_eq (hs : s.Sound) {place : List String} (hp : s.locate p = .ok place)
    (he : s.entry? place = some (.file content)) : Language.ofPath p = .ofPlace place :=
  Language.ofPath_congr (hs.getLast?_place hp he).symm

end Snapshot

namespace Progress

open Processed

def judge (config : Value) (s : Snapshot) (p : Path) : Processed := (visit config false s p).1

lemma visit_false : visit config false s p = (judge config s p, s) := by
  unfold judge visit
  cases s.readFile p <;> rfl

lemma judge_of_readFile (h : s.readFile p = .ok content) : judge config s p = ofContent config p content := by
  unfold judge visit
  rw [h]
  rfl

lemma judge_congr {t : Snapshot} (h : s.readFile p = t.readFile p) : judge config s p = judge config t p := by
  unfold judge visit
  rw [h]
  cases t.readFile p <;> rfl

lemma judge_path (config : Value) (s : Snapshot) (p : Path) : (judge config s p).result.path = p.text := by
  cases h : s.readFile p with
  | error f => simp [judge, visit, h, skipped]
  | ok content => rw [judge_of_readFile h, ofContent_path]

def change (config : Value) (s : Snapshot) (p : Path) (place : List String) (content : List UInt8) :
    List UInt8 :=
  if s.locate p = .ok place then rewritten config (.ofPlace place) content else content

lemma mapContents_change_of_error {f : FileFault} (hs : s.Sound) (hread : s.readFile p = .error f) :
    s.mapContents (change config s p) = s := by
  refine Snapshot.mapContents_self fun place content hfile => ?_
  unfold change
  split
  · next hplace =>
    have hfound := Snapshot.readFile_eq_ok.mpr ⟨place, hplace, hs.entry?_of_mem hfile⟩
    simp [hread] at hfound
  · rfl

lemma set_eq_mapContents_change {place : List String} (hs : s.Sound) (hplace : s.locate p = .ok place)
    (he : s.entry? place = some (.file content)) :
    s.set place (.file (rewritten config (.ofPath p) content)) = s.mapContents (change config s p) := by
  rw [s.set_eq_mapContents hs.distinct he]
  refine Snapshot.mapContents_congr fun q c hfile => ?_
  unfold change
  rw [hplace]
  by_cases hq : q = place
  · subst hq
    obtain rfl : content = c := by
      simpa using he.symm.trans (hs.entry?_of_mem hfile)
    simp [hs.ofPath_eq hplace he]
  · rw [if_neg hq, if_neg fun h => hq (Except.ok.inj h).symm]

lemma set_self {place : List String} (hs : s.Sound) (he : s.entry? place = some (.file content)) :
    s.set place (.file content) = s := by
  rw [s.set_eq_mapContents hs.distinct he]
  refine Snapshot.mapContents_self fun q c hfile => ?_
  split
  · next hq =>
    subst hq
    simpa using he.symm.trans (hs.entry?_of_mem hfile)
  · rfl

lemma writeFile_eq {place : List String} (hplace : s.locate p = .ok place)
    (he : s.entry? place = some (.file content)) (new : List UInt8) :
    s.writeFile p new = .ok (s.set place (.file new)) := by
  unfold Snapshot.writeFile
  simp only [hplace, bind, Except.bind, he]
  rfl

lemma visit_true (hs : s.Sound) (config : Value) (p : Path) :
    visit config true s p = (judge config s p, s.mapContents (change config s p)) := by
  cases hread : s.readFile p with
  | error f => simp [judge, visit, hread, mapContents_change_of_error hs hread]
  | ok content =>
    obtain ⟨place, hplace, he⟩ := Snapshot.readFile_eq_ok.mp hread
    rw [judge_of_readFile hread, ← set_eq_mapContents_change hs hplace he, rewritten_eq, visit, hread]
    change save s p (ofContent config p content) = _
    unfold save
    cases hnew : (ofContent config p content).newText with
    | none => exact congrArg (Prod.mk _) (set_self hs he).symm
    | some text => simp [writeFile_eq hplace he]

def linesFor (config : Value) (s : Snapshot) (p : Path) : List String :=
  if (judge config s p).result.changed then [pendingLine p] else []

lemma through_false (config : Value) (g : Progress) (paths : List Path) :
    g.through config false paths =
      { snapshot := g.snapshot
        results := g.results ++ paths.map fun p => (judge config g.snapshot p).result
        log := g.log ++ paths.flatMap fun p => (judge config g.snapshot p).log
        printed := g.printed ++ paths.flatMap (linesFor config g.snapshot) } := by
  induction paths generalizing g with
  | nil => simp [through]
  | cons p paths ih =>
    have hnext : g.next config false p =
        { snapshot := g.snapshot
          results := g.results ++ [(judge config g.snapshot p).result]
          log := g.log ++ (judge config g.snapshot p).log
          printed := g.printed ++ linesFor config g.snapshot p } := by
      rw [next, visit_false]
      simp [linesFor]
    rw [through, List.foldl_cons, ← through, hnext, ih]
    simp [List.flatMap_cons]

lemma next_true (hs : g.snapshot.Sound) (config : Value) (p : Path) :
    g.next config true p =
      { snapshot := g.snapshot.mapContents (change config g.snapshot p)
        results := g.results ++ [(judge config g.snapshot p).result]
        log := g.log ++ (judge config g.snapshot p).log
        printed := g.printed } := by
  rw [next, visit_true hs]
  simp

lemma places_cons {place : List String} (hplace : g.snapshot.locate p = .ok place) :
    g.snapshot.places (p :: paths) = place :: g.snapshot.places paths := by
  simp [Snapshot.places, hplace, Except.toOption]

lemma through_true_snapshot (hs : g.snapshot.Sound) (config : Value) (paths : List Path) :
    (g.through config true paths).snapshot = g.snapshot.mapContents fun place =>
      (rewritten config (.ofPlace place))^[(g.snapshot.places paths).count place] := by
  induction paths generalizing g with
  | nil => exact (Snapshot.mapContents_self fun _ _ _ => rfl).symm
  | cons p paths ih =>
    have hnext := next_true hs config p
    have hsound : (g.next config true p).snapshot.Sound := by
      rw [hnext]
      exact hs.mapContents
    rw [through, List.foldl_cons, ← through, ih hsound, hnext]
    simp only [Snapshot.places_mapContents, Snapshot.mapContents_mapContents]
    refine Snapshot.mapContents_congr fun place content _ => ?_
    rw [Function.comp_apply, change]
    cases hplace : g.snapshot.locate p with
    | error f => simp [Snapshot.places, hplace, Except.toOption]
    | ok found =>
      rw [places_cons hplace, List.count_cons]
      by_cases hfound : found = place
      · simp [hfound, Function.iterate_succ_apply]
      · simp [hfound]

lemma through_true_results (hs : g.snapshot.Sound) (hdistinct : (g.snapshot.places paths).Nodup) :
    (g.through config true paths).results =
      g.results ++ paths.map fun p => (judge config g.snapshot p).result := by
  induction paths generalizing g with
  | nil => simp [through]
  | cons p paths ih =>
    have hnext := next_true hs config p
    have hsound : (g.next config true p).snapshot.Sound := by
      rw [hnext]
      exact hs.mapContents
    have hlater : ((g.next config true p).snapshot.places paths).Nodup := by
      rw [hnext]
      unfold Snapshot.places at hdistinct
      rw [List.filterMap_cons] at hdistinct
      simp only [Snapshot.places_mapContents]
      split at hdistinct
      · exact hdistinct
      · exact (List.nodup_cons.mp hdistinct).2
    have hsame : ∀ q ∈ paths,
        judge config (g.next config true p).snapshot q = judge config g.snapshot q := by
      intro q hq
      rw [hnext]
      apply judge_congr
      apply Snapshot.readFile_mapContents
      intro place content hplace
      apply if_neg
      intro hp
      rw [places_cons hp] at hdistinct
      exact (List.nodup_cons.mp hdistinct).1 (Snapshot.mem_places hq hplace)
    rw [through, List.foldl_cons, ← through, ih hsound hlater,
      List.map_congr_left fun q hq => congrArg Processed.result (hsame q hq), hnext]
    simp

end Progress

end MarkupLabels
