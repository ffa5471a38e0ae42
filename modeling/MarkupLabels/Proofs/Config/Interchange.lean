import Mathlib
import MarkupLabels.Proofs.Config.Faithful
import MarkupLabels.Proofs.Config.Merging
import MarkupLabels.Proofs.Files.Discovery
import MarkupLabels.Run.Setup

namespace MarkupLabels

open Fault Value

lemma Value.jsonAlike_texts (ss : List CodePoints) :
    JsonAlike (.list (ss.map .text)) (.list (ss.map .text)) := (plain_texts ss).jsonAlike

namespace Selection

variable {sel sel' : Selection} {xs ys : List Value} {extensions extensions' excluded excluded' : Value}

structure Alike (sel sel' : Selection) : Prop where
  mem_suffixes : ∀ s, s ∈ sel.suffixes ↔ s ∈ sel'.suffixes
  mem_excluded : ∀ s, s ∈ sel.excluded ↔ s ∈ sel'.excluded

lemma Alike.gather_eq (h : sel.Alike sel') (s : Snapshot) (arguments : List Path) :
    sel.gather s arguments = sel'.gather s arguments := by
  have hreaches : sel.reaches = sel'.reaches := by
    funext parts
    simp only [reaches, h.mem_excluded]
  have hcandidates : sel.candidates s = sel'.candidates s := by
    funext p
    rw [candidates, candidates, hreaches]
  induction arguments with
  | nil => rfl
  | cons argument arguments ih => rw [gather, gather, hcandidates, ih]

lemma Alike.discover_eq (h : sel.Alike sel') (s : Snapshot) (arguments : List Path) :
    sel.discover s arguments = sel'.discover s arguments := by
  have hkeep : ∀ paths seen, sel.keepNew seen paths = sel'.keepNew seen paths := by
    intro paths
    induction paths with
    | nil => exact fun seen => rfl
    | cons p paths ih =>
      intro seen
      simp only [keepNew, h.mem_suffixes, ih]
  rw [discover, discover, h.gather_eq, hkeep]

lemma Alike.refusal_eq (h : sel.Alike sel') (s : Snapshot) (arguments : List Path) :
    sel.refusal s arguments = sel'.refusal s arguments := congrArg Prod.snd (h.gather_eq s arguments)

lemma mem_textsOf_alike (h : ItemsAlike xs ys) (s : CodePoints) : s ∈ textsOf xs ↔ s ∈ textsOf ys := by
  cases h with
  | items h =>
    induction h with
    | nil => rfl
    | @cons x y xs ys hxy _ ih =>
      rw [mem_textsOf, mem_textsOf] at ih ⊢
      rw [List.mem_cons, List.mem_cons, ih]
      cases hxy <;> simp
  | texts h =>
    obtain ⟨ss, ts, rfl, rfl, hmem⟩ := h
    simp [mem_textsOf, hmem]

lemma checkMembers_alike (h : ItemsAlike xs ys) : checkMembers xs = checkMembers ys := by
  cases h with
  | items h =>
    rw [checkMembers, checkMembers]
    have hfound : Option.Rel JsonAlike (xs.find? fun v => !v.isMember) (ys.find? fun v => !v.isMember) := by
      induction h with
      | nil => exact .none
      | @cons x y xs ys hxy _ ih =>
        have hmember : x.isMember = y.isMember := by cases hxy <;> rfl
        rw [List.find?_cons, List.find?_cons, hmember]
        cases y.isMember
        · exact .some hxy
        · exact ih
    generalize (xs.find? fun v => !v.isMember) = o at hfound
    generalize (ys.find? fun v => !v.isMember) = o' at hfound
    cases hfound with
    | none => rfl
    | some h => simp only [h.sort_eq]
  | texts h =>
    obtain ⟨ss, ts, rfl, rfl, -⟩ := h
    rw [checkMembers_texts, checkMembers_texts]

lemma ofValues_alike (hextensions : JsonAlike extensions extensions')
    (hexcluded : JsonAlike excluded excluded') :
    Agree Alike (ofValues extensions excluded) (ofValues extensions' excluded') := by
  apply hextensions.items.bind
  intro xs ys hxy
  apply hxy.lower.bind
  intro xs ys hxy
  apply hexcluded.items.bind
  intro ns ms hnm
  rw [checkMembers_alike hnm]
  cases checkMembers ms with
  | error fault => exact .error fault
  | ok => exact .ok ⟨mem_textsOf_alike (.texts hxy), mem_textsOf_alike hnm⟩

end Selection

namespace Setup

variable {c c' : Value}

lemma member_alike (h : JsonAlike c c') (key : CodePoints) :
    Agree JsonAlike (member key c) (member key c') := by
  cases h with
  | mapping hdistinct hdistinct' hkeys hmembers =>
    exact .ok (JsonAlike.getD (lookup_alike hdistinct hdistinct' hkeys hmembers) .null)
  | _ => exact .error _

lemma selectionOf_alike (h : JsonAlike c c') :
    Agree Selection.Alike (selectionOf c) (selectionOf c') := by
  apply (member_alike h "files").bind
  intro files files' hfiles
  apply (member_alike hfiles "extensions").bind
  intro extensions extensions' hextensions
  apply (member_alike h "files").bind
  intro files files' hfiles
  apply (member_alike hfiles "exclude_dirs").bind
  intro excluded excluded' hexcluded
  exact Selection.ofValues_alike hextensions hexcluded

end Setup

namespace Config

variable {c c' : Value}

/-- Configurations that cannot be told apart: they have one fingerprint under every vocabulary, the same
files are found under them, or none for the same cause, and every source text is labelled alike. -/
structure Interchangeable (c c' : Value) : Prop where
  fingerprints : ∀ v, ∃ hash, fingerprint c v = .ok hash ∧ fingerprint c' v = .ok hash
  selections : Agree (fun sel sel' => ∀ snapshot arguments,
    sel.discover snapshot arguments = sel'.discover snapshot arguments ∧
      sel.refusal snapshot arguments = sel'.refusal snapshot arguments)
      (Setup.selectionOf c) (Setup.selectionOf c')
  attempts : ∀ language source,
    (Source.Document.read language source).attempt c = (Source.Document.read language source).attempt c'

lemma settings_alike (h : JsonAlike c c') (v : Vocabulary) : JsonAlike (settings c v) (settings c' v) := by
  rw [settings_eq, settings_eq]
  refine .mapping (nodup_settingMembers c v) (nodup_settingMembers c' v) (fun key => Iff.rfl) ?_
  intro key w w' hw hw'
  simp only [settingMembers, List.mem_cons, List.not_mem_nil, or_false, Prod.mk.injEq] at hw hw'
  rcases hw with ⟨rfl, rfl⟩ | ⟨rfl, rfl⟩ | ⟨rfl, rfl⟩ | ⟨rfl, rfl⟩ <;> simp at hw' <;> subst hw'
  · exact h
  · exact jsonAlike_texts _
  · exact .integer _
  · exact jsonAlike_texts _

lemma interchangeable_of_alike (h : JsonAlike c c') : Interchangeable c c' where
  fingerprints := by
    intro v
    obtain ⟨hjson, hjson'⟩ := (settings_alike h v).json_eq
    exact ⟨_, fingerprint_eq hjson, fingerprint_eq hjson'⟩
  selections := by
    have hsel := Setup.selectionOf_alike h
    generalize Setup.selectionOf c = x at hsel
    generalize Setup.selectionOf c' = y at hsel
    cases hsel with
    | error fault => exact .error fault
    | ok hsel => exact .ok fun snapshot arguments => ⟨hsel.discover_eq _ _, hsel.refusal_eq _ _⟩
  attempts := fun _ _ => Source.attempt_alike _ h

end Config

end MarkupLabels
