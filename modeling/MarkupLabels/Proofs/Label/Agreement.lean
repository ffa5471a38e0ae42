import Mathlib
import MarkupLabels.Proofs.Label.Noninterference

namespace MarkupLabels

variable {Object : Type} {attributes : List Attribute} {entries : List (String × PassedValue Object)}

inductive PassedValue.StandsFor : PassedValue Object → Option AttributeValue → Prop
  | shorthand : StandsFor (.flag true) none
  | text (s : String) : StandsFor (.text s) (some (.text s))
  | flag (b : Bool) : StandsFor (.flag b) (some (.flag b))
  | integer (n : Int) : StandsFor (.integer n) (some (.integer n))
  | real (x : Binary64) : StandsFor (.real x) (some (.real x))
  | unresolved (o : Object) : StandsFor (.object o) (some .unresolved)

lemma PassedValue.StandsFor.known {v : PassedValue Object} {w : Option AttributeValue}
    (h : v.StandsFor w) : v.known = some (w.getD (.flag true)) := by
  cases h <;> rfl

/-- Props that a component may be passed where a tag has some attributes: for each name the value of
its last attribute, and nothing for other names. -/
structure PassedFor (entries : List (String × PassedValue Object)) (attributes : List Attribute) :
    Prop where
  distinct : (entries.map Prod.fst).Nodup
  passed : ∀ a after, a :: after <:+ attributes → (∀ b ∈ after, b.name ≠ a.name) →
    ∃ v, (a.name, v) ∈ entries ∧ v.StandsFor a.value
  others : ∀ n v, (n, v) ∈ entries → n ∉ attributes.map Attribute.name → v = .nothing

namespace GivenProps

lemma get?_toProps_passed (h : PassedFor entries attributes) (n : String) :
    (passed entries).toProps.get? n = (written attributes : GivenProps Object).toProps.get? n := by
  have hdistinct : ((entries.map fun entry => (entry.1, entry.2.known)).map Prod.fst).Nodup := by
    simpa using! h.distinct
  rw [toProps, toProps, Props.get?_ofAttributes]
  cases hfind : attributes.reverse.find? (·.name == n) with
  | none =>
    refine Props.get?_ofPassed_eq_none fun w hw => ?_
    obtain ⟨⟨m, v⟩, hv, heq⟩ := List.mem_map.mp hw
    obtain ⟨rfl, rfl⟩ := Prod.mk.inj heq
    have hnone : ∀ a ∈ attributes, a.name ≠ m := by simpa using hfind
    rw [h.others m v hv (by simpa using hnone)]
    rfl
  | some a =>
    -- Of the reversed attributes the first with the name is the last on the tag.
    obtain ⟨hname, later, earlier, hsplit, hlater⟩ := List.find?_eq_some_iff_append.mp hfind
    obtain rfl : a.name = n := by simpa using hname
    have hattributes : earlier.reverse ++ a :: later.reverse = attributes := by
      simpa using congrArg List.reverse hsplit.symm
    obtain ⟨v, hv, hstands⟩ := h.passed a later.reverse ⟨_, hattributes⟩ fun b hb => by
      simpa using hlater b (by simpa using hb)
    rw [Option.map_some]
    refine Props.get?_ofPassed_of_mem hdistinct (List.mem_map.mpr ⟨_, hv, ?_⟩)
    simp [hstands.known]

end GivenProps

namespace Labels

lemma standard_isMarker_of_asked {n : String}
    (h : n ∈ Label.presenceNames ∨ n ∈ Label.textNames ∨ n ∈ Label.polarityNames) :
    Vocabulary.standard.isMarker n = false := by
  have hall : ∀ n ∈ Label.presenceNames ++ Label.textNames ++ Label.polarityNames,
      Vocabulary.standard.isMarker n = false := by decide
  exact hall n (by simpa [or_assoc] using h)

/-- The attributes on a tag, those of them that are no labels, and the props passed for them at run
time all give the same labels. -/
theorem ofGiven_agree (name : String) (inherited : Option String)
    (h : PassedFor entries attributes) :
    let unlabelled : GivenProps Object := .props (.ofUnlabelled .standard attributes)
    let written : GivenProps Object := .written attributes
    ofGiven name unlabelled inherited = ofGiven name written inherited ∧
      ofGiven name (.passed entries) inherited = ofGiven name written inherited := by
  intro unlabelled written
  have hunlabelled : unlabelled.toProps.Alike written.toProps :=
    .of_get? fun n hn => Props.get?_ofUnlabelled (standard_isMarker_of_asked hn)
  have hpassed : (GivenProps.passed entries).toProps.Alike written.toProps :=
    .of_get? fun n _ => GivenProps.get?_toProps_passed h n
  exact ⟨infer_congr hunlabelled name inherited, infer_congr hpassed name inherited⟩

theorem ofGiven_agree_button :
    let attributes : List Attribute := [⟨"variant", some (.text "plain")⟩, ⟨"isInline", none⟩,
      ⟨"data-role", some (.text "link")⟩, ⟨"onClick", some .unresolved⟩,
      ⟨"variant", some (.text "link")⟩]
    let entries : List (String × PassedValue Unit) := [("data-role", .text "link"),
      ("isDanger", .nothing), ("variant", .text "link"), ("onClick", .object ()),
      ("isInline", .flag true)]
    PassedFor entries attributes ∧
      ofGiven "Button" (.passed entries) none =
        ofGiven "Button" (.written attributes : GivenProps Unit) none := by
  intro attributes entries
  have h : PassedFor entries attributes := by
    refine ⟨by decide, fun a after hsuffix hlast => ?_, fun n v hv hn => ?_⟩
    · rw [← List.mem_tails] at hsuffix
      simp only [attributes, List.tails, List.mem_cons, List.cons.injEq, List.not_mem_nil,
        reduceCtorEq, or_false] at hsuffix
      rcases hsuffix with ⟨rfl, rfl⟩ | ⟨rfl, -⟩ | ⟨rfl, -⟩ | ⟨rfl, -⟩ | ⟨rfl, -⟩
      · simp at hlast
      · exact ⟨_, by simp [entries], .shorthand⟩
      · exact ⟨_, by simp [entries], .text _⟩
      · exact ⟨_, by simp [entries], .unresolved ()⟩
      · exact ⟨_, by simp [entries], .text _⟩
    · simp only [entries, attributes, List.map, List.mem_cons, Prod.mk.injEq, List.not_mem_nil] at hv hn
      tauto
  exact ⟨h, (ofGiven_agree "Button" none h).2⟩

end Labels

end MarkupLabels
