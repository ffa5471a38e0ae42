import Mathlib
import MarkupLabels.Proofs.Json.Escapes
import MarkupLabels.Proofs.Source.ReadBack

namespace MarkupLabels.Source.Document

variable {language : Language} {source : List Char} {added : Nat → List Attribute}

lemma read_write (h : accepts language source)
    (hnamed : ∀ i, added i ≠ [] → (read language source).isNamed i)
    (hnames : ∀ i, ∀ a ∈ added i, IsAttributeName a.name.toList) :
    accepts language (Progress.initial.write added (lexemes language source)) ∧
      (read language (Progress.initial.write added (lexemes language source))).forest =
        (read language source).forest.extend (fun i => (added i).map Attribute.readBack) ∧
      (read language (Progress.initial.write added (lexemes language source))).imports =
        (read language source).imports := by
  have hwritable := writable_of_accepts h hnamed hnames
  have htidied := tidied_write h hnamed hnames
  have hsolid : solid (lexemes language (Progress.initial.write added (lexemes language source))) =
      solid (Progress.initial.numbering.enrich added (lexemes language source)) := by
    rw [← solid_tidy (Context.initial language), ← tidied, htidied, solid_enrich, solid_enrich, tidied,
      solid_tidy]
  obtain ⟨hforest, himports⟩ := ofLexemes_congr language hsolid
  refine ⟨?_, hforest.trans ?_, himports.trans ?_⟩
  · rw [accepts, ← admitsAll_tidy, ← tidied, htidied]
    exact admitsAll_enrich hwritable
  · exact Progress.Gained.of_initial.foldl_enrich hwritable .program List.nodup_nil (by simp)
  · exact importRecords_enrich []

/-- Reading a rendered document gives its elements and imports again, and behind the attributes of each
element those that were added to it. A value is read as it was written, but for one that holds both
quotes: that is read as the body of a string literal, which stands for it. -/
theorem read_renderWith_extend (h : accepts language source)
    (hnamed : ∀ i, added i ≠ [] → (read language source).isNamed i)
    (hnames : ∀ i, ∀ a ∈ added i, IsAttributeName a.name.toList) :
    let d := read language source
    let later := read language (d.renderWith (d.forest.extend added))
    accepts language later.source ∧
      later.forest = d.forest.extend (fun i => (added i).map Attribute.readBack) ∧
      later.imports = d.imports ∧
      ∀ a : Attribute, a.readBack.name = a.name ∧
        if '"' ∈ a.writtenValue.toList ∧ '\'' ∈ a.writtenValue.toList then
          ∃ body, a.readBack.value = some (.text (String.ofList body)) ∧
            body = Json.quotedBody a.writtenValue.toList ∧
            Json.unescaped? body = some a.writtenValue.toList
        else a.readBack.value = some (.text a.writtenValue) := by
  intro d later
  obtain ⟨haccepts, hforest, himports⟩ := read_write h hnamed hnames
  have hrender := renderWith_extend_eq_write h hnamed
  have hlater : later = read language (Progress.initial.write added (lexemes language source)) :=
    congrArg (read language) hrender
  rw [hlater, read_source]
  refine ⟨haccepts, hforest, himports, fun a => ⟨rfl, ?_⟩⟩
  split
  · next hboth =>
    refine ⟨Json.quotedBody a.writtenValue.toList, ?_, rfl, Json.unescaped?_quotedBody _⟩
    rw [Attribute.readBack, if_pos hboth]
  · next hnot => rw [Attribute.readBack, if_neg hnot]

theorem read_renderWith_extend_quotes :
    let source := "import A from 'm';\n<A b=\x7b<C/>\x7d\n/>;\n".toList
    let added : Nat → List Attribute :=
      fun i => if i < 2 then [⟨"d-e", some (.text "it's \"x\"")⟩] else []
    let d := read .tsx source
    let later := read .tsx (d.renderWith (d.forest.extend added))
    accepts .tsx source ∧ (∀ i, added i ≠ [] → d.isNamed i) ∧
      (∀ i, ∀ a ∈ added i, IsAttributeName a.name.toList) ∧ accepts .tsx later.source ∧
      later.forest = d.forest.extend (fun i => (added i).map Attribute.readBack) ∧
      later.imports = d.imports := by
  intro source added d later
  have h : accepts .tsx source := by decide +kernel
  have hnamed : ∀ i, added i ≠ [] → d.isNamed i := by
    intro i hi
    have hlt : i < 2 := by
      by_contra hge
      exact hi (if_neg hge)
    have hboth : d.isNamed 0 ∧ d.isNamed 1 := by
      constructor <;> decide +kernel
    obtain rfl | rfl : i = 0 ∨ i = 1 := by omega
    · exact hboth.1
    · exact hboth.2
  have hnames : ∀ i, ∀ a ∈ added i, IsAttributeName a.name.toList := by
    intro i a ha
    have hname : a.name = "d-e" := by
      simp only [added] at ha
      split at ha <;> simp_all
    rw [hname]
    exact .of_all (by decide) (by decide)
  obtain ⟨haccepts, hforest, himports, -⟩ := read_renderWith_extend h hnamed hnames
  exact ⟨h, hnamed, hnames, haccepts, hforest, himports⟩

end MarkupLabels.Source.Document
