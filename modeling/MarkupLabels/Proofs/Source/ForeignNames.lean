import Mathlib
import MarkupLabels.Proofs.Import.Resolution
import MarkupLabels.Proofs.Source.Relabelling

namespace MarkupLabels

namespace Labeller

variable {l : Labeller} {f : Forest} {i : Nat} {e : Element} {name : String}

lemma due_of_foreign (he : f.get? i = some e) (hname : e.name = some name)
    (hresolve : l.provenance.resolve name = none) : l.due f i = [] := by
  by_contra hdue
  obtain ⟨name', exported, hknows, -⟩ := knows_of_due hdue
  rw [visited_of_get? he] at hknows
  obtain rfl : name = name' := Option.some.inj (hname.symm.trans hknows.name_eq)
  cases hresolve.symm.trans hknows.resolve_eq

end Labeller

namespace Source

variable {language : Language} {config : Value} {source : List Char} {name : String}

def LeavesAlone (language : Language) (config : Value) (source : List Char) (name : String) : Prop :=
  ∃ out, label language config source = .ok out ∧ accepts language out.text ∧
    ∀ i e, (Document.read language source).forest.get? i = some e → e.name = some name →
      (Document.read language out.text).forest.get? i = some e

lemma leavesAlone_of_resolve (h : accepts language source) (hconfig : UsableConfig config)
    (hresolve : ∀ p, (Document.read language source).provenance (effectiveConfig config) = .ok p →
      p.resolve name = none) : LeavesAlone language config source name := by
  obtain ⟨p, hp⟩ := hconfig.catalogs (Document.read language source)
  obtain ⟨r, hr, husable⟩ := hconfig.rules
  obtain ⟨text, hfirst, haccepts, -, hread⟩ :=
    read_labelled (l := ⟨p, r, .standard⟩) h rfl husable
  refine ⟨_, (label_eq hp hr).trans hfirst, haccepts, fun i e he hname => ?_⟩
  have hdue := Labeller.due_of_foreign (l := ⟨p, r, .standard⟩) he hname (hresolve p hp)
  have hassigned : (⟨p, r, .standard⟩ : Labeller).assigned (Document.read language source).forest i =
      [] := by
    rcases Labeller.assigned_cases (l := ⟨p, r, .standard⟩) (Document.read language source).forest i
      with hi | hi
    · exact hi
    · exact hi.trans hdue
  rw [Forest.get?] at he
  rw [hread, Forest.get?, Forest.extend_getElem?, he, hassigned]
  simp

/-- A name is left alone if no import from the library binds it, none imports what the library calls
so, and it is not trusted where a package of the library is imported without binding names. -/
theorem label_foreign (h : accepts language source) (hconfig : UsableConfig config)
    (hbound : ∀ r ∈ (Document.read language source).imports, IsLibraryModule config r.source →
      r.localName ≠ some name)
    (hexported : ∀ r ∈ (Document.read language source).imports, IsLibraryModule config r.source →
      r.kind = .named → r.importedName ≠ some name)
    (htrusted : ∀ r ∈ (Document.read language source).imports, IsLibraryModule config r.source →
      r.kind = .sideEffect → Text.contains r.source Provenance.libraryScope →
        ¬ IsTrustedName config name) : LeavesAlone language config source name := by
  refine leavesAlone_of_resolve h hconfig fun p hp => ?_
  obtain ⟨hrecords, htrust⟩ := provenance_spec hp
  rw [Provenance.resolve_eq_none_iff]
  right
  intro r hr hspeaks
  obtain ⟨hr, hlibrary⟩ := (hrecords r).mp hr
  unfold ImportRecord.SpeaksFor at hspeaks
  cases hkind : r.kind with
  | named =>
    simp only [hkind] at hspeaks
    rcases hspeaks with hspeaks | hspeaks
    · exact hbound r hr hlibrary hspeaks
    · exact hexported r hr hlibrary hkind hspeaks
  | default =>
    simp only [hkind] at hspeaks
    exact hbound r hr hlibrary hspeaks
  | «namespace» => simp only [hkind] at hspeaks
  | sideEffect =>
    simp only [hkind] at hspeaks
    exact htrusted r hr hlibrary hkind hspeaks.1 ((htrust name).mp hspeaks.2)

theorem label_foreign_button :
    let source := "import \x7b Card \x7d from '@patternfly/react-core';\nimport \x7b Button \x7d from './ui';\nvar x = <Card><Button /></Card>;\n".toList
    accepts .tsx source ∧ LeavesAlone .tsx .null source "Button" := by
  rw [String.toList_ofList]
  intro source
  obtain ⟨h, himports⟩ : accepts .tsx source ∧ (Document.read .tsx source).imports =
      [⟨"@patternfly/react-core", .named, some "Card", some "Card"⟩,
        ⟨"./ui", .named, some "Button", some "Button"⟩] := by decide +kernel
  refine ⟨h, label_foreign h null_usable ?_ ?_ ?_⟩ <;> rw [himports]
  · decide
  · decide
  · simp

variable {p : Provenance} {r : Rules} {i : Nat} {e : Element} {exported : String}

lemma not_leavesAlone (h : accepts language source)
    (hp : (Document.read language source).provenance (effectiveConfig config) = .ok p)
    (hr : Rules.ofConfig config = .ok r)
    (he : (Document.read language source).forest.get? i = some e)
    (hknows : (⟨p, r, .standard⟩ : Labeller).Knows e name exported)
    (hskips : r.skips exported = .ok false)
    (hmarker : (⟨p, r, .standard⟩ : Labeller).hasMarker e.attributes = false) :
    ¬ LeavesAlone language config source name := by
  rintro ⟨out, hout, -, halone⟩
  obtain ⟨text, hfirst, -, -, hread⟩ :=
    read_labelled (l := ⟨p, r, .standard⟩) h rfl (Rules.usable_of_kept hskips)
  obtain rfl := Except.ok.inj (hout.symm.trans ((label_eq hp hr).trans hfirst))
  -- Were it left alone, nothing would have been assigned to it; but the role is always written.
  have hsame := halone i e he hknows.name_eq
  rw [Forest.get?] at he
  rw [hread, Forest.get?, Forest.extend_getElem?, he] at hsame
  have hnone : (⟨p, r, .standard⟩ : Labeller).assigned (Document.read language source).forest i = [] := by
    simpa using congrArg (Option.map Element.attributes) hsame
  rw [Labeller.assigned, if_pos (Forest.mem_walk_roots (List.getElem?_eq_some_iff.mp he).1),
    Labeller.due_of_knows he hknows hskips hmarker] at hnone
  exact Labels.attributes_ne_nil _ hnone

def LabelsForeign (language : Language) (config : Value) (source : List Char) (name : String) : Prop :=
  accepts language source ∧ UsableConfig config ∧
    (∃ r ∈ (Document.read language source).imports,
      r.localName = some name ∧ ¬ IsLibraryModule config r.source) ∧
    (∀ r ∈ (Document.read language source).imports, IsLibraryModule config r.source →
      r.localName ≠ some name) ∧
    ¬ LeavesAlone language config source name

lemma labelsForeign_button (imports : List ImportRecord)
    (h : accepts .tsx source ∧ (Document.read .tsx source).imports = imports ∧
      (Document.read .tsx source).forest.get? 0 = some ⟨some "Button", none, []⟩)
    (hforeign : ∃ r ∈ imports, r.localName = some "Button" ∧ ¬ IsLibraryModule .null r.source)
    (hlibrary : ∀ r ∈ imports, IsLibraryModule .null r.source → r.localName ≠ some "Button")
    (hp : Provenance.ofValues imports .null .null = .ok p)
    (hresolve : p.resolve "Button" = some "Button") : LabelsForeign .tsx .null source "Button" := by
  obtain ⟨h, rfl, hbutton⟩ := h
  exact ⟨h, null_usable, hforeign, hlibrary,
    not_leavesAlone h hp rfl hbutton ⟨rfl, by decide, hresolve⟩ rfl rfl⟩

theorem label_foreign_shadowed :
    LabelsForeign .tsx .null "import \x7b Button as Action \x7d from '@patternfly/react-core';\nimport \x7b Button \x7d from './ui';\nvar x = <Button />;\n".toList "Button" ∧
      LabelsForeign .tsx .null "import '@patternfly/react-core/base.css';\nimport \x7b Button \x7d from './ui';\nvar x = <Button />;\n".toList "Button" := by
  rw [String.toList_ofList, String.toList_ofList]
  constructor
  · exact labelsForeign_button
      [⟨"@patternfly/react-core", .named, some "Action", some "Button"⟩,
        ⟨"./ui", .named, some "Button", some "Button"⟩]
      (by decide +kernel) (by decide) (by decide) rfl (by decide)
  · exact labelsForeign_button
      [⟨"@patternfly/react-core/base.css", .sideEffect, none, none⟩,
        ⟨"./ui", .named, some "Button", some "Button"⟩]
      (by decide +kernel) (by decide) (by decide) rfl (by decide)

end Source

end MarkupLabels
