import Mathlib
import MarkupLabels.Proofs.Import.Resolution
import MarkupLabels.Proofs.Source.Alphabet
import MarkupLabels.Proofs.Source.Relabelling
import MarkupLabels.Proofs.Tree.Locality

namespace MarkupLabels

variable {A : Set Char}

section Elements

variable {p : Provenance} {v : Vocabulary} {es : List Element} {e : Element} {name exported : String}

def Provenance.Over (alphabet : Set Char) (p : Provenance) : Prop :=
  ∀ r ∈ p.records, Source.ImportDeclaration.ExportsOver alphabet r

lemma Provenance.resolve_over (hp : p.Over A) (hname : TextOver A name)
    (h : p.resolve name = some exported) : TextOver A exported := by
  unfold resolve at h
  split at h
  · simp at h
  obtain ⟨r, hr, h⟩ := List.exists_of_findSome?_eq_some h
  unfold resolveBy at h
  split at h
  · split at h
    · split at h
      · next imported himported =>
        obtain rfl := Option.some.inj h
        split
        · exact hname
        · exact hp r hr imported himported
      · exact Option.some.inj h ▸ hname
    · simp at h
  · split at h
    · exact Option.some.inj h ▸ hname
    · simp at h
  · simp at h
  · split at h
    · exact Option.some.inj h ▸ hname
    · simp at h

lemma Context.given_over (he : e.Over noReturns) {context : Option String}
    (h : given p v e = some context) : ∀ s ∈ context, TextOver noReturns s := by
  obtain ⟨exported, hresolve, h⟩ := Option.bind_eq_some_iff.mp h
  simp only at h
  split at h
  · obtain rfl := Option.some.inj h
    exact Label.context_over (Props.ofUnlabelled_over he.attributes) (by simp)
  · simp at h

lemma Context.inherited_over (hes : ∀ e ∈ es, e.Over noReturns) :
    ∀ s ∈ inherited p v es, TextOver noReturns s := by
  have hsearch : ∀ es : List Element, (∀ e ∈ es, e.Over noReturns) →
      ∀ context ∈ (search p v es).1, ∀ s ∈ context, TextOver noReturns s := by
    intro es hes
    induction es with
    | nil => simp [search]
    | cons e es ih =>
      rw [search]
      split
      · next context hgiven =>
        rintro _ ⟨⟩
        exact given_over (hes e (by simp)) hgiven
      · exact ih fun f hf => hes f (List.mem_cons_of_mem _ hf)
  intro s hs
  have hcontext := Option.join_eq_some_iff.mp hs
  exact hsearch _ (fun e he => hes e (List.mem_of_mem_take he)) _ hcontext s rfl

end Elements

section Forests

variable {l : Labeller} {f : Forest} {i : Nat}

lemma Labeller.due_hasText (hp : l.provenance.Over noReturns)
    (hf : ∀ e ∈ f.elements, e.Over noReturns) : ∀ a ∈ l.due f i, a.HasText noReturns := by
  intro a ha
  have hdue : l.due f i ≠ [] := List.ne_nil_of_mem ha
  obtain ⟨name, exported, hknows, hskips, hmarker⟩ := knows_of_due hdue
  obtain ⟨_, hname⟩ := Option.isSome_iff_exists.mp (name?_of_due hdue)
  obtain ⟨e, he, -⟩ := Option.bind_eq_some_iff.mp hname
  rw [visited_of_get? he] at hknows hmarker
  have hover := hf e (List.mem_of_getElem? he)
  have hresolved := Provenance.resolve_over hp (hover.name _ hknows.name_eq) hknows.resolve_eq
  rw [due_of_knows he hknows hskips hmarker] at ha
  refine Labels.infer_over _ hresolved (Props.ofUnlabelled_over hover.attributes) ?_ a ha
  apply Context.inherited_over
  intro o ho
  obtain ⟨j, -, hj⟩ := List.mem_filterMap.mp ho
  exact hf o (List.mem_of_getElem? hj)

end Forests

section Markup

lemma Json.escape_noReturns (c : Char) : ∀ d ∈ escape c, d ∈ noReturns := by
  have hdigit : ∀ n, hexDigit (n % 16) ∈ noReturns := by
    have hall : ∀ n < 16, hexDigit n ≠ '\r' := by decide
    exact fun n => hall _ (Nat.mod_lt _ (by decide))
  have hunit : ∀ n, ∀ d ∈ unitEscape n, d ∈ noReturns := by
    intro n
    unfold unitEscape
    simp only [List.forall_mem_cons]
    exact ⟨by simp [noReturns], by simp [noReturns], hdigit _, hdigit _, hdigit _, hdigit _, by simp⟩
  unfold escape
  split; · simp [noReturns]
  split; · simp [noReturns]
  split; · simp [noReturns]
  split; · simp [noReturns]
  split; · simp [noReturns]
  split; · simp [noReturns]
  split; · simp [noReturns]
  split
  · next hreturn _ _ _ _ => simpa [noReturns] using hreturn
  split
  · exact hunit _
  · exact List.forall_mem_append.mpr ⟨hunit _, hunit _⟩

lemma Json.quoted_noReturns (cs : List Char) : ∀ d ∈ quoted cs, d ∈ noReturns := by
  have hbody : ∀ d ∈ quotedBody cs, d ∈ noReturns := by
    intro d hd
    obtain ⟨c, -, hd⟩ := List.mem_flatMap.mp hd
    exact escape_noReturns c d hd
  unfold quoted
  rw [List.forall_mem_cons, List.forall_mem_append]
  exact ⟨by simp [noReturns], hbody, by simp [noReturns]⟩

lemma Attribute.markup_noReturns {a : Attribute} (hname : TextOver noReturns a.name)
    (hvalue : a.HasText noReturns) : ∀ c ∈ a.markup, c ∈ noReturns := by
  obtain ⟨s, hs, hover⟩ := hvalue
  have hwritten : ∀ c ∈ a.writtenValue.toList, c ∈ noReturns := by
    rw [writtenValue, hs]
    exact hover
  have hmark : ∀ c ∈ ['=', '"', '\'', '\x7b', '\x7d'], c ∈ noReturns := by
    simp [noReturns]
  simp only [List.forall_mem_cons] at hmark
  obtain ⟨hequals, hdouble, hsingle, hopen, hclose, -⟩ := hmark
  unfold markup
  simp only
  split
  · simp only [List.forall_mem_append, List.forall_mem_cons]
    exact ⟨⟨⟨hname, hequals, hdouble, by simp⟩, hwritten⟩, hdouble, by simp⟩
  split
  · simp only [List.forall_mem_append, List.forall_mem_cons]
    exact ⟨⟨⟨hname, hequals, hsingle, by simp⟩, hwritten⟩, hsingle, by simp⟩
  · simp only [List.forall_mem_append, List.forall_mem_cons]
    exact ⟨⟨⟨hname, hequals, hopen, by simp⟩, Json.quoted_noReturns _⟩, hclose, by simp⟩

end Markup

namespace Source

variable {language : Language} {config : Value} {source : List Char} {first : Labelled}

lemma spaces_noReturns (n : Nat) : ∀ c ∈ spaces n, c ∈ noReturns := by
  intro c hc
  obtain rfl := List.eq_of_mem_replicate hc
  simp [noReturns]

lemma Layout.insertion_noReturns (layout : Layout) (token : List Char) {added : List Attribute}
    (h : ∀ a ∈ added, ∀ c ∈ a.markup, c ∈ noReturns) :
    ∀ c ∈ layout.insertion token added, c ∈ noReturns := by
  have hlead : ∀ c ∈ layout.lead, c ∈ noReturns := by
    cases layout with
    | ownLine attributes closer => exact spaces_noReturns _
    | _ => simp [lead, noReturns]
  have hseparator : ∀ c ∈ layout.separator, c ∈ noReturns := by
    cases layout with
    | ownLine attributes closer =>
      exact List.forall_mem_cons.mpr ⟨by simp [noReturns], spaces_noReturns _⟩
    | _ => simp [separator, noReturns]
  have htrail : ∀ c ∈ layout.trail token, c ∈ noReturns := by
    cases layout with
    | ownLine attributes closer =>
      exact List.forall_mem_cons.mpr ⟨by simp [noReturns], spaces_noReturns _⟩
    | adjacent =>
      simp only [trail]
      split <;> simp [noReturns]
    | spaced => simp [trail, noReturns]
  cases added with
  | nil => simp [insertion]
  | cons a more =>
    obtain ⟨ha, hmore⟩ := List.forall_mem_cons.mp h
    simp only [insertion, List.forall_mem_append, List.forall_mem_flatMap]
    exact ⟨⟨⟨hlead, ha⟩, fun b hb => ⟨hseparator, hmore b hb⟩⟩, htrail⟩

lemma Progress.write_noReturns {added : Nat → List Attribute} (p : Progress) {ls : List Lexeme}
    (hls : ∀ l ∈ ls, l.Over noReturns) (h : ∀ i, ∀ a ∈ added i, ∀ c ∈ a.markup, c ∈ noReturns) :
    ∀ c ∈ p.write added ls, c ∈ noReturns := by
  induction ls generalizing p with
  | nil => simp [write]
  | cons l ls ih =>
    obtain ⟨hl, hls⟩ := List.forall_mem_cons.mp hls
    have hinserted : ∀ c ∈ p.insertionBefore added l, c ∈ noReturns := by
      unfold insertionBefore TagEnd.insertion
      cases p.tagEnd? l with
      | none => simp
      | some t =>
        cases hlayout : t.layout with
        | none => simp [hlayout]
        | some layout => simpa [hlayout] using layout.insertion_noReturns t.token (h t.element)
    simp only [write, List.forall_mem_append]
    exact ⟨⟨hinserted, hl⟩, ih _ hls⟩

lemma labelAll_of_label (hlabel : label language config source = .ok first) :
    ∃ p r, (Document.read language source).provenance (effectiveConfig config) = .ok p ∧
      Rules.ofConfig config = .ok r ∧
      ((⟨p, r, .standard⟩ : Labeller).labelAll (Document.read language source).forest).fault = none ∧
      first =
        { text := (Document.read language source).renderWith
            ((⟨p, r, .standard⟩ : Labeller).labelAll (Document.read language source).forest).forest
          outcomes :=
            ((⟨p, r, .standard⟩ : Labeller).labelAll (Document.read language source).forest).outcomes } := by
  unfold label Document.attempt at hlabel
  cases hp : (Document.read language source).provenance (effectiveConfig config) with
  | error fault => simp [hp] at hlabel
  | ok p =>
    cases hr : Rules.ofConfig config with
    | error fault => simp [hp, hr] at hlabel
    | ok r =>
      refine ⟨p, r, rfl, rfl, ?_⟩
      simp only [hp, hr] at hlabel
      unfold Document.labelWith at hlabel
      simp only at hlabel
      split at hlabel
      · cases hlabel
      · next hfault => exact ⟨hfault, (Except.ok.inj hlabel).symm⟩

lemma exists_of_label (h : accepts language source)
    (hlabel : label language config source = .ok first) :
    ∃ p r, (Document.read language source).provenance (effectiveConfig config) = .ok p ∧
      Rules.ofConfig config = .ok r ∧
      first.text = Progress.initial.write
        ((⟨p, r, .standard⟩ : Labeller).assigned (Document.read language source).forest)
        (lexemes language source) := by
  obtain ⟨p, r, hp, hr, -, rfl⟩ := labelAll_of_label hlabel
  refine ⟨p, r, hp, hr, ?_⟩
  simp only [Labeller.labelAll, Labeller.visitAll_forest]
  exact Document.renderWith_extend_eq_write h fun i => isNamed_of_assigned h

lemma notMem_of_label (h : accepts language source) (hsource : '\r' ∉ source)
    (hlabel : label language config source = .ok first) : '\r' ∉ first.text := by
  obtain ⟨p, r, hp, -, htext⟩ := exists_of_label h hlabel
  have hchars : ∀ c ∈ source, c ∈ noReturns := mem_noReturns.mpr hsource
  have hover : p.Over noReturns := fun r hr =>
    Document.import_over hchars (((provenance_spec hp).1 r).mp hr).1
  have hnames : ∀ name ∈ Vocabulary.standard.names, TextOver noReturns name := by decide
  rw [htext]
  apply mem_noReturns.mp
  refine Progress.write_noReturns _ (fun l hl => over_of_mem_lexemes hchars hl) fun i a ha => ?_
  refine Attribute.markup_noReturns (hnames _ (Labeller.mem_assigned ha)) ?_
  rcases (⟨p, r, .standard⟩ : Labeller).assigned_cases (Document.read language source).forest i with hi | hi
  · simp [hi] at ha
  · exact Labeller.due_hasText hover (fun e he => Document.element_over hchars he) a (hi ▸ ha)

lemma label_settled (h : accepts language source)
    (hlabel : label language config source = .ok first) :
    accepts language first.text ∧
      ∃ second, label language config first.text = .ok second ∧ second.text = first.text := by
  obtain ⟨p, r, hp, hr, htext⟩ := exists_of_label h hlabel
  by_cases husable : r.Usable
  · obtain ⟨text, hfirst, haccepts, himports, hread⟩ :=
      read_labelled (l := ⟨p, r, .standard⟩) h rfl husable
    obtain rfl := Except.ok.inj (hlabel.symm.trans ((label_eq hp hr).trans hfirst))
    obtain ⟨second, hsecond, hsame, -⟩ := labelWith_again husable hread
    have hp' := provenance_congr himports (effectiveConfig config)
    exact ⟨haccepts, second, (label_eq (hp'.trans hp) hr).trans hsecond,
      hsame.trans Document.read_source⟩
  · -- Rules under which every library element faults or is skipped give no labels at all.
    have hnone : (⟨p, r, .standard⟩ : Labeller).assigned (Document.read language source).forest =
        fun _ => [] := by
      ext1 i
      rcases (⟨p, r, .standard⟩ : Labeller).assigned_cases (Document.read language source).forest i with
        hi | hi
      · exact hi
      · rw [hi, Labeller.due_of_not_usable husable]
    have hsame : first.text = source := by
      rw [htext, hnone, ← Document.renderWith_extend_eq_write h (by simp), Forest.extend_nil,
        Document.renderWith_self, Document.read_source]
    rw [hsame]
    exact ⟨h, first, hlabel, hsame⟩

end Source

end MarkupLabels
