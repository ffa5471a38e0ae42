import Mathlib
import MarkupLabels.Proofs.Config.Merging
import MarkupLabels.Proofs.Files.Contents

namespace MarkupLabels

namespace Path

variable {as bs : List String} {cs : List Char}

lemma splitSlashes_of_notMem (h : '/' ∉ cs) : splitSlashes cs = [cs] := by
  induction cs with
  | nil => rfl
  | cons c cs ih =>
    rw [List.mem_cons, not_or] at h
    rw [splitSlashes, ih h.2]
    exact if_neg (Ne.symm h.1)

lemma ofText_name (hslash : '/' ∉ cs) (hempty : cs ≠ []) (hdot : cs ≠ ['.']) :
    ofText (String.ofList cs) = ⟨0, [String.ofList cs]⟩ := by
  have hleading : leadingSlashes cs = 0 := by
    cases cs with
    | nil => rfl
    | cons c cs =>
      have hc : c ≠ '/' := fun h => hslash (h ▸ List.mem_cons_self)
      simp [leadingSlashes, hc]
  have hname : String.ofList cs ≠ "" ∧ String.ofList cs ≠ "." :=
    ⟨fun h => hempty (by simpa using congrArg String.toList h),
      fun h => hdot (by simpa using congrArg String.toList h)⟩
  rw [ofText, String.toList_ofList, hleading, splitSlashes_of_notMem hslash]
  simp [hname]

lemma partsBefore_iff : partsBefore as bs = true ↔ as < bs := by
  induction as generalizing bs with
  | nil => cases bs <;> simp [partsBefore]
  | cons a as ih =>
    cases bs with
    | nil => simp [partsBefore]
    | cons b bs =>
      rw [partsBefore, List.cons_lt_cons_iff]
      by_cases hab : a = b
      · rw [if_pos hab, ih]
        simp [hab]
      · simp [hab]

end Path

namespace Snapshot

variable {s : Snapshot} {p argument : Path} {place names q : List String} {excluded : List CodePoints}
  {all files : List (List String)} {f : FileFault}

/-- A file that an argument stands for: the argument itself, or a file below it, where the argument is a
directory and no directory between the two has an excluded name. -/
def StandsFor (s : Snapshot) (excluded : List CodePoints) (argument p : Path) : Prop :=
  s.isFile p = .ok true ∧ (p = argument ∨
    s.find? argument = .ok (some .directory) ∧ ∃ names, names ≠ [] ∧ ".." ∉ names ∧ p = argument.append names ∧
      ∀ name ∈ names.dropLast, CodePoints.ofString name ∉ excluded)

/-- An argument cannot be searched: it cannot be looked up, or an entry below it cannot. -/
def Refuses (s : Snapshot) (argument : Path) (f : FileFault) : Prop :=
  s.isFile argument = .error f ∨ ∃ place names, s.locate argument = .ok place ∧
    names ∈ s.under place ∧ s.isFile (argument.append names) = .error f

lemma follow_eq_append (hnames : ".." ∉ names) (h : s.follow place names = .ok q) :
    q = place ++ names := by
  induction names generalizing place with
  | nil => simpa [follow] using h.symm
  | cons part names ih =>
    rw [List.mem_cons, not_or] at hnames
    obtain ⟨-, -, -, h⟩ := follow_cons.mp h
    rw [if_neg (Ne.symm hnames.1)] at h
    rw [ih hnames.2 h, List.append_assoc, List.singleton_append]

lemma isFile_eq_error (h : s.isFile p = .error f) : s.locate p = .error f := by
  unfold isFile find? at h
  rcases hp : s.locate p with fault | place
  · rw [hp] at h
    cases fault <;> first | rfl | cases h <;> rfl
  · rw [hp] at h
    rcases hentry : s.entry? place with _ | _ | _ <;> simp [hentry, bind, Except.bind, pure, Except.pure] at h

lemma isFile_of_not_fits {part : String} (hs : s.Sound) (hopen : s.workingDirectory ∉ s.closed)
    (hpart : s.fits part = false) : s.isFile ⟨0, [part]⟩ = .error .nameTooLong := by
  have hlocate : s.locate ⟨0, [part]⟩ = .error .nameTooLong := by
    unfold locate
    split
    · simp [start, follow, hs.standsIn, hopen, hpart]
    · rfl
  rw [isFile, find?, hlocate]
  rfl

lemma follow_eq_error (hclosed : s.closed = []) (hlimits : s.limits = none)
    (h : s.follow place names = .error f) : f = .missing ∨ f = .notDirectory := by
  induction names generalizing place with
  | nil => cases h
  | cons part names ih =>
    rw [follow] at h
    rcases hentry : s.entry? place with _ | (_ | _) <;> rw [hentry] at h
    · exact .inl (Except.error.inj h).symm
    · exact .inr (Except.error.inj h).symm
    · simp only [hclosed, List.not_mem_nil, if_false, fits, hlimits, Option.all_none, if_true] at h
      exact ih h

lemma isFile_ne_error (hclosed : s.closed = []) (hlimits : s.limits = none) (p : Path) (f : FileFault) :
    s.isFile p ≠ .error f := by
  intro h
  have hlocate := isFile_eq_error h
  have hfollow : s.follow (s.start p) p.parts = .error f := by
    simpa [locate, takes, hlimits] using hlocate
  unfold isFile find? at h
  rw [hlocate] at h
  rcases follow_eq_error hclosed hlimits hfollow with rfl | rfl <;> cases h

lemma mem_under (hs : s.Sound) :
    names ∈ s.under place ↔ names ≠ [] ∧ ∃ e, s.entry? (place ++ names) = some e := by
  rw [under, List.mem_filterMap]
  constructor
  · rintro ⟨⟨q, e⟩, hentry, hq⟩
    simp only [Option.ite_none_right_eq_some, Option.some.injEq] at hq
    obtain ⟨⟨hbelow, hne⟩, rfl⟩ := hq
    obtain ⟨names, rfl⟩ := List.isPrefixOf_iff_prefix.mp hbelow
    rw [List.drop_left]
    exact ⟨by simpa using hne, e, hs.entry?_of_mem hentry⟩
  · rintro ⟨hnames, e, he⟩
    exact ⟨_, mem_of_entry_eq (by simp [hnames]) he, by simp [hnames]⟩

lemma not_back_of_mem_under (hs : s.Sound) (h : names ∈ s.under place) : ".." ∉ names := by
  obtain ⟨hnames, e, he⟩ := (mem_under hs).mp h
  intro hback
  have hnamed := hs.named _ (mem_of_entry_eq (by simp [hnames]) he)
  exact (hnamed.2 ".." (by simp [hback])).2.2.1 rfl

lemma nodup_under (hs : s.Sound) (place : List String) : (s.under place).Nodup := by
  rw [under, List.Nodup, List.pairwise_filterMap]
  refine (List.pairwise_map.mp hs.distinct).imp ?_
  rintro ⟨q, _⟩ ⟨r, _⟩ hne names hnames other hother rfl
  simp only [Option.ite_none_right_eq_some, Option.some.injEq] at hnames hother
  obtain ⟨⟨hq, -⟩, rfl⟩ := hnames
  obtain ⟨⟨hr, -⟩, hsame⟩ := hother
  obtain ⟨names, rfl⟩ := List.isPrefixOf_iff_prefix.mp hq
  obtain ⟨others, rfl⟩ := List.isPrefixOf_iff_prefix.mp hr
  rw [List.drop_left, List.drop_left] at hsame
  exact hne (by rw [hsame])

lemma mem_under_of_isFile (hs : s.Sound) (hplace : s.locate argument = .ok place) (hne : names ≠ [])
    (hnames : ".." ∉ names) (h : s.isFile (argument.append names) = .ok true) : names ∈ s.under place := by
  obtain ⟨q, content, hq, he⟩ := isFile_iff.mp h
  obtain ⟨-, hfollow⟩ := locate_eq_ok.mp hq
  obtain ⟨between, hbetween, hq⟩ := follow_append.mp hfollow
  obtain rfl : place = between := Except.ok.inj ((locate_eq_ok.mp hplace).2.symm.trans hbetween)
  obtain rfl := follow_eq_append hnames hq
  exact (mem_under hs).mpr ⟨hne, _, he⟩

lemma filesAmong_cons : s.filesAmong p (names :: all) = .ok files ↔ ∃ isFile found,
    s.isFile (p.append names) = .ok isFile ∧ s.filesAmong p all = .ok found ∧
      files = if isFile then names :: found else found := by
  rw [filesAmong]
  cases s.isFile (p.append names) <;> cases s.filesAmong p all <;>
    simp [bind, Except.bind, pure, Except.pure, eq_comm]

lemma mem_filesAmong (h : s.filesAmong p all = .ok files) :
    names ∈ files ↔ names ∈ all ∧ s.isFile (p.append names) = .ok true := by
  induction all generalizing files with
  | nil =>
    obtain rfl := Except.ok.inj h
    simp
  | cons other all ih =>
    obtain ⟨isFile, found, hother, hfound, rfl⟩ := filesAmong_cons.mp h
    cases isFile with
    | true =>
      rw [if_pos rfl, List.mem_cons, List.mem_cons, ih hfound]
      by_cases hsame : names = other
      · simp [hsame, hother]
      · simp [hsame]
    | false =>
      rw [if_neg Bool.false_ne_true, List.mem_cons, ih hfound]
      by_cases hsame : names = other
      · simp [hsame, hother]
      · simp [hsame]

lemma filesAmong_sublist (h : s.filesAmong p all = .ok files) : files.Sublist all := by
  induction all generalizing files with
  | nil =>
    obtain rfl := Except.ok.inj h
    exact .slnil
  | cons other all ih =>
    obtain ⟨isFile, found, -, hfound, rfl⟩ := filesAmong_cons.mp h
    split
    · exact (ih hfound).cons_cons other
    · exact (ih hfound).cons other

lemma filesAmong_eq_error (h : s.filesAmong p all = .error f) :
    ∃ names ∈ all, s.isFile (p.append names) = .error f := by
  induction all with
  | nil => cases h
  | cons names all ih =>
    rw [filesAmong] at h
    cases hnames : s.isFile (p.append names) with
    | error fault =>
      rw [hnames] at h
      obtain rfl : fault = f := Except.error.inj h
      exact ⟨names, List.mem_cons_self, hnames⟩
    | ok isFile =>
      rw [hnames] at h
      cases hall : s.filesAmong p all with
      | error fault =>
        rw [hall] at h
        obtain rfl : fault = f := Except.error.inj h
        obtain ⟨other, hother, hfault⟩ := ih hall
        exact ⟨other, List.mem_cons_of_mem names hother, hfault⟩
      | ok found =>
        rw [hall] at h
        cases h

lemma isFile_of_filesAmong (h : s.filesAmong p all = .ok files) (hnames : names ∈ all) :
    ∃ isFile, s.isFile (p.append names) = .ok isFile := by
  induction all generalizing files with
  | nil => cases hnames
  | cons other all ih =>
    obtain ⟨isFile, found, hother, hfound, -⟩ := filesAmong_cons.mp h
    rcases List.mem_cons.mp hnames with rfl | hnames
    · exact ⟨isFile, hother⟩
    · exact ih hfound hnames

end Snapshot

namespace Selection

variable {sel : Selection} {s : Snapshot} {p argument : Path} {arguments paths seen : List Path}
  {parts other : List String} {all : List (List String)}

lemma mem_insertParts : other ∈ insertParts parts all ↔ other = parts ∨ other ∈ all := by
  induction all with
  | nil => simp [insertParts]
  | cons first all ih =>
    rw [insertParts]
    split
    · simp only [List.mem_cons, ih]
      tauto
    · simp

lemma mem_sortParts : parts ∈ sortParts all ↔ parts ∈ all := by
  induction all with
  | nil => simp [sortParts]
  | cons first all ih =>
    rw [sortParts, List.foldr_cons, ← sortParts, mem_insertParts, ih, List.mem_cons]

lemma pairwise_insertParts (hnew : parts ∉ all) (h : all.Pairwise (· < ·)) :
    (insertParts parts all).Pairwise (· < ·) := by
  induction all with
  | nil => exact List.pairwise_singleton _ parts
  | cons other all ih =>
    obtain ⟨hhead, htail⟩ := List.pairwise_cons.mp h
    rw [List.mem_cons, not_or] at hnew
    rw [insertParts]
    split
    · next hbefore =>
      refine List.pairwise_cons.mpr ⟨fun names hnames => ?_, ih hnew.2 htail⟩
      rcases mem_insertParts.mp hnames with rfl | hnames
      · exact Path.partsBefore_iff.mp hbefore
      · exact hhead names hnames
    · next hbefore =>
      have hlt : parts < other :=
        lt_of_le_of_ne (not_lt.mp fun hlt => hbefore (Path.partsBefore_iff.mpr hlt)) hnew.1
      refine List.pairwise_cons.mpr ⟨fun names hnames => ?_, h⟩
      rcases List.mem_cons.mp hnames with rfl | hnames
      · exact hlt
      · exact hlt.trans (hhead names hnames)

lemma pairwise_sortParts (h : all.Nodup) : (sortParts all).Pairwise (· < ·) := by
  induction all with
  | nil => exact .nil
  | cons parts all ih =>
    obtain ⟨hnew, hall⟩ := List.nodup_cons.mp h
    rw [sortParts, List.foldr_cons, ← sortParts]
    exact pairwise_insertParts (mt mem_sortParts.mp hnew) (ih hall)

inductive Searched (sel : Selection) (s : Snapshot) (argument : Path) : List Path → Prop
  | file (h : s.isFile argument = .ok true) : Searched sel s argument [argument]
  | below {place : List String} {files : List (List String)} (h : s.isFile argument = .ok false)
    (hplace : s.locate argument = .ok place) (hfiles : s.filesAmong argument (s.under place) = .ok files) :
    Searched sel s argument ((sortParts (files.filter sel.reaches)).map argument.append)
  | nothing {f : FileFault} (h : s.isFile argument = .ok false) (hplace : s.locate argument = .error f) :
    Searched sel s argument []

lemma candidates_cases (sel : Selection) (s : Snapshot) (argument : Path) :
    (∃ paths, sel.candidates s argument = .ok paths ∧ sel.Searched s argument paths) ∨
      ∃ f, sel.candidates s argument = .error f ∧ s.Refuses argument f := by
  unfold candidates
  rcases hfile : s.isFile argument with f | _ | _
  · exact .inr ⟨f, rfl, .inl hfile⟩
  · cases hplace : s.locate argument with
    | error f => exact .inl ⟨_, rfl, .nothing hfile hplace⟩
    | ok place =>
      cases hfiles : s.filesAmong argument (s.under place) with
      | error f =>
        obtain ⟨names, hnames, hfault⟩ := Snapshot.filesAmong_eq_error hfiles
        refine .inr ⟨f, ?_, .inr ⟨place, names, hplace, hnames, hfault⟩⟩
        simp [hfiles, bind, Except.bind]
      | ok files =>
        refine .inl ⟨_, ?_, .below hfile hplace hfiles⟩
        simp [hfiles, bind, Except.bind, pure, Except.pure]
  · exact .inl ⟨_, rfl, .file hfile⟩

lemma Searched.not_refuses (hs : s.Sound) (h : sel.Searched s argument paths) (f : FileFault) :
    ¬ s.Refuses argument f := by
  rintro (hfault | ⟨place, names, hplace, hnames, hfault⟩)
  · rcases h with h | h | h <;> simp [hfault] at h
  · rcases h with h | @⟨place', files, -, hfound, hfiles⟩ | ⟨-, hfound⟩
    · -- Nothing stands below a file.
      obtain ⟨found, content, hfound, he⟩ := Snapshot.isFile_iff.mp h
      obtain rfl := Except.ok.inj (hplace.symm.trans hfound)
      obtain ⟨hne, e, hbelow⟩ := (Snapshot.mem_under hs).mp hnames
      rw [hs.entry?_of_append hne hbelow] at he
      cases he
    · obtain rfl := Except.ok.inj (hplace.symm.trans hfound)
      obtain ⟨isFile, hfile⟩ := Snapshot.isFile_of_filesAmong hfiles hnames
      simp [hfile] at hfault
    · simp [hplace] at hfound

lemma Searched.pairwise (hs : s.Sound) (h : sel.Searched s argument paths) :
    paths.Pairwise fun p q => p.parts < q.parts := by
  cases h with
  | file => exact List.pairwise_singleton _ argument
  | @below place files _ _ hfiles =>
    have hnodup := (s.nodup_under hs place).sublist (Snapshot.filesAmong_sublist hfiles)
    refine List.pairwise_map.mpr ((pairwise_sortParts (hnodup.filter _)).imp fun hlt => ?_)
    exact List.append_left_lt hlt
  | nothing => exact .nil

lemma reaches_iff : sel.reaches parts = true ↔
    ∀ name ∈ parts.dropLast, CodePoints.ofString name ∉ sel.excluded := by
  simp [reaches]

lemma Searched.mem_iff (hs : s.Sound) (h : sel.Searched s argument paths) :
    p ∈ paths ↔ s.StandsFor sel.excluded argument p := by
  cases h with
  | file h =>
    rw [List.mem_singleton]
    constructor
    · rintro rfl
      exact ⟨h, .inl rfl⟩
    · rintro ⟨-, hp | ⟨hdirectory, -⟩⟩
      · exact hp
      · obtain ⟨place, hplace, he⟩ := Snapshot.find?_eq_some.mp hdirectory
        obtain ⟨found, content, hfound, hfile⟩ := Snapshot.isFile_iff.mp h
        obtain rfl := Except.ok.inj (hplace.symm.trans hfound)
        simp [hfile] at he
  | @below place files h hplace hfiles =>
    simp only [List.mem_map, mem_sortParts, List.mem_filter, reaches_iff, Snapshot.mem_filesAmong hfiles]
    constructor
    · rintro ⟨names, ⟨⟨hnames, hp⟩, hreached⟩, rfl⟩
      obtain ⟨hne, e, he⟩ := (Snapshot.mem_under hs).mp hnames
      have hdirectory := Snapshot.find?_eq_some.mpr ⟨place, hplace, hs.entry?_of_append hne he⟩
      have hback := Snapshot.not_back_of_mem_under hs hnames
      exact ⟨hp, .inr ⟨hdirectory, names, hne, hback, rfl, hreached⟩⟩
    · rintro ⟨hp, rfl | ⟨-, names, hne, hback, rfl, hreached⟩⟩
      · simp [h] at hp
      · exact ⟨names, ⟨⟨Snapshot.mem_under_of_isFile hs hplace hne hback hp, hp⟩, hreached⟩, rfl⟩
  | nothing h hplace =>
    refine iff_of_false List.not_mem_nil ?_
    rintro ⟨hp, rfl | ⟨hdirectory, -⟩⟩
    · simp [h] at hp
    · obtain ⟨place, hfound, -⟩ := Snapshot.find?_eq_some.mp hdirectory
      simp [hplace] at hfound

lemma mem_keepNew : p ∈ sel.keepNew seen paths ↔
    p ∈ paths ∧ CodePoints.ofString p.lowerSuffix ∈ sel.suffixes ∧ p ∉ seen := by
  induction paths generalizing seen with
  | nil => simp [keepNew]
  | cons q paths ih =>
    rw [keepNew]
    split
    · next hq =>
      rw [List.mem_cons, ih, List.mem_cons, List.mem_cons]
      by_cases hpq : p = q
      · simp [hpq, hq]
      · simp [hpq]
    · next hq =>
      rw [ih, List.mem_cons]
      constructor
      · rintro ⟨hp, hkept⟩
        exact ⟨.inr hp, hkept⟩
      · rintro ⟨rfl | hp, hkept⟩
        · exact absurd hkept hq
        · exact ⟨hp, hkept⟩

lemma keepNew_sublist (sel : Selection) (seen paths : List Path) : (sel.keepNew seen paths).Sublist paths := by
  induction paths generalizing seen with
  | nil => exact .slnil
  | cons p paths ih =>
    rw [keepNew]
    split
    · exact (ih _).cons_cons p
    · exact (ih _).cons p

lemma keepNew_nodup (sel : Selection) (seen paths : List Path) : (sel.keepNew seen paths).Nodup := by
  induction paths generalizing seen with
  | nil => exact .nil
  | cons p paths ih =>
    rw [keepNew]
    split
    · refine List.nodup_cons.mpr ⟨fun hp => ?_, ih _⟩
      exact (mem_keepNew.mp hp).2.2 List.mem_cons_self
    · exact ih _

lemma keepNew_append (more : List Path) :
    sel.keepNew seen (paths ++ more) =
      sel.keepNew seen paths ++ sel.keepNew ((sel.keepNew seen paths).reverse ++ seen) more := by
  induction paths generalizing seen with
  | nil => rfl
  | cons p paths ih =>
    rw [List.cons_append, keepNew, keepNew]
    split
    · rw [ih, List.cons_append, List.reverse_cons, List.append_assoc, List.singleton_append]
    · exact ih

lemma gather_searched (sel : Selection) (s : Snapshot) (arguments : List Path) :
    ∃ searched rest parts, arguments = searched ++ rest ∧
      List.Forall₂ (sel.Searched s) searched parts ∧ (sel.gather s arguments).1 = parts.flatten ∧
      ((sel.gather s arguments).2 = none ∧ rest = [] ∨
        ∃ f argument more, (sel.gather s arguments).2 = some f ∧ rest = argument :: more ∧
          s.Refuses argument f) := by
  induction arguments with
  | nil => exact ⟨[], [], [], rfl, .nil, rfl, .inl ⟨rfl, rfl⟩⟩
  | cons argument arguments ih =>
    rw [gather]
    rcases sel.candidates_cases s argument with ⟨paths, hok, hsearched⟩ | ⟨f, herror, hrefused⟩
    · obtain ⟨searched, rest, parts, harguments, hall, hgathered, hend⟩ := ih
      rw [hok]
      refine ⟨argument :: searched, rest, paths :: parts, by rw [harguments, List.cons_append],
        .cons hsearched hall, ?_, hend⟩
      rw [List.flatten_cons, ← hgathered]
    · rw [herror]
      exact ⟨[], _, [], rfl, .nil, rfl, .inr ⟨f, argument, arguments, rfl, rfl, hrefused⟩⟩

lemma exists_refused {f : FileFault} (h : sel.refusal s arguments = some f) :
    ∃ argument ∈ arguments, s.Refuses argument f := by
  obtain ⟨searched, rest, -, rfl, -, -, hend⟩ := sel.gather_searched s arguments
  rcases hend with ⟨hnone, -⟩ | ⟨fault, refused, more, hsome, rfl, hrefused⟩
  · rw [refusal, hnone] at h
    cases h
  · obtain rfl := Option.some.inj (hsome.symm.trans h)
    exact ⟨refused, by simp, hrefused⟩

lemma exists_parts {searched : List Path} {groups : List (List Path)} (hs : s.Sound)
    (h : List.Forall₂ (sel.Searched s) searched groups) (seen : List Path) :
    ∃ parts : List (List Path), sel.keepNew seen groups.flatten = parts.flatten ∧
      parts.length = searched.length ∧
      ∀ (i : Nat) part argument, parts[i]? = some part → searched[i]? = some argument →
        (part.Pairwise fun p q => p.parts < q.parts) ∧
        ∀ p, p ∈ part ↔ CodePoints.ofString p.lowerSuffix ∈ sel.suffixes ∧ p ∉ seen ∧
          s.StandsFor sel.excluded argument p ∧
          ∀ earlier ∈ searched.take i, ¬ s.StandsFor sel.excluded earlier p := by
  induction h generalizing seen with
  | nil => exact ⟨[], rfl, rfl, by simp⟩
  | @cons argument paths searched groups hsearched _ ih =>
    obtain ⟨parts, hparts, hlength, hpart⟩ := ih ((sel.keepNew seen paths).reverse ++ seen)
    refine ⟨sel.keepNew seen paths :: parts, ?_, ?_, ?_⟩
    · rw [List.flatten_cons, keepNew_append, hparts, List.flatten_cons]
    · rw [List.length_cons, List.length_cons, hlength]
    · rintro (_ | i) part other hi hother
      · obtain rfl := Option.some.inj hi
        obtain rfl := Option.some.inj hother
        refine ⟨(hsearched.pairwise hs).sublist (sel.keepNew_sublist _ _), fun p => ?_⟩
        rw [mem_keepNew, List.take_zero, hsearched.mem_iff hs]
        simp only [List.not_mem_nil, false_imp_iff, implies_true, and_true]
        exact and_rotate
      · obtain ⟨hsorted, hmem⟩ := hpart i part other hi hother
        refine ⟨hsorted, fun p => (hmem p).trans ?_⟩
        rw [List.take_succ_cons, List.forall_mem_cons, List.mem_append, List.mem_reverse, mem_keepNew,
          hsearched.mem_iff hs]
        refine and_congr_right fun hsuffix => ?_
        by_cases hseen : p ∈ seen <;> simp [hseen, hsuffix, and_left_comm]

lemma mem_flatten_searched {searched : List Path} {groups : List (List Path)} (hs : s.Sound)
    (h : List.Forall₂ (sel.Searched s) searched groups) :
    p ∈ groups.flatten ↔ ∃ argument ∈ searched, s.StandsFor sel.excluded argument p := by
  induction h with
  | nil => simp
  | cons hsearched _ ih =>
    rw [List.flatten_cons, List.mem_append, hsearched.mem_iff hs, ih, List.exists_mem_cons_iff]

lemma isFile_of_mem_discover (hs : s.Sound) (h : p ∈ sel.discover s arguments) :
    s.isFile p = .ok true := by
  obtain ⟨searched, rest, groups, -, hall, hgathered, -⟩ := sel.gather_searched s arguments
  have hp := (mem_keepNew.mp h).1
  rw [hgathered, mem_flatten_searched hs hall] at hp
  obtain ⟨argument, -, hfile, -⟩ := hp
  exact hfile

lemma candidates_of_isFile (h : s.isFile p = .ok true) : sel.candidates s p = .ok [p] := by
  rw [candidates, h]
  rfl

lemma candidates_of_error (h : s.isFile p = .error f) : sel.candidates s p = .error f := by
  rw [candidates, h]
  rfl

lemma gather_singleton (h : s.isFile p = .ok true) : sel.gather s [p] = ([p], none) := by
  rw [gather, candidates_of_isFile h, gather]
  rfl

lemma discover_singleton (hs : s.Sound) (h : p ∈ sel.discover s arguments) :
    sel.discover s [p] = [p] := by
  rw [discover, gather_singleton (isFile_of_mem_discover hs h), keepNew, if_pos (mem_keepNew.mp h).2, keepNew]

lemma refusal_singleton (hs : s.Sound) (h : p ∈ sel.discover s arguments) :
    sel.refusal s [p] = none := by
  rw [refusal, gather_singleton (isFile_of_mem_discover hs h)]

def HasExtension (extensions : List CodePoints) (p : Path) : Prop :=
  ∃ e ∈ extensions, CodePoints.ofString p.lowerSuffix = e.lowercase

lemma ofValues_texts (extensions excluded : List CodePoints) :
    ∃ sel, ofValues (.list (extensions.map .text)) (.list (excluded.map .text)) = .ok sel ∧
      (∀ p : Path, CodePoints.ofString p.lowerSuffix ∈ sel.suffixes ↔ HasExtension extensions p) ∧
      ∀ name, name ∈ sel.excluded ↔ name ∈ excluded := by
  refine ⟨{ suffixes := Value.textsOf (extensions.map fun e => .text e.lowercase)
            excluded := Value.textsOf (excluded.map .text) }, ?_, fun p => ?_, fun name => ?_⟩
  · rw [ofValues]
    simp only [Value.items, bind, Except.bind, Value.mapM_lower, Value.checkMembers_texts]
    rfl
  · rw [Value.mem_textsOf]
    simp [HasExtension, eq_comm]
  · rw [Value.mem_textsOf]
    simp

/-- Discovery is exact. In a file system, the arguments are searched up to the first that cannot be: one
that the system does not look up, or with such an entry below it; where the system looks up everything
there is none. A path is found if and only if it has one of the extensions and an argument that is
searched stands for it; no path is found twice; and for each argument there come, in the order of their
components, those files that no earlier argument stands for. -/
theorem discover_exact (hs : s.Sound) (extensions excluded : List CodePoints) (arguments : List Path) :
    ∃ sel searched rest,
      ofValues (.list (extensions.map .text)) (.list (excluded.map .text)) = .ok sel ∧
      arguments = searched ++ rest ∧
      (∀ argument ∈ searched, ∀ f, ¬ s.Refuses argument f) ∧
      (∀ argument ∈ rest.head?, ∃ f, sel.refusal s arguments = some f ∧ s.Refuses argument f) ∧
      (rest = [] → sel.refusal s arguments = none) ∧
      (s.limits = none → s.closed = [] → rest = []) ∧
      (∀ p, p ∈ sel.discover s arguments ↔
        HasExtension extensions p ∧ ∃ argument ∈ searched, s.StandsFor excluded argument p) ∧
      (sel.discover s arguments).Nodup ∧
      ∃ parts : List (List Path), sel.discover s arguments = parts.flatten ∧
        parts.length = searched.length ∧
        ∀ (i : Nat) part argument, parts[i]? = some part → searched[i]? = some argument →
          (part.Pairwise fun p q => p.parts < q.parts) ∧
          ∀ p, p ∈ part ↔ HasExtension extensions p ∧ s.StandsFor excluded argument p ∧
            ∀ earlier ∈ searched.take i, ¬ s.StandsFor excluded earlier p := by
  obtain ⟨sel, hsel, hsuffixes, hexcluded⟩ := ofValues_texts extensions excluded
  have hstands : ∀ argument p, s.StandsFor sel.excluded argument p ↔ s.StandsFor excluded argument p := by
    intro argument p
    simp only [Snapshot.StandsFor, hexcluded]
  obtain ⟨searched, rest, groups, harguments, hall, hgathered, hend⟩ := sel.gather_searched s arguments
  obtain ⟨parts, hparts, hlength, hpart⟩ := exists_parts hs hall []
  rw [← hgathered] at hparts
  refine ⟨sel, searched, rest, hsel, harguments, ?_, ?_, ?_, ?_, fun p => ?_, sel.keepNew_nodup _ _,
    parts, hparts, hlength, ?_⟩
  · intro argument hargument
    obtain ⟨i, hi, rfl⟩ := List.mem_iff_getElem.mp hargument
    exact (hall.get hi (hall.length_eq ▸ hi)).not_refuses hs
  · intro argument hargument
    rcases hend with ⟨-, rfl⟩ | ⟨f, refused, more, hfault, rfl, hrefused⟩
    · cases hargument
    · obtain rfl := Option.some.inj hargument
      exact ⟨f, hfault, hrefused⟩
  · rintro rfl
    exact (hend.resolve_right (by simp)).1
  · intro hlimits hclosed
    rcases hend with ⟨-, hrest⟩ | ⟨f, refused, more, -, -, hrefused⟩
    · exact hrest
    · rcases hrefused with hfault | ⟨place, names, -, -, hfault⟩
      · exact absurd hfault (Snapshot.isFile_ne_error hclosed hlimits refused f)
      · exact absurd hfault (Snapshot.isFile_ne_error hclosed hlimits _ f)
  · rw [discover, mem_keepNew, hgathered, mem_flatten_searched hs hall, hsuffixes]
    simp only [hstands, List.not_mem_nil, not_false_eq_true, and_true]
    exact and_comm
  · intro i part argument hi hargument
    obtain ⟨hsorted, hmem⟩ := hpart i part argument hi hargument
    refine ⟨hsorted, fun p => (hmem p).trans ?_⟩
    simp only [hsuffixes, hstands, List.not_mem_nil, not_false_eq_true, true_and]

theorem discover_exact_overlap :
    let s : Snapshot := { entries := [(["w"], .directory), (["w", "dist"], .directory),
      (["w", "dist", "a.TSX"], .file []), (["w", "b.tsx"], .file [])], workingDirectory := ["w"] }
    s.Sound ∧ ∃ sel, ofValues (.list ([CodePoints.ofString ".tsx"].map .text))
        (.list ([CodePoints.ofString "dist"].map .text)) = .ok sel ∧
      Path.ofText "dist/a.TSX" ∈ sel.discover s [.ofText ".", .ofText "dist"] ∧
      (sel.discover s [.ofText ".", .ofText "dist"]).Nodup := by
  intro s
  have hs : s.Sound := by decide
  obtain ⟨sel, searched, rest, hsel, harguments, -, -, -, hall, hmem, hnodup, -⟩ :=
    discover_exact hs [CodePoints.ofString ".tsx"] [CodePoints.ofString "dist"] [.ofText ".", .ofText "dist"]
  rw [hall rfl rfl, List.append_nil] at harguments
  have hfound : s.StandsFor [CodePoints.ofString "dist"] (.ofText "dist") (.ofText "dist/a.TSX") :=
    ⟨by decide, .inr ⟨by decide, ["a.TSX"], by simp, by decide, by decide, by simp⟩⟩
  refine ⟨hs, sel, hsel, (hmem _).mpr ⟨⟨".tsx", by simp, by decide⟩, _, ?_, hfound⟩, hnodup⟩
  simp [← harguments]

end Selection

end MarkupLabels
