import Mathlib
import MarkupLabels.Tree.Forest

namespace MarkupLabels.Forest

def extend (f : Forest) (added : Nat → List Attribute) : Forest where
  elements := f.elements.mapIdx fun i e => { e with attributes := e.attributes ++ added i }
  parent_lt := by
    intro i p h
    apply f.parent_lt i p
    rw [List.getElem?_mapIdx] at h
    cases hi : f.elements[i]? <;> simp_all

variable {f g : Forest} {added more : Nat → List Attribute} {i j : Nat}

@[ext] lemma ext_elements (h : f.elements = g.elements) : f = g := by
  cases f
  cases g
  simpa using h

@[simp] lemma extend_getElem? :
    (f.extend added).elements[i]? =
      f.elements[i]?.map fun e => { e with attributes := e.attributes ++ added i } := by
  simp [extend]

@[simp] lemma extend_size : (f.extend added).size = f.size := by
  simp [extend, size]

lemma extend_attributes (hi : i < f.size) :
    (f.extend added).attributes i = f.attributes i ++ added i := by
  simp [attributes, List.getElem?_eq_getElem (show i < f.elements.length from hi)]

lemma extend_congr (h : ∀ i < f.size, added i = more i) : f.extend added = f.extend more := by
  ext1
  refine List.ext_getElem? fun i => ?_
  rw [extend_getElem?, extend_getElem?]
  cases he : f.elements[i]? with
  | none => rfl
  | some e =>
    have hi : i < f.size := (List.getElem?_eq_some_iff.mp he).1
    simp [h i hi]

lemma extend_nil : f.extend (fun _ => []) = f := by
  ext1
  refine List.ext_getElem? fun i => ?_
  simp

lemma extend_extend : (f.extend added).extend more = f.extend fun i => added i ++ more i := by
  ext1
  refine List.ext_getElem? fun i => ?_
  cases h : f.elements[i]? <;> simp [h]

lemma modifyAttributes_append (new : List Attribute) :
    f.modifyAttributes i (· ++ new) = f.extend fun j => if j = i then new else [] := by
  ext1
  refine List.ext_getElem? fun j => ?_
  rw [extend_getElem?]
  simp only [modifyAttributes, List.getElem?_modify]
  cases hj : f.elements[j]? with
  | none => simp
  | some e => by_cases hij : i = j <;> simp [hij, eq_comm]

lemma modifyAttributes_nil : f.modifyAttributes i (· ++ []) = f := by
  rw [modifyAttributes_append]
  simp [extend_nil]

lemma add_extend {e : Element} (h : ∀ j < f.size, added j = more j) (hnew : more f.size = []) :
    (f.extend added).add e = (f.add e).extend more := by
  ext1
  refine List.ext_getElem? fun j => ?_
  have hlength : (f.extend added).elements.length = f.elements.length := f.extend_size
  rw [extend_getElem?]
  simp only [add, List.getElem?_append, hlength]
  by_cases hj : j < f.elements.length
  · simp [hj, h j hj]
  · rw [if_neg hj, if_neg hj]
    by_cases heq : j = f.elements.length
    · subst heq
      have hmore : more f.elements.length = [] := hnew
      simp [hmore]
    · have hnone : j - f.elements.length ≠ 0 := by omega
      simp [hnone]

lemma describe_extend (more : Nat → List Attribute) {name : Option String} {old : List Attribute}
    (h : ∀ j, j ≠ i → added j = more j) :
    (f.extend added).describe i name (old ++ more i) = (f.describe i name old).extend more := by
  ext1
  refine List.ext_getElem? fun j => ?_
  rw [extend_getElem?]
  simp only [describe, List.getElem?_modify, extend_getElem?]
  cases hj : f.elements[j]? with
  | none => simp
  | some e =>
    by_cases hij : i = j
    · subst hij
      simp
    · simp [hij, h j (Ne.symm hij)]

lemma describe_name?_self {name : Option String} {old : List Attribute} :
    (f.describe i name old).name? i = f.elements[i]?.bind fun _ => name := by
  cases h : f.elements[i]? <;> simp [name?, describe, h]

lemma describe_name?_of_ne {name : Option String} {old : List Attribute} (h : i ≠ j) :
    (f.describe i name old).name? j = f.name? j := by
  simp [name?, describe, h]

lemma name?_of_add {e : Element} {name : String} (he : e.name = none)
    (h : (f.add e).name? i = some name) : f.name? i = some name := by
  simp only [name?, add, List.getElem?_append] at h ⊢
  split at h
  · exact h
  · by_cases hi : i - f.elements.length = 0 <;> simp [hi, he] at h

def parents (f : Forest) : List (Option Nat) := f.elements.map Element.parent

lemma extend_parents : (f.extend added).parents = f.parents := by
  refine List.ext_getElem? fun i => ?_
  cases h : f.elements[i]? <;> simp [parents, h]

lemma parent?_eq (f : Forest) (i : Nat) : f.parent? i = f.parents[i]?.join := by
  cases h : f.elements[i]? <;> simp [parent?, parents, h]

lemma withParent_eq (f : Forest) (p : Option Nat) :
    f.withParent p = (f.parents.zipIdx.filter fun e => e.1 == p).map (·.2) := by
  simp [withParent, parents, List.zipIdx_map, List.filter_map, Function.comp_def]

lemma ancestors_eq (f : Forest) (i : Nat) :
    f.ancestors i = ((f.parent? i).map fun p => p :: f.ancestors p).getD [] := by
  rw [ancestors]
  split <;> simp_all

lemma walk_eq (f : Forest) (i : Nat) : f.walk i = i :: (f.children i).flatMap f.walk := by
  rw [walk]
  congr 1
  conv_rhs => rw [← List.attach_map_subtype_val (f.children i), List.flatMap_map]

lemma ancestors_congr (h : f.parents = g.parents) (i : Nat) : f.ancestors i = g.ancestors i := by
  induction i using Nat.strong_induction_on with
  | _ i ih =>
    rw [ancestors_eq, ancestors_eq g]
    have hp : f.parent? i = g.parent? i := by rw [parent?_eq, parent?_eq, h]
    rw [← hp]
    cases hi : f.parent? i with
    | none => rfl
    | some p => simp [ih p (f.parent_lt i p hi)]

lemma walk_congr (h : f.parents = g.parents) (i : Nat) : f.walk i = g.walk i := by
  have hchildren : ∀ i, f.children i = g.children i := fun i => by
    rw [children, children, withParent_eq, withParent_eq, h]
  induction hn : f.size - i using Nat.strong_induction_on generalizing i with
  | _ n ih =>
    rw [walk_eq, walk_eq g, ← hchildren]
    congr 1
    refine List.flatMap_congr fun j hj => ?_
    have := lt_of_mem_children hj
    exact ih (f.size - j) (by omega) j rfl

lemma roots_congr (h : f.parents = g.parents) : f.roots = g.roots := by
  rw [roots, roots, withParent_eq, withParent_eq, h]

def Under (f : Forest) (i j : Nat) : Prop := j = i ∨ i ∈ f.ancestors j

instance (f : Forest) (i j : Nat) : Decidable (f.Under i j) :=
  inferInstanceAs (Decidable (j = i ∨ i ∈ f.ancestors j))

lemma mem_withParent_iff {q : Option Nat} : j ∈ f.withParent q ↔ j < f.size ∧ f.parent? j = q := by
  rw [mem_withParent, parent?, size]
  constructor
  · rintro ⟨e, he, rfl⟩
    exact ⟨(List.getElem?_eq_some_iff.mp he).1, by rw [he]; rfl⟩
  · rintro ⟨hj, rfl⟩
    exact ⟨f.elements[j], List.getElem?_eq_getElem hj, by rw [List.getElem?_eq_getElem hj]; rfl⟩

lemma mem_children : j ∈ f.children i ↔ f.parent? j = some i := by
  rw [children, mem_withParent, parent?]
  cases f.elements[j]? <;> simp

lemma ancestors_of_parent? (h : f.parent? j = some i) : f.ancestors j = i :: f.ancestors i := by
  rw [ancestors_eq, h]
  rfl

lemma mem_ancestors_trans {k : Nat} (hj : j ∈ f.ancestors k) (hi : f.parent? j = some i) :
    i ∈ f.ancestors k := by
  induction k using Nat.strong_induction_on with
  | _ k ih =>
    cases hk : f.parent? k with
    | none => simp [ancestors_eq f k, hk] at hj
    | some p =>
      rw [ancestors_of_parent? hk] at hj ⊢
      rcases List.mem_cons.mp hj with rfl | hj
      · rw [ancestors_of_parent? hi]
        simp
      · exact List.mem_cons_of_mem _ (ih p (f.parent_lt k p hk) hj)

lemma mem_walk_self (f : Forest) (i : Nat) : i ∈ f.walk i := by
  rw [walk_eq]
  exact List.mem_cons_self

lemma mem_walk_of_parent? {k : Nat} (hj : j ∈ f.walk i) (hk : f.parent? k = some j) :
    k ∈ f.walk i := by
  induction hn : f.size - i using Nat.strong_induction_on generalizing i with
  | _ n ih =>
    rw [walk_eq] at hj ⊢
    rcases List.mem_cons.mp hj with rfl | hj
    · exact List.mem_cons_of_mem _ (List.mem_flatMap.mpr ⟨k, mem_children.mpr hk, mem_walk_self f k⟩)
    · obtain ⟨c, hc, hj⟩ := List.mem_flatMap.mp hj
      have := lt_of_mem_children hc
      exact List.mem_cons_of_mem _
        (List.mem_flatMap.mpr ⟨c, hc, ih (f.size - c) (by omega) hj rfl⟩)

lemma mem_walk : j ∈ f.walk i ↔ f.Under i j := by
  constructor
  · intro h
    induction hn : f.size - i using Nat.strong_induction_on generalizing i with
    | _ n ih =>
      rw [walk_eq] at h
      rcases List.mem_cons.mp h with rfl | h
      · exact .inl rfl
      · obtain ⟨c, hc, hj⟩ := List.mem_flatMap.mp h
        have := lt_of_mem_children hc
        right
        rcases ih (f.size - c) (by omega) hj rfl with rfl | hc'
        · simp [ancestors_of_parent? (mem_children.mp hc)]
        · exact mem_ancestors_trans hc' (mem_children.mp hc)
  · rintro (rfl | h)
    · exact mem_walk_self f _
    · induction j using Nat.strong_induction_on with
      | _ j ih =>
        cases hj : f.parent? j with
        | none => simp [ancestors_eq f j, hj] at h
        | some p =>
          rw [ancestors_of_parent? hj] at h
          rcases List.mem_cons.mp h with rfl | h
          · exact mem_walk_of_parent? (mem_walk_self f _) hj
          · exact mem_walk_of_parent? (ih p (f.parent_lt j p hj) h) hj

lemma mem_roots : i ∈ f.roots ↔ i < f.size ∧ f.parent? i = none := mem_withParent_iff

lemma exists_root (hi : i < f.size) : ∃ r ∈ f.roots, f.Under r i := by
  induction i using Nat.strong_induction_on with
  | _ i ih =>
    cases hp : f.parent? i with
    | none => exact ⟨i, mem_roots.mpr ⟨hi, hp⟩, .inl rfl⟩
    | some p =>
      have hlt : p < i := f.parent_lt i p hp
      obtain ⟨r, hr, hunder⟩ := ih p hlt (hlt.trans hi)
      refine ⟨r, hr, .inr ?_⟩
      rw [ancestors_of_parent? hp]
      rcases hunder with rfl | hunder
      · exact List.mem_cons_self
      · exact List.mem_cons_of_mem _ hunder

lemma mem_walk_roots (hi : i < f.size) : i ∈ f.roots.flatMap f.walk := by
  obtain ⟨r, hr, hunder⟩ := exists_root hi
  exact List.mem_flatMap.mpr ⟨r, hr, mem_walk.mpr hunder⟩

end MarkupLabels.Forest
