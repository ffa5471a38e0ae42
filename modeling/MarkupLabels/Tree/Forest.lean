import MarkupLabels.Attribute
/-!
Forests of elements. The elements stand in one list, in document order, and each names the element
around it, which stands earlier. From this table come the children of an element, the walk over the
elements under it, and the elements around it.
-/

namespace MarkupLabels

structure Element where
  name : Option String
  parent : Option Nat
  attributes : List Attribute
deriving DecidableEq, Repr, Inhabited

/-- Elements in document order, each inside an earlier one or inside none. -/
structure Forest where
  elements : List Element
  parent_lt : ∀ i p, elements[i]?.bind Element.parent = some p → p < i

namespace Forest

def empty : Forest where
  elements := []
  parent_lt := by simp

instance : Inhabited Forest := ⟨empty⟩

def size (f : Forest) : Nat := f.elements.length

def get? (f : Forest) (i : Nat) : Option Element := f.elements[i]?

def parent? (f : Forest) (i : Nat) : Option Nat := f.elements[i]?.bind Element.parent

def name? (f : Forest) (i : Nat) : Option String := f.elements[i]?.bind Element.name

def attributes (f : Forest) (i : Nat) : List Attribute :=
  (f.elements[i]?.map Element.attributes).getD []

def add (f : Forest) (e : Element) : Forest where
  elements := f.elements ++ [{ e with parent := e.parent.filter (· < f.elements.length) }]
  parent_lt := by
    intro i p h
    rcases Nat.lt_trichotomy i f.elements.length with hi | hi | hi
    · rw [List.getElem?_append_left hi] at h
      exact f.parent_lt i p h
    · subst hi
      simp [Option.filter_eq_some_iff] at h
      exact h.2
    · rw [List.getElem?_append_right (by omega), List.getElem?_eq_none (by simp; omega)] at h
      simp at h

def modifyAttributes (f : Forest) (i : Nat) (g : List Attribute → List Attribute) : Forest where
  elements := f.elements.modify i fun e => { e with attributes := g e.attributes }
  parent_lt := by
    intro j p h
    apply f.parent_lt j p
    rw [List.getElem?_modify] at h
    split at h <;> cases hj : f.elements[j]? <;> simp_all

def describe (f : Forest) (i : Nat) (name : Option String) (attributes : List Attribute) :
    Forest where
  elements := f.elements.modify i fun e => { e with name, attributes }
  parent_lt := by
    intro j p h
    apply f.parent_lt j p
    rw [List.getElem?_modify] at h
    split at h <;> cases hj : f.elements[j]? <;> simp_all

def withParent (f : Forest) (p : Option Nat) : List Nat :=
  (f.elements.zipIdx.filter fun e => e.1.parent == p).map (·.2)

def children (f : Forest) (i : Nat) : List Nat := f.withParent (some i)

def roots (f : Forest) : List Nat := f.withParent none

theorem mem_withParent {f : Forest} {p : Option Nat} {j : Nat} :
    j ∈ f.withParent p ↔ ∃ e, f.elements[j]? = some e ∧ e.parent = p := by
  simp [withParent, List.mem_zipIdx_iff_getElem?]

def ancestors (f : Forest) (i : Nat) : List Nat :=
  match _h : f.parent? i with
  | none => []
  | some p => p :: f.ancestors p
termination_by i
decreasing_by exact f.parent_lt i p (by assumption)

theorem lt_of_mem_children {f : Forest} {i j : Nat} (h : j ∈ f.children i) : i < j ∧ j < f.size := by
  obtain ⟨e, he, hp⟩ := mem_withParent.1 h
  exact ⟨f.parent_lt j i (by simp [he, hp]), (List.getElem?_eq_some_iff.1 he).1⟩

def walk (f : Forest) (i : Nat) : List Nat :=
  i :: (f.children i).attach.flatMap fun ⟨j, _⟩ => f.walk j
termination_by f.size - i
decreasing_by
  have := lt_of_mem_children (by assumption)
  omega

end Forest

end MarkupLabels
