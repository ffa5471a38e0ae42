import Mathlib
import MarkupLabels.Proofs.Tree.Walks

/-! Elements that are put one after another into each other, each noted in two places: with the element
around it, and in the list of what that holds. The two never disagree. -/

namespace MarkupLabels

structure Links where
  parents : List (Option Nat) := []
  children : List (List Nat) := []
  roots : List Nat := []

namespace Links

variable {b : Links} {owner : Option Nat} {i j : Nat} {f : Forest}

def size (b : Links) : Nat := b.parents.length

def childrenOf (b : Links) (i : Nat) : List Nat := b.children[i]?.getD []

def put (b : Links) : Option Nat → Links
  | none => ⟨b.parents ++ [none], b.children ++ [[]], b.roots ++ [b.size]⟩
  | some i => ⟨b.parents ++ [some i], b.children.modify i (· ++ [b.size]) ++ [[]], b.roots⟩

lemma put_parents (b : Links) (owner : Option Nat) : (b.put owner).parents = b.parents ++ [owner] := by
  cases owner <;> rfl

lemma put_parents_eq_some {q : Option Nat} :
    (b.put owner).parents[j]? = some q ↔ b.parents[j]? = some q ∨ j = b.size ∧ owner = q := by
  rw [put_parents]
  rcases Nat.lt_trichotomy j b.size with hj | rfl | hj
  · rw [List.getElem?_append_left hj]
    simp [hj.ne]
  · simp [size]
  · rw [List.getElem?_eq_none (by simp [size] at hj ⊢; omega), List.getElem?_eq_none hj.le]
    simp [hj.ne']

lemma put_size (b : Links) (owner : Option Nat) : (b.put owner).size = b.size + 1 := by
  simp [size, put_parents]

lemma put_roots (b : Links) (owner : Option Nat) :
    (b.put owner).roots = b.roots ++ if owner = none then [b.size] else [] := by
  cases owner <;> simp [put]

structure Agree (b : Links) : Prop where
  length_eq : b.children.length = b.size
  mem_childrenOf : ∀ i j, j ∈ b.childrenOf i ↔ b.parents[j]? = some (some i)
  mem_roots : ∀ j, j ∈ b.roots ↔ b.parents[j]? = some none
  childrenOf_pairwise : ∀ i, (b.childrenOf i).Pairwise (· < ·)
  roots_pairwise : b.roots.Pairwise (· < ·)

lemma Agree.empty : Agree {} := by constructor <;> simp [size, childrenOf]

namespace Agree

lemma put_childrenOf (h : b.Agree) (howner : ∀ p ∈ owner, p < b.size) (i : Nat) :
    (b.put owner).childrenOf i = b.childrenOf i ++ if owner = some i then [b.size] else [] := by
  have hlast : ∀ lists : List (List Nat), (lists ++ [[]])[i]?.getD [] = lists[i]?.getD [] := by
    intro lists
    rcases Nat.lt_trichotomy i lists.length with hi | rfl | hi
    · rw [List.getElem?_append_left hi]
    · simp
    · rw [List.getElem?_eq_none (by simp; omega), List.getElem?_eq_none hi.le]
  unfold childrenOf
  cases owner with
  | none => simp [put, hlast]
  | some p =>
    have hp : p < b.children.length := h.length_eq ▸ howner p rfl
    rw [put, hlast, List.getElem?_modify]
    by_cases hpi : p = i
    · subst hpi
      simp [List.getElem?_eq_getElem hp]
    · simp [hpi]

lemma lt_size (h : b.parents[j]? = some owner) : j < b.size :=
  (List.getElem?_eq_some_iff.mp h).1

lemma put (h : b.Agree) (howner : ∀ p ∈ owner, p < b.size) : (b.put owner).Agree where
  length_eq := by
    cases owner <;> simp [Links.put, size, h.length_eq]
  mem_childrenOf := by
    intro i j
    rw [h.put_childrenOf howner, put_parents_eq_some, List.mem_append, h.mem_childrenOf]
    simp [and_comm]
  mem_roots := by
    intro j
    rw [put_roots, put_parents_eq_some, List.mem_append, h.mem_roots]
    simp [and_comm]
  childrenOf_pairwise := by
    intro i
    rw [h.put_childrenOf howner]
    refine List.pairwise_append.mpr ⟨h.childrenOf_pairwise i, ?_, ?_⟩
    · split <;> simp
    · intro j hj k hk
      obtain ⟨-, rfl⟩ : owner = some i ∧ k = b.size := by simpa using hk
      exact lt_size ((h.mem_childrenOf i j).mp hj)
  roots_pairwise := by
    rw [put_roots]
    refine List.pairwise_append.mpr ⟨h.roots_pairwise, ?_, ?_⟩
    · split <;> simp
    · intro j hj k hk
      obtain ⟨-, rfl⟩ : owner = none ∧ k = b.size := by simpa using hk
      exact lt_size ((h.mem_roots j).mp hj)

lemma mem_withParent_iff (hf : b.parents = f.parents) {q : Option Nat} :
    b.parents[j]? = some q ↔ j ∈ f.withParent q := by
  rw [hf, Forest.mem_withParent, Forest.parents, List.getElem?_map, Option.map_eq_some_iff]

lemma childrenOf_eq (h : b.Agree) (hf : b.parents = f.parents) (i : Nat) :
    b.childrenOf i = f.children i := by
  refine (h.childrenOf_pairwise i).eq_of_mem_iff (f.withParent_pairwise (some i)) fun j => ?_
  exact (h.mem_childrenOf i j).trans (mem_withParent_iff hf)

lemma roots_eq (h : b.Agree) (hf : b.parents = f.parents) : b.roots = f.roots := by
  refine h.roots_pairwise.eq_of_mem_iff (f.withParent_pairwise none) fun j => ?_
  exact (h.mem_roots j).trans (mem_withParent_iff hf)

end Agree

end Links

end MarkupLabels
