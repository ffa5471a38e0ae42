import Mathlib
import MarkupLabels.Proofs.Tree.Extension

/-! Walks over a forest meet every element once. Where each element stands inside the one in front of it
or around that, they meet the elements in document order. -/

namespace MarkupLabels.Forest

variable {f : Forest} {i j k p : Nat}

lemma lt_of_mem_ancestors (h : i ∈ f.ancestors j) : i < j := by
  induction j using Nat.strong_induction_on with
  | _ j ih =>
    cases hj : f.parent? j with
    | none => simp [ancestors_eq f j, hj] at h
    | some p =>
      have hlt : p < j := f.parent_lt j p hj
      rw [ancestors_of_parent? hj] at h
      rcases List.mem_cons.mp h with rfl | h
      · exact hlt
      · exact (ih p hlt h).trans hlt

lemma Under.le (h : f.Under i j) : i ≤ j := by
  rcases h with rfl | h
  · exact le_rfl
  · exact (lt_of_mem_ancestors h).le

lemma lt_size_of_parent? (h : f.parent? i = some p) : i < f.size := by
  by_contra hi
  rw [parent?, List.getElem?_eq_none (Nat.le_of_not_lt hi)] at h
  cases h

lemma under_of_parent? (h : f.parent? j = some p) : f.Under i j ↔ i = j ∨ f.Under i p := by
  rw [Under, ancestors_of_parent? h, List.mem_cons, Under, eq_comm (a := j), eq_comm (a := p)]

lemma under_of_root (h : f.parent? j = none) : f.Under i j ↔ i = j := by
  rw [Under, ancestors_eq f j, h]
  simp [eq_comm]

lemma Under.trans (hij : f.Under i j) (hjk : f.Under j k) : f.Under i k := by
  induction k using Nat.strong_induction_on with
  | _ k ih =>
    cases hk : f.parent? k with
    | none => exact (under_of_root hk).mp hjk ▸ hij
    | some p =>
      rcases (under_of_parent? hk).mp hjk with rfl | hjp
      · exact hij
      · exact (under_of_parent? hk).mpr (.inr (ih p (f.parent_lt k p hk) hjp))

lemma Under.comparable (hi : f.Under i k) (hj : f.Under j k) : f.Under i j ∨ f.Under j i := by
  induction k using Nat.strong_induction_on with
  | _ k ih =>
    cases hk : f.parent? k with
    | none =>
      obtain rfl := (under_of_root hk).mp hi
      exact .inr hj
    | some p =>
      rcases (under_of_parent? hk).mp hi with rfl | hip
      · exact .inr hj
      · rcases (under_of_parent? hk).mp hj with rfl | hjp
        · exact .inl hi
        · exact ih p (f.parent_lt k p hk) hip hjp

lemma Under.eq_of_parent? (hi : f.Under i k) (hj : f.Under j k) (h : f.parent? i = f.parent? j) :
    i = j := by
  have hnot : ∀ {a b}, f.parent? a = f.parent? b → f.Under a b → a = b := by
    intro a b hparent hab
    cases hb : f.parent? b with
    | none => exact (under_of_root hb).mp hab
    | some p =>
      rcases (under_of_parent? hb).mp hab with rfl | hap
      · rfl
      · exact absurd (f.parent_lt a p (hparent.trans hb)) hap.le.not_gt
  rcases hi.comparable hj with hij | hji
  · exact hnot h hij
  · exact (hnot h.symm hji).symm

lemma withParent_pairwise (f : Forest) (q : Option Nat) : (f.withParent q).Pairwise (· < ·) := by
  have hindices : (f.elements.zipIdx.map Prod.snd).Pairwise (· < ·) := by
    rw [List.zipIdx_map_snd, ← List.range_eq_range']
    exact List.pairwise_lt_range
  exact hindices.sublist (List.filter_sublist.map _)

lemma nodup_withParent (f : Forest) (q : Option Nat) : (f.withParent q).Nodup :=
  (f.withParent_pairwise q).imp fun h => h.ne

lemma nodup_flatMap_walk (q : Option Nat) (h : ∀ j ∈ f.withParent q, (f.walk j).Nodup) :
    ((f.withParent q).flatMap f.walk).Nodup := by
  rw [List.nodup_flatMap]
  refine ⟨h, (f.nodup_withParent q).imp_of_mem fun {a b} ha hb hne => ?_⟩
  intro k hka hkb
  apply hne
  apply (mem_walk.mp hka).eq_of_parent? (mem_walk.mp hkb)
  rw [(mem_withParent_iff.mp ha).2, (mem_withParent_iff.mp hb).2]

lemma walk_nodup (f : Forest) (i : Nat) : (f.walk i).Nodup := by
  induction hn : f.size - i using Nat.strong_induction_on generalizing i with
  | _ n ih =>
    have hchild : ∀ {j}, j ∈ f.withParent (some i) → i < j ∧ j < f.size := lt_of_mem_children
    rw [walk_eq, List.nodup_cons]
    refine ⟨fun hi => ?_, nodup_flatMap_walk (some i) fun j hj => ?_⟩
    · obtain ⟨j, hj, hi⟩ := List.mem_flatMap.mp hi
      exact (mem_walk.mp hi).le.not_gt (hchild hj).1
    · have := hchild hj
      exact ih (f.size - j) (by omega) j rfl

lemma nodup_roots_walk (f : Forest) : (f.roots.flatMap f.walk).Nodup :=
  nodup_flatMap_walk none fun i _ => f.walk_nodup i

lemma lt_size_of_under (hi : i < f.size) (h : f.Under i j) : j < f.size := by
  rcases h with rfl | h
  · exact hi
  · cases hj : f.parent? j with
    | none => simp [ancestors_eq f j, hj] at h
    | some p => exact lt_size_of_parent? hj

lemma roots_walk_perm (f : Forest) : (f.roots.flatMap f.walk).Perm (List.range f.size) := by
  apply (List.perm_ext_iff_of_nodup f.nodup_roots_walk List.nodup_range).mpr
  intro j
  rw [List.mem_range]
  constructor
  · intro hj
    obtain ⟨r, hr, hj⟩ := List.mem_flatMap.mp hj
    exact lt_size_of_under (mem_roots.mp hr).1 (mem_walk.mp hj)
  · exact mem_walk_roots

/-- Each element stands inside the one in front of it, or inside an element around that, or in none. -/
def InOrder (f : Forest) : Prop := ∀ i p, f.parent? (i + 1) = some p → f.Under p i

namespace InOrder

lemma under_of_le (h : f.InOrder) (hk : f.Under i k) (hij : i ≤ j) (hjk : j ≤ k) : f.Under i j := by
  induction k with
  | zero =>
    obtain rfl : j = 0 := by omega
    exact hk
  | succ k ih =>
    by_cases hj : j = k + 1
    · exact hj ▸ hk
    · apply ih _ (by omega)
      cases hp : f.parent? (k + 1) with
      | none =>
        have := (under_of_root hp).mp hk
        omega
      | some p =>
        rcases (under_of_parent? hp).mp hk with hi | hip
        · omega
        · exact hip.trans (h k p hp)

lemma pairwise_flatMap_walk (h : f.InOrder) (q : Option Nat)
    (hwalk : ∀ j ∈ f.withParent q, (f.walk j).Pairwise (· < ·)) :
    ((f.withParent q).flatMap f.walk).Pairwise (· < ·) := by
  rw [List.pairwise_flatMap]
  refine ⟨hwalk, (f.withParent_pairwise q).imp_of_mem fun {a b} ha hb hab x hx y hy => ?_⟩
  have hbefore : x < b := by
    -- Otherwise the second element would be under the first, and have its own parent there.
    by_contra hle
    have hb' := h.under_of_le (mem_walk.mp hx) hab.le (Nat.le_of_not_lt hle)
    refine hab.ne (hb'.eq_of_parent? (.inl rfl) ?_)
    rw [(mem_withParent_iff.mp ha).2, (mem_withParent_iff.mp hb).2]
  exact hbefore.trans_le (mem_walk.mp hy).le

lemma walk_pairwise (h : f.InOrder) (i : Nat) : (f.walk i).Pairwise (· < ·) := by
  induction hn : f.size - i using Nat.strong_induction_on generalizing i with
  | _ n ih =>
    have hchild : ∀ {j}, j ∈ f.withParent (some i) → i < j ∧ j < f.size := lt_of_mem_children
    rw [walk_eq, List.pairwise_cons]
    refine ⟨fun k hk => ?_, h.pairwise_flatMap_walk (some i) fun j hj => ?_⟩
    · obtain ⟨j, hj, hk⟩ := List.mem_flatMap.mp hk
      exact (hchild hj).1.trans_le (mem_walk.mp hk).le
    · have := hchild hj
      exact ih (f.size - j) (by omega) j rfl

lemma roots_walk (h : f.InOrder) : f.roots.flatMap f.walk = List.range f.size :=
  List.Perm.eq_of_pairwise (fun _ _ _ _ hab hba => absurd hab hba.asymm)
    (h.pairwise_flatMap_walk none fun j _ => h.walk_pairwise j) List.pairwise_lt_range f.roots_walk_perm

end InOrder

lemma describe_parents {name : Option String} {attributes : List Attribute} :
    (f.describe i name attributes).parents = f.parents := by
  apply List.ext_getElem?
  intro j
  simp only [parents, describe, List.getElem?_map, List.getElem?_modify]
  cases f.elements[j]? with
  | none => simp
  | some e => by_cases hij : i = j <;> simp [hij]

lemma add_parents (f : Forest) (e : Element) :
    (f.add e).parents = f.parents ++ [e.parent.filter (· < f.size)] :=
  List.map_append

lemma inOrder_congr {g : Forest} (h : f.parents = g.parents) : f.InOrder ↔ g.InOrder := by
  simp only [InOrder, Under, parent?_eq, h, ancestors_congr h]

section Growth

variable {g : Forest} {q : Option Nat}

lemma size_of_parents (h : g.parents = f.parents ++ [q]) : g.size = f.size + 1 := by
  have hlength := congrArg List.length h
  simpa [parents, size] using hlength

lemma parent?_of_lt (h : g.parents = f.parents ++ [q]) (hi : i < f.size) : g.parent? i = f.parent? i := by
  rw [parent?_eq, parent?_eq, h, List.getElem?_append_left]
  simpa [parents, size] using hi

lemma parent?_of_new (h : g.parents = f.parents ++ [q]) : g.parent? f.size = q := by
  have hlength : f.parents.length = f.size := by simp [parents, size]
  rw [parent?_eq, h, List.getElem?_append_right hlength.le, hlength, Nat.sub_self]
  rfl

lemma ancestors_of_lt (h : g.parents = f.parents ++ [q]) (hi : i < f.size) :
    g.ancestors i = f.ancestors i := by
  induction i using Nat.strong_induction_on with
  | _ i ih =>
    rw [ancestors_eq, ancestors_eq f, parent?_of_lt h hi]
    cases hp : f.parent? i with
    | none => rfl
    | some p =>
      have hlt : p < i := f.parent_lt i p hp
      simp [ih p hlt (hlt.trans hi)]

lemma InOrder.add (hf : f.InOrder) (h : g.parents = f.parents ++ [q])
    (hq : ∀ p ∈ q, p < f.size ∧ f.Under p (f.size - 1)) : g.InOrder := by
  have hunder : ∀ {p i}, i < f.size → f.Under p i → g.Under p i := fun hi hp => by
    rwa [Under, ancestors_of_lt h hi]
  intro i p hp
  have hi := lt_size_of_parent? hp
  rw [size_of_parents h] at hi
  by_cases hlast : i + 1 = f.size
  · rw [hlast, parent?_of_new h] at hp
    apply hunder (by omega)
    rw [← Nat.add_sub_cancel i 1, hlast]
    exact (hq p hp).2
  · rw [parent?_of_lt h (by omega)] at hp
    exact hunder (by omega) (hf i p hp)

end Growth

lemma ancestors_pairwise (f : Forest) (i : Nat) :
    (f.ancestors i).Pairwise fun a b => b ∈ f.ancestors a := by
  induction i using Nat.strong_induction_on with
  | _ i ih =>
    cases hi : f.parent? i with
    | none => simp [ancestors_eq f i, hi]
    | some p =>
      rw [ancestors_of_parent? hi, List.pairwise_cons]
      exact ⟨fun _ h => h, ih p (f.parent_lt i p hi)⟩

lemma mem_ancestors_iff : i ∈ f.ancestors j ↔ j ∈ f.walk i ∧ j ≠ i := by
  rw [mem_walk, Under]
  constructor
  · exact fun h => ⟨.inr h, (lt_of_mem_ancestors h).ne'⟩
  · rintro ⟨rfl | h, hne⟩
    · exact absurd rfl hne
    · exact h

def unstack (f : Forest) : List Nat → List Nat
  | [] => []
  | i :: stack => i :: f.unstack (f.children i ++ stack)
termination_by stack => (stack.flatMap f.walk).length
decreasing_by simp [List.flatMap_append, walk_eq f i]

lemma unstack_eq (f : Forest) (stack : List Nat) : f.unstack stack = stack.flatMap f.walk := by
  fun_induction unstack f stack with
  | case1 => rfl
  | case2 i stack ih => rw [ih, List.flatMap_append, List.flatMap_cons, walk_eq f i, List.cons_append]

end MarkupLabels.Forest
