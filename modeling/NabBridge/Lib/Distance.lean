/-
**The distance of two weightings.**

A weighting gives finitely many points a weight each, and all other points the weight zero. The distance
of two of them is the sum of the differences at every point.

* `distance_comm`, `distance_triangle`, `distance_eq_zero`: it is a metric;
* `distance_le`: it is at most the weight of both;
* `tally`: the weighting of a list of entries, and its value where no two entries have the same point.
-/

import Mathlib.Algebra.Order.BigOperators.Group.Finset
import Mathlib.Data.Finsupp.Weight
import Mathlib.Data.Nat.Dist

namespace NabBridge

section Distance

variable {α : Type} [DecidableEq α]

/-- The sum of the differences of two weightings. -/
noncomputable def distance (f g : α →₀ Nat) : Nat :=
  ∑ a ∈ f.support ∪ g.support, Nat.dist (f a) (g a)

/-- It does not matter how many points are looked at besides. -/
theorem distance_eq_sum {f g : α →₀ Nat} {points : Finset α} (left : f.support ⊆ points)
    (right : g.support ⊆ points) : distance f g = ∑ a ∈ points, Nat.dist (f a) (g a) := by
  refine Finset.sum_subset (Finset.union_subset left right) fun a _ outside => ?_
  rw [Finset.notMem_union, Finsupp.notMem_support_iff, Finsupp.notMem_support_iff] at outside
  rw [outside.1, outside.2, Nat.dist_self]

theorem distance_comm (f g : α →₀ Nat) : distance f g = distance g f := by
  rw [distance, distance, Finset.union_comm]
  exact Finset.sum_congr rfl fun a _ => Nat.dist_comm _ _

theorem distance_triangle (f g h : α →₀ Nat) : distance f h ≤ distance f g + distance g h := by
  have first : f.support ⊆ f.support ∪ g.support ∪ h.support :=
    Finset.subset_union_left.trans Finset.subset_union_left
  have second : g.support ⊆ f.support ∪ g.support ∪ h.support :=
    Finset.subset_union_right.trans Finset.subset_union_left
  have third : h.support ⊆ f.support ∪ g.support ∪ h.support := Finset.subset_union_right
  rw [distance_eq_sum first third, distance_eq_sum first second, distance_eq_sum second third,
    ← Finset.sum_add_distrib]
  exact Finset.sum_le_sum fun a _ => Nat.dist.triangle_inequality _ _ _

theorem distance_eq_zero {f g : α →₀ Nat} : distance f g = 0 ↔ f = g := by
  rw [distance, Finset.sum_eq_zero_iff]
  constructor
  · intro none
    ext a
    by_cases inside : a ∈ f.support ∪ g.support
    · exact Nat.eq_of_dist_eq_zero (none a inside)
    · rw [Finset.notMem_union, Finsupp.notMem_support_iff, Finsupp.notMem_support_iff] at inside
      rw [inside.1, inside.2]
  · rintro rfl a _
    exact Nat.dist_self _

theorem distance_le (f g : α →₀ Nat) : distance f g ≤ f.degree + g.degree := by
  have each : ∀ a, Nat.dist (f a) (g a) ≤ f a + g a := fun a =>
    Nat.add_le_add (Nat.sub_le _ _) (Nat.sub_le _ _)
  calc distance f g
      ≤ ∑ a ∈ f.support ∪ g.support, (f a + g a) := Finset.sum_le_sum fun a _ => each a
    _ = f.degree + g.degree := by
        rw [Finset.sum_add_distrib, Finsupp.degree_apply, Finsupp.degree_apply]
        congr 1
        · exact (Finset.sum_subset Finset.subset_union_left fun a _ => Finsupp.notMem_support_iff.mp).symm
        · exact (Finset.sum_subset Finset.subset_union_right fun a _ =>
            Finsupp.notMem_support_iff.mp).symm

/-- Renaming the points leaves the distance alone. -/
theorem distance_embDomain {β : Type} [DecidableEq β] (rename : α ↪ β) (f g : α →₀ Nat) :
    distance (f.embDomain rename) (g.embDomain rename) = distance f g := by
  rw [distance, Finsupp.support_embDomain, Finsupp.support_embDomain, ← Finset.map_union,
    Finset.sum_map]
  simp only [Finsupp.embDomain_apply_self]
  rfl

end Distance

/-! ### Lists of entries -/

section Tally

variable {κ : Type}

/-- The weighting of a list of entries: equal points are added up. -/
noncomputable def tally (entries : List (κ × Nat)) : κ →₀ Nat :=
  (entries.map fun entry => Finsupp.single entry.1 entry.2).sum

@[simp] theorem tally_nil : tally ([] : List (κ × Nat)) = 0 := rfl

@[simp] theorem tally_cons (entry : κ × Nat) (entries : List (κ × Nat)) :
    tally (entry :: entries) = Finsupp.single entry.1 entry.2 + tally entries := by
  rw [tally, List.map_cons, List.sum_cons]
  rfl

theorem tally_perm {first second : List (κ × Nat)} (perm : first.Perm second) :
    tally first = tally second := (perm.map _).sum_eq

theorem degree_tally (entries : List (κ × Nat)) :
    (tally entries).degree = (entries.map Prod.snd).sum := by
  induction entries with
  | nil => exact map_zero _
  | cons entry rest ih =>
      rw [tally_cons, map_add, ih, Finsupp.degree_single, List.map_cons, List.sum_cons]

theorem tally_apply_of_not_mem {entries : List (κ × Nat)} {key : κ}
    (absent : key ∉ entries.map Prod.fst) : tally entries key = 0 := by
  induction entries with
  | nil => rfl
  | cons entry rest ih =>
      rw [List.map_cons, List.mem_cons, not_or] at absent
      rw [tally_cons, Finsupp.add_apply, Finsupp.single_eq_of_ne absent.1, ih absent.2]

/-- **Distinct points have the weights of their entries.** -/
theorem tally_apply_of_mem {entries : List (κ × Nat)} (distinct : (entries.map Prod.fst).Nodup)
    {entry : κ × Nat} (member : entry ∈ entries) : tally entries entry.1 = entry.2 := by
  induction entries with
  | nil => exact absurd member List.not_mem_nil
  | cons first rest ih =>
      obtain ⟨alone, later⟩ := List.nodup_cons.mp distinct
      rw [tally_cons, Finsupp.add_apply]
      rcases List.mem_cons.mp member with rfl | inRest
      · rw [Finsupp.single_eq_same, tally_apply_of_not_mem alone, Nat.add_zero]
      · have other : entry.1 ≠ first.1 := fun same => alone (same ▸ List.mem_map_of_mem inRest)
        rw [Finsupp.single_eq_of_ne other, Nat.zero_add, ih later inRest]

theorem support_tally_subset [DecidableEq κ] (entries : List (κ × Nat)) :
    (tally entries).support ⊆ (entries.map Prod.fst).toFinset := by
  intro key inside
  by_contra absent
  rw [List.mem_toFinset] at absent
  exact Finsupp.mem_support_iff.mp inside (tally_apply_of_not_mem absent)

theorem tally_map {κ' : Type} (rename : κ ↪ κ') (entries : List (κ × Nat)) :
    tally (entries.map fun entry => (rename entry.1, entry.2)) = (tally entries).embDomain rename := by
  induction entries with
  | nil => exact (Finsupp.embDomain_zero rename).symm
  | cons entry rest ih =>
      rw [List.map_cons, tally_cons, ih, tally_cons, Finsupp.embDomain_add, Finsupp.embDomain_single]

end Tally

end NabBridge
