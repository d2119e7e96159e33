/-
**The power difference of two validator sets, in the orchestrator.**

`power_diff` reads each set into a hash map and a hash set. It adds up the powers of the addresses in one
set only and the differences for those in both, as `u64`; the order in which the sets are walked does not
matter for the sum. `Valset.powerDiffTotal` is that sum before it is divided.
-/

import NabBridge.Lib.Distance
import NabBridge.Orchestrator.Types
import Mathlib.Data.Finset.SymmDiff

namespace NabBridge.Orchestrator

/-- `to_hashmap`: a member without an address is left out. -/
def Valset.toHashmap (valset : Valset) : Store EthAddress Nat :=
  valset.members.foldl
    (fun res item => match item.ethAddress with
      | some address => res.set address item.power
      | none => res)
    Store.empty

/-- `to_hashset` -/
def Valset.toHashset (valset : Valset) : Finset EthAddress :=
  (valset.members.filterMap ValsetMember.ethAddress).toFinset

/-- The sum of `power_diff`; `none` is the panic of a missing power. -/
def Valset.powerDiffTotal (self other : Valset) : Option Nat :=
  let a := self.toHashmap
  let b := other.toHashmap
  let intersection := self.toHashset ∩ other.toHashset
  let symmetricDifference := symmDiff self.toHashset other.toHashset
  let power := fun item => (a.get item).or (b.get item)
  if (∀ item ∈ symmetricDifference, (power item).isSome) ∧
      (∀ item ∈ intersection, a.has item ∧ b.has item) then
    some ((∑ item ∈ symmetricDifference, (power item).getD 0 +
      ∑ item ∈ intersection,
        let powerA := (a.get item).getD 0
        let powerB := (b.get item).getD 0
        if powerA > powerB then powerA - powerB else powerB - powerA) % 2 ^ 64)
  else none

/-! ### What the map and the set have -/

section Entries

variable {entries : List (EthAddress × Nat)} {valset : Valset}

/-- A set whose members all have addresses. -/
def Valset.HasEntries (valset : Valset) (entries : List (EthAddress × Nat)) : Prop :=
  valset.members = entries.map fun entry => ⟨entry.2, some entry.1⟩

theorem Valset.HasEntries.toHashset_eq (given : valset.HasEntries entries) :
    valset.toHashset = (entries.map Prod.fst).toFinset := by
  have addresses : (entries.map fun entry => (⟨entry.2, some entry.1⟩ : ValsetMember)).filterMap
      ValsetMember.ethAddress = entries.map Prod.fst := by
    rw [List.filterMap_map]
    show entries.filterMap (some ∘ Prod.fst) = entries.map Prod.fst
    rw [List.filterMap_eq_map]
  rw [toHashset, given, addresses]

theorem Valset.HasEntries.toHashmap_eq (given : valset.HasEntries entries) :
    valset.toHashmap = entries.foldl (fun res pair => res.set pair.1 pair.2) Store.empty := by
  rw [toHashmap, given, List.foldl_map]

theorem Valset.HasEntries.get_toHashmap (given : valset.HasEntries entries)
    (distinct : (entries.map Prod.fst).Nodup) {item : EthAddress} (inside : item ∈ valset.toHashset) :
    valset.toHashmap.get item = some (tally entries item) := by
  rw [given.toHashset_eq, List.mem_toFinset] at inside
  obtain ⟨entry, member, rfl⟩ := List.mem_map.mp inside
  rw [given.toHashmap_eq, Store.get_foldl_set_of_mem _ distinct member,
    tally_apply_of_mem distinct member]

theorem Valset.HasEntries.get_toHashmap_of_not_mem (given : valset.HasEntries entries)
    {item : EthAddress} (outside : item ∉ valset.toHashset) :
    valset.toHashmap.get item = none ∧ tally entries item = 0 := by
  rw [given.toHashset_eq, List.mem_toFinset] at outside
  refine ⟨?_, tally_apply_of_not_mem outside⟩
  rw [given.toHashmap_eq, Store.get_foldl_set_of_not_mem _ _ outside]
  rfl

end Entries

/-- **The sum is the distance of the two sets**, in 64 bits. -/
theorem Valset.powerDiffTotal_eq {self other : Valset} {a b : List (EthAddress × Nat)}
    (selfHas : self.HasEntries a) (otherHas : other.HasEntries b)
    (distinct : (a.map Prod.fst).Nodup) (distinct' : (b.map Prod.fst).Nodup) :
    self.powerDiffTotal other = some (distance (tally a) (tally b) % 2 ^ 64) := by
  -- an address in one of the sets only has its power there and none in the other one
  have oneSided : ∀ item ∈ symmDiff self.toHashset other.toHashset,
      (self.toHashmap.get item).or (other.toHashmap.get item) =
        some (Nat.dist (tally a item) (tally b item)) := by
    intro item member
    rcases Finset.mem_symmDiff.mp member with ⟨here, absent⟩ | ⟨here, absent⟩
    · rw [selfHas.get_toHashmap distinct here, (otherHas.get_toHashmap_of_not_mem absent).2,
        Nat.dist_zero_right]
      rfl
    · obtain ⟨unknown, zero⟩ := selfHas.get_toHashmap_of_not_mem absent
      rw [otherHas.get_toHashmap distinct' here, unknown, zero, Nat.dist_zero_left]
      rfl
  have twoSided : ∀ item ∈ self.toHashset ∩ other.toHashset,
      self.toHashmap.get item = some (tally a item) ∧ other.toHashmap.get item = some (tally b item) :=
    fun item member => ⟨selfHas.get_toHashmap distinct (Finset.mem_inter.mp member).1,
      otherHas.get_toHashmap distinct' (Finset.mem_inter.mp member).2⟩
  have difference : ∀ item ∈ self.toHashset ∩ other.toHashset,
      (if (self.toHashmap.get item).getD 0 > (other.toHashmap.get item).getD 0 then
        (self.toHashmap.get item).getD 0 - (other.toHashmap.get item).getD 0
      else (other.toHashmap.get item).getD 0 - (self.toHashmap.get item).getD 0) =
        Nat.dist (tally a item) (tally b item) := by
    intro item member
    rw [(twoSided item member).1, (twoSided item member).2, Option.getD_some, Option.getD_some, Nat.dist]
    split_ifs
    · omega
    · omega
  have union : symmDiff self.toHashset other.toHashset ∪ (self.toHashset ∩ other.toHashset) =
      self.toHashset ∪ other.toHashset := symmDiff_sup_inf _ _
  have disjoint : Disjoint (symmDiff self.toHashset other.toHashset)
      (self.toHashset ∩ other.toHashset) := disjoint_symmDiff_inf _ _
  have left : (tally a).support ⊆ self.toHashset ∪ other.toHashset := by
    rw [selfHas.toHashset_eq]
    exact (support_tally_subset a).trans Finset.subset_union_left
  have right : (tally b).support ⊆ self.toHashset ∪ other.toHashset := by
    rw [otherHas.toHashset_eq]
    exact (support_tally_subset b).trans Finset.subset_union_right
  rw [distance_eq_sum left right, ← union, Finset.sum_union disjoint]
  unfold powerDiffTotal
  have present : (∀ item ∈ symmDiff self.toHashset other.toHashset,
      ((self.toHashmap.get item).or (other.toHashmap.get item)).isSome) ∧
      ∀ item ∈ self.toHashset ∩ other.toHashset,
        self.toHashmap.has item ∧ other.toHashmap.has item := by
    refine ⟨fun item member => ?_, fun item member => ⟨?_, ?_⟩⟩
    · rw [oneSided item member]
      rfl
    · rw [Store.has, (twoSided item member).1]
      rfl
    · rw [Store.has, (twoSided item member).2]
      rfl
  rw [if_pos present]
  refine congrArg (fun sum => some (sum % 2 ^ 64)) (congrArg₂ (· + ·) ?_ ?_)
  · exact Finset.sum_congr rfl fun item member => congrArg (Option.getD · 0) (oneSided item member)
  · exact Finset.sum_congr rfl difference

end NabBridge.Orchestrator
