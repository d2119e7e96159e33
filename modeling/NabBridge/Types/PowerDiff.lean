/-
**The power difference of two validator sets, in the module.**

`PowerDiff` puts the powers of one set into a map, subtracts those of the other one, and adds up what is
left, without its sign. The numbers of the map are of type `int64`. The sum is a `float64`, in which whole
numbers below `2 ^ 53` are exact; `powerDiffTotal` is that sum before it is divided.

* `get_powerDiffMap`: what the map has for every address;
* `powerDiffTotal_eq`: the sum is the distance of the two sets as weightings of addresses.
-/

import NabBridge.Lib.Distance
import NabBridge.Lib.Store
import NabBridge.Types.Claims

namespace NabBridge

/-- An operation of `int64`. -/
def int64 (value : Int) : Int := value.bmod (2 ^ 64)

section PowerDiff

variable (b c : List BridgeValidator)

/-- The first loop of `PowerDiff`. -/
def powerDiffStart : Store StoreKey Int :=
  b.foldl (fun powers bv => powers.set (keyBytes bv.ethereumAddress) (int64 bv.power)) Store.empty

/-- The body of the second loop. -/
def powerDiffStep (powers : Store StoreKey Int) (bv : BridgeValidator) : Store StoreKey Int :=
  match powers.get (keyBytes bv.ethereumAddress) with
  | some val => powers.set (keyBytes bv.ethereumAddress) (int64 (val - int64 bv.power))
  | none => powers.set (keyBytes bv.ethereumAddress) (int64 (-int64 bv.power))

/-- The map of `PowerDiff` after both loops. -/
def powerDiffMap : Store StoreKey Int := c.foldl powerDiffStep (powerDiffStart b)

/-- The sum of `PowerDiff`. -/
def powerDiffTotal : Nat := ((powerDiffMap b c).values.map Int.natAbs).sum

end PowerDiff

/-! ### What the map has -/

/-- The entries of a validator set. -/
def memberEntries (members : List BridgeValidator) : List (StoreKey × Nat) :=
  members.map fun member => (keyBytes member.ethereumAddress, member.power)

/-- A validator set as a weighting of addresses. -/
noncomputable def memberPowers (members : List BridgeValidator) : StoreKey →₀ Nat :=
  tally (memberEntries members)

theorem memberPowers_cons (member : BridgeValidator) (members : List BridgeValidator) :
    memberPowers (member :: members) =
      Finsupp.single (keyBytes member.ethereumAddress) member.power + memberPowers members :=
  tally_cons _ _

theorem int64_sub_int64 (first second : Int) :
    int64 (int64 first - int64 second) = int64 (first - second) := by
  rw [int64, int64, int64, int64, Int.sub_bmod_bmod, Int.bmod_sub_bmod]

theorem int64_of_small {value : Int} (above : -2 ^ 63 ≤ value) (below : value < 2 ^ 63) :
    int64 value = value :=
  Int.bmod_eq_of_le (by omega) (by omega)

/-- **Each turn of the second loop** subtracts a power at its address, whatever is there. -/
theorem getD_powerDiffStep (powers : Store StoreKey Int) (bv : BridgeValidator) {value : StoreKey → Int}
    (reads : ∀ key, (powers.get key).getD 0 = int64 (value key)) (key : StoreKey) :
    ((powerDiffStep powers bv).get key).getD 0 =
      int64 (value key - Finsupp.single (keyBytes bv.ethereumAddress) bv.power key) := by
  have written : powerDiffStep powers bv = powers.set (keyBytes bv.ethereumAddress)
      (int64 (value (keyBytes bv.ethereumAddress) - bv.power)) := by
    have here := reads (keyBytes bv.ethereumAddress)
    unfold powerDiffStep
    cases found : powers.get (keyBytes bv.ethereumAddress) with
    | none =>
        rw [found, Option.getD_none] at here
        rw [← int64_sub_int64, ← here, zero_sub]
    | some val =>
        rw [found, Option.getD_some] at here
        rw [← int64_sub_int64, ← here]
  rw [written]
  by_cases same : key = keyBytes bv.ethereumAddress
  · rw [same, Store.get_set_self, Finsupp.single_eq_same, Option.getD_some]
  · rw [Store.get_set_of_ne _ _ same, Finsupp.single_eq_of_ne same, reads key]
    simp

theorem getD_powerDiffStart {b : List BridgeValidator}
    (distinct : (b.map BridgeValidator.ethereumAddress).Nodup) (key : StoreKey) :
    ((powerDiffStart b).get key).getD 0 = int64 (memberPowers b key) := by
  have written : powerDiffStart b =
      (b.map fun bv => (keyBytes bv.ethereumAddress, int64 bv.power)).foldl
        (fun powers pair => powers.set pair.1 pair.2) Store.empty := by
    rw [powerDiffStart, List.foldl_map]
  have keys : (b.map fun bv => keyBytes bv.ethereumAddress).Nodup := by
    have renamed := distinct.map keyBytes_injective
    rwa [List.map_map] at renamed
  rw [written]
  by_cases inside : key ∈ b.map fun bv => keyBytes bv.ethereumAddress
  · obtain ⟨bv, member, rfl⟩ := List.mem_map.mp inside
    have isEntry : (keyBytes bv.ethereumAddress, int64 bv.power) ∈
        b.map fun bv => (keyBytes bv.ethereumAddress, int64 bv.power) := List.mem_map_of_mem member
    rw [Store.get_foldl_set_of_mem _ (by rwa [List.map_map]) isEntry, Option.getD_some]
    have isMember : (keyBytes bv.ethereumAddress, bv.power) ∈ memberEntries b :=
      List.mem_map_of_mem member
    have power : memberPowers b (keyBytes bv.ethereumAddress) = bv.power :=
      tally_apply_of_mem (by rwa [memberEntries, List.map_map]) isMember
    rw [power]
  · rw [Store.get_foldl_set_of_not_mem _ _ (by rwa [List.map_map])]
    have power : memberPowers b key = 0 :=
      tally_apply_of_not_mem (by rwa [memberEntries, List.map_map])
    rw [power]
    rfl

/-- **What the map has**: for every address the difference of its powers. -/
theorem getD_powerDiffMap {b : List BridgeValidator}
    (distinct : (b.map BridgeValidator.ethereumAddress).Nodup) (c : List BridgeValidator)
    (key : StoreKey) :
    ((powerDiffMap b c).get key).getD 0 = int64 (memberPowers b key - memberPowers c key) := by
  suffices subtracted : ∀ (start : Store StoreKey Int) (value : StoreKey → Int),
      (∀ key, (start.get key).getD 0 = int64 (value key)) →
      ((c.foldl powerDiffStep start).get key).getD 0 = int64 (value key - memberPowers c key) from
    subtracted _ _ (getD_powerDiffStart distinct)
  intro start value reads
  induction c generalizing start value with
  | nil =>
      rw [List.foldl_nil, reads key]
      simp [memberPowers, memberEntries]
  | cons bv rest ih =>
      rw [List.foldl_cons, ih _ _ (getD_powerDiffStep start bv reads), memberPowers_cons,
        Finsupp.add_apply, Nat.cast_add, sub_sub]

/-! ### The sum -/

theorem Store.sum_values {κ α : Type} [LinearOrder κ] [DecidableEq κ] (store : Store κ α) (default : α)
    (size : α → Nat) :
    (store.values.map size).sum =
      ∑ key ∈ (store.entries.map Prod.fst).toFinset, size ((store.get key).getD default) := by
  rw [List.sum_toFinset _ store.keys_nodup, Store.values, List.map_map, List.map_map]
  refine congrArg List.sum (List.map_congr_left fun entry member => ?_)
  have found := (store.mem_entries_iff entry.1 entry.2).mp member
  rw [Function.comp_apply, Function.comp_apply, found, Option.getD_some]

/-- **The sum is the distance of the two sets**, as long as the powers fit an `int64`. -/
theorem powerDiffTotal_eq {b c : List BridgeValidator}
    (distinct : (b.map BridgeValidator.ethereumAddress).Nodup)
    (small : ∀ key, memberPowers b key < 2 ^ 63) (small' : ∀ key, memberPowers c key < 2 ^ 63) :
    powerDiffTotal b c = distance (memberPowers b) (memberPowers c) := by
  have reads : ∀ key, (((powerDiffMap b c).get key).getD 0).natAbs =
      Nat.dist (memberPowers b key) (memberPowers c key) := by
    intro key
    have first := small key
    have second := small' key
    rw [getD_powerDiffMap distinct c key, int64_of_small (by omega) (by omega), Nat.dist]
    omega
  rw [powerDiffTotal, Store.sum_values _ 0]
  generalize keys : ((powerDiffMap b c).entries.map Prod.fst).toFinset = present
  have elsewhere : ∀ key ∈ present ∪ ((memberPowers b).support ∪ (memberPowers c).support),
      key ∉ present → (((powerDiffMap b c).get key).getD 0).natAbs = 0 := by
    intro key _ outside
    have absent : (powerDiffMap b c).get key = none := by
      refine ((powerDiffMap b c).get_eq_none_iff key).mpr fun value member => outside ?_
      exact keys ▸ List.mem_toFinset.mpr (List.mem_map_of_mem (f := Prod.fst) member)
    rw [absent]
    rfl
  calc ∑ key ∈ present, (((powerDiffMap b c).get key).getD 0).natAbs
      = ∑ key ∈ present ∪ ((memberPowers b).support ∪ (memberPowers c).support),
          (((powerDiffMap b c).get key).getD 0).natAbs :=
        Finset.sum_subset Finset.subset_union_left elsewhere
    _ = ∑ key ∈ present ∪ ((memberPowers b).support ∪ (memberPowers c).support),
          Nat.dist (memberPowers b key) (memberPowers c key) :=
        Finset.sum_congr rfl fun key _ => reads key
    _ = distance (memberPowers b) (memberPowers c) :=
        (distance_eq_sum (Finset.subset_union_left.trans Finset.subset_union_right)
          (Finset.subset_union_right.trans Finset.subset_union_right)).symm

end NabBridge
