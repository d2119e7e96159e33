/-
**Normalised powers.**

`GetCurrentValset` scales the powers of the registered validators to a total of `MaxUint32`. Every
division truncates, and the contract compares the sum with a fixed threshold, so what counts is the sum
of what is lost.

* `sum_map_div_le`, `sum_lt_of_map_div`: what a list of truncated quotients sums up to;
* `bridgeValidators_eq`: the members before they are scaled, and their total power;
* `getCurrentValset_normalized`: the members of a validator set, with the bounds on their powers.
-/

import NabBridge.Keeper.Valset
import NabBridge.Proof.ValsetOrder
import Mathlib.Algebra.BigOperators.Ring.List
import Mathlib.Algebra.Order.BigOperators.Group.List
import Mathlib.Algebra.BigOperators.Ring.Finset

namespace NabBridge

/-! ### Truncated quotients -/

section Rounding

variable (values : List Nat) (divisor : Nat)

theorem le_sum_of_mem {value : Nat} (member : value ∈ values) : value ≤ values.sum :=
  List.single_le_sum (fun _ _ => Nat.zero_le _) value member

theorem sum_map_div_le : (values.map (· / divisor)).sum ≤ values.sum / divisor := by
  induction values with
  | nil => exact Nat.zero_le _
  | cons value rest ih =>
      rw [List.map_cons, List.sum_cons, List.sum_cons]
      exact (Nat.add_le_add_left ih _).trans Nat.div_add_div_le_add_div

/-- Less than the divisor is lost at each value. -/
theorem sum_lt_of_map_div (positive : 0 < divisor) (nonempty : values ≠ []) :
    values.sum < ((values.map (· / divisor)).sum + values.length) * divisor := by
  induction values with
  | nil => exact absurd rfl nonempty
  | cons value rest ih =>
      have first : value < (value / divisor + 1) * divisor := by
        have split := Nat.div_add_mod value divisor
        have remainder := Nat.mod_lt value positive
        rw [Nat.add_one_mul, Nat.mul_comm]
        omega
      have later : rest.sum ≤ ((rest.map (· / divisor)).sum + rest.length) * divisor := by
        by_cases empty : rest = []
        · subst empty
          exact Nat.zero_le _
        · exact (ih empty).le
      rw [List.map_cons, List.sum_cons, List.sum_cons, List.length_cons]
      calc value + rest.sum
          < (value / divisor + 1) * divisor +
              ((rest.map (· / divisor)).sum + rest.length) * divisor := Nat.add_lt_add_of_lt_of_le first later
        _ = (value / divisor + (rest.map (· / divisor)).sum + (rest.length + 1)) * divisor := by ring

end Rounding

/-! ### The members -/

/-- The bonded validators with a registered Ethereum address, and that address. -/
def registeredValidators (keys : DelegateKeys) (validators : List ValAddress) :
    List (ValAddress × Bytes) :=
  validators.filterMap fun validator => (keys.getEthAddressByValidator validator).map (validator, ·)

/-- Their powers, as the staking module gives them. -/
def registeredPowers (keys : DelegateKeys) (sources : ValsetSources) : List Int :=
  (registeredValidators keys sources.bondedValidatorsByPower).map fun entry =>
    sources.lastValidatorPower entry.1

/-- A power on the scale of a validator set. -/
def scaledPower (totalPower power : Nat) : Nat := power * maxUint32 / totalPower

/-- **The members before they are scaled.** -/
theorem bridgeValidators_eq (keys : DelegateKeys) (lastValidatorPower : ValAddress → Int)
    (validators : List ValAddress) :
    bridgeValidators keys lastValidatorPower validators =
      ((registeredValidators keys validators).map fun entry =>
          ⟨uint64OfInt64 (lastValidatorPower entry.1), entry.2⟩,
        ((registeredValidators keys validators).map fun entry =>
          uint64OfInt64 (lastValidatorPower entry.1)).sum % 2 ^ 64) := by
  induction validators with
  | nil => rfl
  | cons validator rest ih =>
      unfold bridgeValidators registeredValidators
      rw [ih, List.filterMap_cons]
      cases keys.getEthAddressByValidator validator with
      | none => rfl
      | some ethAddress =>
          simp only [Option.map_some, List.map_cons, List.sum_cons, Nat.add_mod_mod]
          rfl

theorem uint64OfInt64_of_nonneg {value : Int} (nonneg : 0 ≤ value) (small : value < 2 ^ 64) :
    uint64OfInt64 value = value.toNat := by
  rw [uint64OfInt64, Int.emod_eq_of_lt nonneg small]

theorem normalizePower_eq {totalPower : Nat} {member : BridgeValidator} (positive : 0 < totalPower)
    (part : member.power ≤ totalPower) :
    normalizePower totalPower member =
      .ok { member with power := scaledPower totalPower member.power } := by
  have bounded : scaledPower totalPower member.power ≤ maxUint32 :=
    Nat.div_le_of_le_mul (Nat.mul_le_mul_right _ part)
  have fits : maxUint32 < 2 ^ 64 := by decide
  rw [normalizePower, if_neg positive.ne']
  exact if_neg (not_le.mpr (lt_of_le_of_lt bounded fits))

/-- The members of a validator set of the registered validators. -/
structure NormalizedMembers (registered : List (ValAddress × Bytes)) (power : ValAddress → Int)
    (members : List BridgeValidator) : Prop where
  bounded : ∀ member ∈ members, member.power ≤ maxUint32
  /-- Every registered validator is a member, and nobody else; a larger power is not scaled to a smaller
  one. -/
  exactly : ∃ scaled : ValAddress → Nat,
    members.Perm (registered.map fun entry => ⟨scaled entry.1, entry.2⟩) ∧
    ∀ entry ∈ registered, ∀ other ∈ registered, power entry.1 ≤ power other.1 →
      scaled entry.1 ≤ scaled other.1
  sorted : members.Pairwise fun first second => second.power ≤ first.power
  above : maxUint32 < (members.map BridgeValidator.power).sum + members.length
  atMost : (members.map BridgeValidator.power).sum ≤ maxUint32
  /-- The threshold that the contract is deployed with. -/
  quorum : members.length ≤ 1460288880 → 2834678415 < (members.map BridgeValidator.power).sum

/-- **Scaled members**: the bounds hold of the powers in any order. -/
theorem normalizedMembers_scaled {registered : List (ValAddress × Bytes)} {power : ValAddress → Int}
    (positive : 0 < (registered.map fun entry => (power entry.1).toNat).sum) :
    NormalizedMembers registered power (sortBridgeValidators (registered.map fun entry =>
      ⟨scaledPower (registered.map fun entry => (power entry.1).toNat).sum (power entry.1).toNat,
        entry.2⟩)) := by
  generalize total : (registered.map fun entry => (power entry.1).toNat).sum = totalPower at positive ⊢
  generalize arranged : (registered.map fun entry =>
    (⟨scaledPower totalPower (power entry.1).toNat, entry.2⟩ : BridgeValidator)) = scaled
  obtain ⟨perm, sorted⟩ := sortBridgeValidators_sorted scaled
  have powers : scaled.map BridgeValidator.power =
      (registered.map fun entry => (power entry.1).toNat * maxUint32).map (· / totalPower) := by
    rw [← arranged, List.map_map, List.map_map]
    rfl
  have product : (registered.map fun entry => (power entry.1).toNat * maxUint32).sum =
      totalPower * maxUint32 := by
    rw [List.sum_map_mul_right, total]
  have nonempty : (registered.map fun entry => (power entry.1).toNat * maxUint32) ≠ [] := by
    rintro empty
    rw [List.map_eq_nil_iff] at empty
    rw [← total, empty] at positive
    exact absurd positive (Nat.lt_irrefl 0)
  have atMost : (scaled.map BridgeValidator.power).sum ≤ maxUint32 := by
    have quotients := sum_map_div_le
      (registered.map fun entry => (power entry.1).toNat * maxUint32) totalPower
    rwa [product, Nat.mul_div_cancel_left _ positive, ← powers] at quotients
  have above : maxUint32 < (scaled.map BridgeValidator.power).sum + scaled.length := by
    have lost := sum_lt_of_map_div _ totalPower positive nonempty
    rw [product, ← powers, List.length_map, Nat.mul_comm] at lost
    rw [← arranged, List.length_map, arranged]
    exact lt_of_mul_lt_mul_right lost (Nat.zero_le _)
  have sums := (perm.map BridgeValidator.power).sum_eq
  have lengths := perm.length_eq
  have scale : maxUint32 = 4294967295 := rfl
  refine ⟨fun member inside => ?_, ⟨fun validator => scaledPower totalPower (power validator).toNat, ?_,
    ?_⟩, ?_, ?_, ?_, ?_⟩
  · have counted : member.power ∈ scaled.map BridgeValidator.power :=
      List.mem_map_of_mem (perm.mem_iff.mp inside)
    exact (le_sum_of_mem _ counted).trans atMost
  · rw [← arranged] at perm ⊢
    exact perm
  · intro entry _ other _ less
    exact Nat.div_le_div_right (Nat.mul_le_mul_right _ (Int.toNat_le_toNat less))
  · refine sorted.imp fun ordered => ?_
    exact (not_before_iff.mp ordered).elim le_of_lt fun both => both.1.ge
  · omega
  · omega
  · intro few
    omega

/-- **The validator set**: whatever the reward turns out to be, the members are the registered
validators with normalised powers. -/
theorem getCurrentValset_normalized (sdk : Sdk) (keys : DelegateKeys) (index : DenomIndex)
    (sources : ValsetSources) (nonneg : ∀ power ∈ registeredPowers keys sources, 0 ≤ power)
    (notAllZero : ∃ power ∈ registeredPowers keys sources, power ≠ 0)
    (small : (registeredPowers keys sources).sum < 2 ^ 64) :
    ∃ members, NormalizedMembers (registeredValidators keys sources.bondedValidatorsByPower)
        sources.lastValidatorPower members ∧
      getCurrentValset sdk keys index sources = (do
        let (rewardToken, rewardAmount) ← valsetRewardToken sdk index sources.valsetReward
        pure ⟨sources.latestValsetNonce + 1, members, sources.blockHeight, some rewardAmount,
          rewardToken⟩) := by
  set registered := registeredValidators keys sources.bondedValidatorsByPower with isRegistered
  set total := (registered.map fun entry => (sources.lastValidatorPower entry.1).toNat).sum with isTotal
  have everyPower : ∀ entry ∈ registered, 0 ≤ sources.lastValidatorPower entry.1 :=
    fun entry member => nonneg _ (List.mem_map_of_mem member)
  have natural : (registeredPowers keys sources).sum = (total : Int) := by
    rw [isTotal, Nat.cast_list_sum, List.map_map]
    refine congrArg List.sum (List.map_congr_left fun entry member => ?_)
    exact (Int.toNat_of_nonneg (everyPower entry member)).symm
  have part : ∀ entry ∈ registered, (sources.lastValidatorPower entry.1).toNat ≤ total :=
    fun entry member => le_sum_of_mem _ (List.mem_map_of_mem
      (f := fun entry : ValAddress × Bytes => (sources.lastValidatorPower entry.1).toNat) member)
  have fits : total < 2 ^ 64 := by
    rw [natural] at small
    exact_mod_cast small
  have positive : 0 < total := by
    obtain ⟨power, member, nonzero⟩ := notAllZero
    obtain ⟨entry, inside, rfl⟩ := List.mem_map.mp member
    have lower := everyPower entry inside
    have upper := part entry inside
    omega
  have powers : ∀ entry ∈ registered, uint64OfInt64 (sources.lastValidatorPower entry.1) =
      (sources.lastValidatorPower entry.1).toNat := by
    intro entry member
    have upper := part entry member
    exact uint64OfInt64_of_nonneg (everyPower entry member) (by omega)
  have collected : bridgeValidators keys sources.lastValidatorPower sources.bondedValidatorsByPower =
      (registered.map fun entry => ⟨(sources.lastValidatorPower entry.1).toNat, entry.2⟩, total) := by
    rw [bridgeValidators_eq, ← isRegistered]
    refine Prod.ext (List.map_congr_left fun entry member => ?_) ?_
    · rw [powers entry member]
    · show _ % 2 ^ 64 = total
      rw [List.map_congr_left powers]
      exact Nat.mod_eq_of_lt fits
  refine ⟨_, normalizedMembers_scaled positive, ?_⟩
  rw [getCurrentValset, collected]
  have scaled : ∀ member ∈ registered.map fun entry =>
      (⟨(sources.lastValidatorPower entry.1).toNat, entry.2⟩ : BridgeValidator),
      normalizePower total member = .ok { member with power := scaledPower total member.power } := by
    intro member inside
    obtain ⟨entry, known, rfl⟩ := List.mem_map.mp inside
    exact normalizePower_eq positive (part entry known)
  simp only [Outcome.mapM_eq_ok scaled, List.map_map]
  rfl

/-- Two of three validators are registered. -/
def exampleTwoRegistered : DelegateKeys :=
  (DelegateKeys.empty.setEthAddressForValidator [1] (ascii "0xa")).setEthAddressForValidator [3]
    (ascii "0xb")

/-- Three validators, of powers 5, 6 and 7. -/
def exampleThreePowers : ValsetSources where
  bondedValidatorsByPower := [[3], [2], [1]]
  lastValidatorPower := fun validator => 4 + (validator.headD 0).toNat
  valsetReward := ⟨[], 0⟩
  latestValsetNonce := 0
  blockHeight := 1

theorem getCurrentValset_normalized_two :
    ∃ members, NormalizedMembers [([3], ascii "0xb"), ([1], ascii "0xa")]
        exampleThreePowers.lastValidatorPower members ∧
      getCurrentValset exampleSdk exampleTwoRegistered ⟨Store.empty, Store.empty⟩ exampleThreePowers =
        .ok ⟨1, members, 1, some 0, zeroAddress⟩ :=
  getCurrentValset_normalized exampleSdk exampleTwoRegistered ⟨Store.empty, Store.empty⟩
    exampleThreePowers (by decide) (by decide) (by decide)

end NabBridge
