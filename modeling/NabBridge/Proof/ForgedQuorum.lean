/-
**No forged quorum, unless the zero address is registered.**

The module lets a validator register `0x000…0`, which then is a member of the validator sets it
builds. The contract reads a failed recovery as the zero address, so for such a member any
signature with a nonzero `v` passes.

* `no_forged_quorum`: when no registration names the zero address, an accepted signature array
  contains successful recoveries of members with more than the threshold between them, and nothing
  else was counted;
* `forged_quorum_of_zeroAddress`: with the zero address registered, an array that recovers nowhere
  is accepted.
-/

import NabBridge.Contract.Signatures
import NabBridge.Keeper.Valset

namespace NabBridge

/-- The members of a validator set as the contract receives them. -/
def Valset.validators (valset : Valset) : List EthAddress :=
  valset.members.map fun member => hexToAddress member.ethereumAddress

/-- The powers of a validator set as the contract receives them. -/
def Valset.powers (valset : Valset) : List Nat := valset.members.map BridgeValidator.power

/-- Members holding more than the threshold between them have an entry that recovers to their own
address, and exactly their powers were added up. -/
def GenuineQuorum (evm : Evm) (valset : Valset) (v : List UInt8) (r s : List Bytes)
    (theHash : Bytes) (powerThreshold : Nat) : Prop :=
  ∃ counted : List Nat, counted.Nodup ∧
    (∀ i ∈ counted, Recovers evm theHash valset.validators v r s i) ∧
    cumulativePower evm theHash powerThreshold 0 valset.validators valset.powers v r s =
      .ok ((counted.map (powerAt valset.powers)).sum % 2 ^ 256) ∧
    powerThreshold < (counted.map (powerAt valset.powers)).sum

theorem validators_ne_zero {sdk : Sdk} {keys : DelegateKeys} {index : DenomIndex}
    {sources : ValsetSources} {valset : Valset}
    {inputs : List ((ValAddress → Bool) × MsgSetOrchestratorAddress)}
    (registry : keys.From inputs)
    (nonzero : ∀ input ∈ inputs, hexToAddress input.2.ethAddress ≠ 0)
    (built : getCurrentValset sdk keys index sources = .ok valset) :
    ∀ signer ∈ valset.validators, signer ≠ 0 := by
  intro signer inside
  obtain ⟨member, inMembers, rfl⟩ := List.mem_map.mp inside
  obtain ⟨validator, _, registered⟩ := getCurrentValset_members built member inMembers
  obtain ⟨_, input, submitted, equal⟩ := registry validator member.ethereumAddress registered
  exact equal ▸ nonzero input submitted

/-- **No forged quorum.** For every validator set built after registrations none of which names the
zero address, and for all signature arrays, the contract accepts only a genuine quorum. -/
theorem no_forged_quorum {sdk : Sdk} {evm : Evm}
    {inputs : List ((ValAddress → Bool) × MsgSetOrchestratorAddress)} {keys : DelegateKeys}
    {outputs : List Empty}
    (runs : run (delegateStep sdk) DelegateKeys.empty inputs = some (keys, outputs))
    (nonzero : ∀ input ∈ inputs, hexToAddress input.2.ethAddress ≠ 0) {index : DenomIndex}
    {sources : ValsetSources} {valset : Valset}
    (built : getCurrentValset sdk keys index sources = .ok valset) (v : List UInt8)
    (r s : List Bytes) (theHash : Bytes) (powerThreshold : Nat)
    (accepted : checkValidatorSignatures evm valset.validators valset.powers v r s theHash
      powerThreshold = .ok ()) :
    GenuineQuorum evm valset v r s theHash powerThreshold := by
  have signers := validators_ne_zero (registered_of_run runs) nonzero built
  unfold checkValidatorSignatures at accepted
  cases ended : cumulativePower evm theHash powerThreshold 0 valset.validators valset.powers v r s with
  | error reason =>
      rw [ended] at accepted
      cases accepted
  | ok final =>
      rw [ended] at accepted
      simp only at accepted
      split_ifs at accepted with enough
      obtain ⟨counted, distinct, verifies, total⟩ := verifiedSignatures (by decide) ended
      rw [Nat.zero_add] at total
      refine ⟨counted, distinct, fun i member => (verifies i member).recovers signers,
        total ▸ ended, ?_⟩
      calc powerThreshold < final := enough
        _ = (counted.map (powerAt valset.powers)).sum % 2 ^ 256 := total
        _ ≤ (counted.map (powerAt valset.powers)).sum := Nat.mod_le _ _

/-! ### Two registrations -/

/-- The first validator registers the given address. -/
def exampleRegistration (ethAddress : Bytes) :
    List ((ValAddress → Bool) × MsgSetOrchestratorAddress) :=
  [(fun _ => true, ⟨ascii "cosmosvaloper1qyqszqgpqyqszqgpqyqszqgpqyqszqgph84tp0",
    ascii "cosmos1qgpqyqszqgpqyqszqgpqyqszqgpqyqszrh8mx2", ethAddress⟩)]

/-- The first validator is bonded and holds all power; there is no reward. -/
def exampleSources : ValsetSources :=
  ⟨[List.replicate 20 1], fun _ => 1000, ⟨[], 0⟩, 0, 5⟩

/-- Recovery succeeds with `v = 27`, to one address, and fails otherwise. -/
def exampleEvm : Evm where
  keccak256 := id
  recover _ v _ _ :=
    if v = 27 then some (hexToAddress (ascii "0xd041c41EA1bf0F006ADBb6d2c9ef9D425dE5eaD7")) else none

/-- The validator set of one member with the given address and all power. -/
def exampleValset (ethAddress : Bytes) : Valset :=
  ⟨1, [⟨maxUint32, ethAddress⟩], 5, some 0, zeroAddress⟩

/-- **A forged quorum.** The zero address is registered; the validator set built from it accepts a
signature that does not recover, and no quorum is genuine. -/
theorem forged_quorum_of_zeroAddress : ∃ keys outputs,
    run (delegateStep exampleSdk) DelegateKeys.empty (exampleRegistration zeroAddress) =
      some (keys, outputs) ∧
    getCurrentValset exampleSdk keys DenomIndex.empty exampleSources =
      .ok (exampleValset zeroAddress) ∧
    checkValidatorSignatures exampleEvm (exampleValset zeroAddress).validators
      (exampleValset zeroAddress).powers [1] [[]] [[]] (List.replicate 32 0) 2863311530 = .ok () ∧
    ¬ GenuineQuorum exampleEvm (exampleValset zeroAddress) [1] [[]] [[]] (List.replicate 32 0)
      2863311530 := by
  have built : (run (delegateStep exampleSdk) DelegateKeys.empty
      (exampleRegistration zeroAddress)).map (fun result =>
        getCurrentValset exampleSdk result.1 DenomIndex.empty exampleSources) =
      some (.ok (exampleValset zeroAddress)) := by decide +kernel
  obtain ⟨⟨keys, outputs⟩, runs, valset⟩ := Option.map_eq_some_iff.mp built
  refine ⟨keys, outputs, runs, valset, by decide +kernel, ?_⟩
  rintro ⟨counted, _, recovers, _, enough⟩
  have empty : counted = [] := by
    refine List.eq_nil_iff_forall_not_mem.mpr fun i member => ?_
    obtain ⟨signer, vᵢ, rᵢ, sᵢ, _, vIs, _, _, _, recovered⟩ := recovers i member
    have one : vᵢ = 1 := by
      cases i with
      | zero => exact (Option.some.inj vIs).symm
      | succ j => simp at vIs
    rw [one] at recovered
    cases recovered
  rw [empty] at enough
  exact absurd enough (by decide)

theorem no_forged_quorum_registered : ∃ keys outputs,
    run (delegateStep exampleSdk) DelegateKeys.empty
      (exampleRegistration (ascii "0xd041c41EA1bf0F006ADBb6d2c9ef9D425dE5eaD7")) =
        some (keys, outputs) ∧
    GenuineQuorum exampleEvm (exampleValset (ascii "0xd041c41EA1bf0F006ADBb6d2c9ef9D425dE5eaD7"))
      [27] [[]] [[]] (List.replicate 32 0) 2863311530 := by
  have built : (run (delegateStep exampleSdk) DelegateKeys.empty
      (exampleRegistration (ascii "0xd041c41EA1bf0F006ADBb6d2c9ef9D425dE5eaD7"))).map (fun result =>
        getCurrentValset exampleSdk result.1 DenomIndex.empty exampleSources) =
      some (.ok (exampleValset (ascii "0xd041c41EA1bf0F006ADBb6d2c9ef9D425dE5eaD7"))) := by
    decide +kernel
  obtain ⟨⟨keys, outputs⟩, runs, valset⟩ := Option.map_eq_some_iff.mp built
  have nonzero : ∀ input ∈ exampleRegistration
      (ascii "0xd041c41EA1bf0F006ADBb6d2c9ef9D425dE5eaD7"),
      hexToAddress input.2.ethAddress ≠ 0 := by
    intro input member
    rw [List.mem_singleton.mp member]
    decide +kernel
  exact ⟨keys, outputs, runs, no_forged_quorum runs nonzero valset [27] [[]] [[]]
    (List.replicate 32 0) 2863311530 (by decide +kernel)⟩

end NabBridge
