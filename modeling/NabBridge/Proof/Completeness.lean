/-
**Evidence against objects that were never stored.**

A signature of something the module never produced should cost its signer. What evidence is checked
against is Go's checkpoint, and what was signed for the contract is the contract's digest; the two are
one hash exactly below `2 ^ 63` (`EthereumSigned.packed_eq_object_iff`). Above it the same signature,
read against the other hash, recovers to somebody else. And the validator is found through the index of
Ethereum addresses, which leads to one validator only, whoever else registered the address.

* `Provenance`: along every run, restarts included, whatever is archived is the checkpoint of an object
  that was stored, and the index finds only validators that have the address;
* `evidence_completeness_iff`: exactly when the signer is punished.
-/

import NabBridge.Proof.Archive
import NabBridge.Proof.Digests

namespace NabBridge

/-- What is assumed of go-ethereum and the EVM: the packer follows the ABI, both have one hash, without
collisions, a signature recovers to one address for one digest at most, and a spelled address is read
back. -/
structure IdealSignatures (geth : Geth) (evm : Evm) : Prop where
  packs : geth.PacksAbi
  keccak256 : geth.keccak256 = evm.keccak256
  collisionFree : Function.Injective geth.keccak256
  recovery : ∀ digest digest' signature address, geth.sigToPub digest signature = some address →
    geth.sigToPub digest' signature = some address → digest = digest'
  hex : ∀ address, hexToAddress (geth.hex address) = address

/-! ### Where archived checkpoints come from -/

/-- Archived checkpoints and pending logic calls come from objects that were stored, and the index of
addresses is right about whom it finds. -/
structure Provenance {β τ : Type} (sdk : Sdk) (geth : Geth) (trace : List NodeOutput)
    (node : Node β τ) : Prop where
  keys : node.keeper.keys.Consistent sdk
  archive : ∀ checkpoint,
    node.keeper.chain.app.outgoing.getPastEthSignatureCheckpoint checkpoint = true →
      ∃ object ∈ storedObjects trace, ∃ gravityID, object.getCheckpoint geth gravityID = .ok checkpoint
  calls : ∀ key call, node.keeper.logicCalls.get key = some call →
    EthereumSigned.logicCall call ∈ storedObjects trace

section Runs

variable {β τ : Type} {sdk : Sdk} {bank : BankKeeper β} {geth : Geth} {evm : Evm}
  {others : Contracts τ}

theorem provenance_fresh (params : Params) (balances : β) (eth : Ethereum τ) :
    Provenance sdk geth [] (⟨KeeperState.fresh params balances, eth, false⟩ : Node β τ) where
  keys := DelegateKeys.consistent_empty sdk
  archive _ found := by cases found
  calls _ _ found := by cases found

/-- The keys after a step. -/
theorem NodeEffect.keys_consistent (readsBack : sdk.ReadsBack) {input : NodeInput β τ}
    {before after : KeeperState β} {outputs : List NodeOutput}
    (effect : NodeEffect sdk geth input before outputs after) (here : before.keys.Consistent sdk) :
    after.keys.Consistent sdk := by
  cases effect with
  | bridge made effect calls keys params reported => exact keys ▸ here
  | logicCallStored call checkpoint computed outgoing valsets calls keys params reported =>
      exact keys ▸ here
  | registered text validator orchestrator ethAddress parsed unset state silent =>
      subst state
      exact here.register parsed unset orchestrator ethAddress
  | setParams params set valid state silent =>
      subst state
      exact here
  | restarted valsetReward attestations delegateKeys restart effect silent =>
      exact effect.keys readsBack here
  | aside chain calls keys params silent => exact keys ▸ here

/-- The logic calls after a step: an earlier one, or the one that was stored. -/
theorem NodeEffect.calls_stored {input : NodeInput β τ} {before after : KeeperState β}
    {outputs : List NodeOutput} (effect : NodeEffect sdk geth input before outputs after)
    {key : StoreKey} {call : OutgoingLogicCall} (found : after.logicCalls.get key = some call) :
    (∃ key', before.logicCalls.get key' = some call) ∨
      EthereumSigned.logicCall call ∈ storedObjects outputs := by
  cases effect with
  | bridge made effect calls keys params reported => exact Or.inl ⟨key, calls key call found⟩
  | logicCallStored stored checkpoint computed outgoing valsets calls keys params reported =>
      rw [calls] at found
      rcases Store.of_get_set found with ⟨_, rfl⟩ | earlier
      · subst reported
        exact Or.inr (List.mem_singleton_self _)
      · exact Or.inl ⟨key, earlier⟩
  | registered text validator orchestrator ethAddress parsed unset state silent =>
      subst state
      exact Or.inl ⟨key, found⟩
  | setParams params set valid state silent =>
      subst state
      exact Or.inl ⟨key, found⟩
  | restarted valsetReward attestations delegateKeys restart effect silent =>
      exact Or.inl (effect.calls key call found)
  | aside chain calls keys params silent => exact Or.inl ⟨key, calls key call found⟩

/-- The archive after a step: an earlier checkpoint, one of an object that was stored now, or after a
restart one of a pending logic call. -/
theorem NodeEffect.archive_source {input : NodeInput β τ} {before after : KeeperState β}
    {outputs : List NodeOutput} (effect : NodeEffect sdk geth input before outputs after)
    {checkpoint : Bytes}
    (found : after.chain.app.outgoing.getPastEthSignatureCheckpoint checkpoint = true) :
    before.chain.app.outgoing.getPastEthSignatureCheckpoint checkpoint = true ∨
      HasCheckpoint geth before.params.gravityId (storedObjects outputs) checkpoint ∨
      ∃ key call, before.logicCalls.get key = some call ∧
        (EthereumSigned.logicCall call).getCheckpoint geth before.params.gravityId =
          .ok checkpoint := by
  rcases effect.archive with records | ⟨restarted, _⟩
  · rcases (records.archive checkpoint).mp found with earlier | now
    · exact Or.inl earlier
    · exact Or.inr (Or.inl now)
  · obtain ⟨call, member, computed⟩ := (restarted.archive checkpoint).mp found
    obtain ⟨key, stored⟩ := (Store.mem_values_iff _ call).mp member
    exact Or.inr (Or.inr ⟨key, call, stored, computed⟩)

/-- **One step keeps the sources of the archive.** -/
theorem Provenance.step (readsBack : sdk.ReadsBack) {past : List NodeOutput} {node next : Node β τ}
    {input : NodeInput β τ} {outputs : List NodeOutput} (invariant : Provenance sdk geth past node)
    (step : nodeStep sdk bank geth evm others node input = some (next, outputs)) :
    Provenance sdk geth (past ++ outputs) next := by
  have effect := nodeStep_effect step
  refine ⟨effect.keys_consistent readsBack invariant.keys, fun checkpoint found => ?_,
    fun key call found => ?_⟩
  · rw [storedObjects_append]
    rcases effect.archive_source found with earlier | ⟨object, member, computed⟩ |
        ⟨key, call, pending, computed⟩
    · obtain ⟨object, member, gravityID, computed⟩ := invariant.archive checkpoint earlier
      exact ⟨object, List.mem_append_left _ member, gravityID, computed⟩
    · exact ⟨object, List.mem_append_right _ member, _, computed⟩
    · exact ⟨_, List.mem_append_left _ (invariant.calls key call pending), _, computed⟩
  · rw [storedObjects_append]
    rcases effect.calls_stored found with ⟨key', earlier⟩ | now
    · exact List.mem_append_left _ (invariant.calls key' call earlier)
    · exact List.mem_append_right _ now

end Runs

/-! ### Digests and signers -/

namespace IdealSignatures

variable {geth : Geth} {evm : Evm} (ideal : IdealSignatures geth evm)

include ideal

/-- Go's checkpoint is the contract's hash of the packed fields. -/
theorem getCheckpoint_eq_ok_iff {gravityID checkpoint : Bytes} {record : EthereumSigned} :
    record.getCheckpoint geth gravityID = .ok checkpoint ↔
      gravityID.length ≤ 32 ∧ record.Checkpointable ∧
        checkpoint = record.packed.hash evm (rightPad 32 gravityID) := by
  rw [EthereumSigned.getCheckpoint_eq_ok_iff ideal.packs, SignedObject.hash_eq, ideal.keccak256]

/-- **A hash determines the bridge and the object.** -/
theorem hash_determines {gravityID gravityID' : Bytes} {first second : SignedObject}
    (range : first.InRange) (range' : second.InRange)
    (equal : first.hash evm (rightPad 32 gravityID) = second.hash evm (rightPad 32 gravityID')) :
    rightPad 32 gravityID = rightPad 32 gravityID' ∧ first = second := by
  rw [SignedObject.hash_eq, SignedObject.hash_eq, ← ideal.keccak256] at equal
  exact SignedObject.encoding_determines (length_rightPad _ _) (length_rightPad _ _) range range'
    (ideal.collisionFree equal)

/-- **A signature by an address is over one checkpoint.** -/
theorem signedBy_unique {checkpoint checkpoint' signature : Bytes} {address : EthAddress}
    (signed : SignedBy geth checkpoint signature address)
    (signed' : SignedBy geth checkpoint' signature address) : checkpoint = checkpoint' := by
  obtain ⟨_, sigBytes, decoded, _, recovered⟩ := signed
  obtain ⟨_, sigBytes', decoded', _, recovered'⟩ := signed'
  obtain rfl := Option.some.inj (decoded.symm.trans decoded')
  have digests := ideal.recovery _ _ _ _ recovered recovered'
  exact List.append_cancel_left (ideal.collisionFree digests)

theorem hex_injective : Function.Injective geth.hex := fun first second same => by
  rw [← ideal.hex first, same, ideal.hex second]

end IdealSignatures

section Completeness

variable {β τ : Type} {sdk : Sdk} {bank : BankKeeper β} {geth : Geth} {evm : Evm}
  {others : Contracts τ}

/-- **Evidence completeness, exactly.** After any run from a fresh start, restarts included, take any
record that the module never stored an object with the contract's digest of, a validator registered
under the canonical spelling of an address, and a signature of that digest by the address. The evidence
has the validator slashed and jailed exactly when every signed `uint64` of the record is below `2 ^ 63`
and the index of addresses leads to this validator. -/
theorem evidence_completeness_iff (ideal : IdealSignatures geth evm) (readsBack : sdk.ReadsBack)
    (params : Params) (balances : β) (eth : Ethereum τ) (inputs : List (NodeInput β τ))
    (node : Node β τ) (outputs : List NodeOutput)
    (runs : run (nodeStep sdk bank geth evm others) ⟨KeeperState.fresh params balances, eth, false⟩
      inputs = some (node, outputs))
    (typed : ∀ object ∈ storedObjects outputs, object.Typed)
    (short : node.keeper.params.gravityId.length ≤ 32)
    (record : EthereumSigned) (recordTyped : record.Typed) (valid : record.Checkpointable)
    (never : ∀ object ∈ storedObjects outputs,
      object.object.hash evm (rightPad 32 node.keeper.params.gravityId) ≠
        record.object.hash evm (rightPad 32 node.keeper.params.gravityId))
    (validator : ValAddress) (address : EthAddress)
    (registered : node.keeper.keys.getEthAddressByValidator validator = some (geth.hex address))
    (env : EvidenceEnv) (staking : StakingValidator) (consAddress : Bytes)
    (known : env.getValidator validator = some staking)
    (consensus : staking.consAddress = some consAddress) (signature : Bytes)
    (signed : SignedBy geth (record.object.hash evm (rightPad 32 node.keeper.params.gravityId))
      signature address) :
    checkBadSignatureEvidence geth node.keeper.params.gravityId node.keeper.keys env
        node.keeper.chain.app.outgoing record signature =
          .ok (env.punishment validator staking consAddress) ↔
      (∀ counter ∈ record.counters, counter < 2 ^ 63) ∧
        node.keeper.keys.validatorByEthAddress.get
          (getValidatorByEthAddressKey (geth.hex address)) = some validator := by
  have invariant := run_invariant (fun _ => True) (Provenance sdk geth)
    (fun _ _ _ _ _ _ holds step => holds.step readsBack step) (fun _ _ => trivial)
    (provenance_fresh params balances eth) runs
  have computed : record.getCheckpoint geth node.keeper.params.gravityId =
      .ok (record.packed.hash evm (rightPad 32 node.keeper.params.gravityId)) :=
    ideal.getCheckpoint_eq_ok_iff.mpr ⟨short, valid, rfl⟩
  rw [checkBadSignatureEvidence_eq_ok_iff computed, punishSigner_eq_ok_iff]
  constructor
  · rintro ⟨_, address', validator', staking', consAddress', signed', indexed, _, _, same⟩
    obtain rfl : validator = validator' := congrArg Punishment.validator same
    -- the index only finds validators that have the address, so the recovered address is the signer's
    have spelled := invariant.keys.inverse _ _ indexed
    rw [registered] at spelled
    obtain rfl := ideal.hex_injective (Option.some.inj spelled)
    refine ⟨?_, indexed⟩
    rw [← EthereumSigned.packed_eq_object_iff recordTyped]
    exact (ideal.hash_determines (EthereumSigned.inRange_packed recordTyped)
      (EthereumSigned.inRange_object recordTyped) (ideal.signedBy_unique signed' signed)).2
  · rintro ⟨small, indexed⟩
    have same := (EthereumSigned.packed_eq_object_iff recordTyped).mpr small
    refine ⟨?_, address, validator, staking, consAddress, same ▸ signed, indexed, known, consensus,
      rfl⟩
    by_contra archived
    obtain ⟨object, member, gravityID, archivedAs⟩ :=
      invariant.archive _ (Bool.eq_true_of_not_eq_false archived)
    obtain ⟨_, _, equal⟩ := ideal.getCheckpoint_eq_ok_iff.mp archivedAs
    obtain ⟨_, packed⟩ := ideal.hash_determines (EthereumSigned.inRange_packed recordTyped)
      (EthereumSigned.inRange_packed (typed object member)) equal
    refine never object member ?_
    rw [EthereumSigned.object_of_packed (typed object member) small packed.symm]

end Completeness

/-! ### Two forged batches -/

/-- A batch without transfers, which the module does not make. -/
def exampleForged (nonce : Nat) : EthereumSigned := .batch ⟨nonce, 900, [], exampleContract, 6⟩

/-- The digest of a record in the contract of `exampleNode`. -/
def exampleDigest (record : EthereumSigned) : Bytes :=
  record.object.hash exampleEvm (rightPad 32 exampleParams.gravityId)

/-- `exampleGeth`, where nobody has signed anything but the record. -/
def exampleSigned (record : EthereumSigned) : Geth where
  keccak256 := exampleGeth.keccak256
  pack := exampleGeth.pack
  sigToPub digest signature :=
    if digest = exampleGeth.keccak256 (signaturePrefix ++ exampleDigest record) then
      exampleGeth.sigToPub digest signature
    else none
  hex := exampleGeth.hex

theorem exampleSigned_ideal (record : EthereumSigned) :
    IdealSignatures (exampleSigned record) exampleEvm where
  packs _ _ := ⟨[0, 0, 0, 0], rfl, rfl⟩
  keccak256 := rfl
  collisionFree := Function.injective_id
  recovery digest digest' signature address recovered recovered' := by
    simp only [exampleSigned] at recovered recovered'
    split_ifs at recovered recovered' with here there
    rw [here, there]
  hex := hexToAddress_hexOfAddress

/-- What is left to check of `evidence_completeness_iff` for a forged batch, after `exampleNodeInputs`.
-/
def ForgedSetting (record : EthereumSigned) (result : Node Ledger Unit × List NodeOutput) : Prop :=
  (storedObjects result.2).length = 3 ∧ (∀ object ∈ storedObjects result.2, object.Typed) ∧
    result.1.keeper.params.gravityId = exampleParams.gravityId ∧
    (∀ object ∈ storedObjects result.2, exampleDigest object ≠ exampleDigest record) ∧
    result.1.keeper.keys.getEthAddressByValidator (List.replicate 20 1) = some (hexOfAddress 1) ∧
    result.1.keeper.keys.validatorByEthAddress.get
      (getValidatorByEthAddressKey (hexOfAddress 1)) = some (List.replicate 20 1)

instance (record : EthereumSigned) (result : Node Ledger Unit × List NodeOutput) :
    Decidable (ForgedSetting record result) := by
  unfold ForgedSetting; infer_instance

/-- The run of `exampleNodeInputs`, where only the record was signed by hand. -/
def exampleForgedRun (record : EthereumSigned) : Option (Node Ledger Unit × List NodeOutput) :=
  run (nodeStep exampleSdk (ledgerBank exampleModuleAccount) (exampleSigned record) exampleEvm
    exampleContracts) exampleNode exampleNodeInputs

theorem exampleForgedRun_small : (exampleForgedRun (exampleForged 7)).any
    (fun result => ForgedSetting (exampleForged 7) result) = true := by
  decide +kernel

theorem exampleForged_signed (record : EthereumSigned) :
    SignedBy (exampleSigned record) (exampleDigest record) exampleSignature 1 :=
  ⟨by decide +kernel, List.replicate 63 0 ++ [1, 27], by decide +kernel, by decide +kernel,
    (if_pos rfl).trans (show exampleGeth.sigToPub [] _ = some 1 by decide +kernel)⟩

/-- The forged batch number seven costs its signer. -/
theorem evidence_completeness_seven : ∃ node outputs,
    exampleForgedRun (exampleForged 7) = some (node, outputs) ∧
    checkBadSignatureEvidence (exampleSigned (exampleForged 7)) node.keeper.params.gravityId
      node.keeper.keys exampleEvidenceEnv node.keeper.chain.app.outgoing (exampleForged 7)
      exampleSignature =
        .ok (exampleEvidenceEnv.punishment (List.replicate 20 1) exampleStaking [9]) := by
  obtain ⟨⟨node, outputs⟩, runs, setting⟩ := (Option.any_eq_true _ _).mp exampleForgedRun_small
  obtain ⟨_, typed, gravityId, never, registered, indexed⟩ := of_decide_eq_true setting
  refine ⟨node, outputs, runs, ?_⟩
  refine (evidence_completeness_iff (exampleSigned_ideal _) exampleSdk_readsBack exampleParams
    exampleLedger exampleEthereum exampleNodeInputs node outputs runs typed ?_ (exampleForged 7)
    (by decide) trivial ?_ (List.replicate 20 1) 1 registered exampleEvidenceEnv exampleStaking [9] rfl
    rfl exampleSignature ?_).mpr ⟨by decide, indexed⟩
  · rw [gravityId]
    decide
  · rw [gravityId]
    exact never
  · rw [gravityId]
    exact exampleForged_signed _

/-- **The forged batch number `2 ^ 63`** has the same setting and costs nobody anything: the signature
does not recover against Go's checkpoint. -/
theorem evidence_incomplete : ∃ node outputs,
    exampleForgedRun (exampleForged (2 ^ 63)) = some (node, outputs) ∧
    IdealSignatures (exampleSigned (exampleForged (2 ^ 63))) exampleEvm ∧
    ForgedSetting (exampleForged (2 ^ 63)) (node, outputs) ∧
    (exampleForged (2 ^ 63)).Typed ∧
    SignedBy (exampleSigned (exampleForged (2 ^ 63))) (exampleDigest (exampleForged (2 ^ 63)))
      exampleSignature 1 ∧
    ∀ punishment, checkBadSignatureEvidence (exampleSigned (exampleForged (2 ^ 63)))
      node.keeper.params.gravityId node.keeper.keys exampleEvidenceEnv
      node.keeper.chain.app.outgoing (exampleForged (2 ^ 63)) exampleSignature ≠ .ok punishment := by
  have evaluated : (exampleForgedRun (exampleForged (2 ^ 63))).any (fun result =>
      ForgedSetting (exampleForged (2 ^ 63)) result ∧
        (checkBadSignatureEvidence (exampleSigned (exampleForged (2 ^ 63)))
          result.1.keeper.params.gravityId result.1.keeper.keys exampleEvidenceEnv
          result.1.keeper.chain.app.outgoing (exampleForged (2 ^ 63)) exampleSignature).value? =
            none) = true := by
    decide +kernel
  obtain ⟨⟨node, outputs⟩, runs, setting⟩ := (Option.any_eq_true _ _).mp evaluated
  obtain ⟨setting, unpunished⟩ := of_decide_eq_true setting
  refine ⟨node, outputs, runs, exampleSigned_ideal _, setting, by decide, exampleForged_signed _,
    fun punishment punished => ?_⟩
  rw [punished] at unpunished
  cases unpunished

end NabBridge
