/-
**Evidence after a restart.**

An import records the checkpoints of the imported logic calls, and of nothing else: validator sets and
batches go through store functions that leave the archive alone. So after a restart whoever signed a
restored validator set or batch, as every validator must, can be slashed for it.

* `Sound`: what every reachable state keeps that an import relies on;
* `evidence_after_restart_iff`: for which objects and signatures evidence is refused after a restart.
-/

import NabBridge.Proof.Archive
import NabBridge.Proof.Digests

namespace NabBridge

/-- An object of the state. -/
def KeeperState.Present {β : Type} (keeper : KeeperState β) : EthereumSigned → Prop
  | .valset value => ∃ key, keeper.chain.valsets.valsets.get key = some value
  | .batch value => ∃ key, keeper.chain.app.outgoing.batches.get key = some value
  | .logicCall value => ∃ key, keeper.logicCalls.get key = some value

/-- The signature is one of the record by a validator that is registered for the signing address, known
to the staking module, and has a consensus address. -/
def EthereumSigned.SignedByValidator (geth : Geth) (gravityID : Bytes) (keys : DelegateKeys)
    (env : EvidenceEnv) (record : EthereumSigned) (signature : Bytes) : Prop :=
  ∃ checkpoint address validator staking consAddress,
    record.getCheckpoint geth gravityID = .ok checkpoint ∧
    SignedBy geth checkpoint signature address ∧
    keys.validatorByEthAddress.get (getValidatorByEthAddressKey (geth.hex address)) =
      some validator ∧
    env.getValidator validator = some staking ∧ staking.consAddress = some consAddress

/-! ### What reachable states keep -/

/-- The gravity id fits, and the checkpoint of a stored validator set can be computed. -/
structure Sound {β τ : Type} (node : Node β τ) : Prop where
  gravityId : node.keeper.params.gravityId.length ≤ 32
  valsets : ∀ key valset, node.keeper.chain.valsets.valsets.get key = some valset →
    (EthereumSigned.valset valset).Checkpointable

section Runs

variable {β τ : Type} {sdk : Sdk} {bank : BankKeeper β} {geth : Geth} {evm : Evm}
  {others : Contracts τ}

/-- A stored validator set was stored before, or was stored under its nonce with its checkpoint, or was
imported under its nonce. -/
theorem NodeEffect.valset_source {input : NodeInput β τ} {before after : KeeperState β}
    {outputs : List NodeOutput} (effect : NodeEffect sdk geth input before outputs after)
    {key : StoreKey} {valset : Valset} (found : after.chain.valsets.valsets.get key = some valset) :
    before.chain.valsets.valsets.get key = some valset ∨
      key = getValsetKey valset.nonce ∧
        ((∃ checkpoint, valset.getCheckpoint geth before.params.gravityId = .ok checkpoint) ∨
          ∃ key', before.chain.valsets.valsets.get key' = some valset) := by
  cases effect with
  | bridge made effect calls keys params reported =>
      cases effect with
      | quiet outgoing valsets silent => exact Or.inl (valsets.valsets key valset found)
      | sent tx outgoing valsets reported => exact Or.inl (valsets ▸ found)
      | batchStored batch outgoing valsets reported => exact Or.inl (valsets ▸ found)
      | valsetStored made shuffled stored earlier outgoing recorded stores valsets silent reported =>
          have inside := valsets.valsets key valset found
          rw [stores.store] at inside
          rcases Store.of_get_set inside with ⟨here, rfl⟩ | old
          · exact Or.inr ⟨here, Or.inl ⟨_, stores.checkpoint⟩⟩
          · exact Or.inl old
  | logicCallStored call checkpoint computed outgoing valsets calls keys params reported =>
      exact Or.inl (valsets ▸ found)
  | registered text validator orchestrator ethAddress parsed unset state silent =>
      subst state
      exact Or.inl found
  | setParams params set valid state silent =>
      subst state
      exact Or.inl found
  | restarted valsetReward attestations delegateKeys restart effect silent =>
      rw [effect.valsets] at found
      rcases (genesisValsets_spec _ _).2 key valset found with absent | ⟨member, keyIs⟩
      · cases absent
      · have stored := (ValsetStore.getValsets_perm _).mem_iff.mp member
        exact Or.inr ⟨keyIs, Or.inr ((Store.mem_values_iff _ valset).mp stored)⟩
  | aside chain calls keys params silent => exact Or.inl (chain ▸ found)

theorem NodeEffect.gravityId_fits {input : NodeInput β τ} {before after : KeeperState β}
    {outputs : List NodeOutput} (effect : NodeEffect sdk geth input before outputs after)
    (here : before.params.gravityId.length ≤ 32) : after.params.gravityId.length ≤ 32 := by
  cases effect with
  | bridge made effect calls keys params reported => rw [params]; exact here
  | logicCallStored call checkpoint computed outgoing valsets calls keys params reported =>
      rw [params]; exact here
  | registered text validator orchestrator ethAddress parsed unset state silent =>
      subst state
      exact here
  | setParams params set valid state silent =>
      subst state
      exact valid
  | restarted valsetReward attestations delegateKeys restart effect silent =>
      rw [effect.params]; exact here
  | aside chain calls keys params silent => rw [params]; exact here

theorem Sound.step (packs : geth.PacksAbi) {node next : Node β τ} {input : NodeInput β τ}
    {outputs : List NodeOutput} (sound : Sound node)
    (step : nodeStep sdk bank geth evm others node input = some (next, outputs)) : Sound next := by
  have effect := nodeStep_effect step
  refine ⟨effect.gravityId_fits sound.gravityId, fun key valset found => ?_⟩
  rcases effect.valset_source found with earlier | ⟨_, ⟨checkpoint, computed⟩ | ⟨key', earlier⟩⟩
  · exact sound.valsets key valset earlier
  · have own : (EthereumSigned.valset valset).getCheckpoint geth node.keeper.params.gravityId =
        .ok checkpoint := computed
    exact ((EthereumSigned.getCheckpoint_eq_ok_iff packs).mp own).2.1
  · exact sound.valsets key' valset earlier

theorem Sound.checkpointable {node : Node β τ} (sound : Sound node) {record : EthereumSigned}
    (present : node.keeper.Present record) : record.Checkpointable := by
  cases record with
  | valset value =>
      obtain ⟨key, found⟩ := present
      exact sound.valsets key value found
  | batch value => trivial
  | logicCall value => trivial

end Runs

/-- A logic call. -/
def EthereumSigned.IsLogicCall : EthereumSigned → Prop
  | .logicCall _ => True
  | _ => False

instance (record : EthereumSigned) : Decidable record.IsLogicCall := by
  rcases record <;> unfold EthereumSigned.IsLogicCall <;> infer_instance

/-! ### Evidence after a restart -/

section Restart

variable {β τ : Type} {sdk : Sdk} {bank : BankKeeper β} {geth : Geth} {evm : Evm}
  {others : Contracts τ}

/-- **After a restart only logic calls are archived.** -/
theorem Restarted.archived_iff (packs : geth.PacksAbi)
    (collisionFree : Function.Injective geth.keccak256) {before after : KeeperState β}
    (restarted : Restarted sdk geth before after) {record : EthereumSigned}
    (present : before.Present record) {checkpoint : Bytes}
    (computed : record.getCheckpoint geth before.params.gravityId = .ok checkpoint) :
    after.chain.app.outgoing.getPastEthSignatureCheckpoint checkpoint = true ↔
      record.IsLogicCall := by
  rw [restarted.archive]
  constructor
  · rintro ⟨call, _, recorded⟩
    have other : (EthereumSigned.logicCall call).getCheckpoint geth before.params.gravityId =
        .ok checkpoint := recorded
    obtain ⟨_, _, hashed⟩ := (EthereumSigned.getCheckpoint_eq_ok_iff packs).mp computed
    obtain ⟨_, _, hashed'⟩ := (EthereumSigned.getCheckpoint_eq_ok_iff packs).mp other
    -- the names of the kinds are part of what is hashed
    have kinds := (SignedObject.encoding_prefix (length_rightPad _ _) (length_rightPad _ _)
      (collisionFree (hashed.symm.trans hashed'))).2
    cases record with
    | valset value => exact absurd kinds (show methodName "checkpoint" ≠ methodName "logicCall" by decide)
    | batch value =>
        exact absurd kinds (show methodName "transactionBatch" ≠ methodName "logicCall" by decide)
    | logicCall value => trivial
  · intro logicCall
    cases record with
    | valset value => exact logicCall.elim
    | batch value => exact logicCall.elim
    | logicCall value => exact ⟨value, (Store.mem_values_iff _ value).mpr present, computed⟩

/-- **Evidence soundness across a restart, exactly.** For every reachable state that is exported and
imported again, every object of it and every signature: the evidence returns an error exactly when the
object is a logic call, or the text of the signature has two symbols at least and is not a signature of
the object by a registered validator. -/
theorem evidence_after_restart_iff (packs : geth.PacksAbi)
    (collisionFree : Function.Injective geth.keccak256) (params : Params)
    (fits : params.gravityId.length ≤ 32) (balances : β) (eth : Ethereum τ)
    (inputs : List (NodeInput β τ)) (node : Node β τ) (outputs : List NodeOutput)
    (runs : run (nodeStep sdk bank geth evm others) ⟨KeeperState.fresh params balances, eth, false⟩
      inputs = some (node, outputs))
    (valsetReward : Coin) (attestations : List Attestation)
    (delegateKeys : List MsgSetOrchestratorAddress) (after : KeeperState β)
    (restarts : node.restart sdk geth valsetReward attestations delegateKeys = some after)
    (record : EthereumSigned) (present : node.keeper.Present record) (env : EvidenceEnv)
    (signature : Bytes) :
    (∃ reason, checkBadSignatureEvidence geth after.params.gravityId after.keys env
        after.chain.app.outgoing record signature = .error reason) ↔
      record.IsLogicCall ∨ 2 ≤ signature.length ∧
        ¬ record.SignedByValidator geth after.params.gravityId after.keys env signature := by
  have sound : Sound node := run_invariant (fun _ => True) (fun _ node => Sound node)
    (fun _ _ _ _ _ _ holds step => holds.step packs step) (fun _ _ => trivial)
    ⟨fits, fun _ _ found => by cases found⟩ runs
  have restarted := Node.restart_eq_some restarts
  obtain ⟨checkpoint, computed⟩ : ∃ checkpoint,
      record.getCheckpoint geth node.keeper.params.gravityId = .ok checkpoint :=
    ⟨_, (EthereumSigned.getCheckpoint_eq_ok_iff packs).mpr
      ⟨sound.gravityId, sound.checkpointable present, rfl⟩⟩
  have archived := restarted.archived_iff packs collisionFree present computed
  rw [restarted.params]
  by_cases logicCall : record.IsLogicCall
  · rw [checkBadSignatureEvidence_of_archived computed (archived.mpr logicCall)]
    exact ⟨fun _ => Or.inl logicCall, fun _ => ⟨_, rfl⟩⟩
  · have unknown : after.chain.app.outgoing.getPastEthSignatureCheckpoint checkpoint = false :=
      Bool.eq_false_of_not_eq_true fun found => logicCall (archived.mp found)
    rw [checkBadSignatureEvidence_of_not_archived computed unknown, punishSigner_eq_error_iff,
      or_iff_right logicCall]
    refine and_congr_right fun _ => ?_
    constructor
    · rintro unpunished ⟨checkpoint', address, validator, staking, consAddress, computed', signed,
        indexed, known, consensus⟩
      obtain rfl := Outcome.ok.inj (computed'.symm.trans computed)
      exact unpunished _ (punishSigner_eq_ok_iff.mpr
        ⟨address, validator, staking, consAddress, signed, indexed, known, consensus, rfl⟩)
    · intro unsigned punishment punished
      obtain ⟨address, validator, staking, consAddress, signed, indexed, known, consensus, _⟩ :=
        punishSigner_eq_ok_iff.mp punished
      exact unsigned ⟨checkpoint, address, validator, staking, consAddress, computed, signed, indexed,
        known, consensus⟩

end Restart

/-! ### A run -/

/-- The registration of the one validator, as it is exported. -/
def exampleDelegateKeys : List MsgSetOrchestratorAddress :=
  [⟨ascii "cosmosvaloper1qyqszqgpqyqszqgpqyqszqgpqyqszqgph84tp0",
    ascii "cosmos1qyqszqgpqyqszqgpqyqszqgpqyqszqgpjnp7du", hexOfAddress 1⟩]

/-- A validator set is made, a transfer is batched and a logic call comes; then the chain is exported
and imported again. -/
def exampleRestart : Option ((Node Ledger Unit × List NodeOutput) × KeeperState Ledger) :=
  (run exampleNodeStep exampleNode (exampleNodeInputs.take 5)).bind fun result =>
    (result.1.restart exampleSdk exampleGeth ⟨[], 0⟩ [] exampleDelegateKeys).map fun after =>
      (result, after)

/-- What the signature of the validator comes to after a restart. -/
def exampleRestartEvidence (after : KeeperState Ledger) (record : EthereumSigned) :
    Outcome EvidenceError EvidencePanic Punishment :=
  checkBadSignatureEvidence exampleGeth after.params.gravityId after.keys exampleEvidenceEnv
    after.chain.app.outgoing record exampleSignature

theorem exampleRestart_eq {result : (Node Ledger Unit × List NodeOutput) × KeeperState Ledger}
    (restarted : exampleRestart = some result) :
    run exampleNodeStep exampleNode (exampleNodeInputs.take 5) = some result.1 ∧
      result.1.1.restart exampleSdk exampleGeth ⟨[], 0⟩ [] exampleDelegateKeys =
        some result.2 := by
  obtain ⟨reached, runs, restarted⟩ := Option.bind_eq_some_iff.mp restarted
  obtain ⟨after, restarts, rfl⟩ := Option.map_eq_some_iff.mp restarted
  exact ⟨runs, restarts⟩

/-- The restored logic call is safe to have signed. -/
theorem evidence_after_restart_logicCall : ∃ node outputs after,
    run exampleNodeStep exampleNode (exampleNodeInputs.take 5) = some (node, outputs) ∧
    node.restart exampleSdk exampleGeth ⟨[], 0⟩ [] exampleDelegateKeys = some after ∧
    node.keeper.logicCalls.values = [exampleLogicCall] ∧
    ∃ reason, exampleRestartEvidence after (.logicCall exampleLogicCall) = .error reason := by
  have evaluated : exampleRestart.any (fun result =>
      result.1.1.keeper.logicCalls.values = [exampleLogicCall]) = true := by
    decide +kernel
  obtain ⟨⟨⟨node, outputs⟩, after⟩, restarted, calls⟩ := (Option.any_eq_true _ _).mp evaluated
  have calls : node.keeper.logicCalls.values = [exampleLogicCall] := of_decide_eq_true calls
  obtain ⟨runs, restarts⟩ := exampleRestart_eq restarted
  refine ⟨node, outputs, after, runs, restarts, calls, ?_⟩
  refine (evidence_after_restart_iff exampleGeth_packsAbi Function.injective_id
    exampleParams (by decide) exampleLedger exampleEthereum (exampleNodeInputs.take 5) node outputs runs
    ⟨[], 0⟩ [] exampleDelegateKeys after restarts (.logicCall exampleLogicCall) ?_ exampleEvidenceEnv
    exampleSignature).mpr (Or.inl trivial)
  refine (Store.mem_values_iff _ _).mp ?_
  rw [calls]
  exact List.mem_singleton_self _

/-- **The restored batch is not**: the validator that signed it is slashed and jailed. -/
theorem evidence_after_restart_batch : ∃ node outputs after batch,
    run exampleNodeStep exampleNode (exampleNodeInputs.take 5) = some (node, outputs) ∧
    node.restart exampleSdk exampleGeth ⟨[], 0⟩ [] exampleDelegateKeys = some after ∧
    node.keeper.Present (.batch batch) ∧
    exampleRestartEvidence after (.batch batch) =
      .ok (exampleEvidenceEnv.punishment (List.replicate 20 1) exampleStaking [9]) := by
  have evaluated : exampleRestart.any (fun result =>
      result.1.1.keeper.chain.app.outgoing.batches.values.any fun batch =>
        exampleRestartEvidence result.2 (.batch batch) =
          .ok (exampleEvidenceEnv.punishment (List.replicate 20 1) exampleStaking [9])) = true := by
    decide +kernel
  obtain ⟨⟨⟨node, outputs⟩, after⟩, restarted, found⟩ := (Option.any_eq_true _ _).mp evaluated
  obtain ⟨batch, member, punished⟩ := List.any_eq_true.mp found
  obtain ⟨runs, restarts⟩ := exampleRestart_eq restarted
  exact ⟨node, outputs, after, batch, runs, restarts, (Store.mem_values_iff _ _).mp member,
    of_decide_eq_true punished⟩

end NabBridge
