/-
**The archive of checkpoints.**

A checkpoint that is recorded protects whoever signs it from evidence. `NodeEffect.archive` says what a
step does to the archive, unless it is a restart: it records exactly the checkpoints of the objects it
stores, and removes none.

`evidence_soundness`: from a fresh start without restarts and with one gravity id, no signature of an
object that was ever stored is accepted as evidence, whatever has become of the object and whatever is
written into its unsigned fields.
-/

import NabBridge.Proof.DoubleSpend
import NabBridge.Proof.NodeEffects

namespace NabBridge

/-! ### What a step records -/

section Silent

theorem filterMap_silent {α : Type} {pick : NodeOutput → Option α}
    (issuing : ∀ output, (pick (.bridge output)).isSome → output.Issues) {outputs : List BridgeOutput}
    (silent : ∀ output ∈ outputs, ¬ output.Issues) :
    (outputs.map NodeOutput.bridge).filterMap pick = [] := by
  refine List.filterMap_eq_nil_iff.mpr fun output member => ?_
  obtain ⟨reported, inside, rfl⟩ := List.mem_map.mp member
  by_contra found
  exact silent reported inside (issuing reported (Option.isSome_iff_ne_none.mpr found))

theorem stored_issues (output : BridgeOutput) (found : (NodeOutput.bridge output).stored.isSome) :
    output.Issues := by
  cases output <;> first | exact trivial | cases found

end Silent

/-- Whether an object is among the stored ones with this checkpoint. -/
def HasCheckpoint (geth : Geth) (gravityID : Bytes) (objects : List EthereumSigned)
    (checkpoint : Bytes) : Prop :=
  ∃ object ∈ objects, object.getCheckpoint geth gravityID = .ok checkpoint

theorem hasCheckpoint_nil {geth : Geth} {gravityID checkpoint : Bytes} :
    ¬ HasCheckpoint geth gravityID [] checkpoint := fun ⟨_, member, _⟩ =>
  absurd member List.not_mem_nil

theorem hasCheckpoint_singleton {geth : Geth} {gravityID checkpoint other : Bytes}
    {object : EthereumSigned} (computed : object.getCheckpoint geth gravityID = .ok checkpoint) :
    HasCheckpoint geth gravityID [object] other ↔ other = checkpoint := by
  constructor
  · rintro ⟨found, member, equal⟩
    obtain rfl := List.mem_singleton.mp member
    exact Outcome.ok.inj (equal.symm.trans computed)
  · rintro rfl
    exact ⟨object, List.mem_singleton_self _, computed⟩

/-- The archive after a step: what was recorded before, and the checkpoints of the stored objects. -/
structure Records (geth : Geth) (gravityID : Bytes) (before : Outgoing)
    (objects : List EthereumSigned) (after : Outgoing) : Prop where
  computed : ∀ object ∈ objects, ∃ checkpoint, object.getCheckpoint geth gravityID = .ok checkpoint
  archive : ∀ checkpoint, after.getPastEthSignatureCheckpoint checkpoint = true ↔
    before.getPastEthSignatureCheckpoint checkpoint = true ∨
      HasCheckpoint geth gravityID objects checkpoint

theorem Records.none {geth : Geth} {gravityID : Bytes} {before after : Outgoing}
    (same : after.pastEthSignatureCheckpoints = before.pastEthSignatureCheckpoints) :
    Records geth gravityID before [] after where
  computed _ member := absurd member List.not_mem_nil
  archive checkpoint := by
    rw [Outgoing.getPastEthSignatureCheckpoint_congr same checkpoint]
    exact ⟨Or.inl, fun found => found.resolve_right hasCheckpoint_nil⟩

theorem Records.one {geth : Geth} {gravityID checkpoint : Bytes} {before after : Outgoing}
    {object : EthereumSigned} (computed : object.getCheckpoint geth gravityID = .ok checkpoint)
    (same : after.pastEthSignatureCheckpoints =
      (before.setPastEthSignatureCheckpoint checkpoint).pastEthSignatureCheckpoints) :
    Records geth gravityID before [object] after where
  computed found member := ⟨checkpoint, List.mem_singleton.mp member ▸ computed⟩
  archive other := by
    rw [Outgoing.getPastEthSignatureCheckpoint_congr same other,
      Outgoing.getPastEthSignatureCheckpoint_set, hasCheckpoint_singleton computed, or_comm]

theorem BridgeEffect.records {β : Type} {geth : Geth} {gravityID : Bytes} {before after : Chain β}
    {outputs : List BridgeOutput} (effect : BridgeEffect geth gravityID before outputs after) :
    Records geth gravityID before.app.outgoing (storedObjects (outputs.map .bridge))
      after.app.outgoing := by
  cases effect with
  | quiet outgoing valsets silent =>
      rw [storedObjects, filterMap_silent stored_issues silent]
      exact .none outgoing.checkpoints
  | sent tx outgoing valsets reported =>
      subst reported
      exact .none outgoing.checkpoints
  | batchStored batch outgoing valsets reported =>
      subst reported
      obtain ⟨checkpoint, computed, archive⟩ := outgoing.checkpoint
      exact .one (show (EthereumSigned.batch batch).getCheckpoint geth gravityID = _ from computed) archive
  | valsetStored made shuffled stored earlier outgoing recorded stores valsets silent reported =>
      rw [reported, List.map_append, storedObjects_append, storedObjects,
        filterMap_silent stored_issues silent, List.nil_append]
      refine .one (show (EthereumSigned.valset made.1).getCheckpoint geth gravityID = _ from
        stores.checkpoint) ?_
      rw [recorded]
      unfold Outgoing.setPastEthSignatureCheckpoint
      rw [outgoing.checkpoints]

/-- **What a step records**, unless it is a restart. -/
theorem NodeEffect.archive {β τ : Type} {sdk : Sdk} {geth : Geth} {input : NodeInput β τ}
    {before after : KeeperState β} {outputs : List NodeOutput}
    (effect : NodeEffect sdk geth input before outputs after) :
    Records geth before.params.gravityId before.chain.app.outgoing (storedObjects outputs)
        after.chain.app.outgoing ∨
      Restarted sdk geth before after ∧ ∃ valsetReward attestations delegateKeys,
        input = .restart valsetReward attestations delegateKeys := by
  cases effect with
  | bridge made effect calls keys params reported => exact Or.inl (reported ▸ effect.records)
  | logicCallStored call checkpoint computed outgoing valsets calls keys params reported =>
      subst reported
      exact Or.inl (.one (show (EthereumSigned.logicCall call).getCheckpoint geth _ = _ from computed)
        (by rw [outgoing]))
  | registered text validator orchestrator ethAddress parsed unset state silent =>
      subst state silent
      exact Or.inl (.none rfl)
  | setParams params set valid state silent =>
      subst state silent
      exact Or.inl (.none rfl)
  | restarted valsetReward attestations delegateKeys restart effect silent =>
      exact Or.inr ⟨effect, valsetReward, attestations, delegateKeys, restart⟩
  | aside chain calls keys params silent =>
      have nothing : storedObjects outputs = [] := by
        refine List.filterMap_eq_nil_iff.mpr fun output member => ?_
        obtain ⟨punishment, rfl⟩ := silent output member
        rfl
      rw [nothing, chain]
      exact Or.inl (.none rfl)

/-! ### Fields that are not signed -/

/-- A transfer with the fields emptied that no checkpoint reads. -/
def OutgoingTransferTx.signedPart (tx : OutgoingTransferTx) : OutgoingTransferTx where
  id := 0
  sender := []
  destAddress := tx.destAddress
  erc20Token := ⟨tx.erc20Token.amount, []⟩
  erc20Fee := ⟨tx.erc20Fee.amount, []⟩

/-- An object with the fields emptied that its checkpoint does not read: the height of a validator set,
the block of a batch and of a logic call, and of a batch's transfers the id, the sender and the
contracts. -/
def EthereumSigned.signedPart : EthereumSigned → EthereumSigned
  | .valset value => .valset { value with height := 0 }
  | .batch value => .batch { value with
      block := 0
      transactions := value.transactions.map OutgoingTransferTx.signedPart }
  | .logicCall value => .logicCall { value with block := 0 }

theorem EthereumSigned.getCheckpoint_signedPart (geth : Geth) (gravityID : Bytes)
    (object : EthereumSigned) :
    object.signedPart.getCheckpoint geth gravityID = object.getCheckpoint geth gravityID := by
  cases object with
  | valset value => rfl
  | batch value =>
      show OutgoingTxBatch.getCheckpoint geth _ gravityID = value.getCheckpoint geth gravityID
      unfold OutgoingTxBatch.getCheckpoint
      simp only [List.map_map]
      rfl
  | logicCall value => rfl

/-! ### Evidence against stored objects -/

/-- The gravity id stays, and every object that was stored has its checkpoint recorded. -/
structure ArchiveInvariant {β τ : Type} (geth : Geth) (gravityID : Bytes) (trace : List NodeOutput)
    (node : Node β τ) : Prop where
  gravityId : node.keeper.params.gravityId = gravityID
  recorded : ∀ object ∈ storedObjects trace, ∃ checkpoint,
    object.getCheckpoint geth gravityID = .ok checkpoint ∧
      node.keeper.chain.app.outgoing.getPastEthSignatureCheckpoint checkpoint = true

/-- Neither a restart nor a change of the gravity id. -/
def NodeInput.Keeps {β τ : Type} (gravityID : Bytes) : NodeInput β τ → Prop
  | .restart _ _ _ => False
  | .setParams params => params.gravityId = gravityID
  | _ => True

section Soundness

variable {β τ : Type} {sdk : Sdk} {bank : BankKeeper β} {geth : Geth} {evm : Evm}
  {others : Contracts τ}

theorem NodeEffect.gravityId {gravityID : Bytes} {input : NodeInput β τ}
    {before after : KeeperState β} {outputs : List NodeOutput}
    (effect : NodeEffect sdk geth input before outputs after) (keeps : input.Keeps gravityID)
    (here : before.params.gravityId = gravityID) : after.params.gravityId = gravityID := by
  cases effect with
  | bridge made effect calls keys params reported => rw [params, here]
  | logicCallStored call checkpoint computed outgoing valsets calls keys params reported =>
      rw [params, here]
  | registered text validator orchestrator ethAddress parsed unset state silent => rw [state, here]
  | setParams params set valid state silent =>
      subst set
      rw [state]
      exact keeps
  | restarted valsetReward attestations delegateKeys restart effect silent =>
      rw [effect.params, here]
  | aside chain calls keys params silent => rw [params, here]

theorem ArchiveInvariant.step {gravityID : Bytes} {past : List NodeOutput} {node next : Node β τ}
    {input : NodeInput β τ} {outputs : List NodeOutput} (keeps : input.Keeps gravityID)
    (invariant : ArchiveInvariant geth gravityID past node)
    (step : nodeStep sdk bank geth evm others node input = some (next, outputs)) :
    ArchiveInvariant geth gravityID (past ++ outputs) next := by
  have effect := nodeStep_effect step
  have records := effect.archive.resolve_right <| by
    rintro ⟨_, valsetReward, attestations, delegateKeys, rfl⟩
    exact keeps
  rw [invariant.gravityId] at records
  refine ⟨effect.gravityId keeps invariant.gravityId, fun object member => ?_⟩
  rw [storedObjects_append] at member
  rcases List.mem_append.mp member with earlier | now
  · obtain ⟨checkpoint, computed, found⟩ := invariant.recorded object earlier
    exact ⟨checkpoint, computed, (records.archive checkpoint).mpr (Or.inl found)⟩
  · obtain ⟨checkpoint, computed⟩ := records.computed object now
    exact ⟨checkpoint, computed, (records.archive checkpoint).mpr (Or.inr ⟨object, now, computed⟩)⟩

/-- **Evidence soundness.** From a fresh start, without restarts and with one gravity id: whatever was
ever stored cannot be used as evidence at any later time, with any signature and with any values in its
unsigned fields. -/
theorem evidence_soundness (params : Params) (balances : β) (eth : Ethereum τ)
    (inputs : List (NodeInput β τ)) (node : Node β τ) (outputs : List NodeOutput)
    (runs : run (nodeStep sdk bank geth evm others) ⟨KeeperState.fresh params balances, eth, false⟩
      inputs = some (node, outputs))
    (keeps : ∀ input ∈ inputs, input.Keeps params.gravityId)
    (object subject : EthereumSigned) (stored : object ∈ storedObjects outputs)
    (altered : subject.signedPart = object.signedPart) (env : EvidenceEnv) (signature : Bytes) :
    checkBadSignatureEvidence geth node.keeper.params.gravityId node.keeper.keys env
      node.keeper.chain.app.outgoing subject signature = .error .checkpointExists := by
  have initially : ArchiveInvariant geth params.gravityId []
      (⟨KeeperState.fresh params balances, eth, false⟩ : Node β τ) :=
    ⟨rfl, fun _ member => absurd member List.not_mem_nil⟩
  have invariant := run_invariant (fun input => input.Keeps params.gravityId)
    (ArchiveInvariant geth params.gravityId)
    (fun _ _ _ _ _ allowed holds step => holds.step allowed step) keeps initially runs
  obtain ⟨checkpoint, computed, recorded⟩ := invariant.recorded object stored
  have same : subject.getCheckpoint geth node.keeper.params.gravityId = .ok checkpoint := by
    rw [invariant.gravityId, ← subject.getCheckpoint_signedPart, altered,
      object.getCheckpoint_signedPart, computed]
  exact checkBadSignatureEvidence_of_archived same recorded signature

end Soundness

/-! ### A run -/

/-- The contract before anything happened. -/
def exampleEthereum : Ethereum Unit where
  gravity :=
    { wNomAddress := 0
      lastValsetCheckpoint := []
      lastBatchNonces := fun _ => 0
      invalidationMapping := fun _ => 0
      lastValsetNonce := 0
      lastEventNonce := 1
      gravityId := rightPad 32 (ascii "onomy-gravity")
      powerThreshold := 2863311530
      entered := false }
  contracts := ()
  blockNumber := 100
  logs := []
  accepted := []

/-- A node that has not seen anything yet. -/
def exampleNode : Node Ledger Unit := ⟨KeeperState.fresh exampleParams exampleLedger, exampleEthereum, false⟩

/-- The machine of `exampleNode`. -/
def exampleNodeStep : Node Ledger Unit → NodeInput Ledger Unit →
    Option (Node Ledger Unit × List NodeOutput) :=
  nodeStep exampleSdk (ledgerBank exampleModuleAccount) exampleGeth exampleEvm exampleContracts

/-- The validator registers the address one. -/
def exampleRegister : NodeInput Ledger Unit :=
  .setOrchestratorAddress (fun _ => true)
    ⟨ascii "cosmosvaloper1qyqszqgpqyqszqgpqyqszqgpqyqszqgph84tp0",
      ascii "cosmos1qyqszqgpqyqszqgpqyqszqgpqyqszqgpjnp7du", hexOfAddress 1⟩

/-- A block of the one validator. -/
def exampleBlock (blockHeight : Nat) : NodeInput Ledger Unit :=
  .bridge (fun _ => true) (.endBlock { exampleEnv blockHeight with
    bondedValidatorsByPower := [List.replicate 20 1] })

/-- The signature of the address one. -/
def exampleSignature : Bytes := ascii "0x" ++ List.replicate 127 48 ++ [49] ++ ascii "1b"

def exampleStaking : StakingValidator := ⟨some [9], 100, false⟩

def exampleEvidenceEnv : EvidenceEnv := ⟨fun _ => some exampleStaking, 8, 1000000000000000⟩

/-- A logic call without tokens. -/
def exampleLogicCall : OutgoingLogicCall where
  transfers := []
  fees := []
  logicContractAddress := exampleContract
  payload := [1, 2, 3]
  timeout := 900
  invalidationId := [7]
  invalidationNonce := 1
  block := 6

/-- The validator registers, a validator set is made, a transfer is batched, and a logic call comes and
goes. -/
def exampleNodeInputs : List (NodeInput Ledger Unit) :=
  [exampleRegister, exampleBlock 5, .bridge (fun _ => true) (exampleTransfer 10 1),
    .bridge (fun _ => true) (.requestBatch (gravityDenom exampleContract) 1 6),
    .setOutgoingLogicCall exampleLogicCall, .deleteOutgoingLogicCall [7] 1]

theorem exampleNodeInputs_run :
    ((run exampleNodeStep exampleNode exampleNodeInputs).map fun result =>
      (storedObjects result.2).length) = some 3 := by
  decide +kernel

/-- None of the three objects can be used as evidence, whatever the signature. -/
theorem evidence_soundness_example : ∃ node outputs,
    run exampleNodeStep exampleNode exampleNodeInputs = some (node, outputs) ∧
    (storedObjects outputs).length = 3 ∧
    ∀ object ∈ storedObjects outputs, ∀ env signature,
      checkBadSignatureEvidence exampleGeth node.keeper.params.gravityId node.keeper.keys env
        node.keeper.chain.app.outgoing object signature = .error .checkpointExists := by
  obtain ⟨⟨node, outputs⟩, runs, count⟩ := Option.map_eq_some_iff.mp exampleNodeInputs_run
  refine ⟨node, outputs, runs, count, fun object stored env signature => ?_⟩
  refine evidence_soundness exampleParams exampleLedger exampleEthereum exampleNodeInputs node outputs
    runs (fun input member => ?_) object object stored rfl env signature
  simp only [exampleNodeInputs, List.mem_cons, List.not_mem_nil, or_false] at member
  rcases member with rfl | rfl | rfl | rfl | rfl | rfl <;> trivial

end NabBridge
