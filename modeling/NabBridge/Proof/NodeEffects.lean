/-
**What a step of a node can do, from any state.**

`NodeEffect` lists what an input can change of the numbered objects, the recorded checkpoints, the stored
logic calls and the registered keys: a step of the bridge, a stored logic call, a registration, new
parameters, a restart, or nothing of these. `nodeStep_effect` says so for every input.

`Restarted` is what an export and an import leave: the objects themselves, but no counter, and of the
checkpoints only those of logic calls.
-/

import NabBridge.Proof.Effects
import NabBridge.Proof.Registry
import NabBridge.System.Node

namespace NabBridge

/-! ### Recorded checkpoints -/

theorem getPastEthSignatureCheckpointKey_inj {first second : Bytes} :
    getPastEthSignatureCheckpointKey first = getPastEthSignatureCheckpointKey second ↔
      first = second := by
  simp [getPastEthSignatureCheckpointKey, keyBytes_injective.eq_iff]

theorem Outgoing.getPastEthSignatureCheckpoint_set (outgoing : Outgoing) (checkpoint other : Bytes) :
    (outgoing.setPastEthSignatureCheckpoint checkpoint).getPastEthSignatureCheckpoint other = true ↔
      other = checkpoint ∨ outgoing.getPastEthSignatureCheckpoint other = true := by
  unfold getPastEthSignatureCheckpoint setPastEthSignatureCheckpoint
  simp only [Store.get_set, getPastEthSignatureCheckpointKey_inj, decide_eq_true_eq]
  by_cases same : other = checkpoint
  · simp [same]
  · simp [same]

theorem Outgoing.getPastEthSignatureCheckpoint_congr {first second : Outgoing}
    (same : first.pastEthSignatureCheckpoints = second.pastEthSignatureCheckpoints)
    (checkpoint : Bytes) :
    first.getPastEthSignatureCheckpoint checkpoint =
      second.getPastEthSignatureCheckpoint checkpoint := by
  unfold getPastEthSignatureCheckpoint
  rw [same]

/-! ### The import of logic calls, pool records and validator sets -/

section Import

variable {geth : Geth} {gravityID : Bytes}

/-- One logic call of a genesis file. -/
theorem genesisCall_eq_ok {call : OutgoingLogicCall} {stores next : Outgoing × LogicCalls}
    (stored : genesisCall (setOutgoingLogicCall geth gravityID call stores.1 stores.2) = .ok next) :
    ∃ checkpoint, call.getCheckpoint geth gravityID = .ok checkpoint ∧
      next = (stores.1.setPastEthSignatureCheckpoint checkpoint, stores.2.set call.key call) := by
  cases done : setOutgoingLogicCall geth gravityID call stores.1 stores.2 with
  | ok result =>
      rw [done] at stored
      obtain rfl := Outcome.ok.inj stored
      obtain ⟨checkpoint, computed, outgoing, calls⟩ := setOutgoingLogicCall_eq_ok done
      exact ⟨checkpoint, computed, Prod.ext outgoing calls⟩
  | error reason => exact reason.elim
  | panic reason =>
      rw [done] at stored
      cases stored

/-- **Imported logic calls** are stored and have their checkpoints recorded; nothing else changes. -/
theorem genesisCalls_spec {calls : List OutgoingLogicCall} {stores result : Outgoing × LogicCalls}
    (imported : calls.foldlM (fun stores call =>
      genesisCall (setOutgoingLogicCall geth gravityID call stores.1 stores.2)) stores = .ok result) :
    (∀ call ∈ calls, ∃ checkpoint, call.getCheckpoint geth gravityID = .ok checkpoint) ∧
    (∀ checkpoint, result.1.getPastEthSignatureCheckpoint checkpoint = true ↔
      stores.1.getPastEthSignatureCheckpoint checkpoint = true ∨
        ∃ call ∈ calls, call.getCheckpoint geth gravityID = .ok checkpoint) ∧
    (∃ archive, result.1 = { stores.1 with pastEthSignatureCheckpoints := archive }) ∧
    ∀ key call, result.2.get key = some call → stores.2.get key = some call ∨ call ∈ calls := by
  induction calls generalizing stores with
  | nil =>
      obtain rfl := Outcome.ok.inj imported
      refine ⟨fun _ member => absurd member List.not_mem_nil, fun checkpoint => ?_, ⟨_, rfl⟩,
        fun _ _ => Or.inl⟩
      exact ⟨Or.inl, fun found => found.elim id fun ⟨_, member, _⟩ => absurd member List.not_mem_nil⟩
  | cons call rest ih =>
      rw [List.foldlM_cons] at imported
      obtain ⟨next, first, imported⟩ := Outcome.bind_eq_ok.mp imported
      obtain ⟨checkpoint, computed, rfl⟩ := genesisCall_eq_ok first
      obtain ⟨all, recorded, ⟨archive, kept⟩, stored⟩ := ih imported
      refine ⟨fun other member => ?_, fun other => ?_, ⟨archive, kept⟩, fun key other found => ?_⟩
      · rcases List.mem_cons.mp member with rfl | later
        · exact ⟨checkpoint, computed⟩
        · exact all other later
      · rw [recorded, Outgoing.getPastEthSignatureCheckpoint_set]
        constructor
        · rintro ((rfl | earlier) | ⟨later, member, equal⟩)
          · exact Or.inr ⟨call, List.mem_cons_self, computed⟩
          · exact Or.inl earlier
          · exact Or.inr ⟨later, List.mem_cons_of_mem _ member, equal⟩
        · rintro (earlier | ⟨here, member, equal⟩)
          · exact Or.inl (Or.inr earlier)
          · rcases List.mem_cons.mp member with rfl | later
            · exact Or.inl (Or.inl (Outcome.ok.inj (equal.symm.trans computed)))
            · exact Or.inr ⟨here, later, equal⟩
      · rcases stored key other found with earlier | later
        · rcases Store.of_get_set earlier with ⟨_, rfl⟩ | before
          · exact Or.inr List.mem_cons_self
          · exact Or.inl before
        · exact Or.inr (List.mem_cons_of_mem _ later)

/-- **Imported pool records** go into the pool; nothing else changes. -/
theorem genesisTransfers_spec {transfers : List OutgoingTransferTx} {outgoing after : Outgoing}
    (imported : transfers.foldlM genesisTransfer outgoing = .ok after) :
    (∃ pool, after = { outgoing with pool := pool }) ∧
      ∀ key tx, after.pool.get key = some tx → outgoing.pool.get key = some tx ∨ tx ∈ transfers := by
  induction transfers generalizing outgoing with
  | nil =>
      obtain rfl := Outcome.ok.inj imported
      exact ⟨⟨_, rfl⟩, fun _ _ => Or.inl⟩
  | cons tx rest ih =>
      rw [List.foldlM_cons] at imported
      obtain ⟨next, first, imported⟩ := Outcome.bind_eq_ok.mp imported
      unfold genesisTransfer at first
      split at first
      · rename_i added
        obtain rfl := Outcome.ok.inj first
        obtain ⟨_, rfl⟩ := Outgoing.addUnbatchedTX_eq_ok added
        obtain ⟨⟨pool, kept⟩, stored⟩ := ih imported
        refine ⟨⟨pool, kept⟩, fun key other found => ?_⟩
        rcases stored key other found with earlier | later
        · rcases Store.of_get_set earlier with ⟨_, rfl⟩ | before
          · exact Or.inr List.mem_cons_self
          · exact Or.inl before
        · exact Or.inr (List.mem_cons_of_mem _ later)
      · cases first

/-- **Imported batches** are under their own keys; the counters stay as they were. -/
theorem genesisBatches_spec (batches : List OutgoingTxBatch) (outgoing : Outgoing) :
    (batches.foldl Outgoing.storeBatchUnsafe outgoing).pool = outgoing.pool ∧
    (batches.foldl Outgoing.storeBatchUnsafe outgoing).lastTxPoolId = outgoing.lastTxPoolId ∧
    (batches.foldl Outgoing.storeBatchUnsafe outgoing).lastOutgoingBatchId =
      outgoing.lastOutgoingBatchId ∧
    (batches.foldl Outgoing.storeBatchUnsafe outgoing).pastEthSignatureCheckpoints =
      outgoing.pastEthSignatureCheckpoints ∧
    ∀ key batch, (batches.foldl Outgoing.storeBatchUnsafe outgoing).batches.get key = some batch →
      outgoing.batches.get key = some batch ∨ batch ∈ batches ∧ key = batch.key := by
  induction batches generalizing outgoing with
  | nil => exact ⟨rfl, rfl, rfl, rfl, fun _ _ => Or.inl⟩
  | cons first rest ih =>
      obtain ⟨pool, txId, batchId, archive, stored⟩ := ih (outgoing.storeBatchUnsafe first)
      refine ⟨pool, txId, batchId, archive, fun key batch found => ?_⟩
      rcases stored key batch found with earlier | ⟨later, keyIs⟩
      · rcases Store.of_get_set earlier with ⟨same, rfl⟩ | before
        · exact Or.inr ⟨List.mem_cons_self, same⟩
        · exact Or.inl before
      · exact Or.inr ⟨List.mem_cons_of_mem _ later, keyIs⟩

/-- **Imported validator sets**: the last one of the file counts as the latest. -/
theorem genesisValsets_spec (valsets : List Valset) (store : ValsetStore) :
    (valsets.foldl ValsetStore.storeValsetUnsafe store).latestValsetNonce =
      ((valsets.getLast?).map Valset.nonce).getD store.latestValsetNonce ∧
    ∀ key valset, (valsets.foldl ValsetStore.storeValsetUnsafe store).valsets.get key = some valset →
      store.valsets.get key = some valset ∨ valset ∈ valsets ∧ key = getValsetKey valset.nonce := by
  induction valsets generalizing store with
  | nil => exact ⟨rfl, fun _ _ => Or.inl⟩
  | cons first rest ih =>
      obtain ⟨latest, stored⟩ := ih (store.storeValsetUnsafe first)
      refine ⟨?_, fun key valset found => ?_⟩
      · rw [List.foldl_cons, latest]
        cases rest with
        | nil => rfl
        | cons second others =>
            rw [List.getLast?_cons_cons]
            cases last : (second :: others).getLast? with
            | none => simp at last
            | some valset => rfl
      · rcases stored key valset found with earlier | ⟨later, keyIs⟩
        · rcases Store.of_get_set earlier with ⟨same, rfl⟩ | before
          · exact Or.inr ⟨List.mem_cons_self, same⟩
          · exact Or.inl before
        · exact Or.inr ⟨List.mem_cons_of_mem _ later, keyIs⟩

end Import

theorem ValsetStore.getValsets_perm (store : ValsetStore) :
    store.getValsets.Perm store.valsets.values :=
  (List.perm_insertionSort _ _).trans (List.reverse_perm _)

/-! ### A restart -/

/-- **What a restart leaves.** -/
structure Restarted {β : Type} (sdk : Sdk) (geth : Geth) (before after : KeeperState β) : Prop where
  params : after.params = before.params
  valsets : after.chain.valsets =
    before.chain.valsets.getValsets.foldl ValsetStore.storeValsetUnsafe ValsetStore.empty
  pool : ∀ key tx, after.chain.app.outgoing.pool.get key = some tx →
    ∃ key', before.chain.app.outgoing.pool.get key' = some tx
  batches : ∀ key batch, after.chain.app.outgoing.batches.get key = some batch →
    ∃ key', before.chain.app.outgoing.batches.get key' = some batch
  lastTxPoolId : after.chain.app.outgoing.lastTxPoolId = none
  lastOutgoingBatchId : after.chain.app.outgoing.lastOutgoingBatchId = none
  calls : ∀ key call, after.logicCalls.get key = some call →
    ∃ key', before.logicCalls.get key' = some call
  computed : ∀ call ∈ before.logicCalls.values,
    ∃ checkpoint, call.getCheckpoint geth before.params.gravityId = .ok checkpoint
  archive : ∀ checkpoint,
    after.chain.app.outgoing.getPastEthSignatureCheckpoint checkpoint = true ↔
      ∃ call ∈ before.logicCalls.values,
        call.getCheckpoint geth before.params.gravityId = .ok checkpoint
  keys : sdk.ReadsBack → before.keys.Consistent sdk → after.keys.Consistent sdk

theorem Node.restart_eq_some {β τ : Type} {sdk : Sdk} {geth : Geth} {node : Node β τ}
    {valsetReward : Coin} {attestations : List Attestation}
    {delegateKeys : List MsgSetOrchestratorAddress} {after : KeeperState β}
    (restarts : node.restart sdk geth valsetReward attestations delegateKeys = some after) :
    Restarted sdk geth node.keeper after := by
  unfold Node.restart at restarts
  split_ifs at restarts with order
  obtain ⟨_, collected, exported, permuted, _⟩ := order
  obtain ⟨params, _, valsets, registered, called, calls, callsIs, transfers⟩ :=
    initGenesis_eq_ok (Outcome.value?_eq_some.mp restarts)
  obtain ⟨computed, recorded, ⟨archive, callsKept⟩, storedCalls⟩ := genesisCalls_spec calls
  obtain ⟨⟨pool, poolKept⟩, storedTransfers⟩ := genesisTransfers_spec transfers
  obtain ⟨batchPool, txId, batchId, batchArchive, storedBatches⟩ :=
    genesisBatches_spec (exportGenesis node.keeper attestations delegateKeys).batches Outgoing.empty
  refine ⟨params, valsets, fun key tx found => ?_, fun key batch found => ?_, ?_, ?_,
    fun key call found => ?_, computed, fun checkpoint => ?_, fun readsBack consistent => ?_⟩
  · rcases storedTransfers key tx found with earlier | later
    · rw [callsKept] at earlier
      simp only [batchPool] at earlier
      cases earlier
    · obtain ⟨key', stored, _⟩ := Outgoing.mem_unbatchedTransactions later
      exact ⟨key', stored⟩
  · rw [poolKept, callsKept] at found
    rcases storedBatches key batch found with absent | ⟨later, _⟩
    · cases absent
    · exact (Store.mem_values_iff _ batch).mp (List.mem_reverse.mp later)
  · rw [poolKept, callsKept]
    exact txId
  · rw [poolKept, callsKept]
    exact batchId
  · rw [callsIs] at found
    rcases storedCalls key call found with absent | later
    · cases absent
    · exact (Store.mem_values_iff _ call).mp later
  · have empty : (Outgoing.empty.getPastEthSignatureCheckpoint checkpoint) = false := rfl
    rw [poolKept]
    refine Iff.trans (recorded checkpoint) ?_
    rw [Outgoing.getPastEthSignatureCheckpoint_congr batchArchive checkpoint, empty]
    simp only [Bool.false_eq_true, false_or]
    exact Iff.rfl
  · exact consistent.restart readsBack exported permuted registered

/-! ### One step of a node -/

/-- **What an input does** to the numbered objects, the recorded checkpoints, the logic calls and the
keys. -/
inductive NodeEffect {β τ : Type} (sdk : Sdk) (geth : Geth) (input : NodeInput β τ)
    (before : KeeperState β) (outputs : List NodeOutput) (after : KeeperState β) : Prop where
  | bridge (made : List BridgeOutput)
      (effect : BridgeEffect geth before.params.gravityId before.chain made after.chain)
      (calls : before.logicCalls.Within after.logicCalls) (keys : after.keys = before.keys)
      (params : after.params = before.params) (reported : outputs = made.map .bridge)
  | logicCallStored (call : OutgoingLogicCall) (checkpoint : Bytes)
      (computed : call.getCheckpoint geth before.params.gravityId = .ok checkpoint)
      (outgoing : after.chain.app.outgoing =
        before.chain.app.outgoing.setPastEthSignatureCheckpoint checkpoint)
      (valsets : after.chain.valsets = before.chain.valsets)
      (calls : after.logicCalls = before.logicCalls.set call.key call)
      (keys : after.keys = before.keys) (params : after.params = before.params)
      (reported : outputs = [.logicCallStored call])
  | registered (text : Bytes) (validator : ValAddress) (orchestrator : AccAddress)
      (ethAddress : Bytes) (parsed : sdk.valAddressFromBech32 text = some validator)
      (unset : before.keys.getEthAddressByValidator validator = none)
      (state : after = { before with
        keys := before.keys.register validator orchestrator ethAddress })
      (silent : outputs = [])
  | setParams (params : Params) (set : input = .setParams params)
      (valid : params.gravityId.length ≤ 32) (state : after = { before with params := params })
      (silent : outputs = [])
  | restarted (valsetReward : Coin) (attestations : List Attestation)
      (delegateKeys : List MsgSetOrchestratorAddress)
      (restart : input = .restart valsetReward attestations delegateKeys)
      (effect : Restarted sdk geth before after) (silent : outputs = [])
  | aside (chain : after.chain = before.chain) (calls : before.logicCalls.Within after.logicCalls)
      (keys : after.keys = before.keys) (params : after.params = before.params)
      (silent : ∀ output ∈ outputs, ∃ punishment, output = .punished punishment)

section Step

variable {β τ : Type} {sdk : Sdk} {bank : BankKeeper β} {geth : Geth} {evm : Evm}
  {others : Contracts τ}

/-- A step that changes nothing of this and reports nothing. -/
theorem NodeEffect.nothing {input : NodeInput β τ} (keeper : KeeperState β) :
    NodeEffect sdk geth input keeper [] keeper :=
  .aside rfl (LogicCalls.Within.refl _) rfl rfl fun _ member => absurd member List.not_mem_nil

theorem NodeEffect.confirms {input : NodeInput β τ} (keeper : KeeperState β) (confirms : Confirms) :
    NodeEffect sdk geth input keeper [] { keeper with confirms := confirms } :=
  .aside rfl (LogicCalls.Within.refl _) rfl rfl fun _ member => absurd member List.not_mem_nil

theorem Node.afterBridge_within (node : Node β τ) (action : BridgeInput β τ) (bridge : Bridge β τ) :
    node.keeper.logicCalls.Within (node.afterBridge action bridge).keeper.logicCalls := by
  unfold Node.afterBridge
  simp only
  split_ifs
  · exact LogicCalls.cleanupTimedOutLogicCalls_within _ _
  · exact LogicCalls.Within.refl _

/-- **What a step of a node can do**, from any state. -/
theorem nodeStep_effect {node next : Node β τ} {input : NodeInput β τ} {outputs : List NodeOutput}
    (step : nodeStep sdk bank geth evm others node input = some (next, outputs)) :
    NodeEffect sdk geth input node.keeper outputs next.keeper := by
  cases input with
  | bridge isValidator action =>
      simp only [nodeStep] at step
      split at step
      · cases step
      · rename_i bridge made taken
        obtain ⟨rfl, rfl⟩ := Prod.mk.inj (Option.some.inj step)
        exact .bridge made (bridgeStep_effect taken) (node.afterBridge_within action bridge) rfl rfl rfl
  | setOutgoingLogicCall call =>
      simp only [nodeStep] at step
      split_ifs at step
      split at step
      · rename_i outgoing calls stored
        obtain ⟨rfl, rfl⟩ := Prod.mk.inj (Option.some.inj step)
        obtain ⟨checkpoint, computed, rfl, rfl⟩ := setOutgoingLogicCall_eq_ok stored
        exact .logicCallStored call checkpoint computed rfl rfl rfl rfl rfl rfl
      · obtain ⟨rfl, rfl⟩ := Prod.mk.inj (Option.some.inj step)
        exact .nothing _
  | deleteOutgoingLogicCall invalidationId invalidationNonce =>
      simp only [nodeStep] at step
      split_ifs at step
      obtain ⟨rfl, rfl⟩ := Prod.mk.inj (Option.some.inj step)
      exact .aside rfl (LogicCalls.delete_within _ _ _) rfl rfl
        fun _ member => absurd member List.not_mem_nil
  | setOrchestratorAddress isValidator msg =>
      simp only [nodeStep] at step
      split_ifs at step
      obtain ⟨rfl, rfl⟩ := Prod.mk.inj (Option.some.inj step)
      cases set : setOrchestratorAddress sdk isValidator msg node.keeper.keys with
      | ok keys =>
          obtain ⟨_, validator, orchestrator, parsed, _, _, _, unset, rfl⟩ :=
            setOrchestratorAddress_eq_ok set
          exact .registered msg.validator validator orchestrator msg.ethAddress parsed unset rfl rfl
      | error reason => exact .nothing _
      | panic reason => exact reason.elim
  | valsetConfirm isValidator msg =>
      simp only [nodeStep] at step
      split_ifs at step
      obtain ⟨rfl, rfl⟩ := Prod.mk.inj (Option.some.inj step)
      exact .confirms _ _
  | confirmBatch isValidator msg =>
      simp only [nodeStep] at step
      split_ifs at step
      obtain ⟨rfl, rfl⟩ := Prod.mk.inj (Option.some.inj step)
      exact .confirms _ _
  | confirmLogicCall isValidator msg =>
      simp only [nodeStep] at step
      split_ifs at step
      obtain ⟨rfl, rfl⟩ := Prod.mk.inj (Option.some.inj step)
      exact .confirms _ _
  | evidence env subject signature =>
      simp only [nodeStep] at step
      split_ifs at step
      obtain ⟨rfl, rfl⟩ := Prod.mk.inj (Option.some.inj step)
      refine .aside rfl (LogicCalls.Within.refl _) rfl rfl fun output member => ?_
      obtain ⟨punishment, _, rfl⟩ := Option.map_eq_some_iff.mp (Option.mem_toList.mp member)
      exact ⟨punishment, rfl⟩
  | setParams params =>
      simp only [nodeStep] at step
      split_ifs at step with _ invalid
      · obtain ⟨rfl, rfl⟩ := Prod.mk.inj (Option.some.inj step)
        exact .nothing _
      · obtain ⟨rfl, rfl⟩ := Prod.mk.inj (Option.some.inj step)
        refine .setParams params rfl ?_ rfl rfl
        by_contra long
        refine invalid ?_
        unfold strToFixByteArray
        rw [if_pos (Nat.not_le.mp long)]
        rfl
  | restart valsetReward attestations delegateKeys =>
      obtain ⟨keeper, restarts, equal⟩ := Option.map_eq_some_iff.mp step
      obtain ⟨rfl, rfl⟩ := Prod.mk.inj equal
      exact .restarted valsetReward attestations delegateKeys rfl (Node.restart_eq_some restarts) rfl

end Step

end NabBridge
