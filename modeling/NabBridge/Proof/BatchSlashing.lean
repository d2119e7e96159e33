/-
**Which batches slashing looks at.**

Slashing finds the batches in a second index, by their blocks. A key of that index has room for one batch,
so the index is in step with the batches as long as no two of them are built in one block: storing and
deleting change both. Then a batch that is still there is looked at in exactly the block in which its window
is exceeded for the first time.

* `Outgoing.Indexed`: the two stores agree; `Outgoing.Thinned`: batches were deleted from both;
* `OneBatchPerBlock`: what has to hold when a batch is built;
* `batches_slashed_on_time`: runs without restarts in which it holds;
* `batch_never_slashed`: the first of two batches of one block is not looked at.
-/

import NabBridge.Proof.LogicCallSlashing

namespace NabBridge

/-! ### The index by blocks -/

namespace Outgoing

/-- The batches and the index by blocks agree. -/
structure Indexed (outgoing : Outgoing) : Prop where
  keyed : ∀ key batch, outgoing.batches.get key = some batch → key = batch.key
  index : ∀ key batch, outgoing.batchBlocks.get key = some batch ↔
    key = getOutgoingTxBatchBlockKey batch.block ∧ outgoing.batches.get batch.key = some batch

theorem indexed_empty : Outgoing.empty.Indexed where
  keyed := fun _ _ found => by cases found
  index := fun _ _ => ⟨fun found => (by cases found), fun found => (by cases found.2)⟩

theorem Indexed.congr {first second : Outgoing} (indexed : first.Indexed)
    (batches : second.batches = first.batches) (blocks : second.batchBlocks = first.batchBlocks) :
    second.Indexed := by
  constructor
  · rw [batches]
    exact indexed.keyed
  · rw [batches, blocks]
    exact indexed.index

/-- Two stored batches of one block are the same. -/
theorem Indexed.eq_of_block {outgoing : Outgoing} (indexed : outgoing.Indexed)
    {first second : OutgoingTxBatch} (isFirst : outgoing.batches.get first.key = some first)
    (isSecond : outgoing.batches.get second.key = some second) (same : first.block = second.block) :
    first = second := by
  have left := (indexed.index _ first).mpr ⟨rfl, isFirst⟩
  have right := (indexed.index _ second).mpr ⟨rfl, isSecond⟩
  rw [same, right] at left
  exact (Option.some.inj left).symm

/-- **A deletion keeps them in step**, of a record with the key and the block of a stored batch. -/
theorem Indexed.deleteBatch {outgoing : Outgoing} (indexed : outgoing.Indexed)
    {stored batch : OutgoingTxBatch} (isStored : outgoing.batches.get stored.key = some stored)
    (key : batch.key = stored.key) (block : batch.block = stored.block) :
    (outgoing.deleteBatch batch).Indexed := by
  unfold Outgoing.deleteBatch
  rw [key, block]
  refine ⟨fun other value found => ?_, fun other value => ?_⟩
  · rw [Store.get_delete] at found
    split_ifs at found
    exact indexed.keyed other value found
  · simp only [Store.get_delete]
    constructor
    · intro found
      split_ifs at found with same
      obtain ⟨keyIs, there⟩ := (indexed.index other value).mp found
      refine ⟨keyIs, ?_⟩
      rw [if_neg fun equal => same ?_]
      · exact there
      · rw [equal, isStored] at there
        rw [keyIs, Option.some.inj there]
    · rintro ⟨keyIs, there⟩
      split_ifs at there with same
      rw [if_neg fun equal => same ?_]
      · exact (indexed.index other value).mpr ⟨keyIs, there⟩
      · have blocks : value.block = stored.block :=
          getOutgoingTxBatchBlockKey_strictMono.injective (keyIs.symm.trans equal)
        rw [indexed.eq_of_block there isStored blocks]

/-- **A new batch keeps them in step**, if its key is free and no stored batch has its block. -/
theorem Indexed.storeBatchUnsafe {outgoing : Outgoing} (indexed : outgoing.Indexed)
    {batch : OutgoingTxBatch} (free : outgoing.batches.get batch.key = none)
    (alone : ∀ key other, outgoing.batches.get key = some other → other.block ≠ batch.block) :
    (outgoing.storeBatchUnsafe batch).Indexed := by
  unfold Outgoing.storeBatchUnsafe
  refine ⟨fun key other found => ?_, fun key other => ?_⟩
  · rcases Store.of_get_set found with ⟨rfl, rfl⟩ | earlier
    · rfl
    · exact indexed.keyed key other earlier
  · simp only [Store.get_set]
    constructor
    · intro found
      split_ifs at found with same
      · obtain rfl := Option.some.inj found
        exact ⟨same, by rw [if_pos rfl]⟩
      · obtain ⟨keyIs, there⟩ := (indexed.index key other).mp found
        refine ⟨keyIs, ?_⟩
        rw [if_neg fun equal => ?_]
        · exact there
        · rw [equal, free] at there
          cases there
    · rintro ⟨keyIs, there⟩
      split_ifs at there with same
      · obtain rfl := Option.some.inj there
        rw [if_pos keyIs]
      · rw [if_neg fun equal => alone other.key other there ?_]
        · exact (indexed.index key other).mpr ⟨keyIs, there⟩
        · exact getOutgoingTxBatchBlockKey_strictMono.injective (keyIs.symm.trans equal)

/-! ### Deletions -/

/-- The batches, their index and their counter are the same. -/
structure SameBatches (before after : Outgoing) : Prop where
  batches : after.batches = before.batches
  blocks : after.batchBlocks = before.batchBlocks
  counter : after.lastOutgoingBatchId = before.lastOutgoingBatchId

theorem SameBatches.refl (outgoing : Outgoing) : SameBatches outgoing outgoing := ⟨rfl, rfl, rfl⟩

/-- Batches may have been deleted, from both stores. -/
structure Thinned (before after : Outgoing) : Prop where
  indexed : after.Indexed
  stored : ∀ key batch, after.batches.get key = some batch → before.batches.get key = some batch
  counter : after.lastOutgoingBatchId = before.lastOutgoingBatchId

theorem Indexed.same {before after : Outgoing} (indexed : before.Indexed)
    (same : SameBatches before after) : before.Thinned after :=
  ⟨indexed.congr same.batches same.blocks, fun _ _ found => same.batches ▸ found, same.counter⟩

theorem Indexed.thinned {outgoing : Outgoing} (indexed : outgoing.Indexed) : outgoing.Thinned outgoing :=
  indexed.same (SameBatches.refl outgoing)

theorem Thinned.trans {first second third : Outgoing} (left : Thinned first second)
    (right : Thinned second third) : Thinned first third :=
  ⟨right.indexed, fun key batch found => left.stored key batch (right.stored key batch found),
    right.counter.trans left.counter⟩

theorem Indexed.deleteBatch_thinned {outgoing : Outgoing} (indexed : outgoing.Indexed)
    {stored batch : OutgoingTxBatch} (isStored : outgoing.batches.get stored.key = some stored)
    (key : batch.key = stored.key) (block : batch.block = stored.block) :
    outgoing.Thinned (outgoing.deleteBatch batch) := by
  refine ⟨indexed.deleteBatch isStored key block, fun other value there => ?_, rfl⟩
  unfold Outgoing.deleteBatch at there
  rw [Store.get_delete] at there
  split_ifs at there
  exact there

/-- The records of a batch go back into the pool. -/
theorem putBack_foldlM_meets (txs : List OutgoingTransferTx) (outgoing : Outgoing) :
    (txs.foldlM putBack outgoing).Meets (SameBatches outgoing) fun _ => True := by
  refine Outcome.Meets.foldlM (fun current tx _ same => ?_) (SameBatches.refl outgoing)
  unfold putBack
  split
  · rename_i after added
    obtain ⟨_, rfl⟩ := addUnbatchedTX_eq_ok added
    exact ⟨same.batches, same.blocks, same.counter⟩
  · trivial

/-- A batch that is read has the key and the block of the stored one. -/
theorem getOutgoingTXBatch_eq_some {outgoing : Outgoing} {tokenContract : Bytes} {nonce : Nat}
    {batch : OutgoingTxBatch} (read : outgoing.getOutgoingTXBatch tokenContract nonce = some batch) :
    ∃ stored, outgoing.batches.get (getOutgoingTxBatchKey tokenContract nonce) = some stored ∧
      batch.key = stored.key ∧ batch.block = stored.block ∧ batch.batchNonce = stored.batchNonce := by
  obtain ⟨stored, found, rfl⟩ := Option.map_eq_some_iff.mp read
  exact ⟨stored, found, rfl, rfl, rfl⟩

/-- **A cancellation** deletes one batch. -/
theorem Indexed.cancelOutgoingTXBatch {outgoing : Outgoing} (indexed : outgoing.Indexed)
    (tokenContract : Bytes) (nonce : Nat) :
    (outgoing.cancelOutgoingTXBatch tokenContract nonce).Meets
      (fun after => Thinned outgoing after ∧ ∀ key, key ≠ getOutgoingTxBatchKey tokenContract nonce →
        after.batches.get key = outgoing.batches.get key) fun _ => True := by
  unfold Outgoing.cancelOutgoingTXBatch
  split
  · trivial
  · rename_i batch read
    obtain ⟨stored, found, key, block, _⟩ := getOutgoingTXBatch_eq_some read
    refine (putBack_foldlM_meets batch.transactions outgoing).bind fun after same => ?_
    have keyIs := indexed.keyed _ _ found
    have isStored : after.batches.get stored.key = some stored := by
      rw [same.batches, ← keyIs]
      exact found
    have thinned := indexed.same same
    refine ⟨thinned.trans (thinned.indexed.deleteBatch_thinned isStored key block),
      fun other different => ?_⟩
    unfold Outgoing.deleteBatch
    simp only
    rw [key, ← keyIs, Store.get_delete_of_ne _ different, same.batches]

/-- **An execution** deletes the batch and earlier ones of its token. -/
theorem Indexed.outgoingTxBatchExecuted {outgoing : Outgoing} (indexed : outgoing.Indexed)
    (tokenContract : Bytes) (nonce : Nat) :
    (outgoing.outgoingTxBatchExecuted tokenContract nonce).Meets (Thinned outgoing) fun _ => True := by
  unfold Outgoing.outgoingTxBatchExecuted
  split
  · trivial
  · rename_i batch read
    obtain ⟨stored, found, key, block, nonceIs⟩ := getOutgoingTXBatch_eq_some read
    have keyIs := indexed.keyed _ _ found
    have sameNonce := (getOutgoingTxBatchKey_inj.mp keyIs).2
    rw [keyIs] at found
    -- the batch itself stays until the end
    have loop : (outgoing.getOutgoingTxBatches.foldlM (cancelEarlier tokenContract batch.batchNonce)
        outgoing).Meets (fun current => Thinned outgoing current ∧
          current.batches.get stored.key = some stored) fun _ => True := by
      refine Outcome.Meets.foldlM (fun current earlier _ holds => ?_) ⟨indexed.thinned, found⟩
      unfold cancelEarlier
      split_ifs with before
      · have cancelled := holds.1.indexed.cancelOutgoingTXBatch tokenContract earlier.batchNonce
        split
        · rename_i after done
          obtain ⟨thinned, others⟩ := cancelled.ok done
          refine ⟨holds.1.trans thinned, ?_⟩
          rw [others stored.key fun same => ?_]
          · exact holds.2
          · have equal := (getOutgoingTxBatchKey_inj.mp (keyIs.trans same)).2
            have lower := before.1
            omega
        · trivial
        · trivial
      · exact holds
    refine loop.bind fun after holds => ?_
    exact holds.1.trans (holds.1.indexed.deleteBatch_thinned holds.2 key block)

/-- **A clean-up** deletes batches. -/
theorem Indexed.cleanupTimedOutBatches {outgoing : Outgoing} (indexed : outgoing.Indexed)
    (ethereumHeight : Nat) :
    (outgoing.cleanupTimedOutBatches ethereumHeight).Meets (Thinned outgoing) fun _ => True := by
  unfold Outgoing.cleanupTimedOutBatches
  refine Outcome.Meets.foldlM (fun current batch _ thinned => ?_) indexed.thinned
  unfold cleanupTimedOutBatch
  split_ifs
  · have cancelled := thinned.indexed.cancelOutgoingTXBatch batch.tokenContract batch.batchNonce
    split
    · rename_i after done
      exact thinned.trans (cancelled.ok done).1
    · exact thinned
    · trivial
  · exact thinned

/-! ### Sending and building -/

theorem issue_same (outgoing : Outgoing) (record : Nat → OutgoingTransferTx) :
    SameBatches outgoing (outgoing.issue record).2 := by
  unfold issue autoIncrementID
  simp only
  split
  · rename_i after added
    obtain ⟨_, rfl⟩ := addUnbatchedTX_eq_ok added
    exact ⟨rfl, rfl, rfl⟩
  · exact ⟨rfl, rfl, rfl⟩

theorem pickUnbatchedTX_same {maxElements : Nat} (selected rest : List OutgoingTransferTx)
    {before outgoing : Outgoing} (same : SameBatches before outgoing) :
    (pickUnbatchedTX maxElements selected rest outgoing).Meets (fun result => SameBatches before result.2)
      fun _ => True := by
  induction rest generalizing selected outgoing with
  | nil => exact same
  | cons tx rest ih =>
      unfold pickUnbatchedTX
      split
      · split_ifs <;> trivial
      · rename_i after removed
        obtain ⟨_, rfl⟩ := removeUnbatchedTX_eq_ok removed
        split_ifs
        · trivial
        · exact ⟨same.batches, same.blocks, same.counter⟩
        · exact ih _ ⟨same.batches, same.blocks, same.counter⟩

/-- **Building a batch** stores it in both places, in the block it is built in. -/
theorem buildOutgoingTXBatch_blocks {geth : Geth} {params : Params}
    {heights : LastObservedEthereumBlockHeight} {blockHeight maxElements : Nat}
    {contractAddress : Bytes} {outgoing after : Outgoing} {made : Option OutgoingTxBatch}
    (built : outgoing.buildOutgoingTXBatch geth params heights blockHeight contractAddress
      maxElements = .ok (made, after)) :
    (made = none ∧ SameBatches outgoing after) ∨
      ∃ batch, made = some batch ∧ batch.block = blockHeight ∧
        batch.batchNonce = outgoing.nextBatchNonce ∧
        after.batches = (outgoing.storeBatchUnsafe batch).batches ∧
        after.batchBlocks = (outgoing.storeBatchUnsafe batch).batchBlocks ∧
        after.lastOutgoingBatchId = some (batch.batchNonce + 1) := by
  unfold buildOutgoingTXBatch at built
  split_ifs at built
  obtain ⟨_, _, built⟩ := Outcome.bind_eq_ok.mp built
  obtain ⟨⟨selected, rest⟩, picked, built⟩ := Outcome.bind_eq_ok.mp built
  have same : SameBatches outgoing rest :=
    (pickUnbatchedTX_same [] _ (SameBatches.refl outgoing)).ok picked
  simp only at built
  split_ifs at built
  · obtain ⟨rfl, rfl⟩ := Prod.mk.inj (Outcome.ok.inj built)
    exact Or.inl ⟨rfl, same⟩
  · obtain ⟨timeout, _, built⟩ := Outcome.bind_eq_ok.mp built
    obtain ⟨checkpoint, _, built⟩ := Outcome.bind_eq_ok.mp built
    obtain ⟨rfl, rfl⟩ := Prod.mk.inj (Outcome.ok.inj built)
    refine Or.inr ⟨_, rfl, rfl, ?_, ?_, ?_, rfl⟩
    · change rest.lastOutgoingBatchId.getD 1 = outgoing.lastOutgoingBatchId.getD 1
      rw [same.counter]
    · change rest.batches.set _ _ = outgoing.batches.set _ _
      rw [same.batches]
    · change rest.batchBlocks.set _ _ = outgoing.batchBlocks.set _ _
      rw [same.blocks]

end Outgoing

/-! ### What changes the batches -/

section Steps

variable {β τ : Type} {sdk : Sdk} {bank : BankKeeper β} {geth : Geth} {evm : Evm}
  {others : Contracts τ}

theorem bridgeStep_batches {network : Params} {state next : Bridge β τ} {action : BridgeInput β τ}
    {made : List BridgeOutput} (inside : action.endsBlock = false)
    (step : bridgeStep sdk bank geth network evm others state action = some (next, made)) :
    state.chain.app.outgoing.SameBatches next.chain.app.outgoing ∨
      ∃ denom maxElements blockHeight batch, action = .requestBatch denom maxElements blockHeight ∧
        requestBatch geth network denom maxElements blockHeight state.chain =
          .ok (some batch, next.chain.app.outgoing) := by
  cases action with
  | sendToEth sender receiver amount fee =>
      simp only [bridgeStep] at step
      split_ifs at step
      split at step
      · rename_i id app sent
        obtain ⟨rfl, rfl⟩ := Prod.mk.inj (Option.some.inj step)
        obtain ⟨_, _, _, _, _, _, rfl, rfl⟩ := addToOutgoingPool_eq_ok sent
        exact Or.inl (Outgoing.issue_same _ _)
      · obtain ⟨rfl, rfl⟩ := Prod.mk.inj (Option.some.inj step)
        exact Or.inl (Outgoing.SameBatches.refl _)
  | cancelSendToEth txId sender =>
      simp only [bridgeStep] at step
      split_ifs at step
      split at step
      · rename_i app removed
        obtain ⟨rfl, rfl⟩ := Prod.mk.inj (Option.some.inj step)
        obtain ⟨_, _, _, _, _, _, _, gone, _, _, rfl⟩ := removeFromOutgoingPoolAndRefund_eq_ok removed
        obtain ⟨_, rfl⟩ := Outgoing.removeUnbatchedTX_eq_ok gone
        exact Or.inl ⟨rfl, rfl, rfl⟩
      · obtain ⟨rfl, rfl⟩ := Prod.mk.inj (Option.some.inj step)
        exact Or.inl (Outgoing.SameBatches.refl _)
  | requestBatch denom maxElements blockHeight =>
      simp only [bridgeStep] at step
      split_ifs at step
      split at step
      · rename_i built outgoing requested
        obtain ⟨rfl, rfl⟩ := Prod.mk.inj (Option.some.inj step)
        cases built with
        | some batch => exact Or.inr ⟨denom, maxElements, blockHeight, batch, rfl, requested⟩
        | none =>
            unfold requestBatch at requested
            split at requested
            · cases requested
            · rcases Outgoing.buildOutgoingTXBatch_blocks requested with ⟨_, same⟩ | ⟨_, bad, _⟩
              · exact Or.inl same
              · cases bad
      · obtain ⟨rfl, rfl⟩ := Prod.mk.inj (Option.some.inj step)
        exact Or.inl (Outgoing.SameBatches.refl _)
  | claim orchestratorValidator blockHeight reported =>
      simp only [bridgeStep] at step
      split_ifs at step
      split at step
      all_goals
        obtain ⟨rfl, rfl⟩ := Prod.mk.inj (Option.some.inj step)
        exact Or.inl (Outgoing.SameBatches.refl _)
  | endBlock env => cases inside
  | accounts change =>
      obtain ⟨rfl, rfl⟩ := Prod.mk.inj (Option.some.inj step)
      exact Or.inl (Outgoing.SameBatches.refl _)
  | call sender call =>
      simp only [bridgeStep] at step
      split at step
      all_goals
        obtain ⟨rfl, rfl⟩ := Prod.mk.inj (Option.some.inj step)
        exact Or.inl (Outgoing.SameBatches.refl _)
  | ethereum change newBlocks =>
      obtain ⟨rfl, rfl⟩ := Prod.mk.inj (Option.some.inj step)
      exact Or.inl (Outgoing.SameBatches.refl _)

/-- **Batches come one at a time**: within a block, one that was requested was stored, or the batches stay
as they are. -/
theorem nodeStep_batches {node next : Node β τ} {action : NodeInput β τ} {made : List NodeOutput}
    (inside : action.Within)
    (step : nodeStep sdk bank geth evm others node action = some (next, made)) :
    node.keeper.chain.app.outgoing.SameBatches next.keeper.chain.app.outgoing ∨
      ∃ isValidator denom maxElements blockHeight batch,
        action = .bridge isValidator (.requestBatch denom maxElements blockHeight) ∧
        requestBatch geth node.keeper.params denom maxElements blockHeight node.keeper.chain =
          .ok (some batch, next.keeper.chain.app.outgoing) := by
  cases action with
  | bridge isValidator action =>
      simp only [nodeStep] at step
      split at step
      · cases step
      · rename_i bridge outputs taken
        obtain ⟨rfl, rfl⟩ := Prod.mk.inj (Option.some.inj step)
        have within : (action.reading node.keeper.keys isValidator).endsBlock = false := by
          cases action
          case endBlock => exact inside.elim
          all_goals rfl
        rcases bridgeStep_batches within taken with same | ⟨denom, maxElements, height, batch, is, built⟩
        · exact Or.inl same
        · have isRequest : action = .requestBatch denom maxElements height := by
            cases action with
            | requestBatch => exact is
            | _ => cases is
          exact Or.inr ⟨isValidator, denom, maxElements, height, batch, by rw [isRequest], built⟩
  | setOutgoingLogicCall call =>
      simp only [nodeStep] at step
      split_ifs at step
      split at step
      · rename_i outgoing calls stored
        obtain ⟨rfl, rfl⟩ := Prod.mk.inj (Option.some.inj step)
        obtain ⟨checkpoint, _, rfl, rfl⟩ := setOutgoingLogicCall_eq_ok stored
        exact Or.inl ⟨rfl, rfl, rfl⟩
      · obtain ⟨rfl, rfl⟩ := Prod.mk.inj (Option.some.inj step)
        exact Or.inl (Outgoing.SameBatches.refl _)
  | setParams network =>
      simp only [nodeStep] at step
      split_ifs at step
      all_goals
        obtain ⟨rfl, rfl⟩ := Prod.mk.inj (Option.some.inj step)
        exact Or.inl (Outgoing.SameBatches.refl _)
  | restart valsetReward attestations delegateKeys => exact inside.elim
  | deleteOutgoingLogicCall _ _ | setOrchestratorAddress _ _ | valsetConfirm _ _ | confirmBatch _ _
  | confirmLogicCall _ _ | evidence _ _ _ =>
      simp only [nodeStep] at step
      split_ifs at step
      obtain ⟨rfl, rfl⟩ := Prod.mk.inj (Option.some.inj step)
      exact Or.inl (Outgoing.SameBatches.refl _)

theorem handle_thinned {network : Params} {att : Attestation} {claim : EthereumClaim}
    {state after : ModuleState β} (indexed : state.outgoing.Indexed)
    (done : handle sdk bank network att claim state = .ok after) :
    state.outgoing.Thinned after.outgoing := by
  have effect := handle_effect done
  cases claim with
  | batchSendToEth msg =>
      exact (indexed.outgoingTxBatchExecuted msg.tokenContract msg.batchNonce).ok effect.1
  | sendToCosmos msg => exact effect.1 ▸ indexed.thinned
  | erc20Deployed msg => exact effect.1 ▸ indexed.thinned
  | logicCallExecuted msg => exact effect.1 ▸ indexed.thinned
  | valsetUpdated msg => exact effect.1 ▸ indexed.thinned

/-- **The end of a block** only deletes batches. -/
theorem endBlocker_batches {network : Params} {env : EndBlockEnv} {chain after : Chain β}
    {report : EndBlockReport} (indexed : chain.app.outgoing.Indexed)
    (ends : endBlocker sdk bank geth network env chain = .ok (after, report)) :
    chain.app.outgoing.Thinned after.app.outgoing := by
  obtain ⟨ctx, outgoing, made, store, counted, cleaned, _, rfl, rfl⟩ := endBlocker_eq_ok ends
  have tallied : chain.app.outgoing.Thinned ctx.app.outgoing :=
    (attestationTally_keeps (P := fun app => chain.app.outgoing.Thinned app.outgoing)
      (fun _ _ _ _ thinned done => thinned.trans (handle_thinned thinned.indexed done))
      indexed.thinned).ok counted
  have cleanedUp := tallied.trans ((tallied.indexed.cleanupTimedOutBatches _).ok cleaned)
  refine cleanedUp.trans (cleanedUp.indexed.same ?_)
  cases made <;> exact ⟨rfl, rfl, rfl⟩

end Steps

/-! ### What a block looks at -/

/-- **The due batches** of an index that is in step: those beyond the cursor whose window is exceeded. -/
theorem Outgoing.Indexed.mem_dueBatches {outgoing : Outgoing} (indexed : outgoing.Indexed)
    {params : SlashingParams} {blockHeight last : Nat} {batch : OutgoingTxBatch} :
    batch ∈ dueBatches params blockHeight outgoing last ↔
      outgoing.batches.get batch.key = some batch ∧ last < batch.block ∧
        batch.block + params.signedBatchesWindow < blockHeight := by
  unfold dueBatches
  split_ifs with late
  · unfold Outgoing.getUnSlashedBatches Outgoing.fromSlashedBatchBlock
    rw [List.mem_filter, List.mem_map, decide_eq_true_iff]
    constructor
    · rintro ⟨⟨entry, inside, rfl⟩, beyond⟩
      obtain ⟨stored, inRange⟩ := List.mem_filter.mp inside
      obtain ⟨keyIs, there⟩ := (indexed.index _ _).mp ((outgoing.batchBlocks.mem_entries_iff _ _).mp stored)
      have below := (of_decide_eq_true inRange).2
      rw [keyIs, getOutgoingTxBatchBlockKey_strictMono.lt_iff_lt] at below
      exact ⟨there, beyond, by omega⟩
    · rintro ⟨there, beyond, exceeded⟩
      have found := (indexed.index _ batch).mpr ⟨rfl, there⟩
      refine ⟨⟨(getOutgoingTxBatchBlockKey batch.block, batch), List.mem_filter.mpr
        ⟨(outgoing.batchBlocks.mem_entries_iff _ _).mpr found, decide_eq_true ⟨?_, ?_⟩⟩, rfl⟩, beyond⟩
      · exact getOutgoingTxBatchBlockKey_strictMono.le_iff_le.mpr beyond.le
      · exact getOutgoingTxBatchBlockKey_strictMono.lt_iff_lt.mpr (by omega)
  · constructor
    · exact fun member => absurd member List.not_mem_nil
    · rintro ⟨_, _, exceeded⟩
      omega

/-- They come in the order of their blocks. -/
theorem Outgoing.Indexed.dueBatches_sorted {outgoing : Outgoing} (indexed : outgoing.Indexed)
    (params : SlashingParams) (blockHeight last : Nat) :
    (dueBatches params blockHeight outgoing last).Pairwise
      fun first second => first.block < second.block := by
  unfold dueBatches
  split_ifs
  · have sorted := entries_sorted_by_place getOutgoingTxBatchBlockKey_strictMono fun entry member =>
      ((indexed.index entry.1 entry.2).mp ((outgoing.batchBlocks.mem_entries_iff _ _).mp member)).1
    exact (sorted.sublist (List.filter_sublist.map _)).sublist List.filter_sublist
  · exact List.Pairwise.nil

/-! ### Runs -/

section Runs

variable {β τ σ : Type} {sdk : Sdk} {bank : BankKeeper β} {geth : Geth} {evm : Evm}
  {others : Contracts τ} {staking : StakingKeeper σ} {params : SlashingParams}
  {past outputs : List BlockOutput} {before after : BlockNode β τ σ}

/-- When a request stores a batch, no stored batch is of the current block. -/
def OneBatchPerBlock (geth : Geth) (state : BlockNode β τ σ) : BlockInput β τ σ → Prop
  | .node (.bridge _ (.requestBatch denom maxElements _)) =>
      match requestBatch geth state.node.keeper.params denom maxElements state.blockHeight
          state.node.keeper.chain with
      | .ok (some _, _) =>
          ∀ other ∈ state.node.keeper.chain.app.outgoing.batches.values, other.block ≠ state.blockHeight
      | _ => True
  | _ => True

instance (geth : Geth) (state : BlockNode β τ σ) (input : BlockInput β τ σ) :
    Decidable (OneBatchPerBlock geth state input) := by
  rcases input with ⟨_, action⟩ | change
  · rcases action <;> unfold OneBatchPerBlock <;> dsimp only <;> try infer_instance
    split <;> infer_instance
  all_goals unfold OneBatchPerBlock; infer_instance

/-- The batches that were looked at. -/
def slashedBatches (trace : List BlockOutput) : List OutgoingTxBatch :=
  (slashedOf EthereumSigned.batch? trace).map Prod.snd

@[simp] theorem slashedBatches_append (first second : List BlockOutput) :
    slashedBatches (first ++ second) = slashedBatches first ++ slashedBatches second := by
  rw [slashedBatches, slashedOf_append, List.map_append]
  rfl

/-- **After some blocks**: the stores are in step, the cursor lies at a block whose window is exceeded, and
so are the blocks of what was looked at, each at its time. -/
structure BatchesLooked (params : SlashingParams) (past : List BlockOutput) (state : BlockNode β τ σ) :
    Prop where
  indexed : state.node.keeper.chain.app.outgoing.Indexed
  fresh : ∀ key batch, state.node.keeper.chain.app.outgoing.batches.get key = some batch →
    batch.batchNonce < state.node.keeper.chain.app.outgoing.nextBatchNonce
  blocks : ∀ key batch, state.node.keeper.chain.app.outgoing.batches.get key = some batch →
    1 ≤ batch.block ∧ batch.block ≤ state.blockHeight
  begun : 1 ≤ state.blockHeight
  cursor : state.slashing.lastSlashedBatchBlock = 0 ∨
    state.slashing.lastSlashedBatchBlock + params.signedBatchesWindow + 1 < state.blockHeight
  behind : ∀ key batch, state.node.keeper.chain.app.outgoing.batches.get key = some batch →
    batch.block + params.signedBatchesWindow + 1 < state.blockHeight →
    batch.block ≤ state.slashing.lastSlashedBatchBlock
  punctual : ∀ looked ∈ slashedOf EthereumSigned.batch? past,
    looked.1 = looked.2.block + params.signedBatchesWindow + 1 ∧ looked.1 < state.blockHeight
  nodup : (slashedBatches past).Nodup

/-- **A block looks at the batches whose window it exceeds first.** -/
theorem BatchesLooked.mem_dueBatches (looked : BatchesLooked params past before)
    {batch : OutgoingTxBatch} :
    batch ∈ dueBatches params before.blockHeight before.node.keeper.chain.app.outgoing
        before.slashing.lastSlashedBatchBlock ↔
      batch ∈ before.node.keeper.chain.app.outgoing.batches.values ∧
        before.blockHeight = batch.block + params.signedBatchesWindow + 1 := by
  rw [looked.indexed.mem_dueBatches, Store.mem_values_iff]
  constructor
  · rintro ⟨found, beyond, exceeded⟩
    have missed := fun late => looked.behind _ batch found late
    exact ⟨⟨_, found⟩, by omega⟩
  · rintro ⟨⟨key, found⟩, now⟩
    have keyIs := looked.indexed.keyed key batch found
    have old := (looked.blocks key batch found).1
    have cursor := looked.cursor
    exact ⟨keyIs ▸ found, by omega, by omega⟩

/-- Nothing is looked at within a block; batches may be deleted. -/
theorem BatchesLooked.same (looked : BatchesLooked params past before)
    (thinned : before.node.keeper.chain.app.outgoing.Thinned after.node.keeper.chain.app.outgoing)
    (cursor : after.slashing.lastSlashedBatchBlock = before.slashing.lastSlashedBatchBlock)
    (height : after.blockHeight = before.blockHeight) (unslashed : slashedObjects outputs = []) :
    BatchesLooked params (past ++ outputs) after := by
  have none : slashedOf EthereumSigned.batch? (past ++ outputs) =
      slashedOf EthereumSigned.batch? past := by
    rw [slashedOf_append, slashedOf_eq_nil unslashed, List.append_nil]
  have same : slashedBatches (past ++ outputs) = slashedBatches past := by
    rw [slashedBatches, none, slashedBatches]
  have counter : after.node.keeper.chain.app.outgoing.nextBatchNonce =
      before.node.keeper.chain.app.outgoing.nextBatchNonce := by
    rw [Outgoing.nextBatchNonce, Outgoing.nextBatchNonce, thinned.counter]
  refine ⟨thinned.indexed, ?_, ?_, ?_, ?_, ?_, ?_, same ▸ looked.nodup⟩
  · exact fun key batch found => counter ▸ looked.fresh key batch (thinned.stored key batch found)
  · exact fun key batch found => height ▸ looked.blocks key batch (thinned.stored key batch found)
  · exact height ▸ looked.begun
  · rw [cursor, height]
    exact looked.cursor
  · rw [cursor, height]
    exact fun key batch found => looked.behind key batch (thinned.stored key batch found)
  · rw [none, height]
    exact looked.punctual

/-- **A batch is built**, alone in its block. -/
theorem BatchesLooked.build (looked : BatchesLooked params past before) {batch : OutgoingTxBatch}
    (block : batch.block = before.blockHeight)
    (nonce : batch.batchNonce = before.node.keeper.chain.app.outgoing.nextBatchNonce)
    (batches : after.node.keeper.chain.app.outgoing.batches =
      (before.node.keeper.chain.app.outgoing.storeBatchUnsafe batch).batches)
    (blocks : after.node.keeper.chain.app.outgoing.batchBlocks =
      (before.node.keeper.chain.app.outgoing.storeBatchUnsafe batch).batchBlocks)
    (counter : after.node.keeper.chain.app.outgoing.lastOutgoingBatchId = some (batch.batchNonce + 1))
    (alone : ∀ other ∈ before.node.keeper.chain.app.outgoing.batches.values,
      other.block ≠ before.blockHeight)
    (slashing : after.slashing = before.slashing) (height : after.blockHeight = before.blockHeight)
    (unslashed : slashedObjects outputs = []) : BatchesLooked params (past ++ outputs) after := by
  have none : slashedOf EthereumSigned.batch? (past ++ outputs) =
      slashedOf EthereumSigned.batch? past := by
    rw [slashedOf_append, slashedOf_eq_nil unslashed, List.append_nil]
  have same : slashedBatches (past ++ outputs) = slashedBatches past := by
    rw [slashedBatches, none, slashedBatches]
  have next : after.node.keeper.chain.app.outgoing.nextBatchNonce = batch.batchNonce + 1 := by
    rw [Outgoing.nextBatchNonce, counter, Option.getD_some]
  have free : before.node.keeper.chain.app.outgoing.batches.get batch.key = Option.none := by
    cases found : before.node.keeper.chain.app.outgoing.batches.get batch.key with
    | none => rfl
    | some other =>
        -- it would have the new number
        have sameNonce := (getOutgoingTxBatchKey_inj.mp (looked.indexed.keyed _ other found)).2
        have lower := looked.fresh _ other found
        omega
  have stored : ∀ key other, after.node.keeper.chain.app.outgoing.batches.get key = some other →
      other = batch ∨ before.node.keeper.chain.app.outgoing.batches.get key = some other := by
    intro key other found
    rw [batches] at found
    exact (Store.of_get_set found).imp_left And.right
  refine ⟨?_, fun key other found => ?_, fun key other found => ?_, height ▸ looked.begun, ?_,
    fun key other found => ?_, ?_, same ▸ looked.nodup⟩
  · refine (looked.indexed.storeBatchUnsafe free fun key other found => ?_).congr batches blocks
    rw [block]
    exact alone other ((Store.mem_values_iff _ other).mpr ⟨key, found⟩)
  · rcases stored key other found with rfl | earlier
    · omega
    · have lower := looked.fresh key other earlier
      omega
  · rcases stored key other found with rfl | earlier
    · have begun := looked.begun
      omega
    · exact height ▸ looked.blocks key other earlier
  · rw [slashing, height]
    exact looked.cursor
  · rw [slashing, height]
    rcases stored key other found with rfl | earlier
    · intro late
      omega
    · exact looked.behind key other earlier
  · rw [none, height]
    exact looked.punctual

/-- What a block looks at, and where it leaves the cursor. -/
theorem Slashed.batches {rounds : List SlashingRound}
    (slashed : Slashed params before.blockHeight before.node.keeper before.slashing after.slashing
      rounds) (made : List NodeOutput) :
    let due := dueBatches params before.blockHeight before.node.keeper.chain.app.outgoing
      before.slashing.lastSlashedBatchBlock
    slashedOf EthereumSigned.batch?
        (rounds.map (.slashed before.blockHeight) ++ made.map .node) =
          due.map (fun batch => (before.blockHeight, batch)) ∧
      slashedBatches (rounds.map (.slashed before.blockHeight) ++ made.map .node) = due ∧
      after.slashing.lastSlashedBatchBlock =
        swept OutgoingTxBatch.block before.slashing.lastSlashedBatchBlock due := by
  have looks := @slashedOf_block _ EthereumSigned.batch? before.blockHeight rounds made
  rw [slashed.kinds.2.1] at looks
  refine ⟨looks, ?_, slashed.batchBlock⟩
  rw [slashedBatches, looks, List.map_map]
  exact List.map_id _

/-- **A block ends.** What it looks at is due now, so it was not looked at before; what is due later stays
beyond the cursor. -/
theorem BatchesLooked.ended (looked : BatchesLooked params past before) {rounds : List SlashingRound}
    (slashed : Slashed params before.blockHeight before.node.keeper before.slashing after.slashing
      rounds)
    (thinned : before.node.keeper.chain.app.outgoing.Thinned after.node.keeper.chain.app.outgoing)
    (height : after.blockHeight = before.blockHeight + 1) {made : List NodeOutput}
    (reported : outputs = rounds.map (.slashed before.blockHeight) ++ made.map .node) :
    BatchesLooked params (past ++ outputs) after := by
  obtain ⟨looks, batches, cursor⟩ := slashed.batches made
  rw [← reported] at looks batches
  have due := fun batch => @mem_dueBatches _ _ _ _ _ _ looked batch
  have sorted := looked.indexed.dueBatches_sorted params before.blockHeight
    before.slashing.lastSlashedBatchBlock
  generalize dueBatches params before.blockHeight before.node.keeper.chain.app.outgoing
    before.slashing.lastSlashedBatchBlock = dues at looks batches cursor due sorted
  have counter : after.node.keeper.chain.app.outgoing.nextBatchNonce =
      before.node.keeper.chain.app.outgoing.nextBatchNonce := by
    rw [Outgoing.nextBatchNonce, Outgoing.nextBatchNonce, thinned.counter]
  have begun := looked.begun
  have wasCursor := looked.cursor
  -- the due ones all lie in the block whose window is exceeded now
  have moves : after.slashing.lastSlashedBatchBlock = before.slashing.lastSlashedBatchBlock ∨
      after.slashing.lastSlashedBatchBlock + params.signedBatchesWindow + 1 = before.blockHeight := by
    rw [cursor]
    rcases swept_eq OutgoingTxBatch.block before.slashing.lastSlashedBatchBlock dues with
      same | ⟨last, isLast, same⟩
    · exact Or.inl same
    · have now := ((due last).mp isLast).2
      exact Or.inr (by omega)
  refine ⟨thinned.indexed, ?_, ?_, by omega, by omega, ?_, ?_, ?_⟩
  · exact fun key batch found => counter ▸ looked.fresh key batch (thinned.stored key batch found)
  · intro key batch found
    have bounds := looked.blocks key batch (thinned.stored key batch found)
    omega
  · intro key batch found exceeded
    have earlier := thinned.stored key batch found
    by_cases now : before.blockHeight = batch.block + params.signedBatchesWindow + 1
    · have isDue := (due batch).mpr ⟨(Store.mem_values_iff _ batch).mpr ⟨key, earlier⟩, now⟩
      rw [cursor]
      exact swept_sorted (sorted.imp Nat.le_of_lt) batch isDue
    · have behind := looked.behind key batch earlier (by omega)
      omega
  · rw [slashedOf_append]
    intro seen member
    rcases List.mem_append.mp member with earlier | now
    · have before := looked.punctual seen earlier
      exact ⟨before.1, by omega⟩
    · rw [looks] at now
      obtain ⟨batch, isDue, rfl⟩ := List.mem_map.mp now
      exact ⟨((due batch).mp isDue).2, by simp only; omega⟩
  · rw [slashedBatches_append, batches]
    refine looked.nodup.append (sorted.imp fun {first second} less same => ?_) ?_
    · rw [same] at less
      exact lt_irrefl _ less
    · intro batch earlier isDue
      obtain ⟨⟨blockHeight, _⟩, seen, rfl⟩ := List.mem_map.mp earlier
      have before := looked.punctual _ seen
      have now := ((due _).mp isDue).2
      simp only at before now
      omega

/-- **A step keeps it**, if it stores no second batch of a block. -/
theorem BatchesLooked.step {input : BlockInput β τ σ} (looked : BatchesLooked params past before)
    (noRestart : ¬ input.IsRestart) (single : OneBatchPerBlock geth before input)
    (step : blockStep sdk bank geth evm others staking params before input = some (after, outputs)) :
    BatchesLooked params (past ++ outputs) after := by
  cases blockStep_cases step with
  | staking change taken node cursors height silent =>
      subst silent
      exact looked.same (node ▸ looked.indexed.thinned)
        (congrArg (fun cursors : Nat × Nat × Nat => cursors.2.1) cursors) height rfl
  | within action made taken inside acts slashing height reported =>
      subst reported
      rcases nodeStep_batches inside acts with same | ⟨isValidator, denom, maxElements, blockHeight, batch,
        isRequest, requested⟩
      · exact looked.same (looked.indexed.same same) (by rw [slashing]) height
          (slashedObjects_map_node made)
      · have isHeight : blockHeight = before.blockHeight ∧
            ∃ given, action = .bridge isValidator (.requestBatch denom maxElements given) := by
          cases action with
          | bridge isValidator action =>
              cases action with
              | requestBatch denom maxElements given =>
                  cases isRequest
                  exact ⟨rfl, given, rfl⟩
              | _ => cases isRequest
          | _ => cases isRequest
        obtain ⟨rfl, given, rfl⟩ := isHeight
        subst taken
        simp only [OneBatchPerBlock, requested] at single
        unfold requestBatch at requested
        split at requested
        · cases requested
        · rcases Outgoing.buildOutgoingTXBatch_blocks requested with ⟨bad, _⟩ | ⟨built, is, block, nonce,
            batches, blocks, counter⟩
          · cases bad
          · exact looked.build block nonce batches blocks counter single slashing height
              (slashedObjects_map_node made)
  | halted isValidator env taken running node slashing height reported =>
      refine looked.same (by rw [node]; exact looked.indexed.thinned) (by rw [slashing]) height ?_
      rcases reported with ⟨reason, rfl⟩ | ⟨reason, rfl⟩ <;> rfl
  | restarted valsetReward attestations delegateKeys taken restarts slashing height silent =>
      subst taken
      exact absurd trivial noRestart
  | ended isValidator env chain report rounds taken running fits slashed ends node height reported =>
      refine looked.ended slashed ?_ height reported
      rw [node]
      exact endBlocker_batches looked.indexed ends

/-- **What the next end of a block looks at.** -/
theorem BatchesLooked.next (looked : BatchesLooked params past before)
    {isValidator : ValAddress → Bool} {env : EndBlockEnv}
    (step : blockStep sdk bank geth evm others staking params before
      (.node (.bridge isValidator (.endBlock env))) = some (after, outputs))
    (running : after.node.halted = false) (batch : OutgoingTxBatch) :
    (before.blockHeight, batch) ∈ slashedOf EthereumSigned.batch? outputs ↔
      batch ∈ before.node.keeper.chain.app.outgoing.batches.values ∧
        before.blockHeight = batch.block + params.signedBatchesWindow + 1 := by
  generalize taken : BlockInput.node (NodeInput.bridge isValidator (.endBlock env)) = input at step
  cases blockStep_cases step with
  | staking change same node cursors height silent =>
      subst same
      cases taken
  | within action made same inside acts slashing height reported =>
      subst same
      obtain rfl := BlockInput.node.inj taken
      exact inside.elim
  | halted isValidator env same wasRunning node slashing height reported =>
      rw [node] at running
      cases running
  | restarted valsetReward attestations delegateKeys same restarts slashing height silent =>
      subst same
      cases taken
  | ended isValidator env chain report rounds same wasRunning fits slashed ends node height reported =>
      rw [reported, (slashed.batches _).1, ← looked.mem_dueBatches, List.mem_map]
      constructor
      · rintro ⟨other, isDue, same⟩
        obtain rfl := (Prod.mk.inj same).2
        exact isDue
      · exact fun isDue => ⟨batch, isDue, rfl⟩

/-- **Batch slashing in its windows.** In every run without restarts in which no second batch of a block is
stored: no batch is looked at twice, and the next end of a block looks at a batch if and only if it is still
stored and its window is exceeded for the first time. -/
theorem batches_slashed_on_time (network : Params) (balances : β) (eth : Ethereum τ) (start : σ)
    (inputs : List (BlockInput β τ σ)) (final : BlockNode β τ σ) (trace : List BlockOutput)
    (runs : run (blockStep sdk bank geth evm others staking params)
      (BlockNode.fresh network balances eth start) inputs = some (final, trace))
    (noRestart : ∀ input ∈ inputs, ¬ input.IsRestart)
    (single : StepsMeet (blockStep sdk bank geth evm others staking params)
      (OneBatchPerBlock geth) (BlockNode.fresh network balances eth start) inputs) :
    (slashedBatches trace).Nodup ∧
    ∀ isValidator env next outputs, blockStep sdk bank geth evm others staking params final
        (.node (.bridge isValidator (.endBlock env))) = some (next, outputs) →
      next.node.halted = false → ∀ batch,
        (final.blockHeight, batch) ∈ slashedOf EthereumSigned.batch? outputs ↔
          batch ∈ final.node.keeper.chain.app.outgoing.batches.values ∧
            final.blockHeight = batch.block + params.signedBatchesWindow + 1 := by
  have fresh : BatchesLooked params [] (BlockNode.fresh network balances eth start) :=
    ⟨Outgoing.indexed_empty, fun _ _ found => (by cases found), fun _ _ found => (by cases found), le_rfl,
      Or.inl rfl, fun _ _ found => (by cases found), fun _ member => absurd member List.not_mem_nil,
      List.nodup_nil⟩
  have looked : BatchesLooked params ([] ++ trace) final := run_invariant_of_meets _ _
    (fun _ _ _ _ _ meets looked step => looked.step meets.1 meets.2 step)
    (StepsMeet.and_inputs noRestart single) fresh runs
  rw [List.nil_append] at looked
  exact ⟨looked.nodup, fun _ _ _ _ step running batch => looked.next step running batch⟩

end Runs

/-! ### Two runs -/

/-- A batch of one transfer. -/
def exampleBatchRequest : BlockInput Ledger Unit Bool :=
  .node (.bridge (fun _ => true) (.requestBatch (gravityDenom exampleContract) 1 0))

/-- A batch is built in the second block; the window is one block. -/
def exampleSingleBatch : List (BlockInput Ledger Unit Bool) :=
  [.node exampleRegister, .node (exampleBlock 1), .node (.bridge (fun _ => true) (exampleTransfer 10 1)),
    exampleBatchRequest, .node (exampleBlock 2), .node (exampleBlock 3), .node (exampleBlock 4)]

theorem exampleSingleBatch_run : (run exampleBlockStep exampleBlockNode exampleSingleBatch).any
    (fun result => (slashedOf EthereumSigned.batch? result.2).map
      (fun looked => (looked.1, looked.2.batchNonce, looked.2.block)) = [(4, 1, 2)]) = true := by
  decide +kernel

/-- The fourth block looks at it. -/
theorem batches_slashed_on_time_single : ∃ final trace,
    run exampleBlockStep exampleBlockNode exampleSingleBatch = some (final, trace) ∧
    (slashedOf EthereumSigned.batch? trace).map
      (fun looked => (looked.1, looked.2.batchNonce, looked.2.block)) = [(4, 1, 2)] ∧
    (slashedBatches trace).Nodup := by
  obtain ⟨⟨final, trace⟩, runs, looked⟩ := (Option.any_eq_true _ _).mp exampleSingleBatch_run
  have onTime := batches_slashed_on_time exampleParams exampleLedger exampleEthereum false
    exampleSingleBatch final trace runs (by decide) (by decide +kernel)
  exact ⟨final, trace, runs, of_decide_eq_true looked, onTime.1⟩

/-- Two batches are built in the second block. -/
def exampleTwoBatches : List (BlockInput Ledger Unit Bool) :=
  [.node exampleRegister, .node (exampleBlock 1), .node (.bridge (fun _ => true) (exampleTransfer 10 1)),
    exampleBatchRequest, .node (.bridge (fun _ => true) (exampleTransfer 20 2)), exampleBatchRequest,
    .node (exampleBlock 2), .node (exampleBlock 3), .node (exampleBlock 4), .node (exampleBlock 5)]

/-- **The first of two batches of one block is not looked at**, though it is still stored after the fifth
block. -/
theorem batch_never_slashed : ∃ final trace,
    run exampleBlockStep exampleBlockNode exampleTwoBatches = some (final, trace) ∧
    (slashedOf EthereumSigned.batch? trace).map
      (fun looked => (looked.1, looked.2.batchNonce, looked.2.block)) = [(4, 2, 2)] ∧
    ∃ batch ∈ final.node.keeper.chain.app.outgoing.batches.values,
      batch.batchNonce = 1 ∧ batch.block = 2 ∧
      batch.block + exampleSlashingParams.signedBatchesWindow + 1 < final.blockHeight ∧
      batch ∉ slashedBatches trace := by
  have missed : (run exampleBlockStep exampleBlockNode exampleTwoBatches).any (fun result =>
      decide ((slashedOf EthereumSigned.batch? result.2).map
        (fun looked => (looked.1, looked.2.batchNonce, looked.2.block)) = [(4, 2, 2)] ∧
      ∃ batch ∈ result.1.node.keeper.chain.app.outgoing.batches.values,
        batch.batchNonce = 1 ∧ batch.block = 2 ∧
        batch.block + exampleSlashingParams.signedBatchesWindow + 1 < result.1.blockHeight ∧
        batch ∉ slashedBatches result.2)) = true := by
    decide +kernel
  obtain ⟨⟨final, trace⟩, runs, holds⟩ := (Option.any_eq_true _ _).mp missed
  exact ⟨final, trace, runs, of_decide_eq_true holds⟩

end NabBridge
