/-
**What a step can do, from any state.**

After a restart ids may come up again, so the invariant of the pool and the batches (`Outgoing.Sound`)
cannot be relied on. What remains true of every step, whatever the state:

* `Outgoing.Shuffled`: records are moved between pool and batches or taken out, batches are deleted, and
  neither the counters nor the recorded checkpoints change;
* `BridgeEffect`: a step of the module is such a shuffle, or it sends a transfer, stores a batch, or
  stores a validator set, each under the next number and the last two with their checkpoint recorded.

`bridgeStep_effect` says so for every action of `bridgeStep`.
-/

import NabBridge.Proof.Outgoing
import NabBridge.System.Bridge

namespace NabBridge

/-! ### Pool and batches -/

namespace Outgoing

/-- The ids of all records that are waiting. -/
def txIds (outgoing : Outgoing) : List Nat := outgoing.records.map OutgoingTransferTx.id

theorem mem_txIds_of_pool {outgoing : Outgoing} {key : StoreKey} {tx : OutgoingTransferTx}
    (found : outgoing.pool.get key = some tx) : tx.id ∈ outgoing.txIds :=
  List.mem_map_of_mem (mem_records_of_pool found)

theorem mem_txIds_of_batch {outgoing : Outgoing} {key : StoreKey} {batch : OutgoingTxBatch}
    {tx : OutgoingTransferTx} (found : outgoing.batches.get key = some batch)
    (member : tx ∈ batch.transactions) : tx.id ∈ outgoing.txIds :=
  List.mem_map_of_mem (List.mem_append_right _ (mem_batched found member))

theorem mem_txIds {outgoing : Outgoing} {id : Nat} (member : id ∈ outgoing.txIds) :
    (∃ key tx, outgoing.pool.get key = some tx ∧ tx.id = id) ∨
      ∃ key batch, outgoing.batches.get key = some batch ∧ ∃ tx ∈ batch.transactions, tx.id = id := by
  obtain ⟨tx, inRecords, rfl⟩ := List.mem_map.mp member
  rcases List.mem_append.mp inRecords with inPool | inBatch
  · obtain ⟨key, found⟩ := (outgoing.pool.mem_values_iff tx).mp inPool
    exact Or.inl ⟨key, tx, found, rfl⟩
  · obtain ⟨batch, stored, inside⟩ := List.mem_flatMap.mp inBatch
    obtain ⟨key, found⟩ := (outgoing.batches.mem_values_iff batch).mp stored
    exact Or.inr ⟨key, batch, found, tx, inside, rfl⟩

/-- Nothing is new but the place of a record. -/
structure Shuffled (before after : Outgoing) : Prop where
  pool : ∀ key tx, after.pool.get key = some tx → tx.id ∈ before.txIds
  batches : ∀ key batch, after.batches.get key = some batch → before.batches.get key = some batch
  lastTxPoolId : after.lastTxPoolId = before.lastTxPoolId
  lastOutgoingBatchId : after.lastOutgoingBatchId = before.lastOutgoingBatchId
  checkpoints : after.pastEthSignatureCheckpoints = before.pastEthSignatureCheckpoints

theorem Shuffled.refl (outgoing : Outgoing) : Shuffled outgoing outgoing :=
  ⟨fun _ _ => mem_txIds_of_pool, fun _ _ => id, rfl, rfl, rfl⟩

theorem Shuffled.txIds {before after : Outgoing} (shuffled : Shuffled before after) {id : Nat}
    (member : id ∈ after.txIds) : id ∈ before.txIds := by
  rcases mem_txIds member with ⟨key, tx, found, rfl⟩ | ⟨key, batch, found, tx, inside, rfl⟩
  · exact shuffled.pool key tx found
  · exact mem_txIds_of_batch (shuffled.batches key batch found) inside

theorem Shuffled.trans {first second third : Outgoing} (left : Shuffled first second)
    (right : Shuffled second third) : Shuffled first third where
  pool key tx found := left.txIds (right.pool key tx found)
  batches key batch found := left.batches key batch (right.batches key batch found)
  lastTxPoolId := right.lastTxPoolId.trans left.lastTxPoolId
  lastOutgoingBatchId := right.lastOutgoingBatchId.trans left.lastOutgoingBatchId
  checkpoints := right.checkpoints.trans left.checkpoints

theorem removeUnbatchedTX_shuffled {outgoing after : Outgoing} {fee : ERC20Token} {txId : Nat}
    (removed : outgoing.removeUnbatchedTX fee txId = .ok after) :
    Shuffled outgoing after ∧ after.batches = outgoing.batches := by
  obtain ⟨_, rfl⟩ := removeUnbatchedTX_eq_ok removed
  refine ⟨⟨fun key tx found => ?_, fun _ _ => id, rfl, rfl, rfl⟩, rfl⟩
  rw [Store.get_delete] at found
  split_ifs at found
  exact mem_txIds_of_pool found

theorem putBack_meets {before current : Outgoing} {tx : OutgoingTransferTx}
    (shuffled : Shuffled before current) (known : tx.id ∈ before.txIds) :
    (putBack current tx).Meets (Shuffled before) fun _ => True := by
  unfold putBack
  split
  · rename_i after added
    obtain ⟨_, rfl⟩ := addUnbatchedTX_eq_ok added
    refine ⟨fun key other found => ?_, shuffled.batches, shuffled.lastTxPoolId,
      shuffled.lastOutgoingBatchId, shuffled.checkpoints⟩
    rw [Store.get_set] at found
    split_ifs at found
    · exact Option.some.inj found ▸ known
    · exact shuffled.pool key other found
  · trivial

theorem deleteBatch_shuffled (outgoing : Outgoing) (batch : OutgoingTxBatch) :
    Shuffled outgoing (outgoing.deleteBatch batch) := by
  refine ⟨fun _ _ found => (mem_txIds_of_pool (show outgoing.pool.get _ = _ from found)), fun key other found => ?_,
    rfl, rfl, rfl⟩
  unfold deleteBatch at found
  rw [Store.get_delete] at found
  split_ifs at found
  exact found

/-- The records of a batch that is read are those of a stored one, up to their contracts. -/
theorem txIds_of_getOutgoingTXBatch {outgoing : Outgoing} {tokenContract : Bytes} {nonce : Nat}
    {batch : OutgoingTxBatch} (read : outgoing.getOutgoingTXBatch tokenContract nonce = some batch)
    {tx : OutgoingTransferTx} (member : tx ∈ batch.transactions) : tx.id ∈ outgoing.txIds := by
  obtain ⟨stored, found, rfl⟩ := Option.map_eq_some_iff.mp read
  obtain ⟨original, inside, rfl⟩ := List.mem_map.mp member
  show original.id ∈ outgoing.txIds
  exact mem_txIds_of_batch found inside

theorem cancelOutgoingTXBatch_meets (outgoing : Outgoing) (tokenContract : Bytes) (nonce : Nat) :
    (outgoing.cancelOutgoingTXBatch tokenContract nonce).Meets (Shuffled outgoing) fun _ => True := by
  unfold cancelOutgoingTXBatch
  split
  · trivial
  · rename_i batch read
    refine Outcome.Meets.bind (Outcome.Meets.foldlM (fun current tx member shuffled => ?_)
      (Shuffled.refl outgoing)) fun after shuffled => shuffled.trans (deleteBatch_shuffled _ _)
    exact putBack_meets shuffled (txIds_of_getOutgoingTXBatch read member)

theorem outgoingTxBatchExecuted_meets (outgoing : Outgoing) (tokenContract : Bytes) (nonce : Nat) :
    (outgoing.outgoingTxBatchExecuted tokenContract nonce).Meets (Shuffled outgoing)
      fun _ => True := by
  unfold outgoingTxBatchExecuted
  split
  · trivial
  · rename_i batch read
    refine Outcome.Meets.bind (Outcome.Meets.foldlM (fun current earlier _ shuffled => ?_)
      (Shuffled.refl outgoing)) fun after shuffled => shuffled.trans (deleteBatch_shuffled _ _)
    unfold cancelEarlier
    split_ifs
    · have cancelled := cancelOutgoingTXBatch_meets current tokenContract earlier.batchNonce
      split
      · rename_i after done
        exact shuffled.trans (cancelled.ok done)
      · trivial
      · trivial
    · exact shuffled

theorem cleanupTimedOutBatches_meets (outgoing : Outgoing) (ethereumHeight : Nat) :
    (outgoing.cleanupTimedOutBatches ethereumHeight).Meets (Shuffled outgoing) fun _ => True := by
  unfold cleanupTimedOutBatches
  refine Outcome.Meets.foldlM (fun current batch _ shuffled => ?_) (Shuffled.refl outgoing)
  unfold cleanupTimedOutBatch
  split_ifs
  · have cancelled := cancelOutgoingTXBatch_meets current batch.tokenContract batch.batchNonce
    split
    · rename_i after done
      exact shuffled.trans (cancelled.ok done)
    · exact shuffled
    · trivial
  · exact shuffled

/-- **Picking** takes records out of the pool and leaves the batches alone. -/
theorem pickUnbatchedTX_meets {maxElements : Nat} {before : Outgoing}
    (selected rest : List OutgoingTransferTx) {outgoing : Outgoing}
    (picked : ∀ tx ∈ selected, tx.id ∈ before.txIds) (known : ∀ tx ∈ rest, tx.id ∈ before.txIds)
    (shuffled : Shuffled before outgoing) (batches : outgoing.batches = before.batches) :
    (pickUnbatchedTX maxElements selected rest outgoing).Meets
      (fun result => (∀ tx ∈ result.1, tx.id ∈ before.txIds) ∧ Shuffled before result.2 ∧
        result.2.batches = before.batches) fun _ => True := by
  induction rest generalizing selected outgoing with
  | nil => exact ⟨picked, shuffled, batches⟩
  | cons tx rest ih =>
      have now : ∀ other ∈ selected ++ [tx], other.id ∈ before.txIds := by
        intro other member
        rcases List.mem_append.mp member with earlier | last
        · exact picked other earlier
        · exact List.mem_singleton.mp last ▸ known tx List.mem_cons_self
      unfold pickUnbatchedTX
      split
      · split_ifs <;> trivial
      · rename_i after removed
        obtain ⟨taken, same⟩ := removeUnbatchedTX_shuffled removed
        split_ifs
        · trivial
        · exact ⟨now, shuffled.trans taken, same.trans batches⟩
        · exact ih _ now (fun other member => known other (List.mem_cons_of_mem _ member))
            (shuffled.trans taken) (same.trans batches)

/-- A batch of known records is stored under the next nonce, and its checkpoint is recorded. -/
structure Stores (geth : Geth) (gravityID : Bytes) (before : Outgoing) (batch : OutgoingTxBatch)
    (after : Outgoing) : Prop where
  nonce : batch.batchNonce = before.nextBatchNonce
  txIds : ∀ tx ∈ batch.transactions, tx.id ∈ before.txIds
  pool : ∀ key tx, after.pool.get key = some tx → tx.id ∈ before.txIds
  batches : after.batches = before.batches.set batch.key batch
  lastTxPoolId : after.lastTxPoolId = before.lastTxPoolId
  lastOutgoingBatchId : after.lastOutgoingBatchId = some (batch.batchNonce + 1)
  checkpoint : ∃ checkpoint, batch.getCheckpoint geth gravityID = .ok checkpoint ∧
    after.pastEthSignatureCheckpoints =
      (before.setPastEthSignatureCheckpoint checkpoint).pastEthSignatureCheckpoints

theorem liftCheckpoint_eq_ok {ε α : Type} {outcome : Outcome Empty CheckpointPanic α} {value : α} :
    (liftCheckpoint outcome : Outcome ε PoolPanic α) = .ok value ↔ outcome = .ok value := by
  cases outcome with
  | ok value => simp [liftCheckpoint]
  | error reason => exact reason.elim
  | panic reason => simp [liftCheckpoint]

/-- **Building a batch** stores it, unless there was nothing to pick. -/
theorem buildOutgoingTXBatch_effect {geth : Geth} {params : Params}
    {heights : LastObservedEthereumBlockHeight} {blockHeight maxElements : Nat}
    {contractAddress : Bytes} {outgoing after : Outgoing} {made : Option OutgoingTxBatch}
    (built : outgoing.buildOutgoingTXBatch geth params heights blockHeight contractAddress
      maxElements = .ok (made, after)) :
    (made = none ∧ Shuffled outgoing after) ∨
      ∃ batch, made = some batch ∧ Stores geth params.gravityId outgoing batch after := by
  unfold buildOutgoingTXBatch at built
  split_ifs at built
  obtain ⟨_, _, built⟩ := Outcome.bind_eq_ok.mp built
  obtain ⟨⟨selected, rest⟩, picked, built⟩ := Outcome.bind_eq_ok.mp built
  have known : ∀ tx ∈ outgoing.unbatchedTransactions
      (getOutgoingTxPoolContractPrefix contractAddress), tx.id ∈ outgoing.txIds := by
    intro tx member
    obtain ⟨key, stored, _⟩ := mem_unbatchedTransactions member
    exact mem_txIds_of_pool stored
  obtain ⟨ids, shuffled, batches⟩ := (pickUnbatchedTX_meets [] _
    (fun _ member => absurd member List.not_mem_nil) known (Shuffled.refl outgoing) rfl).ok picked
  simp only at ids shuffled batches built
  split_ifs at built
  · obtain ⟨rfl, rfl⟩ := Prod.mk.inj (Outcome.ok.inj built)
    exact Or.inl ⟨rfl, shuffled⟩
  · obtain ⟨timeout, _, built⟩ := Outcome.bind_eq_ok.mp built
    obtain ⟨checkpoint, computed, built⟩ := Outcome.bind_eq_ok.mp built
    obtain ⟨rfl, rfl⟩ := Prod.mk.inj (Outcome.ok.inj built)
    refine Or.inr ⟨_, rfl, ?_, ids, shuffled.pool, ?_, shuffled.lastTxPoolId, rfl, checkpoint,
      liftCheckpoint_eq_ok.mp computed, ?_⟩
    · show rest.lastOutgoingBatchId.getD 1 = outgoing.nextBatchNonce
      rw [shuffled.lastOutgoingBatchId]
      rfl
    · rw [← batches]
      rfl
    · show rest.pastEthSignatureCheckpoints.set _ _ = outgoing.pastEthSignatureCheckpoints.set _ _
      rw [shuffled.checkpoints]

/-- A record with the next id goes into the pool, unless its key is taken. -/
structure Sends (before : Outgoing) (tx : OutgoingTransferTx) (after : Outgoing) : Prop where
  id : tx.id = before.nextTxId
  pool : ∀ key other, after.pool.get key = some other → other = tx ∨ before.pool.get key = some other
  batches : after.batches = before.batches
  lastTxPoolId : after.lastTxPoolId = some (tx.id + 1)
  lastOutgoingBatchId : after.lastOutgoingBatchId = before.lastOutgoingBatchId
  checkpoints : after.pastEthSignatureCheckpoints = before.pastEthSignatureCheckpoints

theorem issue_sends (outgoing : Outgoing) (record : Nat → OutgoingTransferTx)
    (idIs : ∀ id, (record id).id = id) :
    Sends outgoing (record (outgoing.issue record).1) (outgoing.issue record).2 := by
  unfold issue autoIncrementID
  simp only
  split
  · rename_i after added
    obtain ⟨_, rfl⟩ := addUnbatchedTX_eq_ok added
    refine ⟨idIs _, fun key other found => ?_, rfl, by rw [idIs], rfl, rfl⟩
    rw [Store.get_set] at found
    split_ifs at found
    · exact Or.inl (Option.some.inj found).symm
    · exact Or.inr found
  · exact ⟨idIs _, fun _ _ => Or.inr, rfl, by rw [idIs], rfl, rfl⟩

end Outgoing

/-! ### Validator sets -/

namespace ValsetStore

/-- Sets may have been deleted. -/
structure Within (before after : ValsetStore) : Prop where
  valsets : ∀ key valset, after.valsets.get key = some valset → before.valsets.get key = some valset
  latestValsetNonce : after.latestValsetNonce = before.latestValsetNonce

theorem Within.refl (store : ValsetStore) : Within store store := ⟨fun _ _ => id, rfl⟩

theorem Within.trans {first second third : ValsetStore} (left : Within first second)
    (right : Within second third) : Within first third :=
  ⟨fun key valset found => left.valsets key valset (right.valsets key valset found),
    right.latestValsetNonce.trans left.latestValsetNonce⟩

end ValsetStore

theorem pruneValsets_within (env : EndBlockEnv) (lastObserved : Option Valset) (store : ValsetStore) :
    store.Within (pruneValsets env lastObserved store) := by
  unfold pruneValsets
  split
  · exact ValsetStore.Within.refl store
  · split_ifs
    · exact ValsetStore.Within.refl store
    · refine List.foldlRecOn _ _ (ValsetStore.Within.refl store) fun current within set _ => ?_
      split_ifs
      · refine within.trans ⟨fun key valset found => ?_, rfl⟩
        rw [Store.get_delete] at found
        split_ifs at found
        exact found
      · exact within

theorem getCurrentValset_nonce {sdk : Sdk} {keys : DelegateKeys} {index : DenomIndex}
    {sources : ValsetSources} {valset : Valset}
    (built : getCurrentValset sdk keys index sources = .ok valset) :
    valset.nonce = sources.latestValsetNonce + 1 := by
  unfold getCurrentValset at built
  obtain ⟨members, _, built⟩ := Outcome.bind_eq_ok.mp built
  obtain ⟨reward, _, built⟩ := Outcome.bind_eq_ok.mp built
  obtain rfl := Outcome.ok.inj built
  rfl

/-- The next validator set is stored, with its checkpoint computed. -/
structure ValsetStore.Stores (geth : Geth) (gravityID : Bytes) (before : ValsetStore)
    (made : Valset × Bytes) (after : ValsetStore) : Prop where
  nonce : made.1.nonce = before.latestValsetNonce + 1
  checkpoint : made.1.getCheckpoint geth gravityID = .ok made.2
  store : after = ⟨before.valsets.set (getValsetKey made.1.nonce) made.1, made.1.nonce⟩

theorem setValsetRequest_stores {sdk : Sdk} {geth : Geth} {gravityID : Bytes} {keys : DelegateKeys}
    {index : DenomIndex} {sources : ValsetSources} {store after : ValsetStore}
    {made : Valset × Bytes} (latest : sources.latestValsetNonce = store.latestValsetNonce)
    (requested : setValsetRequest sdk geth gravityID keys index sources store = .ok (made, after)) :
    store.Stores geth gravityID made after := by
  unfold setValsetRequest at requested
  split at requested
  · rename_i reason _
    exact reason.elim
  · cases requested
  · rename_i valset built
    simp only at requested
    split at requested
    · rename_i reason _
      exact reason.elim
    · cases requested
    · rename_i checkpoint computed
      obtain ⟨rfl, rfl⟩ := Prod.mk.inj (Outcome.ok.inj requested)
      exact ⟨(getCurrentValset_nonce built).trans (by rw [latest]), computed, rfl⟩

/-- The height of a new set is the block it is made in. -/
theorem setValsetRequest_height {sdk : Sdk} {geth : Geth} {gravityID : Bytes} {keys : DelegateKeys}
    {index : DenomIndex} {sources : ValsetSources} {store after : ValsetStore}
    {made : Valset × Bytes}
    (requested : setValsetRequest sdk geth gravityID keys index sources store = .ok (made, after)) :
    made.1.height = sources.blockHeight := by
  unfold setValsetRequest at requested
  split at requested
  · rename_i reason _
    exact reason.elim
  · cases requested
  · simp only at requested
    split at requested
    · rename_i reason _
      exact reason.elim
    · cases requested
    · obtain ⟨rfl, rfl⟩ := Prod.mk.inj (Outcome.ok.inj requested)
      rfl

/-- **`createValsets` asks for a set**, or keeps the latest one. -/
theorem createValsets_cases {sdk : Sdk} {geth : Geth} {params : Params} {env : EndBlockEnv}
    {index : DenomIndex} {store after : ValsetStore} {made : Option (Valset × Bytes)}
    (created : createValsets sdk geth params env index store = .ok (made, after)) :
    (made = none ∧ after = store ∧
      (store.valsets.get (getValsetKey store.latestValsetNonce)).isSome) ∨
      ∃ pair, made = some pair ∧ setValsetRequest sdk geth params.gravityId env.keys index
        (env.valsetSources store.latestValsetNonce) store = .ok (pair, after) := by
  have makes : ∀ {made : Option (Valset × Bytes)} {after : ValsetStore},
      ((setValsetRequest sdk geth params.gravityId env.keys index
          (env.valsetSources store.latestValsetNonce) store >>= fun result =>
        pure (some result.1, result.2)) : Outcome Empty ValsetRequestPanic _) = .ok (made, after) →
      ∃ pair, made = some pair ∧ setValsetRequest sdk geth params.gravityId env.keys index
        (env.valsetSources store.latestValsetNonce) store = .ok (pair, after) := by
    intro made after done
    obtain ⟨⟨pair, store'⟩, requested, done⟩ := Outcome.bind_eq_ok.mp done
    obtain ⟨rfl, rfl⟩ := Prod.mk.inj (Outcome.ok.inj done)
    exact ⟨pair, rfl, requested⟩
  unfold createValsets at created
  simp only at created
  split at created
  · exact Or.inr (makes created)
  · rename_i latest stored
    by_cases unbonding : env.unbonding
    · rw [if_pos unbonding] at created
      exact Or.inr (makes created)
    · rw [if_neg unbonding] at created
      split at created
      · rename_i reason _
        exact reason.elim
      · cases created
      · by_cases differs : env.powerDiffers
        · rw [if_pos differs] at created
          exact Or.inr (makes created)
        · rw [if_neg differs] at created
          obtain ⟨rfl, rfl⟩ := Prod.mk.inj (Outcome.ok.inj created)
          exact Or.inl ⟨rfl, rfl, Option.isSome_iff_exists.mpr ⟨latest, stored⟩⟩

/-- **`createValsets` stores the next set**, or does nothing. -/
theorem createValsets_effect {sdk : Sdk} {geth : Geth} {params : Params} {env : EndBlockEnv}
    {index : DenomIndex} {store after : ValsetStore} {made : Option (Valset × Bytes)}
    (created : createValsets sdk geth params env index store = .ok (made, after)) :
    (made = none ∧ after = store) ∨
      ∃ pair, made = some pair ∧ store.Stores geth params.gravityId pair after := by
  rcases createValsets_cases created with ⟨none, same, _⟩ | ⟨pair, made, requested⟩
  · exact Or.inl ⟨none, same⟩
  · exact Or.inr ⟨pair, made, setValsetRequest_stores rfl requested⟩

/-! ### The tally -/

/-- **What the handler keeps of the claims so far and its state**, the tally keeps. -/
theorem attestationTally_claims {σ ε π : Type} {sdk : Sdk} {staking : StakingPowers}
    {handle : Attestation → EthereumClaim → σ → Outcome ε π σ} {blockHeight : Nat}
    {P : List EthereumClaim → σ → Prop}
    (kept : ∀ claims att claim app after, P claims app → handle att claim app = .ok after →
      P (claims ++ [claim]) after)
    (failed : ∀ claims claim app, P claims app → P (claims ++ [claim]) app)
    {oracle : Oracle} {app : σ} (initially : P [] app) :
    (attestationTally sdk staking handle blockHeight oracle app).Meets
      (fun ctx => P (ctx.observations.map Observation.claim) ctx.app) fun _ => True := by
  refine Outcome.Meets.foldlM (fun ctx nonce _ holds => ?_) initially
  refine Outcome.Meets.foldlM (fun ctx att _ holds => ?_) holds
  unfold tallyAttestation tryAttestation processAttestation
  split_ifs
  · trivial
  · trivial
  · cases handled : handle { att with observed := true } att.claim.sortMembers ctx.app with
    | ok after =>
        simp only [handled, Outcome.meets_ok, List.map_append]
        exact kept _ _ _ _ _ holds handled
    | error reason =>
        simp only [handled, Outcome.meets_ok, List.map_append]
        exact failed _ _ _ holds
    | panic reason =>
        simp only [handled]
        trivial
  · exact holds
  · exact holds

/-- What the handler keeps, the tally keeps. -/
theorem attestationTally_keeps {σ ε π : Type} {sdk : Sdk} {staking : StakingPowers}
    {handle : Attestation → EthereumClaim → σ → Outcome ε π σ} {blockHeight : Nat} {P : σ → Prop}
    (kept : ∀ att claim app after, P app → handle att claim app = .ok after → P after)
    {oracle : Oracle} {app : σ} (initially : P app) :
    (attestationTally sdk staking handle blockHeight oracle app).Meets (fun ctx => P ctx.app)
      fun _ => True :=
  attestationTally_claims (P := fun _ app => P app) (fun _ => kept) (fun _ _ _ => id) initially

theorem handle_shuffled {β : Type} {sdk : Sdk} {bank : BankKeeper β} {params : Params}
    {att : Attestation} {claim : EthereumClaim} {state after : ModuleState β}
    (done : handle sdk bank params att claim state = .ok after) :
    state.outgoing.Shuffled after.outgoing := by
  have effect := handle_effect done
  cases claim with
  | batchSendToEth msg =>
      exact (Outgoing.outgoingTxBatchExecuted_meets state.outgoing msg.tokenContract
        msg.batchNonce).ok effect.1
  | sendToCosmos msg => exact effect.1 ▸ Outgoing.Shuffled.refl _
  | erc20Deployed msg => exact effect.1 ▸ Outgoing.Shuffled.refl _
  | logicCallExecuted msg => exact effect.1 ▸ Outgoing.Shuffled.refl _
  | valsetUpdated msg => exact effect.1 ▸ Outgoing.Shuffled.refl _

/-! ### One step of the bridge -/

/-- Whether an output reports a number that was given out. -/
def BridgeOutput.Issues : BridgeOutput → Prop
  | .sent _ | .batchStored _ | .valsetStored _ => True
  | _ => False

/-- **What a step does to the numbered objects and the recorded checkpoints.** -/
inductive BridgeEffect {β : Type} (geth : Geth) (gravityID : Bytes) (before : Chain β)
    (outputs : List BridgeOutput) (after : Chain β) : Prop where
  | quiet (outgoing : before.app.outgoing.Shuffled after.app.outgoing)
      (valsets : before.valsets.Within after.valsets) (silent : ∀ output ∈ outputs, ¬ output.Issues)
  | sent (tx : OutgoingTransferTx) (outgoing : before.app.outgoing.Sends tx after.app.outgoing)
      (valsets : after.valsets = before.valsets) (reported : outputs = [.sent tx])
  | batchStored (batch : OutgoingTxBatch)
      (outgoing : before.app.outgoing.Stores geth gravityID batch after.app.outgoing)
      (valsets : after.valsets = before.valsets) (reported : outputs = [.batchStored batch])
  | valsetStored (made : Valset × Bytes) (shuffled : Outgoing) (stored : ValsetStore)
      (earlier : List BridgeOutput) (outgoing : before.app.outgoing.Shuffled shuffled)
      (recorded : after.app.outgoing = shuffled.setPastEthSignatureCheckpoint made.2)
      (stores : before.valsets.Stores geth gravityID made stored)
      (valsets : stored.Within after.valsets) (silent : ∀ output ∈ earlier, ¬ output.Issues)
      (reported : outputs = earlier ++ [.valsetStored made.1])

section Step

variable {β τ : Type} {sdk : Sdk} {bank : BankKeeper β} {geth : Geth} {params : Params} {evm : Evm}
  {others : Contracts τ}

/-- A step that changes nothing of this. -/
theorem BridgeEffect.same {gravityID : Bytes} {before after : Chain β} {outputs : List BridgeOutput}
    (outgoing : after.app.outgoing = before.app.outgoing) (valsets : after.valsets = before.valsets)
    (silent : ∀ output ∈ outputs, ¬ output.Issues) :
    BridgeEffect geth gravityID before outputs after :=
  .quiet (outgoing ▸ Outgoing.Shuffled.refl _) (valsets ▸ ValsetStore.Within.refl _) silent

theorem BridgeEffect.nothing {gravityID : Bytes} (chain : Chain β) :
    BridgeEffect geth gravityID chain [] chain :=
  .same rfl rfl fun _ member => absurd member List.not_mem_nil

theorem sendToEth_effect {sender : AccAddress} {receiver : Bytes} {amount fee : Coin} {id : Nat}
    {chain : Chain β} {app : ModuleState β}
    (sent : addToOutgoingPool sdk bank sender receiver amount fee chain.app = .ok (id, app)) :
    BridgeEffect geth params.gravityId chain (sentTx sdk chain.app id sender receiver amount fee)
      { chain with app := app } := by
  obtain ⟨_, _, contract, balances, lookup, _, rfl, rfl⟩ := addToOutgoingPool_eq_ok sent
  refine .sent _ (Outgoing.issue_sends chain.app.outgoing _ fun _ => rfl) rfl ?_
  unfold sentTx
  rw [lookup]

theorem cancelSendToEth_effect {txId : Nat} {sender : AccAddress} {chain : Chain β}
    {app : ModuleState β}
    (removed : removeFromOutgoingPoolAndRefund sdk bank txId sender chain.app = .ok app)
    {outputs : List BridgeOutput} (silent : ∀ output ∈ outputs, ¬ output.Issues) :
    BridgeEffect geth params.gravityId chain outputs { chain with app := app } := by
  obtain ⟨tx, outgoing, coins, balances, _, _, _, gone, _, _, rfl⟩ :=
    removeFromOutgoingPoolAndRefund_eq_ok removed
  exact .quiet (Outgoing.removeUnbatchedTX_shuffled gone).1 (ValsetStore.Within.refl _) silent

theorem requestBatch_effect {denom : Bytes} {maxElements blockHeight : Nat} {chain : Chain β}
    {made : Option OutgoingTxBatch} {outgoing : Outgoing}
    (requested : requestBatch geth params denom maxElements blockHeight chain = .ok (made, outgoing)) :
    BridgeEffect geth params.gravityId chain (made.map BridgeOutput.batchStored).toList
      { chain with app := { chain.app with outgoing := outgoing } } := by
  unfold requestBatch at requested
  split at requested
  · cases requested
  · rcases Outgoing.buildOutgoingTXBatch_effect requested with ⟨rfl, shuffled⟩ | ⟨batch, rfl, stores⟩
    · exact .quiet shuffled (ValsetStore.Within.refl _) fun _ member => absurd member List.not_mem_nil
    · exact .batchStored batch stores rfl rfl

/-- The outputs of a block that ended, before the validator set. -/
theorem endBlockOutputs_silent (before after : Outgoing) (report : EndBlockReport) :
    ∃ earlier, (∀ output ∈ earlier, ¬ output.Issues) ∧ endBlockOutputs before after report =
      earlier ++ (report.valset.map BridgeOutput.valsetStored).toList := by
  let claims := report.observations.map Observation.claim
  let executed := executedBatches before claims
  refine ⟨claims.map .observed ++ (executed.map .executed ++
    (cancelledBatches before after executed).map .cancelled), fun output member => ?_, ?_⟩
  · rcases List.mem_append.mp member with observed | member
    · obtain ⟨_, _, rfl⟩ := List.mem_map.mp observed
      exact id
    · rcases List.mem_append.mp member with settled | cancelled
      · obtain ⟨_, _, rfl⟩ := List.mem_map.mp settled
        exact id
      · obtain ⟨_, _, rfl⟩ := List.mem_map.mp cancelled
        exact id
  · rw [List.append_assoc, List.append_assoc]
    rfl

theorem endBlock_effect {env : EndBlockEnv} {chain after : Chain β} {report : EndBlockReport}
    (ended : endBlocker sdk bank geth params env chain = .ok (after, report)) :
    BridgeEffect geth params.gravityId chain
      (endBlockOutputs chain.app.outgoing after.app.outgoing report) after := by
  obtain ⟨ctx, outgoing, made, store, counted, cleaned, created, rfl, rfl⟩ := endBlocker_eq_ok ended
  have tallied : chain.app.outgoing.Shuffled ctx.app.outgoing :=
    (attestationTally_keeps (P := fun app => chain.app.outgoing.Shuffled app.outgoing)
      (fun _ _ _ _ shuffled done => shuffled.trans (handle_shuffled done))
      (Outgoing.Shuffled.refl _)).ok counted
  have swept := tallied.trans ((Outgoing.cleanupTimedOutBatches_meets _ _).ok cleaned)
  obtain ⟨earlier, silent, outputs⟩ := endBlockOutputs_silent chain.app.outgoing
    (outgoing.recordValset made) ⟨ctx.observations, made.map Prod.fst⟩
  simp only at outputs ⊢
  rw [outputs]
  rcases createValsets_effect created with ⟨rfl, rfl⟩ | ⟨pair, rfl, stores⟩
  · refine .quiet swept (pruneValsets_within _ _ _) fun output member => ?_
    rw [Option.map_none, Option.map_none, Option.toList_none, List.append_nil] at member
    exact silent output member
  · exact .valsetStored pair outgoing store earlier swept rfl stores (pruneValsets_within _ _ _) silent
      rfl

/-- **What a step of the bridge can do**, from any state. -/
theorem bridgeStep_effect {state next : Bridge β τ} {input : BridgeInput β τ}
    {outputs : List BridgeOutput}
    (step : bridgeStep sdk bank geth params evm others state input = some (next, outputs)) :
    BridgeEffect geth params.gravityId state.chain outputs next.chain := by
  cases input with
  | sendToEth sender receiver amount fee =>
      simp only [bridgeStep] at step
      split_ifs at step
      split at step
      · rename_i id app sent
        obtain ⟨rfl, rfl⟩ := Prod.mk.inj (Option.some.inj step)
        exact sendToEth_effect sent
      · obtain ⟨rfl, rfl⟩ := Prod.mk.inj (Option.some.inj step)
        exact .nothing _
  | cancelSendToEth txId sender =>
      simp only [bridgeStep] at step
      split_ifs at step
      split at step
      · rename_i app removed
        obtain ⟨rfl, rfl⟩ := Prod.mk.inj (Option.some.inj step)
        refine cancelSendToEth_effect removed fun output member => ?_
        obtain ⟨tx, _, rfl⟩ := Option.map_eq_some_iff.mp (Option.mem_toList.mp member)
        exact id
      · obtain ⟨rfl, rfl⟩ := Prod.mk.inj (Option.some.inj step)
        exact .nothing _
  | requestBatch denom maxElements blockHeight =>
      simp only [bridgeStep] at step
      split_ifs at step
      split at step
      · rename_i batch outgoing requested
        obtain ⟨rfl, rfl⟩ := Prod.mk.inj (Option.some.inj step)
        exact requestBatch_effect requested
      · obtain ⟨rfl, rfl⟩ := Prod.mk.inj (Option.some.inj step)
        exact .nothing _
  | claim orchestratorValidator blockHeight claim =>
      simp only [bridgeStep] at step
      split_ifs at step
      split at step
      · obtain ⟨rfl, rfl⟩ := Prod.mk.inj (Option.some.inj step)
        exact .same rfl rfl fun _ member => absurd member List.not_mem_nil
      · obtain ⟨rfl, rfl⟩ := Prod.mk.inj (Option.some.inj step)
        exact .nothing _
  | endBlock env =>
      simp only [bridgeStep] at step
      split_ifs at step
      split at step
      · rename_i chain report ended
        obtain ⟨rfl, rfl⟩ := Prod.mk.inj (Option.some.inj step)
        exact endBlock_effect ended
      · rename_i reason _
        exact reason.elim
      · obtain ⟨rfl, rfl⟩ := Prod.mk.inj (Option.some.inj step)
        exact .same rfl rfl fun output member => List.mem_singleton.mp member ▸ id
  | accounts change =>
      obtain ⟨rfl, rfl⟩ := Prod.mk.inj (Option.some.inj step)
      exact .same rfl rfl fun _ member => absurd member List.not_mem_nil
  | call sender call =>
      simp only [bridgeStep] at step
      split at step
      · obtain ⟨rfl, rfl⟩ := Prod.mk.inj (Option.some.inj step)
        refine .same rfl rfl fun output member => ?_
        rcases List.mem_cons.mp member with rfl | logged
        · exact id
        · obtain ⟨_, _, rfl⟩ := List.mem_map.mp logged
          exact id
      · obtain ⟨rfl, rfl⟩ := Prod.mk.inj (Option.some.inj step)
        exact .nothing _
  | ethereum change newBlocks =>
      obtain ⟨rfl, rfl⟩ := Prod.mk.inj (Option.some.inj step)
      exact .same rfl rfl fun _ member => absurd member List.not_mem_nil

end Step

end NabBridge
