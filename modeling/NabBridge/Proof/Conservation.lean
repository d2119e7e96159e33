/-
**Outgoing transactions are conserved.**

The machine here takes the operations on the pool and the batches in any order, from a fresh store;
between them the balances and the index of denoms may change to anything. Its outputs are the history:
the records that were added, those that were refunded, the nonces of the batches that were built, and
the batches that were executed.

`places` lists where records are. `outgoing_conserved`: each id that was ever returned is in exactly
one place, with the record it was created with; ids and nonces are never issued twice; and the panics
about duplicates are not reached.

The invariant (`PoolInvariant`) is that the records waiting, refunded and executed are together a
permutation of the records added; every operation only moves records between the lists.
-/

import NabBridge.Lib.Run
import NabBridge.Proof.Outgoing

namespace NabBridge

/-- One operation. The last one stands for everything else that changes balances or the index. -/
inductive PoolInput (β : Type) where
  | addToOutgoingPool (sender : AccAddress) (counterpartReceiver : Bytes) (amount fee : Coin)
  | removeFromOutgoingPoolAndRefund (txId : Nat) (sender : AccAddress)
  | buildOutgoingTXBatch (params : Params) (heights : LastObservedEthereumBlockHeight)
      (blockHeight : Nat) (contractAddress : Bytes) (maxElements : Nat)
  | cancelOutgoingTXBatch (tokenContract : Bytes) (nonce : Nat)
  | outgoingTxBatchExecuted (tokenContract : Bytes) (nonce : Nat)
  | cleanupTimedOutBatches (ethereumHeight : Nat)
  | environment (bank : β) (index : DenomIndex)

/-- What an operation adds to the history. -/
inductive PoolOutput where
  /-- The record of a send: the arguments of the call, and the id it returned. -/
  | added (tx : OutgoingTransferTx)
  | refunded (tx : OutgoingTransferTx)
  | built (nonce : Nat)
  | executed (batch : OutgoingTxBatch)
  deriving DecidableEq, Repr

section Machine

variable {β : Type} (sdk : Sdk) (bank : BankKeeper β) (geth : Geth)

/-- The record a send was made for. -/
def requestedTx (state : ModuleState β) (id : Nat) (sender : AccAddress) (receiver : Bytes)
    (amount fee : Coin) : List PoolOutput :=
  match state.index.denomToERC20Lookup amount.denom with
  | .ok (_, contract) =>
      [.added (newOutgoingTransferTx sdk id sender receiver contract amount.amount fee.amount)]
  | .error _ => []

/-- The state after a change to the pool and the batches. -/
def ModuleState.withOutgoing (state : ModuleState β) (outgoing : Outgoing) : ModuleState β :=
  { state with outgoing := outgoing }

/-- One operation on the module. A send, a cancel or a request that fails or panics is a transaction
that is rolled back; a panic in one of the other three, which run at the end of a block, halts. -/
def poolStep (state : ModuleState β) :
    PoolInput β → Option (ModuleState β × List PoolOutput)
  | .addToOutgoingPool sender receiver amount fee =>
      match addToOutgoingPool sdk bank sender receiver amount fee state with
      | .ok (id, after) => some (after, requestedTx sdk state id sender receiver amount fee)
      | _ => some (state, [])
  | .removeFromOutgoingPoolAndRefund txId sender =>
      match removeFromOutgoingPoolAndRefund sdk bank txId sender state with
      | .ok after =>
          some (after, ((state.outgoing.getUnbatchedTxById txId).map PoolOutput.refunded).toList)
      | _ => some (state, [])
  | .buildOutgoingTXBatch params heights blockHeight contractAddress maxElements =>
      match state.outgoing.buildOutgoingTXBatch geth params heights blockHeight contractAddress
          maxElements with
      | .ok (batch, outgoing) =>
          some (state.withOutgoing outgoing, (batch.map fun batch => .built batch.batchNonce).toList)
      | _ => some (state, [])
  | .cancelOutgoingTXBatch tokenContract nonce =>
      match state.outgoing.cancelOutgoingTXBatch tokenContract nonce with
      | .ok outgoing => some (state.withOutgoing outgoing, [])
      | .error _ => some (state, [])
      | .panic _ => none
  | .outgoingTxBatchExecuted tokenContract nonce =>
      match state.outgoing.outgoingTxBatchExecuted tokenContract nonce with
      | .ok outgoing =>
          some (state.withOutgoing outgoing,
            ((state.outgoing.getOutgoingTXBatch tokenContract nonce).map PoolOutput.executed).toList)
      | .error reason => reason.elim
      | .panic _ => none
  | .cleanupTimedOutBatches ethereumHeight =>
      match state.outgoing.cleanupTimedOutBatches ethereumHeight with
      | .ok outgoing => some (state.withOutgoing outgoing, [])
      | .error reason => reason.elim
      | .panic _ => none
  | .environment balances index => some ({ state with bank := balances, index := index }, [])

end Machine

/-! ### The history -/

/-- The records that were added. -/
def addedTxs (outputs : List PoolOutput) : List OutgoingTransferTx :=
  outputs.flatMap fun
    | .added tx => [tx]
    | _ => []

/-- The records that were refunded. -/
def refundedTxs (outputs : List PoolOutput) : List OutgoingTransferTx :=
  outputs.flatMap fun
    | .refunded tx => [tx]
    | _ => []

/-- The records of the batches that were executed. -/
def executedTxs (outputs : List PoolOutput) : List OutgoingTransferTx :=
  outputs.flatMap fun
    | .executed batch => batch.transactions
    | _ => []

/-- The nonces of the batches that were built. -/
def builtNonces (outputs : List PoolOutput) : List Nat :=
  outputs.flatMap fun
    | .built nonce => [nonce]
    | _ => []

/-- Where a record can be. -/
inductive Location where
  /-- in the pool, under a key -/
  | pool (key : StoreKey)
  /-- in the batch stored under a key, at a position -/
  | batch (key : StoreKey) (position : Nat)
  /-- among the refunds -/
  | refunded (position : Nat)
  /-- among the records of executed batches -/
  | executed (position : Nat)
  deriving DecidableEq, Repr

/-- All places, with the record in each. -/
def places (outgoing : Outgoing) (outputs : List PoolOutput) : List (Location × OutgoingTransferTx) :=
  outgoing.pool.entries.map (fun entry => (Location.pool entry.1, entry.2)) ++
    (outgoing.batches.entries.flatMap (fun entry =>
      entry.2.transactions.zipIdx.map fun tx => (Location.batch entry.1 tx.2, tx.1)) ++
    ((refundedTxs outputs).zipIdx.map (fun tx => (Location.refunded tx.2, tx.1)) ++
      (executedTxs outputs).zipIdx.map (fun tx => (Location.executed tx.2, tx.1))))

/-- What a place must be for the record in it: the pool key is the one of its own fee and id, and the
batch is of its token. -/
def Location.Fits (outgoing : Outgoing) (tx : OutgoingTransferTx) : Location → Prop
  | .pool key => key = getOutgoingTxPoolKey tx.erc20Fee.contract tx.erc20Fee.amount.natAbs tx.id
  | .batch key _ => ∃ batch, outgoing.batches.get key = some batch ∧
      batch.tokenContract = tx.erc20Token.contract
  | .refunded _ => True
  | .executed _ => True

theorem map_snd_places (outgoing : Outgoing) (outputs : List PoolOutput) :
    (places outgoing outputs).map Prod.snd =
      outgoing.records ++ (refundedTxs outputs ++ executedTxs outputs) := by
  have indexed : ∀ (txs : List OutgoingTransferTx) (place : OutgoingTransferTx × Nat → Location),
      (txs.zipIdx.map fun tx => (place tx, tx.1)).map Prod.snd = txs := by
    intro txs place
    rw [List.map_map]
    exact List.zipIdx_map_fst 0 txs
  simp only [places, List.map_append, List.map_flatMap, indexed, List.map_map, Outgoing.records,
    Outgoing.batched, Store.values, List.flatMap_map, List.append_assoc]
  rfl

theorem fits_of_mem_places {outgoing : Outgoing} (sound : outgoing.Sound) {outputs : List PoolOutput}
    {location : Location} {tx : OutgoingTransferTx}
    (member : (location, tx) ∈ places outgoing outputs) : location.Fits outgoing tx := by
  rcases List.mem_append.mp member with inPool | rest
  · obtain ⟨entry, stored, equal⟩ := List.mem_map.mp inPool
    obtain ⟨rfl, rfl⟩ := Prod.mk.inj equal
    exact sound.poolKeyed _ _ ((outgoing.pool.mem_entries_iff _ _).mp stored)
  rcases List.mem_append.mp rest with inBatch | rest
  · obtain ⟨entry, stored, inside⟩ := List.mem_flatMap.mp inBatch
    obtain ⟨⟨tx', position⟩, atPosition, equal⟩ := List.mem_map.mp inside
    obtain ⟨rfl, rfl⟩ := Prod.mk.inj equal
    have found := (outgoing.batches.mem_entries_iff _ _).mp stored
    have inTransactions : tx' ∈ entry.2.transactions := List.fst_mem_of_mem_zipIdx atPosition
    exact ⟨entry.2, found, (sound.batchToken _ _ found tx' inTransactions).symm⟩
  rcases List.mem_append.mp rest with inRefunded | inExecuted
  · obtain ⟨entry, _, equal⟩ := List.mem_map.mp inRefunded
    obtain ⟨rfl, _⟩ := Prod.mk.inj equal
    trivial
  · obtain ⟨entry, _, equal⟩ := List.mem_map.mp inExecuted
    obtain ⟨rfl, _⟩ := Prod.mk.inj equal
    trivial

/-! ### The invariant -/

/-- Every contract of the index is 42 characters long, as an address is. -/
def DenomIndex.Addresses (index : DenomIndex) : Prop :=
  ∀ denom contract, index.getCosmosOriginatedERC20 denom = some contract →
    contract.length = ethContractAddressLen

/-- The arguments the operations are called with: token contracts are 42 characters long. -/
def PoolInput.Allowed {β : Type} : PoolInput β → Prop
  | .buildOutgoingTXBatch _ _ _ contractAddress _ => contractAddress.length = ethContractAddressLen
  | .environment _ index => index.Addresses
  | _ => True

theorem DenomIndex.Addresses.lookup {index : DenomIndex} (addresses : index.Addresses)
    {denom contract : Bytes} {isCosmosOriginated : Bool}
    (found : index.denomToERC20Lookup denom = .ok (isCosmosOriginated, contract)) :
    contract.length = ethContractAddressLen := by
  rcases DenomIndex.denomToERC20Lookup_eq_ok found with ⟨_, voucher⟩ | ⟨_, registered⟩
  · exact length_of_validateEthAddress ((gravityDenomToERC20_eq_ok_iff _ _).mp voucher).2
  · exact addresses denom contract registered

/-- The records waiting, refunded and executed are the records added, each once. -/
structure PoolInvariant {β : Type} (past : List PoolOutput) (state : ModuleState β) : Prop where
  sound : state.outgoing.Sound
  addresses : state.index.Addresses
  records : (state.outgoing.records ++ (refundedTxs past ++ executedTxs past)).Perm (addedTxs past)
  ids : ((addedTxs past).map OutgoingTransferTx.id).Nodup
  idsIssued : ∀ tx ∈ addedTxs past, tx.id < state.outgoing.nextTxId
  nonces : (builtNonces past).Nodup
  noncesIssued : ∀ nonce ∈ builtNonces past, nonce < state.outgoing.nextBatchNonce

section Step

variable {β : Type} {past : List PoolOutput} {state : ModuleState β}

/-- A step that takes records out and puts out what it took. -/
theorem PoolInvariant.release (invariant : PoolInvariant past state) {after : ModuleState β}
    {out : List OutgoingTransferTx} {outputs : List PoolOutput} (index : after.index.Addresses)
    (released : Outgoing.Released state.outgoing out after.outgoing)
    (added : addedTxs outputs = []) (built : builtNonces outputs = [])
    (took : (refundedTxs outputs ++ executedTxs outputs).Perm out) :
    PoolInvariant (past ++ outputs) after := by
  have addedIs : addedTxs (past ++ outputs) = addedTxs past := by
    rw [addedTxs, List.flatMap_append, ← addedTxs, ← addedTxs, added, List.append_nil]
  have builtIs : builtNonces (past ++ outputs) = builtNonces past := by
    rw [builtNonces, List.flatMap_append, ← builtNonces, ← builtNonces, built, List.append_nil]
  have gone : (refundedTxs (past ++ outputs) ++ executedTxs (past ++ outputs)).Perm
      (out ++ (refundedTxs past ++ executedTxs past)) := by
    rw [refundedTxs, executedTxs, List.flatMap_append, List.flatMap_append, ← refundedTxs,
      ← executedTxs, ← refundedTxs, ← executedTxs]
    refine List.Perm.trans ?_ ((took.append_right _).trans List.perm_append_comm |>.trans
      List.perm_append_comm)
    refine List.Perm.trans ?_ List.perm_append_comm
    rw [List.append_assoc, List.append_assoc]
    exact (List.perm_append_comm_assoc _ _ _).append_left _
  refine ⟨invariant.sound.released released, index, ?_, addedIs ▸ invariant.ids, ?_,
    builtIs ▸ invariant.nonces, ?_⟩
  · rw [addedIs]
    refine List.Perm.trans ?_ invariant.records
    refine (gone.append_left _).trans ?_
    rw [← List.append_assoc]
    exact (List.perm_append_comm.trans released.records.symm).append_right _
  · rw [addedIs, released.nextTxId]
    exact invariant.idsIssued
  · rw [builtIs, released.nextBatchNonce]
    exact invariant.noncesIssued

/-- A step that changes nothing of the outgoing records. -/
theorem PoolInvariant.keep (invariant : PoolInvariant past state) {after : ModuleState β}
    (index : after.index.Addresses) (same : after.outgoing = state.outgoing) :
    PoolInvariant (past ++ []) after := by
  have released : Outgoing.Released state.outgoing [] after.outgoing := by
    rw [same]
    exact Outgoing.Released.refl invariant.sound
  exact invariant.release index released rfl rfl (List.Perm.refl _)

/-- A send. -/
theorem PoolInvariant.add (invariant : PoolInvariant past state) {after : ModuleState β}
    {tx : OutgoingTransferTx} (index : after.index.Addresses)
    (issued : Outgoing.Issued state.outgoing tx after.outgoing) :
    PoolInvariant (past ++ [.added tx]) after := by
  have addedIs : addedTxs (past ++ [.added tx]) = addedTxs past ++ [tx] := by
    rw [addedTxs, List.flatMap_append, ← addedTxs]
    rfl
  have refundedIs : refundedTxs (past ++ [.added tx]) = refundedTxs past := by
    rw [refundedTxs, List.flatMap_append, ← refundedTxs]
    exact List.append_nil _
  have executedIs : executedTxs (past ++ [.added tx]) = executedTxs past := by
    rw [executedTxs, List.flatMap_append, ← executedTxs]
    exact List.append_nil _
  have builtIs : builtNonces (past ++ [.added tx]) = builtNonces past := by
    rw [builtNonces, List.flatMap_append, ← builtNonces]
    exact List.append_nil _
  refine ⟨issued.sound, index, ?_, ?_, ?_, builtIs ▸ invariant.nonces, ?_⟩
  · rw [addedIs, refundedIs, executedIs]
    refine (issued.records.append_right _).trans ?_
    rw [List.cons_append]
    exact (invariant.records.cons tx).trans (List.perm_append_singleton tx _).symm
  · rw [addedIs, List.map_append, List.nodup_append]
    refine ⟨invariant.ids, List.nodup_singleton _, fun id old id' new => ?_⟩
    obtain ⟨other, member, rfl⟩ := List.mem_map.mp old
    rw [List.mem_singleton.mp new, issued.id]
    exact (invariant.idsIssued other member).ne
  · rw [addedIs, issued.nextTxId]
    intro other member
    rcases List.mem_append.mp member with old | new
    · exact Nat.lt_succ_of_lt (invariant.idsIssued other old)
    · rw [List.mem_singleton.mp new, issued.id]
      exact Nat.lt_succ_self _
  · rw [builtIs, issued.nextBatchNonce]
    exact invariant.noncesIssued

/-- A batch is built. -/
theorem PoolInvariant.build (invariant : PoolInvariant past state) {after : ModuleState β}
    {batch : OutgoingTxBatch} (index : after.index.Addresses)
    (built : Outgoing.Built state.outgoing batch after.outgoing) :
    PoolInvariant (past ++ [.built batch.batchNonce]) after := by
  have addedIs : addedTxs (past ++ [.built batch.batchNonce]) = addedTxs past := by
    rw [addedTxs, List.flatMap_append, ← addedTxs]
    exact List.append_nil _
  have refundedIs : refundedTxs (past ++ [.built batch.batchNonce]) = refundedTxs past := by
    rw [refundedTxs, List.flatMap_append, ← refundedTxs]
    exact List.append_nil _
  have executedIs : executedTxs (past ++ [.built batch.batchNonce]) = executedTxs past := by
    rw [executedTxs, List.flatMap_append, ← executedTxs]
    exact List.append_nil _
  have builtIs : builtNonces (past ++ [.built batch.batchNonce]) =
      builtNonces past ++ [batch.batchNonce] := by
    rw [builtNonces, List.flatMap_append, ← builtNonces]
    rfl
  refine ⟨built.sound, index, ?_, addedIs ▸ invariant.ids, ?_, ?_, ?_⟩
  · rw [addedIs, refundedIs, executedIs]
    exact (built.records.symm.append_right _).trans invariant.records
  · rw [addedIs]
    intro tx member
    exact built.nextTxId.symm ▸ invariant.idsIssued tx member
  · rw [builtIs, List.nodup_append]
    refine ⟨invariant.nonces, List.nodup_singleton _, fun nonce old nonce' new => ?_⟩
    rw [List.mem_singleton.mp new, built.nonce]
    exact (invariant.noncesIssued nonce old).ne
  · rw [builtIs]
    rw [built.nextBatchNonce]
    intro nonce member
    rcases List.mem_append.mp member with old | new
    · exact Nat.lt_succ_of_lt (invariant.noncesIssued nonce old)
    · rw [List.mem_singleton.mp new, built.nonce]
      exact Nat.lt_succ_self _

variable {sdk : Sdk} {bank : BankKeeper β} {geth : Geth}

/-- What one operation does to the records: it takes some out, it adds one, or it builds a batch. -/
inductive PoolEffect (before after : Outgoing) : List PoolOutput → Prop
  | released {out : List OutgoingTransferTx} {outputs : List PoolOutput}
      (released : Outgoing.Released before out after) (added : addedTxs outputs = [])
      (built : builtNonces outputs = [])
      (took : (refundedTxs outputs ++ executedTxs outputs).Perm out) :
      PoolEffect before after outputs
  | issued {tx : OutgoingTransferTx} (issued : Outgoing.Issued before tx after) :
      PoolEffect before after [.added tx]
  | built {batch : OutgoingTxBatch} (built : Outgoing.Built before batch after) :
      PoolEffect before after [.built batch.batchNonce]

/-- Nothing happens to the records. -/
theorem PoolEffect.same {outgoing : Outgoing} (sound : outgoing.Sound) :
    PoolEffect outgoing outgoing [] :=
  .released (Outgoing.Released.refl sound) rfl rfl (List.Perm.refl _)

/-- The counter of ids only grows. -/
theorem PoolEffect.nextTxId_le {before after : Outgoing} {outputs : List PoolOutput}
    (effect : PoolEffect before after outputs) : before.nextTxId ≤ after.nextTxId := by
  cases effect with
  | released released => exact released.nextTxId.ge
  | issued issued => exact issued.nextTxId ▸ Nat.le_succ _
  | built built => exact built.nextTxId.ge

/-- **What one operation does.** -/
theorem poolStep_effect (sound : state.outgoing.Sound) (addresses : state.index.Addresses)
    {input : PoolInput β} {next : ModuleState β} {outputs : List PoolOutput}
    (allowed : input.Allowed)
    (step : poolStep sdk bank geth state input = some (next, outputs)) :
    next.index.Addresses ∧ PoolEffect state.outgoing next.outgoing outputs := by
  have unchanged : some (state, []) = some (next, outputs) →
      next.index.Addresses ∧ PoolEffect state.outgoing next.outgoing outputs := by
    intro equal
    obtain ⟨rfl, rfl⟩ := Prod.mk.inj (Option.some.inj equal)
    exact ⟨addresses, PoolEffect.same sound⟩
  cases input with
  | addToOutgoingPool sender receiver amount fee =>
      simp only [poolStep] at step
      split at step
      · rename_i id after sent
        obtain ⟨_, isCosmosOriginated, contract, balances, lookup, _, rfl, rfl⟩ :=
          addToOutgoingPool_eq_ok sent
        obtain ⟨idIs, issued⟩ := sound.issue
          (fun id => newOutgoingTransferTx sdk id sender receiver contract amount.amount
            fee.amount) (fun _ => rfl) (fun _ => rfl) (fun _ => addresses.lookup lookup)
        obtain ⟨rfl, rfl⟩ := Prod.mk.inj (Option.some.inj step)
        rw [requestedTx, lookup, idIs]
        exact ⟨addresses, .issued issued⟩
      · exact unchanged step
  | removeFromOutgoingPoolAndRefund txId sender =>
      simp only [poolStep] at step
      split at step
      · rename_i after removed
        obtain ⟨tx, outgoing, coins, balances, found, _, _, gone, _, _, rfl⟩ :=
          removeFromOutgoingPoolAndRefund_eq_ok removed
        obtain ⟨rfl, key, stored⟩ := Outgoing.getUnbatchedTxById_eq_some found
        obtain rfl := sound.poolKeyed key tx stored
        obtain ⟨_, released⟩ := sound.removeUnbatchedTX_released stored gone
        obtain ⟨rfl, rfl⟩ := Prod.mk.inj (Option.some.inj step)
        rw [found]
        exact ⟨addresses, .released released rfl rfl (List.Perm.refl _)⟩
      · exact unchanged step
  | buildOutgoingTXBatch params heights blockHeight contractAddress maxElements =>
      simp only [poolStep] at step
      have meets := sound.buildOutgoingTXBatch_meets geth params heights blockHeight
        maxElements allowed
      split at step
      · rename_i batch outgoing built
        have result := meets.ok built
        obtain ⟨rfl, rfl⟩ := Prod.mk.inj (Option.some.inj step)
        cases batch with
        | none =>
            obtain rfl : outgoing = state.outgoing := result
            exact ⟨addresses, PoolEffect.same sound⟩
        | some batch => exact ⟨addresses, .built result.1⟩
      · exact unchanged step
  | cancelOutgoingTXBatch tokenContract nonce =>
      simp only [poolStep] at step
      cases stored : state.outgoing.batches.get (getOutgoingTxBatchKey tokenContract nonce) with
      | none =>
          have unknown := Outgoing.getOutgoingTXBatch_eq_none_iff.mpr stored
          rw [Outgoing.cancelOutgoingTXBatch, unknown] at step
          exact unchanged step
      | some batch =>
          obtain ⟨after, cancelled, swept⟩ := sound.cancelOutgoingTXBatch_swept stored
          rw [cancelled] at step
          obtain ⟨rfl, rfl⟩ := Prod.mk.inj (Option.some.inj step)
          exact ⟨addresses, .released swept.released rfl rfl (List.Perm.refl _)⟩
  | outgoingTxBatchExecuted tokenContract nonce =>
      simp only [poolStep] at step
      cases stored : state.outgoing.batches.get (getOutgoingTxBatchKey tokenContract nonce) with
      | none =>
          have unknown := Outgoing.getOutgoingTXBatch_eq_none_iff.mpr stored
          rw [Outgoing.outgoingTxBatchExecuted, unknown] at step
          cases step
      | some batch =>
          obtain ⟨_, _, read⟩ := sound.getOutgoingTXBatch_of_stored stored
          obtain ⟨after, done, executed⟩ :=
            sound.outgoingTxBatchExecuted_executed stored
          rw [done, read] at step
          obtain ⟨rfl, rfl⟩ := Prod.mk.inj (Option.some.inj step)
          refine ⟨addresses, .released executed.released rfl rfl ?_⟩
          simp [refundedTxs, executedTxs]
  | cleanupTimedOutBatches ethereumHeight =>
      simp only [poolStep] at step
      obtain ⟨after, cleaned, swept⟩ := sound.cleanupTimedOutBatches_swept ethereumHeight
      rw [cleaned] at step
      obtain ⟨rfl, rfl⟩ := Prod.mk.inj (Option.some.inj step)
      exact ⟨addresses, .released swept.released rfl rfl (List.Perm.refl _)⟩
  | environment balances index =>
      obtain ⟨rfl, rfl⟩ := Prod.mk.inj (Option.some.inj step)
      exact ⟨allowed, PoolEffect.same sound⟩

/-- **Every operation keeps the invariant.** -/
theorem PoolInvariant.step (invariant : PoolInvariant past state) {input : PoolInput β}
    {next : ModuleState β} {outputs : List PoolOutput} (allowed : input.Allowed)
    (step : poolStep sdk bank geth state input = some (next, outputs)) :
    PoolInvariant (past ++ outputs) next := by
  obtain ⟨index, effect⟩ := poolStep_effect invariant.sound invariant.addresses allowed step
  cases effect with
  | released released added built took => exact invariant.release index released added built took
  | issued issued => exact invariant.add index issued
  | built built => exact invariant.build index built

end Step

/-- The invariant of a fresh store. -/
theorem poolInvariant_fresh {β : Type} {index : DenomIndex} (addresses : index.Addresses)
    (balances : β) : PoolInvariant [] ⟨balances, index, Outgoing.empty, none⟩ :=
  ⟨Outgoing.sound_empty, addresses, List.Perm.refl _, List.nodup_nil,
    fun _ member => absurd member List.not_mem_nil, List.nodup_nil,
    fun _ member => absurd member List.not_mem_nil⟩

/-- The invariant at the end of a run from a fresh store. -/
theorem poolInvariant_run {β : Type} {sdk : Sdk} {bank : BankKeeper β} {geth : Geth} {balances : β}
    {index : DenomIndex} {inputs : List (PoolInput β)} {state : ModuleState β}
    {outputs : List PoolOutput} (addresses : index.Addresses)
    (allowed : ∀ input ∈ inputs, input.Allowed)
    (runs : run (poolStep sdk bank geth) ⟨balances, index, Outgoing.empty, none⟩ inputs =
      some (state, outputs)) :
    PoolInvariant outputs state :=
  run_invariant PoolInput.Allowed PoolInvariant
    (fun _ _ _ _ _ allowed invariant step => invariant.step allowed step) allowed
    (poolInvariant_fresh addresses balances) runs

/-- **Outgoing transactions are conserved.** After any run, every record that was ever added is in
exactly one place, which fits it; no id and no batch nonce was issued twice; and building, cancelling,
executing and cleaning up batches cannot find a record in two places. -/
theorem outgoing_conserved {β : Type} {sdk : Sdk} {bank : BankKeeper β} {geth : Geth} {balances : β}
    {index : DenomIndex} {inputs : List (PoolInput β)} {state : ModuleState β}
    {outputs : List PoolOutput} (addresses : index.Addresses)
    (allowed : ∀ input ∈ inputs, input.Allowed)
    (runs : run (poolStep sdk bank geth) ⟨balances, index, Outgoing.empty, none⟩ inputs =
      some (state, outputs)) :
    (∀ tx ∈ addedTxs outputs, ∃ location, (location, tx) ∈ places state.outgoing outputs ∧
      location.Fits state.outgoing tx ∧
      ∀ place ∈ places state.outgoing outputs, place.2.id = tx.id → place = (location, tx)) ∧
    (places state.outgoing outputs).length = (addedTxs outputs).length ∧
    ((addedTxs outputs).map OutgoingTransferTx.id).Nodup ∧
    (builtNonces outputs).Nodup ∧
    (∀ params heights blockHeight contractAddress maxElements reason,
      contractAddress.length = ethContractAddressLen →
      state.outgoing.buildOutgoingTXBatch geth params heights blockHeight contractAddress
        maxElements = .panic reason → ¬ Outgoing.IsDuplicatePanic reason) ∧
    (∀ tokenContract nonce reason,
      state.outgoing.cancelOutgoingTXBatch tokenContract nonce ≠ .panic reason) ∧
    (∀ tokenContract nonce reason, state.outgoing.getOutgoingTXBatch tokenContract nonce ≠ none →
      state.outgoing.outgoingTxBatchExecuted tokenContract nonce ≠ .panic reason) ∧
    (∀ ethereumHeight reason,
      state.outgoing.cleanupTimedOutBatches ethereumHeight ≠ .panic reason) := by
  have invariant := poolInvariant_run addresses allowed runs
  have same : ((places state.outgoing outputs).map Prod.snd).Perm (addedTxs outputs) := by
    rw [map_snd_places]
    exact invariant.records
  refine ⟨fun tx member => ?_, ?_, invariant.ids, invariant.nonces, ?_, ?_, ?_, ?_⟩
  · obtain ⟨⟨location, tx'⟩, inPlaces, rfl⟩ := List.mem_map.mp (same.mem_iff.mpr member)
    refine ⟨location, inPlaces, fits_of_mem_places invariant.sound inPlaces, ?_⟩
    have distinct : ((places state.outgoing outputs).map fun place => place.2.id).Nodup := by
      have ids := ((same.map OutgoingTransferTx.id).nodup_iff).mpr invariant.ids
      rwa [List.map_map] at ids
    exact fun place inside equal => List.inj_on_of_nodup_map distinct inside inPlaces equal
  · simpa using same.length_eq
  · intro params heights blockHeight contractAddress maxElements reason length panics
    exact (invariant.sound.buildOutgoingTXBatch_meets geth params heights blockHeight maxElements
      length).panic panics
  · intro tokenContract nonce reason panics
    cases stored : state.outgoing.batches.get (getOutgoingTxBatchKey tokenContract nonce) with
    | none =>
        have unknown := Outgoing.getOutgoingTXBatch_eq_none_iff.mpr stored
        rw [Outgoing.cancelOutgoingTXBatch, unknown] at panics
        cases panics
    | some batch =>
        obtain ⟨after, cancelled, _⟩ := invariant.sound.cancelOutgoingTXBatch_swept stored
        rw [cancelled] at panics
        cases panics
  · intro tokenContract nonce reason present panics
    obtain ⟨batch, stored⟩ := Option.ne_none_iff_exists'.mp
      (mt Outgoing.getOutgoingTXBatch_eq_none_iff.mpr present)
    obtain ⟨after, done, _⟩ := invariant.sound.outgoingTxBatchExecuted_executed stored
    rw [done] at panics
    cases panics
  · intro ethereumHeight reason panics
    obtain ⟨after, cleaned, _⟩ := invariant.sound.cleanupTimedOutBatches_swept ethereumHeight
    rw [cleaned] at panics
    cases panics

/-! ### A run -/

/-- A token contract. -/
def exampleContract : Bytes := ascii "0x1111111111111111111111111111111111111111"

/-- One account has a thousand vouchers of the token. -/
def exampleLedger : Ledger where
  balance account denom :=
    if account = List.replicate 20 1 ∧ denom = gravityDenom exampleContract then 1000 else 0
  supply denom := if denom = gravityDenom exampleContract then 1000 else 0
  metadata _ := ⟨[], [], [], []⟩

/-- Parameters. -/
def exampleParams : Params where
  gravityId := ascii "onomy-gravity"
  averageBlockTime := 5000
  averageEthereumBlockTime := 15000
  targetBatchTimeout := 43200000
  erc20ToDenomPermanentSwap := ⟨[], []⟩

/-- A send of the account. -/
def exampleSend (amount fee : Int) : PoolInput Ledger :=
  .addToOutgoingPool (List.replicate 20 1) (ascii "0x2222222222222222222222222222222222222222")
    ⟨gravityDenom exampleContract, amount⟩ ⟨gravityDenom exampleContract, fee⟩

/-- Three sends; the two with the highest fees are batched, the batch is cancelled, the first send is
refunded, and the others are batched again and executed. -/
def examplePoolInputs : List (PoolInput Ledger) :=
  [exampleSend 10 1, exampleSend 20 2, exampleSend 5 3,
    .buildOutgoingTXBatch exampleParams ⟨2, 100⟩ 5 exampleContract 2,
    .cancelOutgoingTXBatch exampleContract 1,
    .removeFromOutgoingPoolAndRefund 1 (List.replicate 20 1),
    .buildOutgoingTXBatch exampleParams ⟨2, 100⟩ 6 exampleContract 2,
    .outgoingTxBatchExecuted exampleContract 2]

theorem examplePoolInputs_run :
    (run (poolStep exampleSdk (ledgerBank exampleModuleAccount) exampleGeth)
      ⟨exampleLedger, DenomIndex.empty, Outgoing.empty, none⟩ examplePoolInputs).map
      (fun result => (((addedTxs result.2).map OutgoingTransferTx.id,
        (refundedTxs result.2).map OutgoingTransferTx.id),
        (executedTxs result.2).map OutgoingTransferTx.id)) = some (([1, 2, 3], [1]), [3, 2]) := by
  decide +kernel

theorem outgoing_conserved_rebatched :
    ∃ state outputs,
      run (poolStep exampleSdk (ledgerBank exampleModuleAccount) exampleGeth)
        ⟨exampleLedger, DenomIndex.empty, Outgoing.empty, none⟩ examplePoolInputs =
        some (state, outputs) ∧
      (addedTxs outputs).map OutgoingTransferTx.id = [1, 2, 3] ∧
      ∀ tx ∈ addedTxs outputs, ∃ location, (location, tx) ∈ places state.outgoing outputs := by
  obtain ⟨⟨state, outputs⟩, runs, equal⟩ := Option.map_eq_some_iff.mp examplePoolInputs_run
  have ids : (addedTxs outputs).map OutgoingTransferTx.id = [1, 2, 3] :=
    (Prod.mk.inj (Prod.mk.inj equal).1).1
  have allowed : ∀ input ∈ examplePoolInputs, input.Allowed := by
    simp [examplePoolInputs, PoolInput.Allowed, exampleSend, exampleContract,
      ethContractAddressLen, ascii]
  have addresses : DenomIndex.empty.Addresses := fun _ _ found => by cases found
  have conserved := (outgoing_conserved addresses allowed runs).1
  exact ⟨state, outputs, runs, ids, fun tx member =>
    (conserved tx member).imp fun _ holds => holds.1⟩

end NabBridge
