/-
**Outgoing batches.**

`buildOutgoingTXBatch` moves the records with the highest fees of one token from the pool into a new
batch. A batch ends in one of two ways: `outgoingTxBatchExecuted` deletes it and cancels every earlier
batch of its token; `cancelOutgoingTXBatch` puts its records back into the pool, which is also what
`cleanupTimedOutBatches` does with every batch whose timeout the observed Ethereum height has passed.

The loops over the pool and over the batches walk the list of records at their start, as an iterator
over a snapshot does.
-/

import NabBridge.Keeper.Attestation
import NabBridge.Keeper.Pool

namespace NabBridge

/-- `ERC20ToDenom` -/
structure ERC20ToDenom where
  erc20 : Bytes
  denom : Bytes
  deriving DecidableEq, Repr

/-- The parameters that transfers and the attestation handler read. -/
structure Params where
  gravityId : Bytes
  averageBlockTime : Nat
  averageEthereumBlockTime : Nat
  targetBatchTimeout : Nat
  erc20ToDenomPermanentSwap : ERC20ToDenom
  deriving DecidableEq, Repr

/-- The outcome of a call that only fails on its checkpoint. -/
def liftCheckpoint {ε α : Type} : Outcome Empty CheckpointPanic α → Outcome ε PoolPanic α
  | .ok value => .ok value
  | .error reason => reason.elim
  | .panic reason => .panic (.checkpoint reason)

/-- An operation of `uint64`. -/
def uint64 (value : Int) : Nat := (value % 2 ^ 64).toNat

/-- `getBatchTimeoutHeight`: the observed Ethereum height, projected to the current block, plus the
target timeout. -/
def getBatchTimeoutHeight (params : Params) (heights : LastObservedEthereumBlockHeight)
    (blockHeight : Nat) : Outcome PoolError PoolPanic Nat :=
  if heights.cosmosBlockHeight = 0 ∨ heights.ethereumBlockHeight = 0 then .ok 0
  else if params.averageEthereumBlockTime = 0 then .panic .divideByZero
  else
    let projectedMillis :=
      uint64 (uint64 (blockHeight - heights.cosmosBlockHeight) * params.averageBlockTime)
    let projectedCurrentEthereumHeight :=
      uint64 (projectedMillis / params.averageEthereumBlockTime + heights.ethereumBlockHeight)
    let blocksToAdd := params.targetBatchTimeout / params.averageEthereumBlockTime
    .ok (uint64 (projectedCurrentEthereumHeight + blocksToAdd))

/-- The key a batch belongs under. -/
def OutgoingTxBatch.key (batch : OutgoingTxBatch) : StoreKey :=
  getOutgoingTxBatchKey batch.tokenContract batch.batchNonce

namespace Outgoing

/-- `SetPastEthSignatureCheckpoint` -/
def setPastEthSignatureCheckpoint (outgoing : Outgoing) (checkpoint : Bytes) : Outgoing :=
  { outgoing with
    pastEthSignatureCheckpoints :=
      outgoing.pastEthSignatureCheckpoints.set (getPastEthSignatureCheckpointKey checkpoint) [1] }

/-- `StoreBatchUnsafe` -/
def storeBatchUnsafe (outgoing : Outgoing) (batch : OutgoingTxBatch) : Outgoing :=
  { outgoing with
    batches := outgoing.batches.set batch.key batch
    batchBlocks := outgoing.batchBlocks.set (getOutgoingTxBatchBlockKey batch.block) batch }

/-- `StoreBatch`: the batch gets the current block height. -/
def storeBatch (outgoing : Outgoing) (blockHeight : Nat) (batch : OutgoingTxBatch) : Outgoing :=
  outgoing.storeBatchUnsafe { batch with block := blockHeight }

/-- `DeleteBatch` -/
def deleteBatch (outgoing : Outgoing) (batch : OutgoingTxBatch) : Outgoing :=
  { outgoing with
    batches := outgoing.batches.delete batch.key
    batchBlocks := outgoing.batchBlocks.delete (getOutgoingTxBatchBlockKey batch.block) }

/-- `GetOutgoingTXBatch`: both contracts of every record are overwritten. -/
def getOutgoingTXBatch (outgoing : Outgoing) (tokenContract : Bytes) (nonce : Nat) :
    Option OutgoingTxBatch :=
  (outgoing.batches.get (getOutgoingTxBatchKey tokenContract nonce)).map fun batch =>
    { batch with
      transactions := batch.transactions.map fun tx =>
        { tx with
          erc20Token := { tx.erc20Token with contract := tokenContract }
          erc20Fee := { tx.erc20Fee with contract := tokenContract } } }

/-- `GetOutgoingTxBatches`: in descending order of their keys. -/
def getOutgoingTxBatches (outgoing : Outgoing) : List OutgoingTxBatch := outgoing.batches.values.reverse

/-- `GetLastOutgoingBatchByTokenType` -/
def getLastOutgoingBatchByTokenType (outgoing : Outgoing) (token : Bytes) : Option OutgoingTxBatch :=
  (outgoing.getOutgoingTxBatches.foldl
    (fun (last : Option OutgoingTxBatch × Nat) batch =>
      if batch.tokenContract = token ∧ batch.batchNonce > last.2 then (some batch, batch.batchNonce)
      else last)
    (none, 0)).1

/-- The loop of `pickUnbatchedTX` over the snapshot: what is selected so far, and the rest. -/
def pickUnbatchedTX (maxElements : Nat) :
    List OutgoingTransferTx → List OutgoingTransferTx → Outgoing →
      Outcome PoolError PoolPanic (List OutgoingTransferTx × Outgoing)
  | selected, [], outgoing => .ok (selected, outgoing)
  | selected, tx :: rest, outgoing =>
      match outgoing.removeUnbatchedTX tx.erc20Fee tx.id with
      | .error reason =>
          if (outgoing.getUnbatchedTxByFeeAndId tx.erc20Fee tx.id).isSome then .panic .pickedDuplicate
          else .error reason
      | .ok after =>
          if (after.getUnbatchedTxByFeeAndId tx.erc20Fee tx.id).isSome then .panic .pickedDuplicate
          else if (selected ++ [tx]).length = maxElements then .ok (selected ++ [tx], after)
          else pickUnbatchedTX maxElements (selected ++ [tx]) rest after

/-- The check of `BuildOutgoingTXBatch` against the last batch of the token. -/
def checkProfitable (outgoing : Outgoing) (contractAddress : Bytes) (maxElements : Nat) :
    Outcome PoolError PoolPanic Unit :=
  match outgoing.getLastOutgoingBatchByTokenType contractAddress with
  | none => pure ()
  | some lastBatch => do
      let currentFees ← outgoing.getBatchFeeByTokenType contractAddress maxElements
      if lastBatch.getFees > currentFees then .error .notMoreProfitable else pure ()

/-- `BuildOutgoingTXBatch`. With nothing to select the result is no batch and no error. -/
def buildOutgoingTXBatch (geth : Geth) (params : Params)
    (heights : LastObservedEthereumBlockHeight) (blockHeight : Nat) (contractAddress : Bytes)
    (maxElements : Nat) (outgoing : Outgoing) :
    Outcome PoolError PoolPanic (Option OutgoingTxBatch × Outgoing) :=
  if maxElements = 0 then .error .maxElements
  else do
    outgoing.checkProfitable contractAddress maxElements
    let (selectedTx, outgoing) ← pickUnbatchedTX maxElements []
      (outgoing.unbatchedTransactions (getOutgoingTxPoolContractPrefix contractAddress)) outgoing
    if selectedTx = [] then pure (none, outgoing)
    else do
      let (nextID, counter) := autoIncrementID outgoing.lastOutgoingBatchId
      let outgoing := { outgoing with lastOutgoingBatchId := counter }
      let batchTimeout ← getBatchTimeoutHeight params heights blockHeight
      let batch : OutgoingTxBatch :=
        { batchNonce := nextID
          batchTimeout := batchTimeout
          transactions := selectedTx
          tokenContract := contractAddress
          block := 0 }
      let outgoing := outgoing.storeBatch blockHeight batch
      -- `StoreBatch` has written the height into the record
      let batch := { batch with block := blockHeight }
      let checkpoint ← liftCheckpoint (batch.getCheckpoint geth params.gravityId)
      pure (some batch, outgoing.setPastEthSignatureCheckpoint checkpoint)

/-- The loop of `CancelOutgoingTXBatch`. -/
def putBack (outgoing : Outgoing) (tx : OutgoingTransferTx) : Outcome PoolError PoolPanic Outgoing :=
  match outgoing.addUnbatchedTX tx with
  | .ok after => .ok after
  | .error _ => .panic (.unableToAddBack tx)

/-- `CancelOutgoingTXBatch` -/
def cancelOutgoingTXBatch (tokenContract : Bytes) (nonce : Nat) (outgoing : Outgoing) :
    Outcome PoolError PoolPanic Outgoing :=
  match outgoing.getOutgoingTXBatch tokenContract nonce with
  | none => .error .unknownBatch
  | some batch => do
      let outgoing ← batch.transactions.foldlM putBack outgoing
      pure (outgoing.deleteBatch batch)

/-- One round of the loop of `OutgoingTxBatchExecuted`. -/
def cancelEarlier (tokenContract : Bytes) (nonce : Nat) (outgoing : Outgoing)
    (batch : OutgoingTxBatch) : Outcome Empty PoolPanic Outgoing :=
  if batch.batchNonce < nonce ∧ batch.tokenContract = tokenContract then
    match outgoing.cancelOutgoingTXBatch tokenContract batch.batchNonce with
    | .ok after => .ok after
    | .error reason => .panic (.failedCancel tokenContract batch.batchNonce nonce reason)
    | .panic reason => .panic reason
  else pure outgoing

/-- `OutgoingTxBatchExecuted` -/
def outgoingTxBatchExecuted (tokenContract : Bytes) (nonce : Nat) (outgoing : Outgoing) :
    Outcome Empty PoolPanic Outgoing :=
  match outgoing.getOutgoingTXBatch tokenContract nonce with
  | none => .panic (.unknownBatchNonce tokenContract nonce)
  | some batch => do
      let outgoing ← outgoing.getOutgoingTxBatches.foldlM
        (cancelEarlier tokenContract batch.batchNonce) outgoing
      pure (outgoing.deleteBatch batch)

/-- One round of `cleanupTimedOutBatches`; the error of the cancellation is dropped. -/
def cleanupTimedOutBatch (ethereumHeight : Nat) (outgoing : Outgoing) (batch : OutgoingTxBatch) :
    Outcome Empty PoolPanic Outgoing :=
  if batch.batchTimeout < ethereumHeight then
    match outgoing.cancelOutgoingTXBatch batch.tokenContract batch.batchNonce with
    | .ok after => .ok after
    | .error _ => pure outgoing
    | .panic reason => .panic reason
  else pure outgoing

/-- `cleanupTimedOutBatches` -/
def cleanupTimedOutBatches (ethereumHeight : Nat) (outgoing : Outgoing) :
    Outcome Empty PoolPanic Outgoing :=
  outgoing.getOutgoingTxBatches.foldlM (cleanupTimedOutBatch ethereumHeight) outgoing

end Outgoing

end NabBridge
