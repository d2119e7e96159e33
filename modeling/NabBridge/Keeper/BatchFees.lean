/-
**The fees of the next batches.**

`GetAllBatchFees` walks the whole pool once, in descending order of the keys, and keeps for every token the
fees so far and the number of records they are from. A token that has reached the limit gets no more of
them. The limit is a `uint`, the number of records an `int`.
-/

import NabBridge.Keeper.Pool
import NabBridge.Types.PowerDiff

namespace NabBridge

/-- `BatchFees` -/
structure BatchFees where
  token : Bytes
  totalFees : Int
  deriving DecidableEq, Repr

/-- The two maps of `createBatchFees`, by token. -/
structure BatchFeesMaps where
  batchFeesMap : Store StoreKey BatchFees
  txCountMap : Store StoreKey Nat

/-- `txCountMap[contract]` -/
def BatchFeesMaps.txCount (maps : BatchFeesMaps) (contract : Bytes) : Nat :=
  (maps.txCountMap.get (keyBytes contract)).getD 0

/-- `addFeeToMap` -/
def addFeeToMap (fee : ERC20Token) (maps : BatchFeesMaps) :
    Outcome PoolError PoolPanic BatchFeesMaps := do
  let txCountMap := maps.txCountMap.set (keyBytes fee.contract) (maps.txCount fee.contract + 1)
  match maps.batchFeesMap.get (keyBytes fee.contract) with
  | some batchFee => do
      let total ← liftCoin (sdkIntAdd batchFee.totalFees fee.amount)
      pure ⟨maps.batchFeesMap.set (keyBytes fee.contract) ⟨batchFee.token, total⟩, txCountMap⟩
  | none =>
      pure ⟨maps.batchFeesMap.set (keyBytes fee.contract) ⟨fee.contract, fee.amount⟩, txCountMap⟩

/-- One round of the loop of `createBatchFees`. -/
def countFee (maxElements : Nat) (maps : BatchFeesMaps) (tx : OutgoingTransferTx) :
    Outcome PoolError PoolPanic BatchFeesMaps :=
  if (maps.txCount tx.erc20Fee.contract : Int) < int64 maxElements then addFeeToMap tx.erc20Fee maps
  else pure maps

namespace Outgoing

/-- `createBatchFees` -/
def createBatchFees (outgoing : Outgoing) (maxElements : Nat) :
    Outcome PoolError PoolPanic BatchFeesMaps :=
  (outgoing.unbatchedTransactions outgoingTXPoolKey).foldlM (countFee maxElements)
    ⟨Store.empty, Store.empty⟩

/-- `GetAllBatchFees`: the entries of the map, sorted by token. -/
def getAllBatchFees (outgoing : Outgoing) (maxElements : Nat) :
    Outcome PoolError PoolPanic (List BatchFees) := do
  let maps ← outgoing.createBatchFees maxElements
  pure (maps.batchFeesMap.values.insertionSort fun first second =>
    keyBytes first.token ≤ keyBytes second.token)

end Outgoing

end NabBridge
