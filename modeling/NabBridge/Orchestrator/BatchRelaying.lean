/-
**The relayer's batches.**

The relayer asks the module for its batches, of all tokens, the newest first and 50 at most. It keeps those
with enough signatures, one list for each token, and turns each list around: "we want to submit older
batches so that we don't invalidate newer batches". Then it walks each list with the contract's batch
nonce from before the walk, and hands what passes its checks to `send_eth_transaction_batch`, which looks
at the nonce once more and sends the call.

What the node and Ethereum answer comes in as arguments. The two calls that `submit_batches` makes before
its loop have succeeded here; where one fails nothing is submitted.
-/

import NabBridge.Keeper.Batch
import NabBridge.Orchestrator.Relayer

namespace NabBridge

/-- `OutgoingTxBatchSize` -/
def outgoingTxBatchSize : Nat := 50

/-- The query `OutgoingTxBatches`. -/
def Outgoing.outgoingTxBatches (outgoing : Outgoing) : List OutgoingTxBatch :=
  outgoing.getOutgoingTxBatches.take outgoingTxBatchSize

namespace Orchestrator

/-- `get_latest_transaction_batches` -/
def getLatestTransactionBatches (crates : Crates) (outgoing : Outgoing) : Result (List TransactionBatch) :=
  outgoing.outgoingTxBatches.mapM (TransactionBatch.tryFrom crates)

/-- `SubmittableBatch` -/
structure SubmittableBatch where
  batch : TransactionBatch
  sigs : List BatchConfirmResponse
  deriving DecidableEq, Repr

/-- The lists of `get_batches_and_signatures`, by token. -/
abbrev PossibleBatches := Store EthAddress (List SubmittableBatch)

section Collecting

variable (clarity : Clarity) (currentValset : Valset) (gravityId : Bytes)
  (getTransactionBatchSignatures : Nat → EthAddress → RelayResult (List BatchConfirmResponse))

/-- One turn of the loop of `get_batches_and_signatures`. A batch whose signatures cannot be had, or are
not enough, is left out. -/
def addPossibleBatch (possibleBatches : PossibleBatches) (batch : TransactionBatch) :
    Outcome Empty RelayPanic PossibleBatches :=
  match getTransactionBatchSignatures batch.nonce batch.tokenContract with
  | .error _ => .ok possibleBatches
  | .panic reason => .panic reason
  | .ok sigs =>
      match currentValset.orderSigs clarity (encodeTxBatchConfirmHashed clarity gravityId batch) sigs with
      | .error _ => .ok possibleBatches
      | .panic reason => .panic reason
      | .ok _ =>
          .ok (possibleBatches.set batch.tokenContract
            ((possibleBatches.get batch.tokenContract).getD [] ++ [⟨batch, sigs⟩]))

/-- `get_batches_and_signatures`; batches that cannot be read are no batches at all. -/
def getBatchesAndSignatures (outgoing : Outgoing) : Outcome Empty RelayPanic PossibleBatches :=
  match getLatestTransactionBatches clarity.toCrates outgoing with
  | .error _ => .ok Store.empty
  | .panic reason => .panic (.conversion reason)
  | .ok latestBatches => do
      let possibleBatches ← latestBatches.foldlM
        (addPossibleBatch clarity currentValset gravityId getTransactionBatchSignatures) Store.empty
      pure (possibleBatches.mapValues List.reverse)

end Collecting

/-! ### The walk -/

/-- `GasCost` -/
structure GasCost where
  gas : Nat
  gasPrice : Nat
  deriving DecidableEq, Repr

/-- `RelayerConfig`, and what the walk asks Ethereum and Uniswap for. -/
structure BatchMarket where
  batchMarketEnabled : Bool
  /-- `WETH_CONTRACT_ADDRESS` -/
  wethContractAddress : EthAddress
  /-- `estimate_tx_batch_cost`; `none` is an error. -/
  estimateTxBatchCost : SubmittableBatch → Option GasCost
  /-- `get_uniswap_price` of an amount of a token, in WETH; `none` is an error. -/
  getUniswapPrice : EthAddress → Nat → Option Nat
  /-- The product of two `Uint256`; `none` is a panic. -/
  mul : Nat → Nat → Option Nat

/-- `downcast_to_u128` -/
def downcastToU128 (input : Nat) : Option Nat := if input ≥ 2 ^ 128 - 1 then none else some input

section Walk

variable (market : BatchMarket)

/-- `should_relay_batch` -/
def BatchMarket.shouldRelayBatch (batch : TransactionBatch) (cost : Nat) : Bool :=
  if batch.totalFee.tokenContractAddress = market.wethContractAddress then
    batch.totalFee.amount > cost
  else
    match market.getUniswapPrice batch.totalFee.tokenContractAddress batch.totalFee.amount with
    | none => false
    | some price => price > cost

/-- The loop of `submit_batches` over the list of a token: the batches it hands to
`send_eth_transaction_batch`. A panic ends it. -/
def submitBatches (ethereumBlockHeight latestEthereumBatch : Nat) :
    List SubmittableBatch → List SubmittableBatch
  | [] => []
  | entry :: batches =>
      if entry.batch.Submittable ethereumBlockHeight latestEthereumBatch then
        match market.estimateTxBatchCost entry with
        | none => submitBatches ethereumBlockHeight latestEthereumBatch batches
        | some cost =>
            -- the log line before the decision unwraps the cost in 128 bits
            match (market.mul cost.gas cost.gasPrice).bind downcastToU128 with
            | none => []
            | some total =>
                if market.batchMarketEnabled = false ∨ market.shouldRelayBatch entry.batch total then
                  entry :: submitBatches ethereumBlockHeight latestEthereumBatch batches
                else submitBatches ethereumBlockHeight latestEthereumBatch batches
      else submitBatches ethereumBlockHeight latestEthereumBatch batches

end Walk

/-- `send_eth_transaction_batch`: the call it sends, if any, after another look at the contract and the
chain. -/
def sendEthTransactionBatch (clarity : Clarity) (currentValset : Valset) (gravityId : Bytes)
    (beforeNonce currentBlockHeight : Nat) (entry : SubmittableBatch) :
    Outcome OrderError RelayPanic (Option GravityCall) :=
  if beforeNonce ≥ entry.batch.nonce then .ok none
  else if currentBlockHeight > entry.batch.batchTimeout then .ok none
  else do
    let payload ← encodeBatchPayload clarity currentValset entry.batch entry.sigs gravityId
    pure (some payload)

end Orchestrator

end NabBridge
