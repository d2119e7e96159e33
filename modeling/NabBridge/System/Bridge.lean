/-
**The two chains together.**

A step of the machine is one action of either side: a message to the module, the end of a block, a call
of the contract, or a change that has nothing to do with the bridge (other accounts on Cosmos, other
contracts and new blocks on Ethereum). Nothing ties the steps of the two sides together, so a run is an
arbitrary interleaving. What connects the chains is people: orchestrators report events as claims,
validators sign batches. They enter as assumptions on the history of outputs (`BridgeOutput.Honest`).

A message that fails or panics is rolled back. A panic at the end of a block halts the module; the
contract goes on.
-/

import NabBridge.Contract.Gravity
import NabBridge.Keeper.EndBlocker
import NabBridge.Lib.Run

namespace NabBridge

/-- Both chains. -/
structure Bridge (β τ : Type) where
  chain : Chain β
  eth : Ethereum τ
  halted : Bool

/-- A module that has not seen anything yet. -/
def Chain.fresh {β : Type} (balances : β) : Chain β where
  oracle := Oracle.empty
  app := ⟨balances, DenomIndex.empty, Outgoing.empty, none⟩
  valsets := ValsetStore.empty

/-- One action. -/
inductive BridgeInput (β τ : Type) where
  /-- `AddToOutgoingPool` -/
  | sendToEth (sender : AccAddress) (counterpartReceiver : Bytes) (amount fee : Coin)
  /-- `RemoveFromOutgoingPoolAndRefund` -/
  | cancelSendToEth (txId : Nat) (sender : AccAddress)
  /-- `RequestBatch` -/
  | requestBatch (denom : Bytes) (maxElements blockHeight : Nat)
  /-- a claim message; the function is `GetOrchestratorValidator` at this moment -/
  | claim (orchestratorValidator : AccAddress → Option ValAddress) (blockHeight : Nat)
      (claim : EthereumClaim)
  | endBlock (env : EndBlockEnv)
  /-- everything else on the Cosmos chain -/
  | accounts (change : β → β)
  | call (sender : EthAddress) (call : GravityCall)
  /-- everything else on Ethereum, and new blocks -/
  | ethereum (change : τ → τ) (newBlocks : Nat)

/-- What an action adds to the history. -/
inductive BridgeOutput where
  | sent (tx : OutgoingTransferTx)
  | refunded (tx : OutgoingTransferTx)
  | batchStored (batch : OutgoingTxBatch)
  | valsetStored (valset : Valset)
  /-- a claim handed to the attestation handler -/
  | observed (claim : EthereumClaim)
  /-- the batch of an observed claim -/
  | executed (batch : OutgoingTxBatch)
  /-- a batch that was deleted without such a claim -/
  | cancelled (batch : OutgoingTxBatch)
  | halted (reason : EndBlockPanic)
  /-- a call the contract did not revert -/
  | accepted (sender : EthAddress) (call : GravityCall)
  | logged (event : GravityEvent) (block : Nat)
  deriving DecidableEq

/-! ### The machine -/

section Machine

variable {β τ : Type} (sdk : Sdk) (bank : BankKeeper β) (geth : Geth) (params : Params) (evm : Evm)
  (others : Contracts τ)

/-- The state after a message to the module. -/
def Bridge.withApp (state : Bridge β τ) (app : ModuleState β) : Bridge β τ :=
  { state with chain := { state.chain with app := app } }

/-- The record a send was made for. -/
def sentTx (app : ModuleState β) (id : Nat) (sender : AccAddress) (receiver : Bytes)
    (amount fee : Coin) : List BridgeOutput :=
  match app.index.denomToERC20Lookup amount.denom with
  | .ok (_, contract) =>
      [.sent (newOutgoingTransferTx sdk id sender receiver contract amount.amount fee.amount)]
  | .error _ => []

/-- `RequestBatch`: the batch, if there was anything to select. -/
def requestBatch (denom : Bytes) (maxElements blockHeight : Nat) (chain : Chain β) :
    Outcome PoolError PoolPanic (Option OutgoingTxBatch × Outgoing) :=
  match chain.app.index.denomToERC20Lookup denom with
  | .error reason => .error (.denom reason)
  | .ok (_, tokenContract) =>
      chain.app.outgoing.buildOutgoingTXBatch geth params
        chain.oracle.lastObservedEthereumBlockHeight blockHeight tokenContract maxElements

/-- The stored batches that observed claims report as executed. -/
def executedBatches (outgoing : Outgoing) (claims : List EthereumClaim) : List OutgoingTxBatch :=
  claims.flatMap fun
    | .batchSendToEth claim =>
        (outgoing.getOutgoingTXBatch claim.tokenContract claim.batchNonce).toList
    | _ => []

/-- The batches that are gone without having been executed. -/
def cancelledBatches (before after : Outgoing) (executed : List OutgoingTxBatch) :
    List OutgoingTxBatch :=
  before.getOutgoingTxBatches.filter fun batch =>
    after.batches.get batch.key ≠ some batch ∧ batch ∉ executed

/-- The history of a block that ended. -/
def endBlockOutputs (before after : Outgoing) (report : EndBlockReport) : List BridgeOutput :=
  let claims := report.observations.map Observation.claim
  let executed := executedBatches before claims
  claims.map .observed ++ (executed.map .executed ++
    ((cancelledBatches before after executed).map .cancelled ++
      (report.valset.map BridgeOutput.valsetStored).toList))

/-- The history of a call: the call, and the new logs. -/
def callOutputs (sender : EthAddress) (call : GravityCall) (before after : Ethereum τ) :
    List BridgeOutput :=
  .accepted sender call ::
    (after.logs.drop before.logs.length).map fun log => .logged log.1 log.2

/-- One action of either side. -/
def bridgeStep (state : Bridge β τ) :
    BridgeInput β τ → Option (Bridge β τ × List BridgeOutput)
  | .sendToEth sender receiver amount fee =>
      if state.halted then none
      else
        match addToOutgoingPool sdk bank sender receiver amount fee state.chain.app with
        | .ok (id, app) =>
            some (state.withApp app, sentTx sdk state.chain.app id sender receiver amount fee)
        | _ => some (state, [])
  | .cancelSendToEth txId sender =>
      if state.halted then none
      else
        match removeFromOutgoingPoolAndRefund sdk bank txId sender state.chain.app with
        | .ok app =>
            some (state.withApp app, ((state.chain.app.outgoing.getUnbatchedTxById txId).map
              BridgeOutput.refunded).toList)
        | _ => some (state, [])
  | .requestBatch denom maxElements blockHeight =>
      if state.halted then none
      else
        match requestBatch geth params denom maxElements blockHeight state.chain with
        | .ok (batch, outgoing) =>
            some (state.withApp { state.chain.app with outgoing := outgoing },
              (batch.map BridgeOutput.batchStored).toList)
        | _ => some (state, [])
  | .claim orchestratorValidator blockHeight claim =>
      if state.halted then none
      else
        match attest (π := HandlePanic) sdk orchestratorValidator blockHeight claim
            state.chain.oracle with
        | .ok (oracle, _) => some ({ state with chain := { state.chain with oracle := oracle } }, [])
        | _ => some (state, [])
  | .endBlock env =>
      if state.halted then none
      else
        match endBlocker sdk bank geth params env state.chain with
        | .ok (chain, report) =>
            some ({ state with chain := chain },
              endBlockOutputs state.chain.app.outgoing chain.app.outgoing report)
        | .error reason => reason.elim
        | .panic reason => some ({ state with halted := true }, [.halted reason])
  | .accounts change =>
      some (state.withApp { state.chain.app with bank := change state.chain.app.bank }, [])
  | .call sender call =>
      match state.eth.call evm others sender call with
      | .ok eth => some ({ state with eth := eth }, callOutputs sender call state.eth eth)
      | .error _ => some (state, [])
  | .ethereum change newBlocks =>
      some ({ state with
        eth := { state.eth with
          contracts := change state.eth.contracts
          blockNumber := state.eth.blockNumber + newBlocks } }, [])

end Machine

/-! ### The history -/

/-- The batches that were ever stored. -/
def storedBatches (trace : List BridgeOutput) : List OutgoingTxBatch :=
  trace.flatMap fun
    | .batchStored batch => [batch]
    | _ => []

/-- The batches the contract paid. -/
def paidArgs (trace : List BridgeOutput) : List BatchArgs :=
  trace.flatMap fun
    | .accepted _ (.submitBatch _ _ args) => [args]
    | _ => []

/-- The logs the contract wrote. -/
def loggedEvents (trace : List BridgeOutput) : List (GravityEvent × Nat) :=
  trace.flatMap fun
    | .logged event block => [(event, block)]
    | _ => []

/-- The arguments of `submitBatch` for a batch of the module. -/
def OutgoingTxBatch.args (batch : OutgoingTxBatch) : BatchArgs where
  amounts := batch.transactions.map fun tx => tx.erc20Token.amount.toNat
  destinations := batch.transactions.map fun tx => hexToAddress tx.destAddress
  fees := batch.transactions.map fun tx => tx.erc20Fee.amount.toNat
  batchNonce := batch.batchNonce
  tokenContract := hexToAddress batch.tokenContract
  batchTimeout := batch.batchTimeout

/-! ### Honest reports -/

/-- How orchestrators write down what an event holds: an address in one fixed spelling, which the
module accepts and reads back, and the account a deposit goes to. -/
structure Spelling where
  address : EthAddress → Bytes
  account : Bytes → Bytes
  valid : ∀ value, validateEthAddress (address value) = .ok ()
  reads : ∀ value, hexToAddress (address value) = value

/-- A spelling of a token that orchestrators use. -/
def Spelling.Canonical (spelling : Spelling) (contract : Bytes) : Prop :=
  spelling.address (hexToAddress contract) = contract

instance (spelling : Spelling) (contract : Bytes) : Decidable (spelling.Canonical contract) := by
  unfold Spelling.Canonical; infer_instance

/-- The claim that reports a log: every field of the event, its nonce and its block. -/
def Spelling.claimOf (spelling : Spelling) : GravityEvent × Nat → EthereumClaim
  | (.transactionBatchExecuted batchNonce token eventNonce, block) =>
      .batchSendToEth ⟨eventNonce, block, batchNonce, spelling.address token, []⟩
  | (.sendToCosmos tokenContract sender destination amount eventNonce, block) =>
      .sendToCosmos ⟨eventNonce, block, spelling.address tokenContract, some amount,
        spelling.address sender, spelling.account destination, []⟩
  | (.erc20Deployed cosmosDenom tokenContract name symbol decimals eventNonce, block) =>
      .erc20Deployed ⟨eventNonce, block, cosmosDenom, spelling.address tokenContract, name, symbol,
        decimals, []⟩
  | (.valsetUpdated newValsetNonce eventNonce rewardAmount rewardToken validators powers, block) =>
      .valsetUpdated ⟨eventNonce, newValsetNonce, block,
        List.zipWith (fun validator power => ⟨power, spelling.address validator⟩) validators powers,
        some rewardAmount, spelling.address rewardToken, []⟩
  | (.logicCall invalidationId invalidationNonce _ eventNonce, block) =>
      .logicCallExecuted ⟨eventNonce, block, invalidationId, invalidationNonce, []⟩

/-- The claim reports one of the logs. -/
def Spelling.Reports (spelling : Spelling) (logs : List (GravityEvent × Nat))
    (claim : EthereumClaim) : Prop :=
  ∃ log ∈ logs, claim.SameEvent (spelling.claimOf log)

instance (spelling : Spelling) (logs : List (GravityEvent × Nat)) (claim : EthereumClaim) :
    Decidable (spelling.Reports logs claim) := by
  unfold Spelling.Reports; infer_instance

/-- **The assumptions on the people between the chains**, after the outputs `past` and the logs of the
deployment: a claim that reaches the handler reports a log that is there; a batch the contract accepts
was stored by the module before; and tokens are sent in the spelling that is reported. -/
def BridgeOutput.Honest (spelling : Spelling) (deployment : List (GravityEvent × Nat))
    (past : List BridgeOutput) : BridgeOutput → Prop
  | .observed claim => spelling.Reports (deployment ++ loggedEvents past) claim
  | .halted (.tally (.handler claims _)) =>
      ∀ claim ∈ claims, spelling.Reports (deployment ++ loggedEvents past) claim
  | .accepted _ (.submitBatch _ _ args) => ∃ batch ∈ storedBatches past, batch.args = args
  | .sent tx => spelling.Canonical tx.erc20Token.contract
  | _ => True

instance (spelling : Spelling) (deployment : List (GravityEvent × Nat)) (past : List BridgeOutput)
    (output : BridgeOutput) : Decidable (output.Honest spelling deployment past) := by
  unfold BridgeOutput.Honest; split <;> infer_instance

end NabBridge
