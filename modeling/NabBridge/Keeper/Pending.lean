/-
**What an orchestrator has not confirmed yet.**

Three queries tell an orchestrator what to sign next. They walk the stored objects and look each one up among
the confirmations of the account: validator sets from the highest nonce down, until there are more than a
hundred; batches from the highest key down and logic calls from the lowest key up, to the first one.
-/

import NabBridge.Keeper.Evidence
import NabBridge.Keeper.Queries

namespace NabBridge

namespace Confirms

/-- `GetValsetConfirm` -/
def getValsetConfirm (confirms : Confirms) (nonce : Nat) (validator : AccAddress) :
    Option MsgValsetConfirm :=
  (confirms.valsets.get (getValsetConfirmKey nonce validator)).map fun confirm =>
    { confirm with nonce := orPreset confirm.nonce nonce }

/-- `GetBatchConfirm` -/
def getBatchConfirm (confirms : Confirms) (nonce : Nat) (tokenContract : Bytes)
    (validator : AccAddress) : Option MsgConfirmBatch :=
  (confirms.batches.get (getBatchConfirmKey tokenContract nonce validator)).map fun confirm =>
    { confirm with
      nonce := orPreset confirm.nonce nonce
      tokenContract := if confirm.tokenContract = [] then tokenContract else confirm.tokenContract }

/-- `GetLogicCallConfirm` -/
def getLogicCallConfirm (confirms : Confirms) (invalidationId : Bytes) (invalidationNonce : Nat)
    (val : AccAddress) : Option MsgConfirmLogicCall :=
  (confirms.logicCalls.get (getLogicConfirmKey invalidationId invalidationNonce val)).map fun confirm =>
    { confirm with invalidationNonce := orPreset confirm.invalidationNonce invalidationNonce }

/-- The account has not confirmed the object. -/
def Lacks (confirms : Confirms) (addr : AccAddress) : EthereumSigned → Bool
  | .valset val => (confirms.getValsetConfirm val.nonce addr).isNone
  | .batch batch => (confirms.getBatchConfirm batch.batchNonce batch.tokenContract addr).isNone
  | .logicCall logic =>
      (confirms.getLogicCallConfirm logic.invalidationId logic.invalidationNonce addr).isNone

end Confirms

/-- `IterateValsets`: in descending order of their nonces. -/
def ValsetStore.iterateValsets (store : ValsetStore) : List Valset := store.valsets.values.reverse

/-- How many validator sets a query collects before it stops: more than a hundred. -/
def maxPendingValsets : Nat := 101

section Queries

variable {β : Type} (sdk : Sdk) (keeper : KeeperState β)

namespace KeeperState

/-- The validator sets the account has not confirmed. -/
def pendingValsets (addr : AccAddress) : List Valset :=
  keeper.chain.valsets.iterateValsets.filter fun val => keeper.confirms.Lacks addr (.valset val)

/-- The batches the account has not confirmed. -/
def pendingBatches (addr : AccAddress) : List OutgoingTxBatch :=
  keeper.chain.app.outgoing.getOutgoingTxBatches.filter fun batch =>
    keeper.confirms.Lacks addr (.batch batch)

/-- The logic calls the account has not confirmed. -/
def pendingLogicCalls (addr : AccAddress) : List OutgoingLogicCall :=
  keeper.logicCalls.getOutgoingLogicCalls.filter fun logic => keeper.confirms.Lacks addr (.logicCall logic)

end KeeperState

/-- `AccAddressFromBech32` of the address in a request. -/
def requestAddress (address : Bytes) : Except QueryError AccAddress :=
  match sdk.accAddressFromBech32 address with
  | none => .error (.invalidAddress address)
  | some addr => .ok addr

namespace KeeperState

/-- `LastPendingValsetRequestByAddr` -/
def lastPendingValsetRequestByAddr (address : Bytes) : Except QueryError (List Valset) := do
  let addr ← requestAddress sdk address
  pure ((keeper.pendingValsets addr).take maxPendingValsets)

/-- `LastPendingBatchRequestByAddr` -/
def lastPendingBatchRequestByAddr (address : Bytes) : Except QueryError (Option OutgoingTxBatch) := do
  let addr ← requestAddress sdk address
  pure (keeper.chain.app.outgoing.getOutgoingTxBatches.find? fun batch =>
    keeper.confirms.Lacks addr (.batch batch))

/-- `LastPendingLogicCallByAddr` -/
def lastPendingLogicCallByAddr (address : Bytes) : Except QueryError (Option OutgoingLogicCall) := do
  let addr ← requestAddress sdk address
  pure (keeper.logicCalls.getOutgoingLogicCalls.find? fun logic =>
    keeper.confirms.Lacks addr (.logicCall logic))

end KeeperState

end Queries

end NabBridge
