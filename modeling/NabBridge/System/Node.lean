/-
**A node of the bridge.**

`nodeStep` is the machine of `bridgeStep` with the rest of the module around it: logic calls, which other
modules of the chain hand over and take back, registrations, confirmations, evidence, changes of the
parameters, and restarts from an exported genesis. Claims and the end of a block read the registered keys
of the node itself.

A message that fails or panics is rolled back. After a panic at the end of a block only a restart brings
the module back.
-/

import NabBridge.Keeper.Evidence
import NabBridge.Keeper.Genesis
import NabBridge.System.Bridge

namespace NabBridge

/-- The module of a node, and the contract. -/
structure Node (β τ : Type) where
  keeper : KeeperState β
  eth : Ethereum τ
  halted : Bool

/-- A module that has not seen anything yet. -/
def KeeperState.fresh {β : Type} (params : Params) (balances : β) : KeeperState β where
  chain := Chain.fresh balances
  params := params
  logicCalls := Store.empty
  confirms := Confirms.empty
  keys := DelegateKeys.empty

/-- One action. `isValidator` is the set of operators the staking module knows at that moment. -/
inductive NodeInput (β τ : Type) where
  | bridge (isValidator : ValAddress → Bool) (action : BridgeInput β τ)
  /-- `SetOutgoingLogicCall`, from another module -/
  | setOutgoingLogicCall (call : OutgoingLogicCall)
  /-- `DeleteOutgoingLogicCall`, from another module -/
  | deleteOutgoingLogicCall (invalidationId : Bytes) (invalidationNonce : Nat)
  | setOrchestratorAddress (isValidator : ValAddress → Bool) (msg : MsgSetOrchestratorAddress)
  | valsetConfirm (isValidator : ValAddress → Bool) (msg : MsgValsetConfirm)
  | confirmBatch (isValidator : ValAddress → Bool) (msg : MsgConfirmBatch)
  | confirmLogicCall (isValidator : ValAddress → Bool) (msg : MsgConfirmLogicCall)
  /-- `SubmitBadSignatureEvidence` -/
  | evidence (env : EvidenceEnv) (subject : EthereumSigned) (signature : Bytes)
  /-- governance changes the parameters -/
  | setParams (params : Params)
  /-- the state is exported and imported again, with the two lists in the order of the genesis file -/
  | restart (valsetReward : Coin) (attestations : List Attestation)
      (delegateKeys : List MsgSetOrchestratorAddress)

/-- What an action adds to the history. -/
inductive NodeOutput where
  | bridge (output : BridgeOutput)
  | logicCallStored (call : OutgoingLogicCall)
  | punished (punishment : Punishment)
  deriving DecidableEq

/-- Claims and the end of a block read the node's own keys. -/
def BridgeInput.reading {β τ : Type} (keys : DelegateKeys) (isValidator : ValAddress → Bool) :
    BridgeInput β τ → BridgeInput β τ
  | .claim _ blockHeight reported =>
      .claim (keys.getOrchestratorValidator isValidator) blockHeight reported
  | .endBlock env => .endBlock { env with keys := keys }
  | action => action

/-- Whether the action ends a block. -/
def BridgeInput.endsBlock {β τ : Type} : BridgeInput β τ → Bool
  | .endBlock _ => true
  | _ => false

section Machine

variable {β τ : Type} (sdk : Sdk) (bank : BankKeeper β) (geth : Geth) (evm : Evm)
  (others : Contracts τ)

/-- The part of a node that `bridgeStep` works on. -/
def Node.bridge (node : Node β τ) : Bridge β τ := ⟨node.keeper.chain, node.eth, node.halted⟩

/-- The node after a step of `bridgeStep`. A block that has ended drops the logic calls that have timed
out; a block that halted is not committed. -/
def Node.afterBridge (node : Node β τ) (action : BridgeInput β τ) (bridge : Bridge β τ) : Node β τ where
  keeper :=
    { node.keeper with
      chain := bridge.chain
      logicCalls :=
        if action.endsBlock ∧ ¬ bridge.halted then
          node.keeper.logicCalls.cleanupTimedOutLogicCalls
            bridge.chain.oracle.lastObservedEthereumBlockHeight.ethereumBlockHeight
        else node.keeper.logicCalls }
  eth := bridge.eth
  halted := bridge.halted

/-- The node with other confirmations. -/
def Node.withConfirms (node : Node β τ) (confirms : Confirms) : Node β τ :=
  { node with keeper := { node.keeper with confirms := confirms } }

/-- The registry a message is checked against. -/
def KeeperState.registry (keeper : KeeperState β) (isValidator : ValAddress → Bool) : Registry :=
  ⟨keeper.keys, isValidator⟩

/-- A message that passes `ValidateBasic` goes to its handler; what fails leaves the confirmations as
they were. -/
def deliverConfirm (valid : Except ConfirmError Unit)
    (handled : Outcome ConfirmError ConfirmPanic Confirms) (confirms : Confirms) : Confirms :=
  match valid with
  | .error _ => confirms
  | .ok () => handled.deliver confirms

/-- Export and import. -/
def Node.restart (node : Node β τ) (valsetReward : Coin) (attestations : List Attestation)
    (delegateKeys : List MsgSetOrchestratorAddress) : Option (KeeperState β) :=
  if node.keeper.ExportOrder sdk attestations delegateKeys then
    (initGenesis sdk geth valsetReward (exportGenesis node.keeper attestations delegateKeys)
      node.keeper.chain.app.bank).value?
  else none

/-- One action. -/
def nodeStep (node : Node β τ) : NodeInput β τ → Option (Node β τ × List NodeOutput)
  | .bridge isValidator action =>
      match bridgeStep sdk bank geth node.keeper.params evm others node.bridge
          (action.reading node.keeper.keys isValidator) with
      | none => none
      | some (bridge, outputs) => some (node.afterBridge action bridge, outputs.map .bridge)
  | .setOutgoingLogicCall call =>
      if node.halted then none
      else
        match setOutgoingLogicCall geth node.keeper.params.gravityId call
            node.keeper.chain.app.outgoing node.keeper.logicCalls with
        | .ok (outgoing, calls) =>
            some ({ node with
              keeper := { node.keeper with
                chain := { node.keeper.chain with
                  app := { node.keeper.chain.app with outgoing := outgoing } }
                logicCalls := calls } }, [.logicCallStored call])
        | _ => some (node, [])
  | .deleteOutgoingLogicCall invalidationId invalidationNonce =>
      if node.halted then none
      else
        some ({ node with
          keeper := { node.keeper with
            logicCalls :=
              node.keeper.logicCalls.deleteOutgoingLogicCall invalidationId invalidationNonce } }, [])
  | .setOrchestratorAddress isValidator msg =>
      if node.halted then none
      else
        some ({ node with
          keeper := { node.keeper with
            keys := (setOrchestratorAddress sdk isValidator msg node.keeper.keys).deliver
              node.keeper.keys } }, [])
  | .valsetConfirm isValidator msg =>
      if node.halted then none
      else
        some (node.withConfirms (deliverConfirm (msg.validateBasic sdk)
          (valsetConfirm sdk geth node.keeper.params.gravityId (node.keeper.registry isValidator)
            node.keeper.chain.valsets.valsets msg node.keeper.confirms) node.keeper.confirms), [])
  | .confirmBatch isValidator msg =>
      if node.halted then none
      else
        some (node.withConfirms (deliverConfirm (msg.validateBasic sdk)
          (confirmBatch sdk geth node.keeper.params.gravityId (node.keeper.registry isValidator)
            node.keeper.chain.app.outgoing msg node.keeper.confirms) node.keeper.confirms), [])
  | .confirmLogicCall isValidator msg =>
      if node.halted then none
      else
        some (node.withConfirms (deliverConfirm (msg.validateBasic sdk)
          (confirmLogicCall sdk geth node.keeper.params.gravityId (node.keeper.registry isValidator)
            node.keeper.logicCalls msg node.keeper.confirms) node.keeper.confirms), [])
  | .evidence env subject signature =>
      if node.halted then none
      else
        some (node, ((checkBadSignatureEvidence geth node.keeper.params.gravityId node.keeper.keys env
          node.keeper.chain.app.outgoing subject signature).value?.map NodeOutput.punished).toList)
  | .setParams params =>
      if node.halted then none
      -- `validateGravityID`
      else if (strToFixByteArray params.gravityId).isNone then some (node, [])
      else some ({ node with keeper := { node.keeper with params := params } }, [])
  | .restart valsetReward attestations delegateKeys =>
      (node.restart sdk geth valsetReward attestations delegateKeys).map fun keeper =>
        (⟨keeper, node.eth, false⟩, [])

end Machine

/-! ### The history -/

/-- The signed object an output reports as stored. -/
def NodeOutput.stored : NodeOutput → Option EthereumSigned
  | .bridge (.batchStored batch) => some (.batch batch)
  | .bridge (.valsetStored valset) => some (.valset valset)
  | .logicCallStored call => some (.logicCall call)
  | _ => none

/-- The signed objects that were ever stored. -/
def storedObjects (trace : List NodeOutput) : List EthereumSigned := trace.filterMap NodeOutput.stored

@[simp] theorem storedObjects_append (first second : List NodeOutput) :
    storedObjects (first ++ second) = storedObjects first ++ storedObjects second :=
  List.filterMap_append

/-- What carries a number: transfers, batches, validator sets. -/
inductive IdKind where
  | transfer
  | batch
  | valset
  deriving DecidableEq, Repr

/-- The number an output reports as given out. -/
def NodeOutput.issued : NodeOutput → Option (IdKind × Nat)
  | .bridge (.sent tx) => some (.transfer, tx.id)
  | .bridge (.batchStored batch) => some (.batch, batch.batchNonce)
  | .bridge (.valsetStored valset) => some (.valset, valset.nonce)
  | _ => none

/-- The numbers given out so far. -/
def issuedIds (trace : List NodeOutput) : List (IdKind × Nat) := trace.filterMap NodeOutput.issued

@[simp] theorem issuedIds_append (first second : List NodeOutput) :
    issuedIds (first ++ second) = issuedIds first ++ issuedIds second :=
  List.filterMap_append

end NabBridge
