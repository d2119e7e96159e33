/-
**The Ethereum signer at its node.**

A round of `eth_signer_main_loop` is three turns, one after the other: the validator sets of an answer, one
batch, one logic call. The messages of a turn go into one transaction, which is executed as a whole or not
at all. A turn that fails sends nothing, and the next one is taken all the same; a panic ends the loop.

Rounds are counted from here only when both chains can be reached and the fee is high enough: without them
a round does nothing, or ends the loop.
-/

import NabBridge.Orchestrator.EthSigner
import NabBridge.Proof.Attribution

namespace NabBridge

open Orchestrator

/-- What a turn of the signer is about. -/
inductive SignedKind where
  | valset
  | batch
  | logicCall
  deriving DecidableEq, Repr

namespace Orchestrator.EthSigner

variable {β : Type} (sdk : Sdk) (crates : SignerCrates) (signer : EthSigner) (gravityId : Bytes)
  (keeper : KeeperState β)

/-- `send_valset_confirms` for what is pending. -/
def sendValsetConfirms : SignResult (List Confirmation) := do
  let valsets ← getOldestUnsignedValsets sdk crates.toCrates keeper signer.ourAddress
  pure (valsets.map fun valset => .valset (signer.valsetConfirm crates gravityId valset))

/-- `send_batch_confirm` for what is pending. -/
def sendBatchConfirm : SignResult (List Confirmation) := do
  let batch ← getOldestUnsignedTransactionBatch sdk crates.toCrates keeper signer.ourAddress
  pure (batch.toList.map fun batch => .batch (signer.batchConfirm crates gravityId batch))

/-- `send_logic_call_confirm` for what is pending. -/
def sendLogicCallConfirm : SignResult (List Confirmation) := do
  let call ← getOldestUnsignedLogicCall sdk crates.toCrates keeper signer.ourAddress
  pure (call.toList.map fun call => .logicCall (signer.logicCallConfirm crates gravityId call))

/-- The bytes that a turn hands to `sign_ethereum_msg`. -/
def signedIn : SignedKind → SignResult (List Bytes)
  | .valset => do
      let valsets ← getOldestUnsignedValsets sdk crates.toCrates keeper signer.ourAddress
      pure (valsets.map (encodeValsetConfirm crates.toCrates gravityId))
  | .batch => do
      let batch ← getOldestUnsignedTransactionBatch sdk crates.toCrates keeper signer.ourAddress
      pure (batch.toList.map (encodeTxBatchConfirm crates.toCrates gravityId))
  | .logicCall => do
      let call ← getOldestUnsignedLogicCall sdk crates.toCrates keeper signer.ourAddress
      pure (call.toList.map (encodeLogicCallConfirm crates.toCrates gravityId))

end Orchestrator.EthSigner

section Transactions

variable {β τ : Type} (sdk : Sdk) (geth : Geth) (isValidator : ValAddress → Bool)

/-- A transaction of confirmations: all of them are checked before the first is handled, and one that fails
takes the others with it. -/
def Node.deliverTx (node : Node β τ) (msgs : List Confirmation) : Node β τ :=
  if ∀ msg ∈ msgs, msg.validateBasic sdk = .ok () then
    node.withConfirms ((msgs.foldlM
      (fun confirms msg => (node.withConfirms confirms).handleConfirm sdk geth isValidator msg)
      node.keeper.confirms).deliver node.keeper.confirms)
  else node

/-- What comes of a turn. -/
def Node.afterTurn (node : Node β τ) : SignResult (List Confirmation) → Outcome Empty Panic (Node β τ)
  | .ok msgs => .ok (node.deliverTx sdk geth isValidator msgs)
  | .error _ => .ok node
  | .panic reason => .panic reason

variable (crates : SignerCrates) (signer : EthSigner) (gravityId : Bytes)

/-- One round of `eth_signer_main_loop`. -/
def Node.signerRound (node : Node β τ) : Outcome Empty Panic (Node β τ) := do
  let node ← node.afterTurn sdk geth isValidator
    (signer.sendValsetConfirms sdk crates gravityId node.keeper)
  let node ← node.afterTurn sdk geth isValidator
    (signer.sendBatchConfirm sdk crates gravityId node.keeper)
  node.afterTurn sdk geth isValidator (signer.sendLogicCallConfirm sdk crates gravityId node.keeper)

/-- A number of rounds while nothing else happens. -/
def Node.signerRounds : Nat → Node β τ → Outcome Empty Panic (Node β τ)
  | 0, node => .ok node
  | rounds + 1, node => do
      let node ← node.signerRound sdk geth isValidator crates signer gravityId
      signerRounds rounds node

end Transactions

/-! ### The signer among everything else -/

/-- A node, and what a signer has signed so far. -/
structure SigningNode (β τ : Type) where
  node : Node β τ
  signed : List Bytes

/-- One action: of anybody, confirmations included, or a turn of the signer. Its transaction is an action of
the node's, at any later time. -/
inductive SigningInput (β τ : Type) where
  | node (input : NodeInput β τ)
  | turn (kind : SignedKind)

/-- One action. A turn that does not come to its signatures has signed nothing. -/
def signingStep {β τ : Type} (sdk : Sdk) (bank : BankKeeper β) (geth : Geth) (evm : Evm)
    (others : Contracts τ) (crates : SignerCrates) (signer : EthSigner) (gravityId : Bytes)
    (state : SigningNode β τ) : SigningInput β τ → Option (SigningNode β τ × List NodeOutput)
  | .node input =>
      (nodeStep sdk bank geth evm others state.node input).map fun result =>
        ({ state with node := result.1 }, result.2)
  | .turn kind =>
      match signer.signedIn sdk crates gravityId state.node.keeper kind with
      | .ok messages => some ({ state with signed := state.signed ++ messages }, [])
      | _ => some (state, [])

end NabBridge
