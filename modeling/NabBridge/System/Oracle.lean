/-
**From the contract's logs to the module's claims.**

An event of the contract is a log: its signature and its indexed fields are topics, the other fields are
ABI-encoded data. An orchestrator searches the logs (`checkForEvents`) and sends the claims in the order
of their event nonces; the module decodes a claim, checks it and counts a vote.
-/

import NabBridge.Contract.Calls
import NabBridge.Keeper.Attestation
import NabBridge.Orchestrator.Events

namespace NabBridge

open Orchestrator

/-! ### Logs -/

/-- The signature of an event, as the source spells it. -/
def GravityEvent.signature : GravityEvent → String
  | transactionBatchExecuted _ _ _ => "TransactionBatchExecutedEvent(uint256,address,uint256)"
  | sendToCosmos _ _ _ _ _ => "SendToCosmosEvent(address,address,bytes32,uint256,uint256)"
  | erc20Deployed _ _ _ _ _ _ => "ERC20DeployedEvent(string,address,string,string,uint8,uint256)"
  | valsetUpdated _ _ _ _ _ _ =>
      "ValsetUpdatedEvent(uint256,uint256,uint256,address,address[],uint256[])"
  | logicCall _ _ _ _ => "LogicCallEvent(bytes32,uint256,bytes,uint256)"

/-- The indexed fields. -/
def GravityEvent.indexed : GravityEvent → List Bytes
  | transactionBatchExecuted batchNonce token _ => [wordBytes batchNonce, wordBytes token.val]
  | sendToCosmos tokenContract sender destination _ _ =>
      [wordBytes tokenContract.val, wordBytes sender.val, destination]
  | erc20Deployed _ tokenContract _ _ _ _ => [wordBytes tokenContract.val]
  | valsetUpdated newValsetNonce _ _ _ _ _ => [wordBytes newValsetNonce]
  | logicCall _ _ _ _ => []

/-- The other fields. -/
def GravityEvent.data : GravityEvent → Bytes
  | transactionBatchExecuted _ _ eventNonce => abiEncode [.word eventNonce]
  | sendToCosmos _ _ _ amount eventNonce => abiEncode [.word amount, .word eventNonce]
  | erc20Deployed cosmosDenom _ name symbol decimals eventNonce =>
      abiEncode [.bytes cosmosDenom, .bytes name, .bytes symbol, .word decimals, .word eventNonce]
  | valsetUpdated _ eventNonce rewardAmount rewardToken validators powers =>
      abiEncode [.word eventNonce, .word rewardAmount, .word rewardToken.val,
        .words (validators.map Fin.val), .words powers]
  | logicCall invalidationId invalidationNonce returnData eventNonce =>
      abiEncode [.bytes32 invalidationId, .word invalidationNonce, .bytes returnData, .word eventNonce]

/-- An event as the log of its block. -/
def eventLog (evm : Evm) (event : GravityEvent) (block : Nat) : Log where
  topics := evm.keccak256 (ascii event.signature) :: event.indexed
  data := event.data
  blockNumber := some block

/-- `web3.check_for_events`: the logs with a signature. -/
def searchLogs (evm : Evm) (logs : List (GravityEvent × Nat)) (signature : String) : List Log :=
  (logs.filter fun log => log.1.signature = signature).map fun log => eventLog evm log.1 log.2

/-- The logs of a range of blocks, both ends included. -/
def logsBetween (logs : List (GravityEvent × Nat)) (startingBlock latestBlock : Nat) :
    List (GravityEvent × Nat) :=
  logs.filter fun log => startingBlock ≤ log.2 ∧ log.2 ≤ latestBlock

/-- The five searches of a round. -/
def roundLogs (evm : Evm) (logs : List (GravityEvent × Nat)) : RoundLogs where
  deposits := searchLogs evm logs "SendToCosmosEvent(address,address,bytes32,uint256,uint256)"
  batches := searchLogs evm logs "TransactionBatchExecutedEvent(uint256,address,uint256)"
  valsets :=
    searchLogs evm logs "ValsetUpdatedEvent(uint256,uint256,uint256,address,address[],uint256[])"
  erc20Deployed :=
    searchLogs evm logs "ERC20DeployedEvent(string,address,string,string,uint8,uint256)"
  logicCallExecuted := searchLogs evm logs "LogicCallEvent(bytes32,uint256,bytes,uint256)"

/-! ### What a log should become -/

/-- `event_nonce` -/
def Orchestrator.ProtoClaim.eventNonce : ProtoClaim → Nat
  | .sendToCosmos eventNonce _ _ _ _ _ _ => eventNonce
  | .batchSendToEth msg => msg.eventNonce
  | .erc20Deployed msg => msg.eventNonce
  | .logicCallExecuted msg => msg.eventNonce
  | .valsetUpdated eventNonce _ _ _ _ _ _ => eventNonce

/-- The claim on the wire that reports a log: every field of the event, its nonce and its block. -/
def wireClaim (crates : OracleCrates) (ourAddress : Bytes) : GravityEvent × Nat → ProtoClaim
  | (.transactionBatchExecuted batchNonce token eventNonce, block) =>
      .batchSendToEth ⟨eventNonce, block, batchNonce, crates.ethAddressString token, ourAddress⟩
  | (.sendToCosmos tokenContract sender destination amount eventNonce, block) =>
      .sendToCosmos eventNonce block (crates.ethAddressString tokenContract) (decimal amount)
        (((crates.cosmosFromBytes (destination.drop 12)).bind crates.toBech32).getD [])
        (crates.ethAddressString sender) ourAddress
  | (.erc20Deployed cosmosDenom tokenContract name symbol decimals eventNonce, block) =>
      .erc20Deployed ⟨eventNonce, block, cosmosDenom, crates.ethAddressString tokenContract, name,
        symbol, decimals, ourAddress⟩
  | (.valsetUpdated newValsetNonce eventNonce rewardAmount rewardToken validators powers, block) =>
      .valsetUpdated eventNonce newValsetNonce block
        (List.zipWith (fun validator power => ⟨power, crates.ethAddressString validator⟩) validators
          powers) (decimal rewardAmount) (crates.ethAddressString rewardToken) ourAddress
  | (.logicCall invalidationId invalidationNonce _ eventNonce, block) =>
      .logicCallExecuted ⟨eventNonce, block, invalidationId, invalidationNonce, ourAddress⟩

/-- A text that is read back: less than 4 GiB of UTF-8. -/
def ReadableText (text : Bytes) : Prop := text.length < 2 ^ 32 ∧ isUtf8 text = true

instance (text : Bytes) : Decidable (ReadableText text) := by unfold ReadableText; infer_instance

example : ¬ ReadableText [0xff] := by decide +kernel

/-- The logs that can be parsed. -/
def Parses : GravityEvent × Nat → Prop
  | (.transactionBatchExecuted batchNonce _ eventNonce, block) =>
      eventNonce < 2 ^ 64 ∧ batchNonce < 2 ^ 64 ∧ block < 2 ^ 64
  | (.sendToCosmos _ _ _ _ eventNonce, block) => eventNonce < 2 ^ 64 ∧ block < 2 ^ 64
  | (.erc20Deployed cosmosDenom _ name symbol _ eventNonce, _) =>
      eventNonce < 2 ^ 64 ∧ ReadableText cosmosDenom ∧ ReadableText name ∧ ReadableText symbol
  | (.valsetUpdated newValsetNonce eventNonce _ _ validators powers, _) =>
      newValsetNonce < 2 ^ 64 ∧ eventNonce < 2 ^ 64 ∧ validators.length < 2 ^ 64 ∧
        ∀ power ∈ powers, power < 2 ^ 64
  | (.logicCall _ _ _ _, _) => False

instance : DecidablePred Parses := fun log => by
  obtain ⟨event, block⟩ := log
  rcases event <;> unfold Parses <;> infer_instance

/-- The amount of an event that the module keeps as an `sdk.Int`. -/
def GravityEvent.amount : GravityEvent → Nat
  | sendToCosmos _ _ _ amount _ => amount
  | valsetUpdated _ _ rewardAmount _ _ _ => rewardAmount
  | _ => 0

/-- The logs whose claims can be sent and accepted: 255 bits for the amount, and a block below the
largest `u64`. -/
def Claimable (log : GravityEvent × Nat) : Prop := log.1.amount < 2 ^ 255 ∧ log.2 < 2 ^ 64 - 1

instance : DecidablePred Claimable := fun log => by unfold Claimable; infer_instance

/-! ### Claims -/

section Module

-- `Int.Unmarshal` of the SDK; `none` is an error, and `some none` an amount that was never set
variable (unmarshalInt : Bytes → Option (Option Int))

/-- The message a claim on the wire decodes to; `none` is an error. Strings on the wire are UTF-8. -/
def Orchestrator.ProtoClaim.decode : ProtoClaim → Option EthereumClaim
  | .sendToCosmos eventNonce blockHeight tokenContract amount cosmosReceiver ethereumSender
      orchestrator =>
      (unmarshalInt amount).map fun amount =>
        .sendToCosmos
          { eventNonce := eventNonce
            blockHeight := blockHeight
            tokenContract := tokenContract
            amount := amount
            ethereumSender := ethereumSender
            cosmosReceiver := cosmosReceiver
            orchestrator := orchestrator }
  | .batchSendToEth msg => some (.batchSendToEth msg)
  | .erc20Deployed msg =>
      if isUtf8 msg.cosmosDenom ∧ isUtf8 msg.name ∧ isUtf8 msg.symbol then some (.erc20Deployed msg)
      else none
  | .logicCallExecuted msg => some (.logicCallExecuted msg)
  | .valsetUpdated eventNonce valsetNonce blockHeight members rewardAmount rewardToken orchestrator =>
      (unmarshalInt rewardAmount).map fun rewardAmount =>
        .valsetUpdated
          { eventNonce := eventNonce
            valsetNonce := valsetNonce
            blockHeight := blockHeight
            members := members
            rewardAmount := rewardAmount
            rewardToken := rewardToken
            orchestrator := orchestrator }

variable (sdk : Sdk) (orchestratorValidator : AccAddress → Option ValAddress) (blockHeight : Nat)

/-- A claim that the module decodes and accepts: it passes `ValidateBasic`, and its vote is counted. -/
def acceptClaim (oracle : Oracle) (claim : ProtoClaim) : Option Oracle :=
  match claim.decode unmarshalInt with
  | none => none
  | some claim =>
      match claim.validateBasic sdk with
      | .error _ => none
      | .ok () =>
          (attest (π := Empty) sdk orchestratorValidator blockHeight claim oracle).value?.map Prod.fst

/-- The claims of a round, one after the other. -/
def acceptClaims (oracle : Oracle) (claims : List ProtoClaim) : Option Oracle :=
  claims.foldlM (acceptClaim unmarshalInt sdk orchestratorValidator blockHeight) oracle

end Module

end NabBridge
