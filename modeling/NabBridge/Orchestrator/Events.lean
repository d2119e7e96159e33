/-
**The oracle.**

The orchestrator searches the contract's logs and turns each into a claim for the module. There is no ABI
decoder: every event is parsed from its bytes by hand. `from_logs` gives up on the first log it cannot
parse, and `check_for_events` parses all logs of a round before it sends any claim.

A range that is not in the data panics. Indices are natural numbers here; where they would not fit into the
`usize` they are in the source, the range is not in the data either (`Orchestrator.EventIndices`).
-/

import NabBridge.Lib.AbiRead
import NabBridge.Orchestrator.Types

namespace NabBridge.Orchestrator

/-- `web30::types::Log` -/
structure Log where
  topics : List Bytes
  data : Bytes
  blockNumber : Option Nat
  deriving DecidableEq, Repr

/-- The errors of parsing a log. -/
inductive EventError where
  /-- `Too few topics` -/
  | tooFewTopics
  /-- `Nonce overflow, probably incorrect parsing` -/
  | nonceOverflow
  /-- `Event nonce overflow, probably incorrect parsing` -/
  | eventNonceOverflow
  /-- `Log does not have block number, we only search logs already in blocks?` -/
  | noBlockNumber
  /-- an address that is not 20 bytes -/
  | address
  /-- `Bad reward address, must be incorrect parsing` -/
  | rewardAddress
  /-- `Ethereum array len overflow, probably incorrect parsing` -/
  | ethereumArrayLen
  /-- `Powers array len overflow, probably incorrect parsing` -/
  | powersArrayLen
  /-- `Array len mismatch, probably incorrect parsing` -/
  | arrayLenMismatch
  /-- `Ethereum Address parsing error, probably incorrect parsing` -/
  | memberAddress
  /-- `Power greater than u64::MAX, probably incorrect parsing` -/
  | power
  /-- `Decimals overflow, probably incorrect parsing` -/
  | decimals
  /-- `denom length overflow, probably incorrect parsing` -/
  | denomLength
  /-- `ERC20 Name length overflow, probably incorrect parsing` -/
  | nameLength
  /-- `Symbol length overflow, probably incorrect parsing` -/
  | symbolLength
  /-- `{:?} is not valid utf8, probably incorrect parsing` -/
  | notUtf8 (text : Bytes)
  deriving DecidableEq, Repr

/-- The panics on the way from a log to a claim. -/
inductive EventPanic where
  /-- a range out of the data -/
  | range
  /-- `usize` arithmetic with overflow -/
  | overflow
  /-- `unimplemented!()` -/
  | unimplemented
  /-- `unwrap` of `CosmosAddress::from_bytes` -/
  | cosmosAddress (bytes : Bytes)
  /-- `unwrap` of `to_bech32` -/
  | bech32 (account : Bytes)
  /-- `unwrap` of `downcast_uint256` -/
  | downcast (value : Nat)
  deriving DecidableEq, Repr

abbrev EventResult (α : Type) := Outcome EventError EventPanic α

/-- What the oracle uses of `clarity` and `deep_space`. -/
structure OracleCrates where
  /-- `to_string` of an Ethereum address -/
  ethAddressString : EthAddress → Bytes
  /-- `CosmosAddress::from_bytes` with the default prefix; `none` is an error. -/
  cosmosFromBytes : Bytes → Option Bytes
  /-- `to_bech32` with the prefix of the chain; `none` is an error. -/
  toBech32 : Bytes → Option Bytes

/-! ### Parts of a log -/

def u64Max : Nat := 2 ^ 64 - 1

def u32Max : Nat := 2 ^ 32 - 1

/-- `&data[start..stop]` -/
def range (data : Bytes) (start stop : Nat) : EventResult Bytes :=
  match slice? data start stop with
  | none => .panic .range
  | some bytes => .ok bytes

/-- `Uint256::from_bytes_be(&data[start..start + 32])` -/
def uint256At (data : Bytes) (start : Nat) : EventResult Nat := do
  let bytes ← range data start (start + 32)
  pure (beValue bytes)

/-- A number that has to be at most `bound`. -/
def atMost (bound : Nat) (reason : EventError) (value : Nat) : EventResult Nat :=
  if value > bound then .error reason else .ok value

/-- `EthAddress::from_slice` -/
def ethAddressFromSlice (reason : EventError) (bytes : Bytes) : EventResult EthAddress :=
  if bytes.length = 20 then .ok (Fin.ofNat (2 ^ 160) (beValue bytes)) else .error reason

/-- An address in the last 20 bytes of a topic. -/
def addressOfTopic (topic : Bytes) : EventResult EthAddress := do
  let bytes ← range topic 12 32
  ethAddressFromSlice .address bytes

/-- The block of a log. -/
def Log.height (input : Log) : EventResult Nat :=
  match input.blockNumber with
  | none => .error .noBlockNumber
  | some number => .ok number

/-- A continuation byte. -/
def continuation : UInt8 × UInt8 := (0x80, 0xbf)

/-- The ranges of the bytes that follow the first byte of a character; `none` where none begins with
it. -/
def utf8Ranges (lead : UInt8) : Option (List (UInt8 × UInt8)) :=
  if lead ≤ 0x7f then some []
  else if 0xc2 ≤ lead ∧ lead ≤ 0xdf then some [continuation]
  else if lead = 0xe0 then some [(0xa0, 0xbf), continuation]
  else if lead = 0xed then some [(0x80, 0x9f), continuation]
  else if 0xe1 ≤ lead ∧ lead ≤ 0xef then some [continuation, continuation]
  else if lead = 0xf0 then some [(0x90, 0xbf), continuation, continuation]
  else if 0xf1 ≤ lead ∧ lead ≤ 0xf3 then some [continuation, continuation, continuation]
  else if lead = 0xf4 then some [(0x80, 0x8f), continuation, continuation]
  else none

/-- Whether the rest of a text is UTF-8, in the middle of a character or not. -/
def isUtf8From : List (UInt8 × UInt8) → Bytes → Bool
  | pending, [] => pending.isEmpty
  | [], lead :: rest =>
      match utf8Ranges lead with
      | none => false
      | some pending => isUtf8From pending rest
  | (low, high) :: pending, byte :: rest => low ≤ byte && byte ≤ high && isUtf8From pending rest

/-- Whether a text is UTF-8. -/
def isUtf8 (text : Bytes) : Bool := isUtf8From [] text

/-- `String::from_utf8` -/
def stringFromUtf8 (text : Bytes) : EventResult Bytes :=
  if isUtf8 text then .ok text else .error (.notUtf8 text)

/-! ### The events -/

/-- `ValsetUpdatedEvent` -/
structure ValsetUpdatedEvent where
  valsetNonce : Nat
  eventNonce : Nat
  blockHeight : Nat
  rewardAmount : Nat
  rewardToken : Option EthAddress
  members : List ValsetMember
  deriving DecidableEq, Repr

/-- `ValsetDataBytes` -/
structure ValsetDataBytes where
  eventNonce : Nat
  rewardAmount : Nat
  rewardToken : Option EthAddress
  members : List ValsetMember
  deriving DecidableEq, Repr

/-- One turn of the loop of `decode_data_bytes`. -/
def decodeMember (input : Bytes) (powersOffset ethAddressesOffset i : Nat) :
    EventResult ValsetMember := do
  let power ← uint256At input (i * 32 + powersOffset)
  let addressBytes ← range input (i * 32 + ethAddressesOffset + 12) (i * 32 + ethAddressesOffset + 32)
  let ethAddress ← ethAddressFromSlice .memberAddress addressBytes
  let power ← atMost u64Max .power power
  pure ⟨power, some ethAddress⟩

/-- `decode_data_bytes`; a set that is not sorted is only traced. -/
def ValsetDataBytes.decode (input : Bytes) : EventResult ValsetDataBytes := do
  let eventNonce ← uint256At input 0
  let eventNonce ← atMost u64Max .nonceOverflow eventNonce
  let rewardAmount ← uint256At input 32
  let rewardTokenData ← range input (2 * 32) (2 * 32 + 32)
  let rewardToken ← ethAddressFromSlice .rewardAddress (rewardTokenData.drop 12)
  let lenEthAddresses ← uint256At input (5 * 32)
  let lenEthAddresses ← atMost u64Max .ethereumArrayLen lenEthAddresses
  let lenPowers ← uint256At input ((6 + lenEthAddresses) * 32)
  let _ ← atMost u64Max .powersArrayLen lenPowers
  -- the source parses the length of the addresses once more instead of the length of the powers
  let lenPowers := lenEthAddresses
  if lenPowers ≠ lenEthAddresses then .error .arrayLenMismatch
  else do
    let members ← (List.range lenEthAddresses).mapM
      (decodeMember input ((6 + lenEthAddresses) * 32 + 32) (5 * 32 + 32))
    pure ⟨eventNonce, rewardAmount, if rewardToken = 0 then none else some rewardToken, members⟩

/-- `ValsetUpdatedEvent::from_log` -/
def ValsetUpdatedEvent.fromLog (input : Log) : EventResult ValsetUpdatedEvent :=
  match input.topics[1]? with
  | none => .error .tooFewTopics
  | some valsetNonceData => do
      let valsetNonce ← atMost u64Max .nonceOverflow (beValue valsetNonceData)
      let blockHeight ← input.height
      let decoded ← ValsetDataBytes.decode input.data
      pure ⟨valsetNonce, decoded.eventNonce, blockHeight, decoded.rewardAmount, decoded.rewardToken,
        decoded.members⟩

/-- `TransactionBatchExecutedEvent` -/
structure TransactionBatchExecutedEvent where
  batchNonce : Nat
  blockHeight : Nat
  erc20 : EthAddress
  eventNonce : Nat
  deriving DecidableEq, Repr

/-- `TransactionBatchExecutedEvent::from_log` -/
def TransactionBatchExecutedEvent.fromLog (input : Log) :
    EventResult TransactionBatchExecutedEvent :=
  match input.topics[1]?, input.topics[2]? with
  | some batchNonceData, some erc20Data => do
      let batchNonce := beValue batchNonceData
      let erc20 ← addressOfTopic erc20Data
      let eventNonce := beValue input.data
      let blockHeight ← input.height
      if eventNonce > u64Max ∨ batchNonce > u64Max ∨ blockHeight > u64Max then
        .error .eventNonceOverflow
      else pure ⟨batchNonce, blockHeight, erc20, eventNonce⟩
  | _, _ => .error .tooFewTopics

/-- `SendToCosmosEvent` -/
structure SendToCosmosEvent where
  erc20 : EthAddress
  sender : EthAddress
  destination : Bytes
  amount : Nat
  eventNonce : Nat
  blockHeight : Nat
  deriving DecidableEq, Repr

/-- The destination `send_to_cosmos` gives to the contract: zeros before the bytes of the account, up
to a word. -/
def encodedDestinationAddress (account : Bytes) : Bytes :=
  List.replicate (32 - account.length) 0 ++ account

/-- `CosmosAddress::from_bytes(..).unwrap()` -/
def cosmosAddressOf (crates : OracleCrates) (bytes : Bytes) : EventResult Bytes :=
  match crates.cosmosFromBytes bytes with
  | none => .panic (.cosmosAddress bytes)
  | some account => .ok account

/-- `SendToCosmosEvent::from_log` -/
def SendToCosmosEvent.fromLog (crates : OracleCrates) (input : Log) : EventResult SendToCosmosEvent :=
  match input.topics[1]?, input.topics[2]?, input.topics[3]? with
  | some erc20Data, some senderData, some destinationData => do
      let erc20 ← addressOfTopic erc20Data
      let sender ← addressOfTopic senderData
      let addressBytes ← range destinationData 12 32
      let destination ← cosmosAddressOf crates addressBytes
      let amountBytes ← range input.data 0 32
      let nonceBytes ← range input.data 32 input.data.length
      let blockHeight ← input.height
      if beValue nonceBytes > u64Max ∨ blockHeight > u64Max then .error .eventNonceOverflow
      else pure ⟨erc20, sender, destination, beValue amountBytes, beValue nonceBytes, blockHeight⟩
  | _, _, _ => .error .tooFewTopics

/-- `Erc20DeployedEvent` -/
structure Erc20DeployedEvent where
  cosmosDenom : Bytes
  erc20Address : EthAddress
  name : Bytes
  symbol : Bytes
  decimals : Nat
  eventNonce : Nat
  blockHeight : Nat
  deriving DecidableEq, Repr

/-- A string whose length word is at `lengthIndex`; also the index of its end. -/
def stringAt (reason : EventError) (data : Bytes) (lengthIndex : Nat) : EventResult (Bytes × Nat) := do
  let length ← uint256At data lengthIndex
  let length ← atMost u32Max reason length
  let bytes ← range data (lengthIndex + 32) (lengthIndex + 32 + length)
  let text ← stringFromUtf8 bytes
  pure (text, lengthIndex + 32 + length)

/-- The next 32 byte word index. -/
def nextWord (index : Nat) : Nat := (index + 31) / 32 * 32

/-- `Erc20DeployedEvent::from_log` -/
def Erc20DeployedEvent.fromLog (input : Log) : EventResult Erc20DeployedEvent :=
  match input.topics[1]? with
  | none => .error .tooFewTopics
  | some newTokenContractData => do
      let erc20 ← addressOfTopic newTokenContractData
      let decimals ← uint256At input.data (3 * 32)
      let decimals ← atMost 255 .decimals decimals
      let nonce ← uint256At input.data (4 * 32)
      let eventNonce ← atMost u64Max .nonceOverflow nonce
      let (denom, denomEnd) ← stringAt .denomLength input.data (5 * 32)
      let (name, nameEnd) ← stringAt .nameLength input.data (nextWord denomEnd)
      let (symbol, _) ← stringAt .symbolLength input.data (nextWord nameEnd)
      let blockHeight ← input.height
      pure ⟨denom, erc20, name, symbol, decimals, eventNonce, blockHeight⟩

/-- `LogicCallExecutedEvent` -/
structure LogicCallExecutedEvent where
  invalidationId : Bytes
  invalidationNonce : Nat
  returnData : Bytes
  eventNonce : Nat
  blockHeight : Nat
  deriving DecidableEq, Repr

/-- `LogicCallExecutedEvent::from_log` -/
def LogicCallExecutedEvent.fromLog (_input : Log) : EventResult LogicCallExecutedEvent :=
  .panic .unimplemented

/-- `filter_by_event_nonce` -/
def filterByEventNonce {α : Type} (eventNonceOf : α → Nat) (eventNonce : Nat) (input : List α) : List α :=
  input.filter fun item => eventNonceOf item > eventNonce

/-! ### The claims -/

/-- A claim message on the wire: amounts are decimal text. -/
inductive ProtoClaim where
  | sendToCosmos (eventNonce blockHeight : Nat)
      (tokenContract amount cosmosReceiver ethereumSender orchestrator : Bytes)
  | batchSendToEth (msg : MsgBatchSendToEthClaim)
  | erc20Deployed (msg : MsgERC20DeployedClaim)
  | logicCallExecuted (msg : MsgLogicCallExecutedClaim)
  | valsetUpdated (eventNonce valsetNonce blockHeight : Nat) (members : List BridgeValidator)
      (rewardAmount rewardToken orchestrator : Bytes)
  deriving DecidableEq, Repr

/-- `downcast_uint256(..).unwrap()`; the largest `u64` is refused, too. -/
def downcastUint256 (value : Nat) : EventResult Nat :=
  if value ≥ u64Max then .panic (.downcast value) else .ok value

section Claims

variable (crates : OracleCrates) (ourAddress : Bytes)

/-- The claim of a deposit. -/
def SendToCosmosEvent.claim (deposit : SendToCosmosEvent) : EventResult ProtoClaim := do
  let blockHeight ← downcastUint256 deposit.blockHeight
  match crates.toBech32 deposit.destination with
  | none => .panic (.bech32 deposit.destination)
  | some receiver =>
      pure (.sendToCosmos deposit.eventNonce blockHeight (crates.ethAddressString deposit.erc20)
        (decimal deposit.amount) receiver (crates.ethAddressString deposit.sender) ourAddress)

/-- The claim of an executed batch. -/
def TransactionBatchExecutedEvent.claim (withdraw : TransactionBatchExecutedEvent) :
    EventResult ProtoClaim := do
  let blockHeight ← downcastUint256 withdraw.blockHeight
  pure (.batchSendToEth
    { eventNonce := withdraw.eventNonce
      blockHeight := blockHeight
      batchNonce := withdraw.batchNonce
      tokenContract := crates.ethAddressString withdraw.erc20
      orchestrator := ourAddress })

/-- The claim of a deployment. -/
def Erc20DeployedEvent.claim (deploy : Erc20DeployedEvent) : EventResult ProtoClaim := do
  let blockHeight ← downcastUint256 deploy.blockHeight
  pure (.erc20Deployed
    { eventNonce := deploy.eventNonce
      blockHeight := blockHeight
      cosmosDenom := deploy.cosmosDenom
      tokenContract := crates.ethAddressString deploy.erc20Address
      name := deploy.name
      symbol := deploy.symbol
      decimals := deploy.decimals
      orchestrator := ourAddress })

/-- The claim of a logic call. -/
def LogicCallExecutedEvent.claim (call : LogicCallExecutedEvent) : EventResult ProtoClaim := do
  let blockHeight ← downcastUint256 call.blockHeight
  pure (.logicCallExecuted
    { eventNonce := call.eventNonce
      blockHeight := blockHeight
      invalidationId := call.invalidationId
      invalidationNonce := call.invalidationNonce
      orchestrator := ourAddress })

/-- `BridgeValidator::from`; a member without an address has the empty text. -/
def ValsetMember.toProto (member : ValsetMember) : BridgeValidator :=
  ⟨member.power, (member.ethAddress.map crates.ethAddressString).getD []⟩

/-- The claim of a new validator set. -/
def ValsetUpdatedEvent.claim (valset : ValsetUpdatedEvent) : EventResult ProtoClaim := do
  let blockHeight ← downcastUint256 valset.blockHeight
  pure (.valsetUpdated valset.eventNonce valset.valsetNonce blockHeight
    (valset.members.map (ValsetMember.toProto crates)) (decimal valset.rewardAmount)
    (crates.ethAddressString (valset.rewardToken.getD 0)) ourAddress)

/-- One event of a kind, with its nonce, into the claims ordered by nonce. -/
def insertClaims {α : Type} (eventNonceOf : α → Nat) (claimOf : α → EventResult ProtoClaim)
    (orderedMsgs : Store Nat ProtoClaim) (events : List α) : EventResult (Store Nat ProtoClaim) :=
  events.foldlM
    (fun msgs event => do
      let claim ← claimOf event
      pure (msgs.set (eventNonceOf event) claim))
    orderedMsgs

/-- The messages of `send_ethereum_claims`, in the order of their event nonces. -/
def ethereumClaims (deposits : List SendToCosmosEvent) (withdraws : List TransactionBatchExecutedEvent)
    (erc20Deploys : List Erc20DeployedEvent) (logicCalls : List LogicCallExecutedEvent)
    (valsets : List ValsetUpdatedEvent) : EventResult (List ProtoClaim) := do
  let msgs ← insertClaims (·.eventNonce) (SendToCosmosEvent.claim crates ourAddress) Store.empty deposits
  let msgs ← insertClaims (·.eventNonce) (TransactionBatchExecutedEvent.claim crates ourAddress) msgs
    withdraws
  let msgs ← insertClaims (·.eventNonce) (Erc20DeployedEvent.claim crates ourAddress) msgs erc20Deploys
  let msgs ← insertClaims (·.eventNonce) (LogicCallExecutedEvent.claim ourAddress) msgs logicCalls
  let msgs ← insertClaims (·.eventNonce) (ValsetUpdatedEvent.claim crates ourAddress) msgs valsets
  pure msgs.values

end Claims

/-! ### A round -/

/-- What the searches of a round return, by event. -/
structure RoundLogs where
  deposits : List Log
  batches : List Log
  valsets : List Log
  erc20Deployed : List Log
  logicCallExecuted : List Log
  deriving DecidableEq, Repr

/-- `check_for_events`, up to the messages it sends: the logs are parsed, what the module has seen from
us is left out, and the rest become claims. -/
def checkForEvents (crates : OracleCrates) (ourAddress : Bytes) (lastEventNonce : Nat)
    (logs : RoundLogs) : EventResult (List ProtoClaim) := do
  let valsets ← logs.valsets.mapM ValsetUpdatedEvent.fromLog
  let withdraws ← logs.batches.mapM TransactionBatchExecutedEvent.fromLog
  let deposits ← logs.deposits.mapM (SendToCosmosEvent.fromLog crates)
  let erc20Deploys ← logs.erc20Deployed.mapM Erc20DeployedEvent.fromLog
  let logicCalls ← logs.logicCallExecuted.mapM LogicCallExecutedEvent.fromLog
  ethereumClaims crates ourAddress
    (filterByEventNonce (·.eventNonce) lastEventNonce deposits)
    (filterByEventNonce (·.eventNonce) lastEventNonce withdraws)
    (filterByEventNonce (·.eventNonce) lastEventNonce erc20Deploys)
    (filterByEventNonce (·.eventNonce) lastEventNonce logicCalls)
    (filterByEventNonce (·.eventNonce) lastEventNonce valsets)

end NabBridge.Orchestrator
