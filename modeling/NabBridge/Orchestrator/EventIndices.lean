/-
**The indices of the event parsers.**

The parsers of validator sets and of deployments compute where to read from lengths they have read. In the
source these indices are `usize`, and arithmetic on them can overflow. So the two are written here once more
with the arithmetic of the source; the other two parsers read at fixed places.
-/

import NabBridge.Orchestrator.Events

namespace NabBridge.Orchestrator

/-- A sum or a product of `usize`. -/
def usize (value : Nat) : EventResult Nat := if value < 2 ^ 64 then .ok value else .panic .overflow

/-- `Uint256::from_bytes_be(&input[index_start..index_end])` with the end of a word; also this end. -/
def wordUsize (input : Bytes) (indexStart : Nat) : EventResult (Nat × Nat) := do
  let indexEnd ← usize (indexStart + 32)
  let bytes ← range input indexStart indexEnd
  pure (beValue bytes, indexEnd)

/-- One turn of the loop of `decode_data_bytes`. -/
def decodeMemberUsize (input : Bytes) (powersOffset ethAddressesOffset i : Nat) :
    EventResult ValsetMember := do
  let powerStart ← usize (i * 32)
  let powerStart ← usize (powerStart + powersOffset)
  let powerEnd ← usize (powerStart + 32)
  let addressStart ← usize (i * 32)
  let addressStart ← usize (addressStart + ethAddressesOffset)
  let addressEnd ← usize (addressStart + 32)
  let powerBytes ← range input powerStart powerEnd
  let addressStart ← usize (addressStart + 12)
  let addressBytes ← range input addressStart addressEnd
  let ethAddress ← ethAddressFromSlice .memberAddress addressBytes
  let power ← atMost u64Max .power (beValue powerBytes)
  pure ⟨power, some ethAddress⟩

/-- `decode_data_bytes` -/
def ValsetDataBytes.decodeUsize (input : Bytes) : EventResult ValsetDataBytes := do
  let eventNonce ← uint256At input 0
  let eventNonce ← atMost u64Max .nonceOverflow eventNonce
  let rewardAmount ← uint256At input 32
  let rewardTokenData ← range input (2 * 32) (2 * 32 + 32)
  let rewardToken ← ethAddressFromSlice .rewardAddress (rewardTokenData.drop 12)
  let lenEthAddresses ← uint256At input (5 * 32)
  let lenEthAddresses ← atMost u64Max .ethereumArrayLen lenEthAddresses
  let indexStart ← usize (6 + lenEthAddresses)
  let indexStart ← usize (indexStart * 32)
  let (lenPowers, powersOffset) ← wordUsize input indexStart
  let _ ← atMost u64Max .powersArrayLen lenPowers
  -- as in `ValsetDataBytes.decode`, this is not the length of the powers
  let lenPowers := lenEthAddresses
  if lenPowers ≠ lenEthAddresses then .error .arrayLenMismatch
  else do
    let members ← (List.range lenEthAddresses).mapM (decodeMemberUsize input powersOffset (5 * 32 + 32))
    pure ⟨eventNonce, rewardAmount, if rewardToken = 0 then none else some rewardToken, members⟩

/-- `ValsetUpdatedEvent::from_log` -/
def ValsetUpdatedEvent.fromLogUsize (input : Log) : EventResult ValsetUpdatedEvent :=
  match input.topics[1]? with
  | none => .error .tooFewTopics
  | some valsetNonceData => do
      let valsetNonce ← atMost u64Max .nonceOverflow (beValue valsetNonceData)
      let blockHeight ← input.height
      let decoded ← ValsetDataBytes.decodeUsize input.data
      pure ⟨valsetNonce, decoded.eventNonce, blockHeight, decoded.rewardAmount, decoded.rewardToken,
        decoded.members⟩

/-- A string whose length word is at `indexStart`; also the index of its end. -/
def stringUsize (reason : EventError) (data : Bytes) (indexStart : Nat) : EventResult (Bytes × Nat) := do
  let (length, indexStart) ← wordUsize data indexStart
  let length ← atMost u32Max reason length
  let indexEnd ← usize (indexStart + length)
  let bytes ← range data indexStart indexEnd
  let text ← stringFromUtf8 bytes
  pure (text, indexEnd)

/-- `((index_end + 31) / 32) * 32` -/
def nextWordUsize (indexEnd : Nat) : EventResult Nat := do
  let rounded ← usize (indexEnd + 31)
  usize (rounded / 32 * 32)

/-- `Erc20DeployedEvent::from_log` -/
def Erc20DeployedEvent.fromLogUsize (input : Log) : EventResult Erc20DeployedEvent :=
  match input.topics[1]? with
  | none => .error .tooFewTopics
  | some newTokenContractData => do
      let erc20 ← addressOfTopic newTokenContractData
      let decimals ← uint256At input.data (3 * 32)
      let decimals ← atMost 255 .decimals decimals
      let nonce ← uint256At input.data (4 * 32)
      let eventNonce ← atMost u64Max .nonceOverflow nonce
      let (denom, denomEnd) ← stringUsize .denomLength input.data (5 * 32)
      let nameIndex ← nextWordUsize denomEnd
      let (name, nameEnd) ← stringUsize .nameLength input.data nameIndex
      let symbolIndex ← nextWordUsize nameEnd
      let (symbol, _) ← stringUsize .symbolLength input.data symbolIndex
      let blockHeight ← input.height
      pure ⟨denom, erc20, name, symbol, decimals, eventNonce, blockHeight⟩

end NabBridge.Orchestrator
