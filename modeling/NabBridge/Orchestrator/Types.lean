/-
**The orchestrator's types.**

What the orchestrator gets from the module are protobuf messages, with amounts as decimal text and
addresses as strings. It turns them into its own types first: `try_from` of a batch or a logic call
fails with an error, and `from` of a validator set panics where it cannot read a field.

Two conversions do more than read fields. A batch adds up its fees, in 256 bits, and takes its token
from the first fee; a batch without transfers and a logic call without transfers or without fees are
refused. A member of a validator set whose address cannot be read has none.
-/

import NabBridge.Keeper.Valset

namespace NabBridge.Orchestrator

/-- A token of `clarity::abi`, as far as the orchestrator builds them. -/
inductive Token where
  /-- `Token::Uint` -/
  | uint (value : Nat)
  /-- `Token::Address` -/
  | address (value : EthAddress)
  /-- `Token::FixedString` -/
  | fixedString (text : Bytes)
  /-- `Token::Bytes` -/
  | bytes (data : Bytes)
  /-- `Token::UnboundedBytes` -/
  | unboundedBytes (data : Bytes)
  /-- `Token::Dynamic` of numbers -/
  | uints (values : List Nat)
  /-- `Token::Dynamic` of addresses -/
  | addresses (values : List EthAddress)
  deriving DecidableEq, Repr

/-- What the orchestrator uses of `clarity`, `num256` and `deep_space`. -/
structure Crates where
  /-- `clarity::Address::from_str`; `none` is an error. -/
  ethAddress : Bytes → Option EthAddress
  /-- `Uint256::from_str` -/
  uint256 : Bytes → Option Nat
  /-- The sum of two `Uint256`; `none` is a panic. -/
  add : Nat → Nat → Option Nat
  /-- `deep_space::Address::from_str` -/
  cosmosAddress : Bytes → Option Bytes
  /-- `encode_tokens` -/
  encodeTokens : List Token → Bytes

/-- The errors of the conversions. -/
inductive GravityError where
  | uint256 (text : Bytes)
  | ethAddress (text : Bytes)
  | cosmosAddress (text : Bytes)
  /-- `Transaction batch containing no transactions!`, of a batch and of a logic call -/
  | noTransactions
  deriving DecidableEq, Repr

/-- The panics of the conversions. -/
inductive Panic where
  /-- `unwrap` of an error -/
  | unwrap (reason : GravityError)
  /-- `attempt to add with overflow` -/
  | overflow
  deriving DecidableEq, Repr

abbrev Result (α : Type) := Outcome GravityError Panic α

/-- `Erc20Token` -/
structure Erc20Token where
  amount : Nat
  tokenContractAddress : EthAddress
  deriving DecidableEq, Repr

/-- `BatchTransaction` -/
structure BatchTransaction where
  id : Nat
  sender : Bytes
  destination : EthAddress
  erc20Token : Erc20Token
  erc20Fee : Erc20Token
  deriving DecidableEq, Repr

/-- `TransactionBatch` -/
structure TransactionBatch where
  nonce : Nat
  batchTimeout : Nat
  transactions : List BatchTransaction
  totalFee : Erc20Token
  tokenContract : EthAddress
  deriving DecidableEq, Repr

/-- `LogicCall` -/
structure LogicCall where
  transfers : List Erc20Token
  fees : List Erc20Token
  logicContractAddress : EthAddress
  payload : Bytes
  timeout : Nat
  invalidationId : Bytes
  invalidationNonce : Nat
  deriving DecidableEq, Repr

/-- `ValsetMember` -/
structure ValsetMember where
  power : Nat
  ethAddress : Option EthAddress
  deriving DecidableEq, Repr

/-- `ValsetMember::cmp`: by power, then by address the other way round. -/
def ValsetMember.cmp (self other : ValsetMember) : Ordering :=
  if self.power ≠ other.power then compare self.power other.power
  else (compare self.ethAddress other.ethAddress).swap

/-- `sort`, and then `reverse`. -/
def sortReversed (members : List ValsetMember) : List ValsetMember :=
  (members.insertionSort fun first second => first.cmp second ≠ .gt).reverse

/-- `Valset` -/
structure Valset where
  nonce : Nat
  members : List ValsetMember
  rewardAmount : Nat
  rewardToken : Option EthAddress
  deriving DecidableEq, Repr

section Conversions

variable (crates : Crates)

/-- `parse()?` of an address. -/
def parseEthAddress (text : Bytes) : Result EthAddress :=
  match crates.ethAddress text with
  | none => .error (.ethAddress text)
  | some address => .ok address

/-- `parse()?` of an amount. -/
def parseUint256 (text : Bytes) : Result Nat :=
  match crates.uint256 text with
  | none => .error (.uint256 text)
  | some value => .ok value

/-- `parse()?` of an account. -/
def parseCosmosAddress (text : Bytes) : Result Bytes :=
  match crates.cosmosAddress text with
  | none => .error (.cosmosAddress text)
  | some account => .ok account

/-- `unwrap` -/
def unwrap {α : Type} : Result α → Result α
  | .error reason => .panic (.unwrap reason)
  | outcome => outcome

/-- `Erc20Token::try_from`; the message has the amount in decimal. -/
def Erc20Token.tryFrom (input : ERC20Token) : Result Erc20Token := do
  let amount ← parseUint256 crates (decimalInt input.amount)
  let tokenContractAddress ← parseEthAddress crates input.contract
  pure ⟨amount, tokenContractAddress⟩

/-- `BatchTransaction::try_from`; the module's transfers have both tokens. -/
def BatchTransaction.tryFrom (input : OutgoingTransferTx) : Result BatchTransaction := do
  let sender ← parseCosmosAddress crates input.sender
  let destination ← parseEthAddress crates input.destAddress
  let erc20Token ← Erc20Token.tryFrom crates input.erc20Token
  let erc20Fee ← Erc20Token.tryFrom crates input.erc20Fee
  pure ⟨input.id, sender, destination, erc20Token, erc20Fee⟩

/-- `running_total_fee` after one more fee. -/
def addFee (total : Option Erc20Token) (fee : Erc20Token) : Result Erc20Token :=
  match total with
  | none => .ok fee
  | some totalFee =>
      match crates.add totalFee.amount fee.amount with
      | none => .panic .overflow
      | some amount => .ok ⟨amount, totalFee.tokenContractAddress⟩

/-- One turn of the loop of `TransactionBatch::try_from`. -/
def pushTransaction (state : List BatchTransaction × Option Erc20Token) (input : OutgoingTransferTx) :
    Result (List BatchTransaction × Option Erc20Token) := do
  let tx ← BatchTransaction.tryFrom crates input
  let totalFee ← addFee crates state.2 tx.erc20Fee
  pure (state.1 ++ [tx], some totalFee)

/-- `TransactionBatch::try_from` -/
def TransactionBatch.tryFrom (input : OutgoingTxBatch) : Result TransactionBatch := do
  let (transactions, runningTotalFee) ← input.transactions.foldlM (pushTransaction crates) ([], none)
  match runningTotalFee with
  | some totalFee =>
      pure ⟨input.batchNonce, input.batchTimeout, transactions, totalFee,
        totalFee.tokenContractAddress⟩
  | none => .error .noTransactions

/-- `LogicCall::try_from` -/
def LogicCall.tryFrom (input : OutgoingLogicCall) : Result LogicCall := do
  let transfers ← input.transfers.mapM (Erc20Token.tryFrom crates)
  let fees ← input.fees.mapM (Erc20Token.tryFrom crates)
  if transfers = [] ∨ fees = [] then .error .noTransactions
  else do
    let logicContractAddress ← parseEthAddress crates input.logicContractAddress
    pure ⟨transfers, fees, logicContractAddress, input.payload, input.timeout, input.invalidationId,
      input.invalidationNonce⟩

/-- `ValsetMember::from` -/
def ValsetMember.ofProto (input : BridgeValidator) : ValsetMember :=
  ⟨input.power, crates.ethAddress input.ethereumAddress⟩

/-- `Valset::from`; the zero address stands for no reward token. An amount that was never set is `0` in the
message. -/
def Valset.ofProto (input : NabBridge.Valset) : Result Valset := do
  let parsedRewardToken ← unwrap (parseEthAddress crates input.rewardToken)
  let rewardAmount ← unwrap (parseUint256 crates (decimalInt (input.rewardAmount.getD 0)))
  pure ⟨input.nonce, input.members.map (ValsetMember.ofProto crates), rewardAmount,
    if parsedRewardToken = 0 then none else some parsedRewardToken⟩

end Conversions

/-- `filter_empty_addresses` -/
def Valset.filterEmptyAddresses (valset : Valset) : List EthAddress × List Nat :=
  (valset.members.map fun member => member.ethAddress.getD 0,
    valset.members.map fun member => member.power)

/-- `get_checkpoint_values` -/
def TransactionBatch.getCheckpointValues (batch : TransactionBatch) : Token × Token × Token :=
  (.uints (batch.transactions.map fun item => item.erc20Token.amount),
    .addresses (batch.transactions.map fun item => item.destination),
    .uints (batch.transactions.map fun item => item.erc20Fee.amount))

/-! ### What validators sign -/

section Encoders

variable (crates : Crates)

/-- `encode_valset_confirm` -/
def encodeValsetConfirm (gravityId : Bytes) (valset : Valset) : Bytes :=
  let (ethAddresses, powers) := valset.filterEmptyAddresses
  crates.encodeTokens
    [.fixedString gravityId, .fixedString (ascii "checkpoint"), .uint valset.nonce,
      .addresses ethAddresses, .uints powers, .uint valset.rewardAmount,
      .address (valset.rewardToken.getD 0)]

/-- `encode_tx_batch_confirm` -/
def encodeTxBatchConfirm (gravityId : Bytes) (batch : TransactionBatch) : Bytes :=
  let (amounts, destinations, fees) := batch.getCheckpointValues
  crates.encodeTokens
    [.fixedString gravityId, .fixedString (ascii "transactionBatch"), amounts, destinations, fees,
      .uint batch.nonce, .address batch.tokenContract, .uint batch.batchTimeout]

/-- `encode_logic_call_confirm` -/
def encodeLogicCallConfirm (gravityId : Bytes) (call : LogicCall) : Bytes :=
  crates.encodeTokens
    [.fixedString gravityId, .fixedString (ascii "logicCall"),
      .uints (call.transfers.map fun item => item.amount),
      .addresses (call.transfers.map fun item => item.tokenContractAddress),
      .uints (call.fees.map fun item => item.amount),
      .addresses (call.fees.map fun item => item.tokenContractAddress),
      .address call.logicContractAddress, .unboundedBytes call.payload, .uint call.timeout,
      .bytes call.invalidationId, .uint call.invalidationNonce]

end Encoders

end NabBridge.Orchestrator
