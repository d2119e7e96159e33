/-
**What the Ethereum signer sends.**

`eth_signer_main_loop` asks the module for what its account has not confirmed, converts the answer into the
orchestrator's types, signs the encoding of each object and sends the signatures in one transaction. A
message names its object by what was converted: the contract of a batch is the address of the first fee,
printed again.
-/

import NabBridge.Keeper.Pending
import NabBridge.Orchestrator.Types

namespace NabBridge.Orchestrator

/-- `bytes_to_hex_str` -/
def bytesToHexStr (bytes : Bytes) : Bytes :=
  bytes.flatMap fun byte => [hexDigit (byte.toNat / 16), hexDigit byte.toNat]

/-- What the signer uses of the crates besides the conversions. -/
structure SignerCrates extends Crates where
  /-- `to_string` of an Ethereum address -/
  ethAddressString : EthAddress → Bytes

/-- The two keys of an orchestrator, as far as they are used. -/
structure EthSigner where
  /-- the text of `our_address` -/
  ourAddress : Bytes
  /-- `our_eth_address` -/
  ourEthAddress : EthAddress
  /-- `sign_ethereum_msg`, as bytes -/
  signEthereumMsg : Bytes → Bytes

/-- The errors that end a turn of the signer. -/
inductive SignError where
  /-- the query fails -/
  | grpc (reason : QueryError)
  | conversion (reason : GravityError)
  deriving DecidableEq, Repr

abbrev SignResult (α : Type) := Outcome SignError Panic α

/-- An answer of the module. -/
def answered {α : Type} : Except QueryError α → SignResult α
  | .error reason => .error (.grpc reason)
  | .ok value => .ok value

/-- A conversion inside of the signer. -/
def converted {α : Type} : Result α → SignResult α
  | .ok value => .ok value
  | .error reason => .error (.conversion reason)
  | .panic reason => .panic reason

/-! ### The queries -/

section Queries

variable {β : Type} (sdk : Sdk) (crates : Crates) (keeper : KeeperState β) (address : Bytes)

/-- `get_oldest_unsigned_valsets` -/
def getOldestUnsignedValsets : SignResult (List Valset) := do
  let valsets ← answered (keeper.lastPendingValsetRequestByAddr sdk address)
  converted (valsets.mapM (Valset.ofProto crates))

/-- `get_oldest_unsigned_transaction_batch` -/
def getOldestUnsignedTransactionBatch : SignResult (Option TransactionBatch) := do
  let batch ← answered (keeper.lastPendingBatchRequestByAddr sdk address)
  match batch with
  | none => pure none
  | some batch => do
      let batch ← converted (TransactionBatch.tryFrom crates batch)
      pure (some batch)

/-- `get_oldest_unsigned_logic_call` -/
def getOldestUnsignedLogicCall : SignResult (Option LogicCall) := do
  let call ← answered (keeper.lastPendingLogicCallByAddr sdk address)
  match call with
  | none => pure none
  | some call => do
      let call ← converted (LogicCall.tryFrom crates call)
      pure (some call)

end Queries

/-! ### The messages -/

namespace EthSigner

variable (crates : SignerCrates) (signer : EthSigner) (gravityId : Bytes)

/-- A message of `send_valset_confirms`. -/
def valsetConfirm (valset : Valset) : MsgValsetConfirm where
  orchestrator := signer.ourAddress
  ethAddress := crates.ethAddressString signer.ourEthAddress
  nonce := valset.nonce
  signature := bytesToHexStr
    (signer.signEthereumMsg (encodeValsetConfirm crates.toCrates gravityId valset))

/-- A message of `send_batch_confirm`. -/
def batchConfirm (batch : TransactionBatch) : MsgConfirmBatch where
  tokenContract := crates.ethAddressString batch.tokenContract
  orchestrator := signer.ourAddress
  ethSigner := crates.ethAddressString signer.ourEthAddress
  nonce := batch.nonce
  signature := bytesToHexStr
    (signer.signEthereumMsg (encodeTxBatchConfirm crates.toCrates gravityId batch))

/-- A message of `send_logic_call_confirm`. -/
def logicCallConfirm (call : LogicCall) : MsgConfirmLogicCall where
  orchestrator := signer.ourAddress
  ethSigner := crates.ethAddressString signer.ourEthAddress
  signature := bytesToHexStr
    (signer.signEthereumMsg (encodeLogicCallConfirm crates.toCrates gravityId call))
  invalidationId := bytesToHexStr call.invalidationId
  invalidationNonce := call.invalidationNonce

end EthSigner

/-! ### Hexadecimal text -/

theorem hexPair_spec (byte : UInt8) :
    IsHexDigit (hexDigit (byte.toNat / 16)) ∧ IsHexDigit (hexDigit byte.toNat) ∧
      (hexDigitValue (hexDigit (byte.toNat / 16)) * 16 + hexDigitValue (hexDigit byte.toNat)).toUInt8 =
        byte := by
  refine ⟨(hexDigit_spec _).2, (hexDigit_spec _).2, ?_⟩
  have bound := byte.toNat_lt
  rw [(hexDigit_spec _).1, (hexDigit_spec _).1, Nat.mod_eq_of_lt (by omega : byte.toNat / 16 < 16),
    Nat.div_add_mod']
  exact UInt8.toNat_inj.mp (by rw [Nat.toUInt8, UInt8.toNat_ofNat', Nat.mod_eq_of_lt bound])

/-- **What is written in hexadecimal is decoded.** -/
theorem decodeString_bytesToHexStr (bytes : Bytes) :
    decodeString (bytesToHexStr bytes) = some bytes := by
  induction bytes with
  | nil => rfl
  | cons byte rest ih =>
      obtain ⟨high, low, value⟩ := hexPair_spec byte
      have first : bytesToHexStr (byte :: rest) =
          hexDigit (byte.toNat / 16) :: hexDigit byte.toNat :: bytesToHexStr rest := rfl
      rw [first, decodeString, if_pos ⟨high, low⟩, ih, Option.map_some, value]

end NabBridge.Orchestrator
