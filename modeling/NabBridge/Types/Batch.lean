/-
**Outgoing transactions, batches and logic calls.**

The records the module keeps for transfers to Ethereum, and the checkpoints validators sign over
them. A checkpoint packs the record with go-ethereum's ABI encoder, drops the four selector bytes and
hashes the rest; a nonce or timeout goes through `int64` on the way.

`hexOfAddress` is a spelling of addresses, and `hexToAddress_hexOfAddress` reads it back.
-/

import NabBridge.Lib.Abi
import NabBridge.Lib.Outcome
import NabBridge.Types.Address

namespace NabBridge

/-- What the module uses of go-ethereum. -/
structure Geth where
  /-- `crypto.Keccak256Hash` -/
  keccak256 : Bytes → Bytes
  /-- `abi.Pack`: method and arguments. -/
  pack : Bytes → List AbiValue → Bytes
  /-- `crypto.SigToPub` and `crypto.PubkeyToAddress`: digest and signature; `none` is an error. -/
  sigToPub : Bytes → Bytes → Option EthAddress
  /-- `Address.Hex` -/
  hex : EthAddress → Bytes

/-- `ERC20Token` -/
structure ERC20Token where
  amount : Int
  contract : Bytes
  deriving DecidableEq, Repr

/-- `OutgoingTransferTx` -/
structure OutgoingTransferTx where
  id : Nat
  sender : Bytes
  destAddress : Bytes
  erc20Token : ERC20Token
  erc20Fee : ERC20Token
  deriving DecidableEq, Repr

/-- `OutgoingTxBatch` -/
structure OutgoingTxBatch where
  batchNonce : Nat
  batchTimeout : Nat
  transactions : List OutgoingTransferTx
  tokenContract : Bytes
  block : Nat
  deriving DecidableEq, Repr

/-- `OutgoingLogicCall` -/
structure OutgoingLogicCall where
  transfers : List ERC20Token
  fees : List ERC20Token
  logicContractAddress : Bytes
  payload : Bytes
  timeout : Nat
  invalidationId : Bytes
  invalidationNonce : Nat
  block : Nat
  deriving DecidableEq, Repr

/-- `GetFees`: the loop throws the result of `sum.Add` away. -/
def OutgoingTxBatch.getFees (batch : OutgoingTxBatch) : Int :=
  batch.transactions.foldl (fun sum _ => sum) 0

/-- The panics of `GetCheckpoint`. -/
inductive CheckpointPanic where
  /-- `string too long` -/
  | gravityIdTooLong
  /-- the reward token of a validator set is not an address -/
  | rewardToken (reason : AddressError)
  /-- `Invalid reward amount passed in valset GetCheckpoint!` -/
  | rewardAmount
  deriving DecidableEq, Repr

/-- `strToFixByteArray`; `none` is the error `string too long`. -/
def strToFixByteArray (text : Bytes) : Option Bytes :=
  if text.length > 32 then none else some (rightPad 32 text)

/-- The first argument of every checkpoint. -/
def gravityIdArgument (gravityID : Bytes) : Outcome Empty CheckpointPanic AbiValue :=
  match strToFixByteArray gravityID with
  | none => .panic .gravityIdTooLong
  | some bytes => .ok (.bytes32 bytes)

/-- A number as a word, in two's complement. -/
def AbiValue.int (value : Int) : AbiValue := .word (value % 2 ^ 256).toNat

/-- `int64` of a `uint64`. -/
def int64OfUint64 (value : Nat) : Int :=
  if value % 2 ^ 64 < 2 ^ 63 then (value % 2 ^ 64 : Nat) else (value % 2 ^ 64 : Nat) - 2 ^ 64

/-- `big.NewInt(int64(value))`, as a word. -/
def AbiValue.int64 (value : Nat) : AbiValue := .int (int64OfUint64 value)

/-- A list of amounts. -/
def AbiValue.ints (values : List Int) : AbiValue :=
  .words (values.map fun value => (value % 2 ^ 256).toNat)

/-- A list of `big.NewInt(int64(value))`. -/
def AbiValue.int64s (values : List Nat) : AbiValue := .ints (values.map int64OfUint64)

/-- A list of addresses in the module's spelling. -/
def AbiValue.hexAddresses (texts : List Bytes) : AbiValue :=
  .words (texts.map fun text => (hexToAddress text).val)

/-- `OutgoingTxBatch.GetCheckpoint` -/
def OutgoingTxBatch.getCheckpoint (geth : Geth) (batch : OutgoingTxBatch) (gravityID : Bytes) :
    Outcome Empty CheckpointPanic Bytes := do
  let gravityID ← gravityIdArgument gravityID
  let encoded := geth.pack (ascii "submitBatch")
    [gravityID, .bytes32 (ascii "transactionBatch"),
      .ints (batch.transactions.map fun tx => tx.erc20Token.amount),
      .hexAddresses (batch.transactions.map fun tx => tx.destAddress),
      .ints (batch.transactions.map fun tx => tx.erc20Fee.amount),
      .int64 batch.batchNonce, .word (hexToAddress batch.tokenContract).val,
      .int64 batch.batchTimeout]
  pure (geth.keccak256 (encoded.drop 4))

/-- `OutgoingLogicCall.GetCheckpoint`; the invalidation id is copied into 32 bytes. -/
def OutgoingLogicCall.getCheckpoint (geth : Geth) (call : OutgoingLogicCall) (gravityID : Bytes) :
    Outcome Empty CheckpointPanic Bytes := do
  let gravityID ← gravityIdArgument gravityID
  let encoded := geth.pack (ascii "checkpoint")
    [gravityID, .bytes32 (ascii "logicCall"),
      .ints (call.transfers.map fun token => token.amount),
      .hexAddresses (call.transfers.map fun token => token.contract),
      .ints (call.fees.map fun token => token.amount),
      .hexAddresses (call.fees.map fun token => token.contract),
      .word (hexToAddress call.logicContractAddress).val, .bytes call.payload,
      .int64 call.timeout, .bytes32 call.invalidationId, .int64 call.invalidationNonce]
  pure (geth.keccak256 (encoded.drop 4))

/-! ### A concrete go-ethereum -/

/-- A hexadecimal digit, in lower case. -/
def hexDigit (value : Nat) : UInt8 :=
  if value % 16 < 10 then (48 + value % 16).toUInt8 else (87 + value % 16).toUInt8

/-- The last `count` hexadecimal digits of a number. -/
def hexDigits (count value : Nat) : Bytes :=
  match count with
  | 0 => []
  | count + 1 => hexDigits count (value / 16) ++ [hexDigit value]

/-- An address spelled in lower case. -/
def hexOfAddress (address : EthAddress) : Bytes := ascii "0x" ++ hexDigits 40 address.val

/-- A digit is read back. -/
theorem hexDigit_spec (value : Nat) :
    hexDigitValue (hexDigit value) = value % 16 ∧ IsHexDigit (hexDigit value) := by
  have all : ∀ digit : Fin 16, hexDigitValue (if digit.val < 10 then (48 + digit.val).toUInt8
      else (87 + digit.val).toUInt8) = digit.val ∧
      IsHexDigit (if digit.val < 10 then (48 + digit.val).toUInt8
        else (87 + digit.val).toUInt8) := by
    decide
  exact all ⟨value % 16, Nat.mod_lt _ (by decide)⟩

theorem hexValue_hexDigits (count value : Nat) :
    hexValue (hexDigits count value) = value % 16 ^ count := by
  induction count generalizing value with
  | zero => rw [pow_zero, Nat.mod_one]; rfl
  | succ count ih =>
      have last : hexValue (hexDigits count (value / 16) ++ [hexDigit value]) =
          hexValue (hexDigits count (value / 16)) * 16 + hexDigitValue (hexDigit value) := by
        rw [hexValue, List.foldl_append]
        rfl
      rw [hexDigits, last, ih, (hexDigit_spec value).1, pow_succ', Nat.mod_mul, Nat.mul_comm,
        Nat.add_comm]

theorem hexDigits_spec (count value : Nat) :
    (hexDigits count value).length = count ∧ ∀ digit ∈ hexDigits count value, IsHexDigit digit := by
  induction count generalizing value with
  | zero => simp [hexDigits]
  | succ count ih =>
      obtain ⟨length, hex⟩ := ih (value / 16)
      rw [hexDigits]
      refine ⟨by simp [length], fun digit member => ?_⟩
      rcases List.mem_append.mp member with earlier | last
      · exact hex digit earlier
      · exact List.mem_singleton.mp last ▸ (hexDigit_spec value).2

theorem hexOfAddress_eq (address : EthAddress) :
    hexOfAddress address = 48 :: 120 :: hexDigits 40 address.val := by
  have start : ascii "0x" = [48, 120] := by decide
  rw [hexOfAddress, start, List.cons_append, List.singleton_append]

theorem validateEthAddress_hexOfAddress (address : EthAddress) :
    validateEthAddress (hexOfAddress address) = .ok () := by
  obtain ⟨length, hex⟩ := hexDigits_spec 40 address.val
  exact (validateEthAddress_eq_ok_iff _).mpr ⟨_, hexOfAddress_eq address, length, hex⟩

theorem hexToAddress_hexOfAddress (address : EthAddress) :
    hexToAddress (hexOfAddress address) = address := by
  obtain ⟨length, hex⟩ := hexDigits_spec 40 address.val
  have bound : address.val < 16 ^ 40 := address.isLt.trans_eq (by decide)
  rw [hexOfAddress_eq, hexToAddress_of_digits length hex, hexValue_hexDigits,
    Nat.mod_eq_of_lt bound]
  exact Fin.ofNat_val_eq_self _

/-- The ABI encoder behind a selector of zeros, with a hash that keeps its input. A signature is the
signer's address, in 64 bytes, and a byte that is not looked at. -/
def exampleGeth : Geth where
  keccak256 := id
  pack _ arguments := [0, 0, 0, 0] ++ abiEncode arguments
  sigToPub _ signature :=
    if signature.length = 65 then
      some (Fin.ofNat (2 ^ 160) ((signature.take 64).foldl (fun value byte => value * 256 + byte.toNat) 0))
    else none
  hex := hexOfAddress

end NabBridge
