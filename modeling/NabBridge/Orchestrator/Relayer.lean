/-
**Relaying a batch.**

Before it submits a batch the relayer checks what the contract is going to check, in its own units: the
power that has signed is at least 66 percent of `TOTAL_GRAVITY_POWER`, the timeout is not below the height
of Ethereum, and the nonce is above the contract's. Then `encode_batch_payload` puts the arguments of
`submitBatch` together.

The percentage is a 32-bit float in the source and an exact number here.
-/

import NabBridge.Contract.Gravity
import NabBridge.Orchestrator.Confirms
import Mathlib.Data.Rat.Defs

namespace NabBridge.Orchestrator

/-- `TOTAL_GRAVITY_POWER` -/
def totalGravityPower : Nat := maxUint32

/-- `gravity_power_to_percent` -/
def gravityPowerToPercent (input : Nat) : ℚ := (input : ℚ) / totalGravityPower * 100

/-- The errors of `order_sigs`. -/
inductive OrderError where
  | status (reason : RelayError)
  /-- `has {}/{} or {:.2}% power voting! Can not execute on Ethereum!`, and the figures -/
  | notEnoughPower (status : SignatureStatus)
  deriving DecidableEq, Repr

/-- `order_sigs` -/
def Valset.orderSigs {T : Type} [Confirm T] (clarity : Clarity) (valset : Valset)
    (signedMessage : Bytes) (signatures : List T) :
    Outcome OrderError RelayPanic (List GravitySignature) :=
  match valset.getSignatureStatus clarity signedMessage signatures with
  | .error reason => .error (.status reason)
  | .panic reason => .panic reason
  | .ok status =>
      if gravityPowerToPercent status.powerOfGoodSigs < 66 then .error (.notEnoughPower status)
      else .ok status.orderedSignatures

/-! ### The arguments of the call -/

/-- `GravitySignatureArrays` -/
structure GravitySignatureArrays where
  addresses : List EthAddress
  powers : List Nat
  v : List Nat
  r : List Nat
  s : List Nat
  deriving DecidableEq, Repr

/-- `to_arrays` -/
def toArrays (input : List GravitySignature) : GravitySignatureArrays where
  addresses := input.map fun val => val.ethAddress
  powers := input.map fun val => val.power
  v := input.map fun val => val.v
  r := input.map fun val => val.r
  s := input.map fun val => val.s

/-- What the contract reads from the words of the arrays: `uint8[]` and twice `bytes32[]`. -/
def GravitySignatureArrays.decoded (arrays : GravitySignatureArrays) : Signatures where
  v := arrays.v.map Nat.toUInt8
  r := arrays.r.map wordBytes
  s := arrays.s.map wordBytes

/-- `encode_valset_struct`; the zero address stands for no reward token, and for a member without an
address. -/
def encodeValsetStruct (valset : Valset) : ValsetArgs where
  validators := valset.filterEmptyAddresses.1
  powers := valset.filterEmptyAddresses.2
  valsetNonce := valset.nonce
  rewardAmount := valset.rewardAmount
  rewardToken := valset.rewardToken.getD 0

/-- The batch among the arguments. -/
def TransactionBatch.batchArgs (batch : TransactionBatch) : BatchArgs where
  amounts := batch.transactions.map fun item => item.erc20Token.amount
  destinations := batch.transactions.map fun item => item.destination
  fees := batch.transactions.map fun item => item.erc20Fee.amount
  batchNonce := batch.nonce
  tokenContract := batch.tokenContract
  batchTimeout := batch.batchTimeout

/-- `encode_tx_batch_confirm_hashed` -/
def encodeTxBatchConfirmHashed (clarity : Clarity) (gravityId : Bytes) (batch : TransactionBatch) :
    Bytes :=
  clarity.ethereumMsgHash (encodeTxBatchConfirm clarity.toCrates gravityId batch)

/-- `encode_batch_payload`: the call of the contract. -/
def encodeBatchPayload (clarity : Clarity) (currentValset : Valset) (batch : TransactionBatch)
    (confirms : List BatchConfirmResponse) (gravityId : Bytes) :
    Outcome OrderError RelayPanic GravityCall := do
  let hash := encodeTxBatchConfirmHashed clarity gravityId batch
  let sigData ← currentValset.orderSigs clarity hash confirms
  let sigArrays := toArrays sigData
  pure (.submitBatch (encodeValsetStruct currentValset) sigArrays.decoded batch.batchArgs)

/-- The checks of `submit_batches`: the batch has not timed out, and is newer than the last one the
contract knows of its token. -/
def TransactionBatch.Submittable (batch : TransactionBatch)
    (ethereumBlockHeight latestEthereumBatch : Nat) : Prop :=
  ¬ batch.batchTimeout < ethereumBlockHeight ∧ batch.nonce > latestEthereumBatch

instance (batch : TransactionBatch) (ethereumBlockHeight latestEthereumBatch : Nat) :
    Decidable (batch.Submittable ethereumBlockHeight latestEthereumBatch) := by
  unfold TransactionBatch.Submittable; infer_instance

end NabBridge.Orchestrator
