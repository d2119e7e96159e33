/-
**The relayer's view of confirmations.**

A relayer asks the module for the confirmations of an object, converts them with `try_from`, and puts
the signatures into the order of the validator set the contract knows. `get_hashmap` finds a signature
by the address inside of its confirmation, where the last one with an address wins;
`get_signature_status` recovers the signer again and panics where it is not that address: "the go code
verifies signatures, if we ever see this it means that something has gone horribly wrong".
-/

import NabBridge.Keeper.Confirm
import NabBridge.Orchestrator.Types

namespace NabBridge.Orchestrator

/-- `clarity::Signature` -/
structure Signature where
  v : Nat
  r : Nat
  s : Nat
  deriving DecidableEq, Repr

/-- What the relayer uses of `clarity` for signatures. -/
structure Clarity extends Crates where
  /-- `Signature::from_str`; `none` is an error. -/
  signature : Bytes → Option Signature
  /-- `is_valid` -/
  isValid : Signature → Bool
  /-- `recover`, from the hash that was signed; `none` is an error. -/
  recover : Signature → Bytes → Option EthAddress
  /-- `get_ethereum_msg_hash` -/
  ethereumMsgHash : Bytes → Bytes
  /-- `hex_str_to_bytes` -/
  hexStrToBytes : Bytes → Option Bytes

/-- The errors on the way to the ordered signatures. -/
inductive RelayError where
  | conversion (reason : GravityError)
  /-- a signature cannot be read -/
  | signature (text : Bytes)
  /-- `No signatures!` -/
  | noSignatures
  deriving DecidableEq, Repr

/-- The panics on the way to the ordered signatures. -/
inductive RelayPanic where
  | conversion (reason : Panic)
  /-- `unwrap` of an invalidation id -/
  | invalidationId (text : Bytes)
  /-- `assert_eq!` of the address a signature was found by -/
  | ethAddress
  /-- `assert!` of a valid signature -/
  | isValid
  /-- `unwrap` of the recovery -/
  | recover
  /-- `Found invalid signature for {} how did this get here?` -/
  | foundInvalidSignature (ethAddress : EthAddress)
  deriving DecidableEq, Repr

abbrev RelayResult (α : Type) := Outcome RelayError RelayPanic α

/-- A conversion of a field inside of the relayer. -/
def relayed {α : Type} : Result α → RelayResult α
  | .ok value => .ok value
  | .error reason => .error (.conversion reason)
  | .panic reason => .panic (.conversion reason)

/-! ### The responses -/

/-- `Confirm` -/
class Confirm (T : Type) where
  getEthAddress : T → EthAddress
  getSignature : T → Signature

export Confirm (getEthAddress getSignature)

/-- `ValsetConfirmResponse` -/
structure ValsetConfirmResponse where
  orchestrator : Bytes
  ethAddress : EthAddress
  nonce : Nat
  ethSignature : Signature
  deriving DecidableEq, Repr

instance : Confirm ValsetConfirmResponse := ⟨(·.ethAddress), (·.ethSignature)⟩

/-- `BatchConfirmResponse` -/
structure BatchConfirmResponse where
  nonce : Nat
  orchestrator : Bytes
  tokenContract : EthAddress
  ethereumSigner : EthAddress
  ethSignature : Signature
  deriving DecidableEq, Repr

instance : Confirm BatchConfirmResponse := ⟨(·.ethereumSigner), (·.ethSignature)⟩

/-- `LogicCallConfirmResponse` -/
structure LogicCallConfirmResponse where
  invalidationId : Bytes
  invalidationNonce : Nat
  ethereumSigner : EthAddress
  orchestrator : Bytes
  ethSignature : Signature
  deriving DecidableEq, Repr

instance : Confirm LogicCallConfirmResponse := ⟨(·.ethereumSigner), (·.ethSignature)⟩

section Conversions

variable (clarity : Clarity)

/-- `parse()?` of a signature. -/
def parseSignature (text : Bytes) : RelayResult Signature :=
  match clarity.signature text with
  | none => .error (.signature text)
  | some signature => .ok signature

/-- `ValsetConfirmResponse::try_from` -/
def ValsetConfirmResponse.tryFrom (input : MsgValsetConfirm) : RelayResult ValsetConfirmResponse := do
  let orchestrator ← relayed (parseCosmosAddress clarity.toCrates input.orchestrator)
  let ethAddress ← relayed (parseEthAddress clarity.toCrates input.ethAddress)
  let ethSignature ← parseSignature clarity input.signature
  pure ⟨orchestrator, ethAddress, input.nonce, ethSignature⟩

/-- `BatchConfirmResponse::try_from` -/
def BatchConfirmResponse.tryFrom (input : MsgConfirmBatch) : RelayResult BatchConfirmResponse := do
  let orchestrator ← relayed (parseCosmosAddress clarity.toCrates input.orchestrator)
  let tokenContract ← relayed (parseEthAddress clarity.toCrates input.tokenContract)
  let ethereumSigner ← relayed (parseEthAddress clarity.toCrates input.ethSigner)
  let ethSignature ← parseSignature clarity input.signature
  pure ⟨input.nonce, orchestrator, tokenContract, ethereumSigner, ethSignature⟩

/-- `LogicCallConfirmResponse::try_from` -/
def LogicCallConfirmResponse.tryFrom (input : MsgConfirmLogicCall) :
    RelayResult LogicCallConfirmResponse :=
  match clarity.hexStrToBytes input.invalidationId with
  | none => .panic (.invalidationId input.invalidationId)
  | some invalidationId => do
      let orchestrator ← relayed (parseCosmosAddress clarity.toCrates input.orchestrator)
      let ethereumSigner ← relayed (parseEthAddress clarity.toCrates input.ethSigner)
      let ethSignature ← parseSignature clarity input.signature
      pure ⟨invalidationId, input.invalidationNonce, ethereumSigner, orchestrator, ethSignature⟩

/-! ### The queries -/

/-- `get_all_valset_confirms` -/
def getAllValsetConfirms (confirms : Confirms) (nonce : Nat) :
    RelayResult (List ValsetConfirmResponse) :=
  (confirms.getValsetConfirms nonce).mapM (ValsetConfirmResponse.tryFrom clarity)

/-- `get_transaction_batch_signatures`; the module is asked with the text of the contract's address. -/
def getTransactionBatchSignatures (confirms : Confirms) (nonce : Nat) (contractAddress : Bytes) :
    RelayResult (List BatchConfirmResponse) :=
  (confirms.getBatchConfirmByNonceAndTokenContract nonce contractAddress).mapM
    (BatchConfirmResponse.tryFrom clarity)

/-- `get_logic_call_signatures` -/
def getLogicCallSignatures (confirms : Confirms) (invalidationId : Bytes) (invalidationNonce : Nat) :
    RelayResult (List LogicCallConfirmResponse) :=
  (confirms.getLogicConfirmByInvalidationIDAndNonce invalidationId invalidationNonce).mapM
    (LogicCallConfirmResponse.tryFrom clarity)

end Conversions

/-! ### Ordering the signatures -/

/-- `GravitySignature` -/
structure GravitySignature where
  power : Nat
  ethAddress : EthAddress
  v : Nat
  r : Nat
  s : Nat
  deriving DecidableEq, Repr

/-- `SignatureStatus` -/
structure SignatureStatus where
  orderedSignatures : List GravitySignature
  powerOfGoodSigs : Nat
  powerOfUnsetKeys : Nat
  numberOfUnsetKeyValidators : Nat
  powerOfNonvoters : Nat
  numberOfNonvoters : Nat
  numValidators : Nat
  deriving DecidableEq, Repr

section Ordering

variable {T : Type} [Confirm T]

/-- `get_hashmap` -/
def getHashmap (input : List T) : Store EthAddress T :=
  input.foldl (fun out confirm => out.set (getEthAddress confirm) confirm) Store.empty

/-- A sum of two `u64`. -/
def addPower (total power : Nat) : Nat := (total + power) % 2 ^ 64

/-- A member whose signature was found: it is checked once more. -/
def SignatureStatus.pushSignature (clarity : Clarity) (signedMessage : Bytes) (status : SignatureStatus)
    (power : Nat) (ethAddress : EthAddress) (sig : T) : RelayResult SignatureStatus :=
  if getEthAddress sig ≠ ethAddress then .panic .ethAddress
  else if ¬ clarity.isValid (getSignature sig) then .panic .isValid
  else
    match clarity.recover (getSignature sig) signedMessage with
    | none => .panic .recover
    | some recoverKey =>
        if recoverKey = getEthAddress sig then
          .ok { status with
            orderedSignatures := status.orderedSignatures ++
              [⟨power, getEthAddress sig, (getSignature sig).v, (getSignature sig).r,
                (getSignature sig).s⟩]
            powerOfGoodSigs := addPower status.powerOfGoodSigs power }
        else .panic (.foundInvalidSignature (getEthAddress sig))

/-- One turn of the loop of `get_signature_status`. -/
def SignatureStatus.push (clarity : Clarity) (signedMessage : Bytes) (signatures : Store EthAddress T)
    (status : SignatureStatus) (member : ValsetMember) : RelayResult SignatureStatus :=
  match member.ethAddress with
  | some ethAddress =>
      match signatures.get ethAddress with
      | some sig => status.pushSignature clarity signedMessage member.power ethAddress sig
      | none =>
          .ok { status with
            orderedSignatures := status.orderedSignatures ++ [⟨member.power, ethAddress, 0, 0, 0⟩]
            powerOfNonvoters := addPower status.powerOfNonvoters member.power
            numberOfNonvoters := status.numberOfNonvoters + 1 }
  | none =>
      .ok { status with
        orderedSignatures := status.orderedSignatures ++ [⟨member.power, 0, 0, 0, 0⟩]
        powerOfUnsetKeys := addPower status.powerOfUnsetKeys member.power
        numberOfUnsetKeyValidators := status.numberOfUnsetKeyValidators + 1 }

/-- `get_signature_status` -/
def Valset.getSignatureStatus (clarity : Clarity) (valset : Valset) (signedMessage : Bytes)
    (signatures : List T) : RelayResult SignatureStatus :=
  if signatures = [] then .error .noSignatures
  else
    valset.members.foldlM (SignatureStatus.push clarity signedMessage (getHashmap signatures))
      ⟨[], 0, 0, 0, 0, 0, valset.members.length⟩

end Ordering

end NabBridge.Orchestrator
