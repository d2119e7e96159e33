/-
**Ethereum signatures on the Cosmos side.**

The module checks a signature by recovering the signer's address from it with go-ethereum, which wants
the recovery id in the last byte as `0` to `3`. Ethereum writes it as `27` or `28`;
`ethAddressFromSignature` takes these down first, in the decoded bytes and not in the message they came
from, and leaves any other value for go-ethereum to judge.
-/

import NabBridge.Types.Batch

namespace NabBridge

/-- `signaturePrefix` -/
def signaturePrefix : Bytes := 0x19 :: ascii "Ethereum Signed Message:\n32"

/-- The errors of the signature check. -/
inductive SignerError where
  /-- `signature too short` -/
  | tooShort
  /-- wrapped as `signature to public key` -/
  | signatureToPublicKey
  /-- `signature not matching` -/
  | notMatching
  deriving DecidableEq, Repr

/-- The last byte of a signature in Ethereum's format, taken down to go-ethereum's. -/
def normalizeRecoveryId (signature : Bytes) : Bytes :=
  match signature[64]? with
  | some v => if v = 27 ∨ v = 28 then signature.set 64 (v - 27) else signature
  | none => signature

/-- `EthAddressFromSignature` -/
def ethAddressFromSignature (geth : Geth) (hash signature : Bytes) : Except SignerError Bytes :=
  if signature.length < 65 then .error .tooShort
  else
    match geth.sigToPub (geth.keccak256 (signaturePrefix ++ hash)) (normalizeRecoveryId signature) with
    | none => .error .signatureToPublicKey
    | some address => .ok (geth.hex address)

/-- `ValidateEthereumSignature` -/
def validateEthereumSignature (geth : Geth) (hash signature ethAddress : Bytes) :
    Except SignerError Unit :=
  match ethAddressFromSignature geth hash signature with
  | .error reason => .error reason
  | .ok address => if address ≠ ethAddress then .error .notMatching else .ok ()

/-- **A signature gives an address** when it is long enough and recovers. -/
theorem ethAddressFromSignature_eq_ok_iff {geth : Geth} {hash signature ethAddress : Bytes} :
    ethAddressFromSignature geth hash signature = .ok ethAddress ↔
      65 ≤ signature.length ∧ ∃ address,
        geth.sigToPub (geth.keccak256 (signaturePrefix ++ hash)) (normalizeRecoveryId signature) =
          some address ∧ geth.hex address = ethAddress := by
  unfold ethAddressFromSignature
  by_cases short : signature.length < 65
  · rw [if_pos short]
    refine ⟨fun bad => ?_, fun found => absurd found.1 (Nat.not_le.mpr short)⟩
    cases bad
  · rw [if_neg short]
    cases geth.sigToPub (geth.keccak256 (signaturePrefix ++ hash))
        (normalizeRecoveryId signature) with
    | none => simp
    | some address => simp [Nat.not_lt.mp short]

/-- **An accepted signature** recovers to the given address. -/
theorem validateEthereumSignature_eq_ok_iff {geth : Geth} {hash signature ethAddress : Bytes} :
    validateEthereumSignature geth hash signature ethAddress = .ok () ↔
      65 ≤ signature.length ∧ ∃ address,
        geth.sigToPub (geth.keccak256 (signaturePrefix ++ hash)) (normalizeRecoveryId signature) =
          some address ∧ geth.hex address = ethAddress := by
  rw [← ethAddressFromSignature_eq_ok_iff, validateEthereumSignature]
  cases ethAddressFromSignature geth hash signature with
  | error reason => simp
  | ok address => simp

/-! ### Signatures as text -/

/-- `hex.DecodeString`; `none` is an error. -/
def decodeString : Bytes → Option Bytes
  | [] => some []
  | [_] => none
  | high :: low :: rest =>
      if IsHexDigit high ∧ IsHexDigit low then
        (decodeString rest).map fun bytes =>
          (hexDigitValue high * 16 + hexDigitValue low).toUInt8 :: bytes
      else none

end NabBridge
