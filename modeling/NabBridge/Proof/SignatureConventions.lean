/-
**The two signature checks.**

A confirmation is checked on Cosmos by `ValidateEthereumSignature` and stored as it came; a relayer
takes `v`, `r` and `s` from it for the contract, which checks them with `verifySig`. Both recover with
the same function, but they read the last byte differently: go-ethereum takes the recovery ids `0` to
`3`, and `27` and `28` after the module has taken them down; the EVM takes `27` and `28`, and the
contract skips an entry whose `v` is zero.

`accepted_signature_verifies_iff`: exactly which accepted signatures the contract accepts.
-/

import NabBridge.Contract.Signatures
import NabBridge.Types.EthereumSigner

namespace NabBridge

/-! ### The parts of a signature -/

/-- The first word of a signature. -/
def signatureR (signature : Bytes) : Bytes := signature.take 32

/-- The second word of a signature. -/
def signatureS (signature : Bytes) : Bytes := (signature.drop 32).take 32

/-- The last byte of a signature. -/
def signatureV (signature : Bytes) : UInt8 := (signature[64]?).getD 0

/-- go-ethereum and the EVM compute the same hash, and recover with the same function of the digest,
the recovery id and the two words: go-ethereum from 65 bytes with a recovery id of `0` to `3`, the EVM
from `27` and `28`. A spelled address is read back. -/
structure SameRecovery (geth : Geth) (evm : Evm)
    (recover : Bytes → UInt8 → Bytes → Bytes → Option EthAddress) : Prop where
  keccak256 : geth.keccak256 = evm.keccak256
  sigToPub : ∀ digest signature, geth.sigToPub digest signature =
    if signature.length = 65 ∧ signatureV signature ≤ 3 then
      recover digest (signatureV signature) (signatureR signature) (signatureS signature)
    else none
  ecrecover : ∀ digest v r s, evm.recover digest v r s =
    if v = 27 ∨ v = 28 then recover digest (v - 27) r s else none
  hex : ∀ address, hexToAddress (geth.hex address) = address

/-! ### Taking the last byte down -/

theorem length_normalizeRecoveryId (signature : Bytes) :
    (normalizeRecoveryId signature).length = signature.length := by
  unfold normalizeRecoveryId
  split
  · split_ifs
    · exact List.length_set
    · rfl
  · rfl

theorem signatureR_normalizeRecoveryId (signature : Bytes) :
    signatureR (normalizeRecoveryId signature) = signatureR signature := by
  unfold normalizeRecoveryId signatureR
  split
  · split_ifs
    · exact List.take_set_of_le (by decide)
    · rfl
  · rfl

theorem signatureS_normalizeRecoveryId (signature : Bytes) :
    signatureS (normalizeRecoveryId signature) = signatureS signature := by
  unfold normalizeRecoveryId signatureS
  split
  · split_ifs
    · rw [List.drop_set, if_neg (by decide)]
      exact List.take_set_of_le (by decide)
    · rfl
  · rfl

/-- The last byte of a long enough signature after the module has taken it down. -/
theorem signatureV_normalizeRecoveryId {signature : Bytes} (long : 65 ≤ signature.length) :
    signatureV (normalizeRecoveryId signature) =
      if signatureV signature = 27 ∨ signatureV signature = 28 then signatureV signature - 27
      else signatureV signature := by
  have last : signature[64]? = some signature[64] := List.getElem?_eq_getElem long
  unfold normalizeRecoveryId signatureV
  rw [last]
  dsimp only [Option.getD_some]
  split_ifs with standard
  · rw [List.getElem?_set_self long]
    rfl
  · rw [last]
    rfl

/-! ### The two checks -/

section Checks

variable {geth : Geth} {evm : Evm} {recover : Bytes → UInt8 → Bytes → Bytes → Option EthAddress}
variable {hash signature : Bytes} {address : EthAddress}

/-- **What the module accepts**: 65 bytes that recover, from the taken-down last byte. -/
theorem SameRecovery.accepted (same : SameRecovery geth evm recover)
    (accepted : validateEthereumSignature geth hash signature (geth.hex address) = .ok ()) :
    signatureV (normalizeRecoveryId signature) ≤ 3 ∧ signature.length = 65 ∧
      recover (evm.messageDigest hash) (signatureV (normalizeRecoveryId signature))
        (signatureR signature) (signatureS signature) = some address := by
  obtain ⟨long, signer, recovered, spelled⟩ := validateEthereumSignature_eq_ok_iff.mp accepted
  have named : signer = address := by
    rw [← same.hex signer, spelled, same.hex]
  rw [same.sigToPub, length_normalizeRecoveryId, signatureR_normalizeRecoveryId,
    signatureS_normalizeRecoveryId, same.keccak256, named] at recovered
  split_ifs at recovered with valid
  exact ⟨valid.2, valid.1, recovered⟩

/-- A last byte in Ethereum's format: the contract recovers the same signer. -/
theorem SameRecovery.verifySig_standard (same : SameRecovery geth evm recover)
    (accepted : validateEthereumSignature geth hash signature (geth.hex address) = .ok ())
    (standard : signatureV signature = 27 ∨ signatureV signature = 28) :
    verifySig evm address hash (signatureV signature) (signatureR signature)
      (signatureS signature) = true := by
  obtain ⟨_, length, recovered⟩ := same.accepted accepted
  rw [signatureV_normalizeRecoveryId (Nat.le_of_eq length.symm), if_pos standard] at recovered
  unfold verifySig Evm.ecrecover
  rw [same.ecrecover, if_pos standard, recovered]
  exact decide_eq_true rfl

/-- Any other last byte: recovery fails in the EVM, which gives the zero address. -/
theorem SameRecovery.verifySig_other (same : SameRecovery geth evm recover)
    (other : ¬ (signatureV signature = 27 ∨ signatureV signature = 28)) :
    verifySig evm address hash (signatureV signature) (signatureR signature)
      (signatureS signature) = true ↔ address = 0 := by
  unfold verifySig Evm.ecrecover
  rw [same.ecrecover, if_neg other, decide_eq_true_iff, Option.getD_none]

end Checks

/-- **Which accepted signatures the contract accepts.** The contract takes a signature the module has
accepted exactly when its last byte is `27` or `28`; with another byte only for the zero
address, which a failed recovery compares equal to, and never with a zero byte. -/
theorem accepted_signature_verifies_iff {geth : Geth} {evm : Evm}
    {recover : Bytes → UInt8 → Bytes → Bytes → Option EthAddress}
    (same : SameRecovery geth evm recover) (hash signature : Bytes) (address : EthAddress)
    (accepted : validateEthereumSignature geth hash signature (geth.hex address) = .ok ()) :
    (verifySig evm address hash (signatureV signature) (signatureR signature)
        (signatureS signature) = true ∧ signatureV signature ≠ 0) ↔
      (signatureV signature = 27 ∨ signatureV signature = 28) ∨
        (address = 0 ∧ signatureV signature ≠ 0) := by
  by_cases standard : signatureV signature = 27 ∨ signatureV signature = 28
  · have nonzero : signatureV signature ≠ 0 := by
      rcases standard with v | v <;> rw [v] <;> decide
    exact ⟨fun _ => Or.inl standard, fun _ => ⟨same.verifySig_standard accepted standard, nonzero⟩⟩
  · rw [same.verifySig_other standard]
    exact ⟨Or.inr, fun condition => condition.resolve_left standard⟩

/-! ### A signature in each format -/

/-- A recovery that reads the signer off the first word. -/
def exampleRecover (_digest : Bytes) (_id : UInt8) (r _s : Bytes) : Option EthAddress :=
  some (Fin.ofNat (2 ^ 160) (r.foldl (fun value byte => value * 256 + byte.toNat) 0))

/-- go-ethereum over `exampleRecover`. -/
def recoveringGeth : Geth where
  keccak256 := id
  pack := exampleGeth.pack
  sigToPub digest signature :=
    if signature.length = 65 ∧ signatureV signature ≤ 3 then
      exampleRecover digest (signatureV signature) (signatureR signature) (signatureS signature)
    else none
  hex := hexOfAddress

/-- The EVM over `exampleRecover`. -/
def recoveringEvm : Evm where
  keccak256 := id
  recover digest v r s := if v = 27 ∨ v = 28 then exampleRecover digest (v - 27) r s else none

theorem sameRecovery_example : SameRecovery recoveringGeth recoveringEvm exampleRecover where
  keccak256 := rfl
  sigToPub _ _ := rfl
  ecrecover _ _ _ _ := rfl
  hex := hexToAddress_hexOfAddress

/-- The signature of the address one, with the given last byte. -/
def signatureOfOne (v : UInt8) : Bytes := List.replicate 31 0 ++ 1 :: List.replicate 32 0 ++ [v]

theorem signatureOfOne_accepted :
    validateEthereumSignature recoveringGeth (List.replicate 32 7) (signatureOfOne 27)
        (recoveringGeth.hex 1) = .ok () ∧
      validateEthereumSignature recoveringGeth (List.replicate 32 7) (signatureOfOne 0)
        (recoveringGeth.hex 1) = .ok () := by
  decide +kernel

/-- In Ethereum's format the contract accepts what the module has accepted. -/
theorem accepted_signature_verifies_standard :
    verifySig recoveringEvm 1 (List.replicate 32 7) (signatureV (signatureOfOne 27))
        (signatureR (signatureOfOne 27)) (signatureS (signatureOfOne 27)) = true ∧
      signatureV (signatureOfOne 27) ≠ 0 :=
  (accepted_signature_verifies_iff sameRecovery_example _ _ 1 signatureOfOne_accepted.1).mpr
    (Or.inl (Or.inl (by decide)))

/-- In go-ethereum's format, which `NewEthereumSignature` writes, it does not. -/
theorem accepted_signature_skipped :
    ¬ ∀ (geth : Geth) (evm : Evm) (recover : Bytes → UInt8 → Bytes → Bytes → Option EthAddress),
      SameRecovery geth evm recover → ∀ (hash signature : Bytes) (address : EthAddress),
        hash.length = 32 →
        validateEthereumSignature geth hash signature (geth.hex address) = .ok () →
        verifySig evm address hash (signatureV signature) (signatureR signature)
          (signatureS signature) = true ∧ signatureV signature ≠ 0 := by
  intro agrees
  have verifies := agrees _ _ _ sameRecovery_example (List.replicate 32 7) (signatureOfOne 0) 1
    (by decide) signatureOfOne_accepted.2
  exact verifies.2 (by decide)

end NabBridge
