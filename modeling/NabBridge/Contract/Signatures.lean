/-
**Signature checks of the bridge contract.**

`checkValidatorSignatures` walks the current validators, requires every signature it looks at to
recover to the validator's address, and stops as soon as the summed power passes the threshold. A
failed recovery is the zero address to the contract, so it compares equal to a validator whose
address is zero.

* `verifiedSignatures`: the power that is summed up belongs to distinct entries that pass `verifySig`;
* `Verifies.recovers`: such an entry recovers, unless its validator has the zero address.
-/

import NabBridge.Types.Address
import Mathlib.Data.List.Nodup

namespace NabBridge

/-- The primitives of the EVM the contract uses. -/
structure Evm where
  keccak256 : Bytes → Bytes
  /-- Public-key recovery: digest, `v`, `r`, `s`; `none` when it fails. -/
  recover : Bytes → UInt8 → Bytes → Bytes → Option EthAddress

/-- The precompile `ecrecover` returns the zero address when recovery fails. -/
def Evm.ecrecover (evm : Evm) (digest : Bytes) (v : UInt8) (r s : Bytes) : EthAddress :=
  (evm.recover digest v r s).getD 0

/-- `abi.encodePacked("\x19Ethereum Signed Message:\n32", _theHash)`, hashed. -/
def Evm.messageDigest (evm : Evm) (theHash : Bytes) : Bytes :=
  evm.keccak256 (0x19 :: ascii "Ethereum Signed Message:\n32" ++ theHash)

/-- `verifySig` -/
def verifySig (evm : Evm) (signer : EthAddress) (theHash : Bytes) (v : UInt8) (r s : Bytes) : Bool :=
  signer = evm.ecrecover (evm.messageDigest theHash) v r s

/-- The reverts of the signature check. -/
inductive SignatureRevert where
  /-- `Validator signature does not match.` -/
  | signatureMismatch
  /-- `Submitted validator set signatures do not have enough power.` -/
  | notEnoughPower
  /-- an array access out of bounds -/
  | outOfBounds
  deriving DecidableEq, Repr

/-- The loop of `checkValidatorSignatures`: the cumulative power, a `uint256`, when it ends. -/
def cumulativePower (evm : Evm) (theHash : Bytes) (powerThreshold : Nat) :
    Nat → List EthAddress → List Nat → List UInt8 → List Bytes → List Bytes →
      Except SignatureRevert Nat
  | cumulative, [], _, _, _, _ => .ok cumulative
  | cumulative, signer :: signers, power :: powers, v :: vs, r :: rs, s :: ss =>
      if v ≠ 0 then
        if verifySig evm signer theHash v r s then
          if (cumulative + power) % 2 ^ 256 > powerThreshold then
            .ok ((cumulative + power) % 2 ^ 256)
          else
            cumulativePower evm theHash powerThreshold ((cumulative + power) % 2 ^ 256) signers
              powers vs rs ss
        else .error .signatureMismatch
      else cumulativePower evm theHash powerThreshold cumulative signers powers vs rs ss
  | _, _ :: _, _, _, _, _ => .error .outOfBounds

/-- `checkValidatorSignatures` -/
def checkValidatorSignatures (evm : Evm) (currentValidators : List EthAddress)
    (currentPowers : List Nat) (v : List UInt8) (r s : List Bytes) (theHash : Bytes)
    (powerThreshold : Nat) : Except SignatureRevert Unit :=
  match cumulativePower evm theHash powerThreshold 0 currentValidators currentPowers v r s with
  | .error reason => .error reason
  | .ok cumulative => if cumulative > powerThreshold then .ok () else .error .notEnoughPower

/-- Entry `i` of the arrays passes `verifySig` for validator `i`. -/
def Verifies (evm : Evm) (theHash : Bytes) (validators : List EthAddress) (v : List UInt8)
    (r s : List Bytes) (i : Nat) : Prop :=
  ∃ signer vᵢ rᵢ sᵢ, validators[i]? = some signer ∧ v[i]? = some vᵢ ∧ r[i]? = some rᵢ ∧
    s[i]? = some sᵢ ∧ vᵢ ≠ 0 ∧ verifySig evm signer theHash vᵢ rᵢ sᵢ = true

/-- Entry `i` of the arrays recovers to validator `i`. -/
def Recovers (evm : Evm) (theHash : Bytes) (validators : List EthAddress) (v : List UInt8)
    (r s : List Bytes) (i : Nat) : Prop :=
  ∃ signer vᵢ rᵢ sᵢ, validators[i]? = some signer ∧ v[i]? = some vᵢ ∧ r[i]? = some rᵢ ∧
    s[i]? = some sᵢ ∧ vᵢ ≠ 0 ∧ evm.recover (evm.messageDigest theHash) vᵢ rᵢ sᵢ = some signer

theorem Verifies.cons {evm : Evm} {theHash : Bytes} {validators : List EthAddress}
    {v : List UInt8} {r s : List Bytes} {i : Nat} (verifies : Verifies evm theHash validators v r s i)
    (signer : EthAddress) (v₀ : UInt8) (r₀ s₀ : Bytes) :
    Verifies evm theHash (signer :: validators) (v₀ :: v) (r₀ :: r) (s₀ :: s) (i + 1) :=
  verifies

/-- The power at index `i`. -/
def powerAt (powers : List Nat) (i : Nat) : Nat := (powers[i]?).getD 0

theorem recover_of_verifySig {evm : Evm} {signer : EthAddress} {theHash : Bytes} {v : UInt8}
    {r s : Bytes} (nonzero : signer ≠ 0) (verified : verifySig evm signer theHash v r s = true) :
    evm.recover (evm.messageDigest theHash) v r s = some signer := by
  have equal : signer = evm.ecrecover (evm.messageDigest theHash) v r s :=
    of_decide_eq_true verified
  unfold Evm.ecrecover at equal
  cases recovered : evm.recover (evm.messageDigest theHash) v r s with
  | none =>
      rw [recovered] at equal
      exact absurd equal nonzero
  | some address =>
      rw [recovered] at equal
      exact congrArg some equal.symm

/-- A verified entry of a validator with a nonzero address recovers. -/
theorem Verifies.recovers {evm : Evm} {theHash : Bytes} {validators : List EthAddress}
    {v : List UInt8} {r s : List Bytes} {i : Nat} (verifies : Verifies evm theHash validators v r s i)
    (nonzero : ∀ signer ∈ validators, signer ≠ 0) : Recovers evm theHash validators v r s i := by
  obtain ⟨signer, vᵢ, rᵢ, sᵢ, isSigner, isV, isR, isS, given, verified⟩ := verifies
  have known : signer ∈ validators := List.mem_of_getElem? isSigner
  exact ⟨signer, vᵢ, rᵢ, sᵢ, isSigner, isV, isR, isS, given,
    recover_of_verifySig (nonzero signer known) verified⟩

/-- **Which entries are counted**: the loop adds up the powers of distinct entries, each of which
verifies. -/
theorem verifiedSignatures {evm : Evm} {theHash : Bytes} {powerThreshold start final : Nat}
    {validators : List EthAddress} {powers : List Nat} {v : List UInt8} {r s : List Bytes}
    (small : start < 2 ^ 256)
    (ended : cumulativePower evm theHash powerThreshold start validators powers v r s = .ok final) :
    ∃ counted : List Nat, counted.Nodup ∧
      (∀ i ∈ counted, Verifies evm theHash validators v r s i) ∧
      final = (start + (counted.map (powerAt powers)).sum) % 2 ^ 256 := by
  induction validators generalizing start powers v r s with
  | nil =>
      simp only [cumulativePower, Except.ok.injEq] at ended
      refine ⟨[], List.nodup_nil, fun _ member => absurd member List.not_mem_nil, ?_⟩
      rw [← ended, List.map_nil, List.sum_nil, Nat.add_zero, Nat.mod_eq_of_lt small]
  | cons signer signers ih =>
      cases powers with
      | nil => simp [cumulativePower] at ended
      | cons power powers =>
      cases v with
      | nil => simp [cumulativePower] at ended
      | cons v₀ v =>
      cases r with
      | nil => simp [cumulativePower] at ended
      | cons r₀ r =>
      cases s with
      | nil => simp [cumulativePower] at ended
      | cons s₀ s =>
      -- what the rest of the loop counts sits one index further
      have shifted : ∀ counted : List Nat, counted.Nodup →
          (∀ i ∈ counted, Verifies evm theHash signers v r s i) →
          (counted.map Nat.succ).Nodup ∧
          (∀ i ∈ counted.map Nat.succ, Verifies evm theHash (signer :: signers) (v₀ :: v)
            (r₀ :: r) (s₀ :: s) i) ∧
          ((counted.map Nat.succ).map (powerAt (power :: powers))).sum =
            (counted.map (powerAt powers)).sum := by
        intro counted distinct verifies
        refine ⟨distinct.map Nat.succ_injective, fun i member => ?_, ?_⟩
        · obtain ⟨j, inside, rfl⟩ := List.mem_map.mp member
          exact (verifies j inside).cons signer v₀ r₀ s₀
        · rw [List.map_map]
          rfl
      rw [cumulativePower] at ended
      by_cases skipped : v₀ = 0
      · rw [if_neg (not_not.mpr skipped)] at ended
        obtain ⟨counted, distinct, verifies, total⟩ := ih small ended
        obtain ⟨distinct', verifies', sums⟩ := shifted counted distinct verifies
        exact ⟨counted.map Nat.succ, distinct', verifies', sums ▸ total⟩
      · rw [if_pos skipped] at ended
        split_ifs at ended with verified enough
        · refine ⟨[0], List.nodup_singleton 0, fun i member => ?_, ?_⟩
          · rw [List.mem_singleton.mp member]
            exact ⟨signer, v₀, r₀, s₀, rfl, rfl, rfl, rfl, skipped, verified⟩
          · simpa [powerAt] using (Except.ok.inj ended).symm
        · have reduced : (start + power) % 2 ^ 256 < 2 ^ 256 := Nat.mod_lt _ (by decide)
          obtain ⟨counted, distinct, verifies, total⟩ := ih reduced ended
          obtain ⟨distinct', verifies', sums⟩ := shifted counted distinct verifies
          refine ⟨0 :: counted.map Nat.succ, List.nodup_cons.mpr ⟨by simp, distinct'⟩,
            fun i member => ?_, ?_⟩
          · rcases List.mem_cons.mp member with rfl | there
            · exact ⟨signer, v₀, r₀, s₀, rfl, rfl, rfl, rfl, skipped, verified⟩
            · exact verifies' i there
          · rw [total, List.map_cons, List.sum_cons, sums]
            have head : powerAt (power :: powers) 0 = power := rfl
            rw [head, Nat.mod_add_mod, Nat.add_assoc]

/-- **A passed check**: distinct entries verify, and their powers sum up to more than the
threshold. -/
theorem checkValidatorSignatures_eq_ok {evm : Evm} {validators : List EthAddress} {powers : List Nat}
    {v : List UInt8} {r s : List Bytes} {theHash : Bytes} {powerThreshold : Nat}
    (passed : checkValidatorSignatures evm validators powers v r s theHash powerThreshold = .ok ()) :
    ∃ counted : List Nat, counted.Nodup ∧
      (∀ i ∈ counted, Verifies evm theHash validators v r s i) ∧
      powerThreshold < (counted.map (powerAt powers)).sum := by
  unfold checkValidatorSignatures at passed
  cases ended : cumulativePower evm theHash powerThreshold 0 validators powers v r s with
  | error reason =>
      rw [ended] at passed
      cases passed
  | ok final =>
      rw [ended] at passed
      simp only at passed
      split_ifs at passed with enough
      obtain ⟨counted, distinct, verifies, total⟩ := verifiedSignatures (by norm_num) ended
      refine ⟨counted, distinct, verifies, lt_of_lt_of_le enough ?_⟩
      rw [total, Nat.zero_add]
      exact Nat.mod_le _ _

end NabBridge
