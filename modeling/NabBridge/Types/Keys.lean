/-
**Store keys.**

A key is a sequence of base-256 digits, compared lexicographically, which is the order the store's
iterators walk. Text and addresses enter byte by byte, counters through `beDigits 8`, amounts
through `beDigits 32`. Counters are natural numbers here, so the leading digit of a counter from
`2 ^ 64` on is not a byte; below that the keys are the source's.

The lemmas say which fields a key determines.
-/

import NabBridge.Lib.Bytes
import Mathlib.Data.List.Lex

namespace NabBridge

/-- A key of the module's store. -/
abbrev StoreKey := List Nat

/-- Bytes as key digits. -/
def keyBytes (bytes : Bytes) : StoreKey := bytes.map UInt8.toNat

/-- `UInt64Bytes` -/
def uint64Bytes (value : Nat) : StoreKey := beDigits 8 value

theorem keyBytes_injective : Function.Injective keyBytes :=
  List.map_injective_iff.mpr fun _ _ equal => UInt8.toNat_inj.mp equal

@[simp] theorem length_keyBytes (bytes : Bytes) : (keyBytes bytes).length = bytes.length :=
  List.length_map _

@[simp] theorem length_uint64Bytes (value : Nat) : (uint64Bytes value).length = 8 :=
  length_beDigits 8 value

theorem uint64Bytes_injective : Function.Injective uint64Bytes := fun _ _ equal =>
  beDigits_inj (by decide) equal

theorem uint64Bytes_strictMono : StrictMono uint64Bytes := beDigits_strictMono (by decide)

/-- The end of `prefixRange`: the last digit goes up by one, and where it overflows to zero the carry goes
to the digit before; `none` where no digit is left to take it. -/
def prefixEnd : StoreKey → Option StoreKey
  | [] => none
  | digit :: rest =>
      match prefixEnd rest with
      | some bound => some (digit :: bound)
      | none => if digit = 255 then none else some ((digit + 1) :: List.replicate rest.length 0)

/-- The keys an iterator over `prefixRange` walks. Where keys are shorter than the prefix these are not
only the keys that begin with it. -/
def InPrefixRange (prefixKey key : StoreKey) : Prop :=
  prefixKey ≤ key ∧ ∀ bound ∈ prefixEnd prefixKey, key < bound

instance (prefixKey key : StoreKey) : Decidable (InPrefixRange prefixKey key) := by
  unfold InPrefixRange; infer_instance

/-- `GetAttestationKey`: prefix `OracleAttestationKey`, event nonce, claim hash. -/
def getAttestationKey (eventNonce : Nat) (claimHash : Bytes) : StoreKey :=
  0x6 :: (uint64Bytes eventNonce ++ keyBytes claimHash)

/-- `GetLastEventNonceByValidatorKey` -/
def getLastEventNonceByValidatorKey (validator : Bytes) : StoreKey := 0xe :: keyBytes validator

/-- `GetOutgoingTxPoolContractPrefix` -/
def getOutgoingTxPoolContractPrefix (contractAddress : Bytes) : StoreKey :=
  0x7 :: keyBytes contractAddress

/-- `GetOutgoingTxPoolKey`: prefix `OutgoingTXPoolKey`, fee contract, fee amount, id. -/
def getOutgoingTxPoolKey (feeContract : Bytes) (feeAmount id : Nat) : StoreKey :=
  0x7 :: (keyBytes feeContract ++ (beDigits 32 feeAmount ++ uint64Bytes id))

/-- `GetOutgoingTxBatchKey`: prefix `OutgoingTXBatchKey`, token contract, batch nonce. -/
def getOutgoingTxBatchKey (tokenContract : Bytes) (nonce : Nat) : StoreKey :=
  0xa :: (keyBytes tokenContract ++ uint64Bytes nonce)

/-- The keys of one contract are ordered as the nonces are. -/
theorem getOutgoingTxBatchKey_strictMono (tokenContract : Bytes) :
    StrictMono (getOutgoingTxBatchKey tokenContract) := fun _ _ less =>
  List.cons_lt_cons_iff.mpr (Or.inr ⟨rfl, List.append_left_lt (uint64Bytes_strictMono less)⟩)

/-- `GetOutgoingTxBatchBlockKey` -/
def getOutgoingTxBatchBlockKey (block : Nat) : StoreKey := 0xb :: uint64Bytes block

theorem getOutgoingTxBatchBlockKey_strictMono : StrictMono getOutgoingTxBatchBlockKey :=
  fun _ _ less => List.cons_lt_cons_iff.mpr (Or.inr ⟨rfl, uint64Bytes_strictMono less⟩)

/-- **An attestation key determines the nonce and the claim hash.** -/
theorem getAttestationKey_inj {nonce nonce' : Nat} {hash hash' : Bytes} :
    getAttestationKey nonce hash = getAttestationKey nonce' hash' ↔
      nonce = nonce' ∧ hash = hash' := by
  constructor
  · intro equal
    obtain ⟨nonces, hashes⟩ := List.append_inj (List.cons.inj equal).2 (by simp)
    exact ⟨uint64Bytes_injective nonces, keyBytes_injective hashes⟩
  · rintro ⟨rfl, rfl⟩
    rfl

theorem getLastEventNonceByValidatorKey_inj {validator validator' : Bytes} :
    getLastEventNonceByValidatorKey validator = getLastEventNonceByValidatorKey validator' ↔
      validator = validator' := by
  simp [getLastEventNonceByValidatorKey, keyBytes_injective.eq_iff]

/-- **A pool key determines the id**, whatever the fee contract. -/
theorem getOutgoingTxPoolKey_id {contract contract' : Bytes} {fee fee' id id' : Nat}
    (equal : getOutgoingTxPoolKey contract fee id = getOutgoingTxPoolKey contract' fee' id') :
    id = id' := by
  have tails := (List.cons.inj equal).2
  rw [← List.append_assoc, ← List.append_assoc] at tails
  exact uint64Bytes_injective (List.append_inj' tails (by simp)).2

/-- **A batch key determines the token contract and the nonce.** -/
theorem getOutgoingTxBatchKey_inj {contract contract' : Bytes} {nonce nonce' : Nat} :
    getOutgoingTxBatchKey contract nonce = getOutgoingTxBatchKey contract' nonce' ↔
      contract = contract' ∧ nonce = nonce' := by
  constructor
  · intro equal
    obtain ⟨contracts, nonces⟩ := List.append_inj' (List.cons.inj equal).2 (by simp)
    exact ⟨keyBytes_injective contracts, uint64Bytes_injective nonces⟩
  · rintro ⟨rfl, rfl⟩
    rfl

end NabBridge
