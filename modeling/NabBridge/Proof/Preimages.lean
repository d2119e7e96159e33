/-
**What validators sign.**

Validators sign hashes of three kinds of objects: validator sets, batches and logic calls. The contract
builds each preimage with `abi.encode`, with the id of the bridge and the name of the kind in front.

`signed_preimages_injective`: for one bridge, the preimage determines the kind and every field of the
object. Within a kind it is the injectivity of the encoding; across kinds the second word decides.
-/

import NabBridge.Contract.Calls

namespace NabBridge

/-- An object validators sign. -/
inductive SignedObject where
  | valset (args : ValsetArgs)
  | batch (args : BatchArgs)
  | logicCall (args : LogicCallArgs)
  deriving DecidableEq, Repr

namespace SignedObject

/-- The fields are in the range of their Solidity types. -/
def InRange : SignedObject → Prop
  | valset args => args.InRange
  | batch args => args.InRange
  | logicCall args => args.InRange

instance (object : SignedObject) : Decidable object.InRange := by
  rcases object <;> unfold InRange <;> infer_instance

/-- The bytes the contract hashes for the object. -/
def encoding (gravityId : Bytes) : SignedObject → Bytes
  | valset args => abiEncode (args.preimage gravityId)
  | batch args => abiEncode (args.preimage gravityId)
  | logicCall args => abiEncode (args.preimage gravityId)

/-- The hash the contract checks signatures of the object against. -/
def hash (evm : Evm) (gravityId : Bytes) : SignedObject → Bytes
  | valset args => makeCheckpoint evm args gravityId
  | batch args => batchHash evm args gravityId
  | logicCall args => logicCallHash evm args gravityId

theorem hash_eq (evm : Evm) (gravityId : Bytes) (object : SignedObject) :
    object.hash evm gravityId = evm.keccak256 (object.encoding gravityId) := by
  cases object <;> rfl

end SignedObject

/-! ### One kind -/

theorem AbiValue.inRange_addresses {addresses : List EthAddress} (short : addresses.length < 2 ^ 256) :
    (AbiValue.words (addresses.map Fin.val)).InRange := by
  refine ⟨by rwa [List.length_map], fun value member => ?_⟩
  obtain ⟨address, _, rfl⟩ := List.mem_map.mp member
  exact address.isLt.trans (by decide)

theorem AbiValue.inRange_address (address : EthAddress) : (AbiValue.word address.val).InRange :=
  address.isLt.trans (by decide)

theorem length_methodName (text : String) : (methodName text).length = 32 := length_rightPad _ _

theorem ValsetArgs.preimage_inRange {valset : ValsetArgs} {gravityId : Bytes}
    (id : gravityId.length = 32) (range : valset.InRange) :
    ∀ value ∈ valset.preimage gravityId, value.InRange := by
  obtain ⟨validators, powers, power, nonce, reward⟩ := range
  simp only [ValsetArgs.preimage, List.forall_mem_cons, List.not_mem_nil, false_imp_iff,
    implies_true, and_true]
  exact ⟨id, length_methodName _, nonce, AbiValue.inRange_addresses validators, ⟨powers, power⟩,
    reward, AbiValue.inRange_address _⟩

theorem BatchArgs.preimage_inRange {args : BatchArgs} {gravityId : Bytes}
    (id : gravityId.length = 32) (range : args.InRange) :
    ∀ value ∈ args.preimage gravityId, value.InRange := by
  obtain ⟨amounts, destinations, fees, amount, fee, nonce, timeout⟩ := range
  simp only [BatchArgs.preimage, List.forall_mem_cons, List.not_mem_nil, false_imp_iff,
    implies_true, and_true]
  exact ⟨id, length_methodName _, ⟨amounts, amount⟩, AbiValue.inRange_addresses destinations,
    ⟨fees, fee⟩, nonce, AbiValue.inRange_address _, timeout⟩

theorem LogicCallArgs.preimage_inRange {args : LogicCallArgs} {gravityId : Bytes}
    (id : gravityId.length = 32) (range : args.InRange) :
    ∀ value ∈ args.preimage gravityId, value.InRange := by
  obtain ⟨transfers, transferTokens, fees, feeTokens, transfer, fee, payload, timeOut, invalidation,
    nonce⟩ := range
  simp only [LogicCallArgs.preimage, List.forall_mem_cons, List.not_mem_nil, false_imp_iff,
    implies_true, and_true]
  exact ⟨id, length_methodName _, ⟨transfers, transfer⟩, AbiValue.inRange_addresses transferTokens,
    ⟨fees, fee⟩, AbiValue.inRange_addresses feeTokens, AbiValue.inRange_address _, payload, timeOut,
    invalidation, nonce⟩

theorem map_val_inj {first second : List EthAddress}
    (equal : first.map Fin.val = second.map Fin.val) : first = second :=
  List.map_injective_iff.mpr (fun _ _ => Fin.ext) equal

/-- **The preimage of a checkpoint determines the validator set.** -/
theorem ValsetArgs.preimage_inj {first second : ValsetArgs} {gravityId : Bytes}
    (id : gravityId.length = 32) (range : first.InRange) (range' : second.InRange)
    (equal : abiEncode (first.preimage gravityId) = abiEncode (second.preimage gravityId)) :
    first = second := by
  have fields := abiEncode_inj (by rfl) (first.preimage_inRange id range)
    (second.preimage_inRange id range') equal
  simp only [ValsetArgs.preimage, List.cons.injEq, AbiValue.word.injEq, AbiValue.words.injEq,
    true_and, and_true] at fields
  obtain ⟨nonce, validators, powers, amount, token⟩ := fields
  exact ValsetArgs.ext (map_val_inj validators) powers nonce amount (Fin.ext token)

theorem BatchArgs.preimage_inj {first second : BatchArgs} {gravityId : Bytes}
    (id : gravityId.length = 32) (range : first.InRange) (range' : second.InRange)
    (equal : abiEncode (first.preimage gravityId) = abiEncode (second.preimage gravityId)) :
    first = second := by
  have fields := abiEncode_inj (by rfl) (first.preimage_inRange id range)
    (second.preimage_inRange id range') equal
  simp only [BatchArgs.preimage, List.cons.injEq, AbiValue.word.injEq, AbiValue.words.injEq,
    true_and, and_true] at fields
  obtain ⟨amounts, destinations, fees, nonce, token, timeout⟩ := fields
  exact BatchArgs.ext amounts (map_val_inj destinations) fees nonce (Fin.ext token) timeout

theorem LogicCallArgs.preimage_inj {first second : LogicCallArgs} {gravityId : Bytes}
    (id : gravityId.length = 32) (range : first.InRange) (range' : second.InRange)
    (equal : abiEncode (first.preimage gravityId) = abiEncode (second.preimage gravityId)) :
    first = second := by
  have fields := abiEncode_inj (by rfl) (first.preimage_inRange id range)
    (second.preimage_inRange id range') equal
  simp only [LogicCallArgs.preimage, List.cons.injEq, AbiValue.word.injEq, AbiValue.words.injEq,
    AbiValue.bytes.injEq, AbiValue.bytes32.injEq, true_and, and_true] at fields
  obtain ⟨transfers, transferTokens, fees, feeTokens, logic, payload, timeOut, invalidation, nonce⟩ :=
    fields
  exact LogicCallArgs.ext transfers (map_val_inj transferTokens) fees (map_val_inj feeTokens)
    (Fin.ext logic) payload timeOut invalidation nonce

/-! ### All kinds -/

/-- Preimages that name their kinds differently are different. -/
theorem encoding_ne_of_methodName {gravityId : Bytes} {first second : String}
    {rest rest' : List AbiValue} (names : methodName first ≠ methodName second) :
    abiEncode (.bytes32 gravityId :: .bytes32 (methodName first) :: rest) ≠
      abiEncode (.bytes32 gravityId :: .bytes32 (methodName second) :: rest') := by
  intro equal
  obtain ⟨_, same⟩ := abiEncode_bytes32_pair equal
  refine names (rightPad_inj ?_ (le_of_eq (length_methodName _)) same)
  rw [length_methodName, length_methodName]

theorem SignedObject.encoding_inj {gravityId : Bytes} (id : gravityId.length = 32)
    {first second : SignedObject} (range : first.InRange) (range' : second.InRange)
    (equal : first.encoding gravityId = second.encoding gravityId) : first = second := by
  cases first with
  | valset args =>
      cases second with
      | valset args' => rw [ValsetArgs.preimage_inj id range range' equal]
      | batch args' => exact absurd equal (encoding_ne_of_methodName (by decide))
      | logicCall args' => exact absurd equal (encoding_ne_of_methodName (by decide))
  | batch args =>
      cases second with
      | valset args' => exact absurd equal (encoding_ne_of_methodName (by decide))
      | batch args' => rw [BatchArgs.preimage_inj id range range' equal]
      | logicCall args' => exact absurd equal (encoding_ne_of_methodName (by decide))
  | logicCall args =>
      cases second with
      | valset args' => exact absurd equal (encoding_ne_of_methodName (by decide))
      | batch args' => exact absurd equal (encoding_ne_of_methodName (by decide))
      | logicCall args' => rw [LogicCallArgs.preimage_inj id range range' equal]

/-- **Signed preimages are injective and domain separated.** For one bridge, the encoding determines
the object, of whichever kind; so if the hash is collision free, no digest that is signed for one
object is the digest of another. -/
theorem signed_preimages_injective (gravityId : Bytes) (id : gravityId.length = 32)
    (first second : SignedObject) (range : first.InRange) (range' : second.InRange) :
    (first.encoding gravityId = second.encoding gravityId → first = second) ∧
    ∀ evm : Evm, Function.Injective evm.keccak256 →
      evm.messageDigest (first.hash evm gravityId) = evm.messageDigest (second.hash evm gravityId) →
      first = second := by
  refine ⟨SignedObject.encoding_inj id range range', fun evm collisionFree equal => ?_⟩
  have hashes := List.append_cancel_left (collisionFree equal)
  rw [SignedObject.hash_eq, SignedObject.hash_eq] at hashes
  exact SignedObject.encoding_inj id range range' (collisionFree hashes)

/-- A batch and a logic call with the same lists, at a bridge named by zeros. -/
theorem signed_preimages_injective_example :
    SignedObject.encoding (List.replicate 32 0)
        (.batch ⟨[1], [2], [3], 4, 5, 6⟩) ≠
      SignedObject.encoding (List.replicate 32 0)
        (.logicCall ⟨[1], [2], [3], [], 5, [], 6, List.replicate 32 0, 4⟩) := by
  intro equal
  have same := (signed_preimages_injective (List.replicate 32 0) (by decide)
    (.batch ⟨[1], [2], [3], 4, 5, 6⟩)
    (.logicCall ⟨[1], [2], [3], [], 5, [], 6, List.replicate 32 0, 4⟩) (by decide) (by decide)).1 equal
  cases same

end NabBridge
