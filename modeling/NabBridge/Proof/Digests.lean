/-
**What Go hashes and what the contract hashes.**

`EthereumSigned.arguments word` are the arguments of the contract that a record of the module stands
for, with the `uint64` fields turned into words by `word`. The contract is called with the fields as
they are (`object`); Go takes them through `int64` on the way to its encoder (`packed`), so a field from
`2 ^ 63` on becomes a word near `2 ^ 256`.

* `getCheckpoint_eq_ok_iff`: Go's checkpoint is the hash of the contract's encoding of `packed`;
* `packed_eq_object_iff`: the two agree exactly below `2 ^ 63`;
* `SignedObject.encoding_determines`: an encoding determines the bridge and the object;
* `object_of_packed`: a record that Go encodes like one with small fields has the same fields.
-/

import NabBridge.Keeper.Evidence
import NabBridge.Proof.Preimages

namespace NabBridge

/-- go-ethereum's packer follows the ABI: four bytes of the selector, then the encoding. -/
def Geth.PacksAbi (geth : Geth) : Prop :=
  ∀ method arguments, ∃ selector : Bytes, selector.length = 4 ∧
    geth.pack method arguments = selector ++ abiEncode arguments

theorem exampleGeth_packsAbi : exampleGeth.PacksAbi := fun _ _ => ⟨[0, 0, 0, 0], rfl, rfl⟩

/-! ### Words -/

/-- A number as a `uint256`. -/
def uint256OfInt (value : Int) : Nat := (value % 2 ^ 256).toNat

/-- A `uint64` as a `uint256`, by way of `int64`. -/
def packedWord (value : Nat) : Nat := uint256OfInt (int64OfUint64 value)

theorem uint256OfInt_lt (value : Int) : uint256OfInt value < 2 ^ 256 := by
  unfold uint256OfInt
  have bound := Int.emod_lt_of_pos value (show (0 : Int) < 2 ^ 256 by decide)
  omega

theorem uint256OfInt_of_lt {value : Nat} (small : value < 2 ^ 256) :
    uint256OfInt (value : Int) = value := by
  unfold uint256OfInt
  omega

theorem uint256OfInt_cast {amount : Int} (nonnegative : 0 ≤ amount) (small : amount < 2 ^ 256) :
    (uint256OfInt amount : Int) = amount := by
  unfold uint256OfInt
  rw [Int.emod_eq_of_lt nonnegative small, Int.toNat_of_nonneg nonnegative]

theorem packedWord_of_lt {value : Nat} (small : value < 2 ^ 63) : packedWord value = value := by
  have same : value % 2 ^ 64 = value := Nat.mod_eq_of_lt (small.trans (by decide))
  unfold packedWord int64OfUint64
  rw [same, if_pos small, uint256OfInt_of_lt (small.trans (by decide))]

/-- From `2 ^ 63` on the sign is extended. -/
theorem packedWord_of_ge {value : Nat} (large : 2 ^ 63 ≤ value) (typed : value < 2 ^ 64) :
    packedWord value = value + (2 ^ 256 - 2 ^ 64) := by
  have same : value % 2 ^ 64 = value := Nat.mod_eq_of_lt typed
  unfold packedWord int64OfUint64 uint256OfInt
  rw [same, if_neg (Nat.not_lt.mpr large)]
  omega

theorem packedWord_lt_iff {value : Nat} (typed : value < 2 ^ 64) :
    packedWord value < 2 ^ 63 ↔ value < 2 ^ 63 := by
  by_cases small : value < 2 ^ 63
  · rw [packedWord_of_lt small]
  · rw [packedWord_of_ge (Nat.not_lt.mp small) typed]
    omega

theorem packedWord_eq_iff {value : Nat} (typed : value < 2 ^ 64) :
    packedWord value = value ↔ value < 2 ^ 63 := by
  by_cases small : value < 2 ^ 63
  · exact ⟨fun _ => small, packedWord_of_lt⟩
  · rw [packedWord_of_ge (Nat.not_lt.mp small) typed]
    omega

/-! ### The contract's arguments for a record -/

def Valset.arguments (word : Nat → Nat) (valset : Valset) : ValsetArgs where
  validators := valset.members.map fun member => hexToAddress member.ethereumAddress
  powers := valset.members.map fun member => word member.power
  valsetNonce := word valset.nonce
  rewardAmount := uint256OfInt (valset.rewardAmount.getD 0)
  rewardToken := hexToAddress valset.rewardToken

def OutgoingTxBatch.arguments (word : Nat → Nat) (batch : OutgoingTxBatch) : BatchArgs where
  amounts := batch.transactions.map fun tx => uint256OfInt tx.erc20Token.amount
  destinations := batch.transactions.map fun tx => hexToAddress tx.destAddress
  fees := batch.transactions.map fun tx => uint256OfInt tx.erc20Fee.amount
  batchNonce := word batch.batchNonce
  tokenContract := hexToAddress batch.tokenContract
  batchTimeout := word batch.batchTimeout

def OutgoingLogicCall.arguments (word : Nat → Nat) (call : OutgoingLogicCall) : LogicCallArgs where
  transferAmounts := call.transfers.map fun token => uint256OfInt token.amount
  transferTokenContracts := call.transfers.map fun token => hexToAddress token.contract
  feeAmounts := call.fees.map fun token => uint256OfInt token.amount
  feeTokenContracts := call.fees.map fun token => hexToAddress token.contract
  logicContractAddress := hexToAddress call.logicContractAddress
  payload := call.payload
  timeOut := word call.timeout
  invalidationId := rightPad 32 call.invalidationId
  invalidationNonce := word call.invalidationNonce

/-- The `uint64` arguments of a call of the contract. -/
def SignedObject.counters : SignedObject → List Nat
  | valset args => args.valsetNonce :: args.powers
  | batch args => [args.batchNonce, args.batchTimeout]
  | logicCall args => [args.timeOut, args.invalidationNonce]

namespace EthereumSigned

/-- The contract's arguments for a record. -/
def arguments (word : Nat → Nat) : EthereumSigned → SignedObject
  | .valset value => .valset (value.arguments word)
  | .batch value => .batch (value.arguments word)
  | .logicCall value => .logicCall (value.arguments word)

/-- What the contract is called with for a record. -/
def object (record : EthereumSigned) : SignedObject := record.arguments id

/-- What Go encodes for a record. -/
def packed (record : EthereumSigned) : SignedObject := record.arguments packedWord

/-- The `uint64` fields that are signed. -/
def counters : EthereumSigned → List Nat
  | .valset value => value.nonce :: value.members.map BridgeValidator.power
  | .batch value => [value.batchNonce, value.batchTimeout]
  | .logicCall value => [value.timeout, value.invalidationNonce]

/-- The lengths of the lists and strings that are signed. -/
def lengths : EthereumSigned → List Nat
  | .valset value => [value.members.length]
  | .batch value => [value.transactions.length]
  | .logicCall value => [value.transfers.length, value.fees.length, value.payload.length]

/-- The fields are values of their Go types: a `uint64` is one, and a slice has fewer than `2 ^ 63`
elements. -/
def Typed (record : EthereumSigned) : Prop :=
  (∀ counter ∈ record.counters, counter < 2 ^ 64) ∧ ∀ length ∈ record.lengths, length < 2 ^ 63

instance (record : EthereumSigned) : Decidable record.Typed := by
  unfold Typed; infer_instance

/-- Go can compute the checkpoint, of a gravity id that fits. -/
def Checkpointable : EthereumSigned → Prop
  | .valset value =>
      validateEthAddress value.rewardToken = .ok () ∧ value.rewardAmount.isSome
  | _ => True

instance (record : EthereumSigned) : Decidable record.Checkpointable := by
  rcases record <;> unfold Checkpointable <;> infer_instance

theorem counters_arguments (word : Nat → Nat) (record : EthereumSigned) :
    (record.arguments word).counters = record.counters.map word := by
  cases record with
  | valset value => simp [arguments, Valset.arguments, counters, SignedObject.counters]
  | batch value => rfl
  | logicCall value => rfl

theorem arguments_congr {word word' : Nat → Nat} {record : EthereumSigned}
    (same : ∀ counter ∈ record.counters, word counter = word' counter) :
    record.arguments word = record.arguments word' := by
  cases record with
  | valset value =>
      have nonce := same value.nonce List.mem_cons_self
      have powers : value.members.map (fun member => word member.power) =
          value.members.map fun member => word' member.power :=
        List.map_congr_left fun member inside =>
          same member.power (List.mem_cons_of_mem _ (List.mem_map_of_mem inside))
      simp only [arguments, Valset.arguments, nonce, powers]
  | batch value =>
      have nonce := same value.batchNonce List.mem_cons_self
      have timeout := same value.batchTimeout (List.mem_cons_of_mem _ List.mem_cons_self)
      simp only [arguments, OutgoingTxBatch.arguments, nonce, timeout]
  | logicCall value =>
      have timeout := same value.timeout List.mem_cons_self
      have nonce := same value.invalidationNonce (List.mem_cons_of_mem _ List.mem_cons_self)
      simp only [arguments, OutgoingLogicCall.arguments, nonce, timeout]

/-- **Where the two encodings are of one object.** -/
theorem packed_eq_object_iff {record : EthereumSigned} (typed : record.Typed) :
    record.packed = record.object ↔ ∀ counter ∈ record.counters, counter < 2 ^ 63 := by
  constructor
  · intro same counter member
    have mapped := congrArg SignedObject.counters same
    rw [packed, object, counters_arguments, counters_arguments] at mapped
    exact (packedWord_eq_iff (typed.1 counter member)).mp (List.map_inj_left.mp mapped counter member)
  · intro small
    exact arguments_congr fun counter member => packedWord_of_lt (small counter member)

/-- **A record that Go encodes like one with small fields** is the same object to the contract. -/
theorem object_of_packed {stored record : EthereumSigned} (typed : stored.Typed)
    (small : ∀ counter ∈ record.counters, counter < 2 ^ 63)
    (same : stored.packed = record.packed) : stored.object = record.object := by
  have unchanged : record.packed = record.object :=
    arguments_congr fun counter member => packedWord_of_lt (small counter member)
  have mapped := congrArg SignedObject.counters (same.trans unchanged)
  rw [packed, object, counters_arguments, counters_arguments, List.map_id] at mapped
  have own : ∀ counter ∈ stored.counters, counter < 2 ^ 63 := fun counter member => by
    refine (packedWord_lt_iff (typed.1 counter member)).mp (small _ ?_)
    rw [← mapped]
    exact List.mem_map_of_mem member
  rw [← (packed_eq_object_iff typed).mpr own, same, unchanged]

end EthereumSigned

/-! ### Go's checkpoints -/

section Checkpoints

variable {geth : Geth}

theorem gravityIdArgument_eq_ok_iff {gravityID : Bytes} {argument : AbiValue} :
    gravityIdArgument gravityID = .ok argument ↔
      gravityID.length ≤ 32 ∧ argument = .bytes32 (rightPad 32 gravityID) := by
  unfold gravityIdArgument strToFixByteArray
  by_cases long : gravityID.length > 32
  · rw [if_pos long]
    exact ⟨fun bad => (by cases bad), fun found => absurd found.1 (Nat.not_le.mpr long)⟩
  · rw [if_neg long]
    simp only [Outcome.ok.injEq]
    exact ⟨fun equal => ⟨Nat.not_lt.mp long, equal.symm⟩, fun found => found.2.symm⟩

theorem rightPad_rightPad (width : Nat) (data : Bytes) :
    rightPad width (rightPad width data) = rightPad width data :=
  rightPad_of_length (length_rightPad width data)

theorem Geth.PacksAbi.drop (packs : geth.PacksAbi) (method : Bytes) (arguments : List AbiValue) :
    (geth.pack method arguments).drop 4 = abiEncode arguments := by
  obtain ⟨selector, length, packed⟩ := packs method arguments
  rw [packed, ← length, List.drop_left]

theorem Valset.encode_eq (value : Valset) (gravityID : Bytes) (amount : Int)
    (reward : value.rewardAmount = some amount) :
    abiEncode [.bytes32 (rightPad 32 gravityID), .bytes32 (ascii "checkpoint"), .int64 value.nonce,
        .hexAddresses (value.members.map BridgeValidator.ethereumAddress),
        .int64s (value.members.map BridgeValidator.power), .int amount,
        .word (hexToAddress value.rewardToken).val] =
      abiEncode ((value.arguments packedWord).preimage (rightPad 32 gravityID)) := by
  refine abiEncode_congr ?_
  simp only [ValsetArgs.preimage, Valset.arguments, AbiValue.hexAddresses, AbiValue.int64s,
    AbiValue.ints, AbiValue.int64, AbiValue.int, List.map_cons, List.map_nil, AbiValue.padded,
    List.map_map, methodName, rightPad_rightPad, reward, Option.getD_some]
  rfl

theorem OutgoingTxBatch.encode_eq (value : OutgoingTxBatch) (gravityID : Bytes) :
    abiEncode [.bytes32 (rightPad 32 gravityID), .bytes32 (ascii "transactionBatch"),
        .ints (value.transactions.map fun tx => tx.erc20Token.amount),
        .hexAddresses (value.transactions.map fun tx => tx.destAddress),
        .ints (value.transactions.map fun tx => tx.erc20Fee.amount),
        .int64 value.batchNonce, .word (hexToAddress value.tokenContract).val,
        .int64 value.batchTimeout] =
      abiEncode ((value.arguments packedWord).preimage (rightPad 32 gravityID)) := by
  refine abiEncode_congr ?_
  simp only [BatchArgs.preimage, OutgoingTxBatch.arguments, AbiValue.hexAddresses,
    AbiValue.ints, AbiValue.int64, AbiValue.int, List.map_cons, List.map_nil, AbiValue.padded,
    List.map_map, methodName, rightPad_rightPad]
  rfl

theorem OutgoingLogicCall.encode_eq (value : OutgoingLogicCall) (gravityID : Bytes) :
    abiEncode [.bytes32 (rightPad 32 gravityID), .bytes32 (ascii "logicCall"),
        .ints (value.transfers.map fun token => token.amount),
        .hexAddresses (value.transfers.map fun token => token.contract),
        .ints (value.fees.map fun token => token.amount),
        .hexAddresses (value.fees.map fun token => token.contract),
        .word (hexToAddress value.logicContractAddress).val, .bytes value.payload,
        .int64 value.timeout, .bytes32 value.invalidationId, .int64 value.invalidationNonce] =
      abiEncode ((value.arguments packedWord).preimage (rightPad 32 gravityID)) := by
  refine abiEncode_congr ?_
  simp only [LogicCallArgs.preimage, OutgoingLogicCall.arguments, AbiValue.hexAddresses,
    AbiValue.ints, AbiValue.int64, AbiValue.int, List.map_cons, List.map_nil, AbiValue.padded,
    List.map_map, methodName, rightPad_rightPad]
  rfl

/-- The part that all checkpoints share. -/
theorem Geth.PacksAbi.hashed_eq_ok_iff (packs : geth.PacksAbi) {gravityID checkpoint method : Bytes}
    {arguments : List AbiValue} :
    (gravityIdArgument gravityID >>= fun id =>
        (.ok (geth.keccak256 ((geth.pack method (id :: arguments)).drop 4)) :
          Outcome Empty CheckpointPanic Bytes)) = .ok checkpoint ↔
      gravityID.length ≤ 32 ∧ checkpoint =
        geth.keccak256 (abiEncode (.bytes32 (rightPad 32 gravityID) :: arguments)) := by
  rw [Outcome.bind_eq_ok]
  constructor
  · rintro ⟨argument, fits, computed⟩
    obtain ⟨short, rfl⟩ := gravityIdArgument_eq_ok_iff.mp fits
    obtain rfl := Outcome.ok.inj computed
    exact ⟨short, by rw [packs.drop]⟩
  · rintro ⟨short, rfl⟩
    exact ⟨_, gravityIdArgument_eq_ok_iff.mpr ⟨short, rfl⟩, by rw [packs.drop]⟩

/-- **Go's checkpoint** is the hash of what the contract would encode for the packed fields. -/
theorem EthereumSigned.getCheckpoint_eq_ok_iff (packs : geth.PacksAbi) {gravityID checkpoint : Bytes}
    {record : EthereumSigned} :
    record.getCheckpoint geth gravityID = .ok checkpoint ↔
      gravityID.length ≤ 32 ∧ record.Checkpointable ∧
        checkpoint = geth.keccak256 (record.packed.encoding (rightPad 32 gravityID)) := by
  cases record with
  | valset value =>
      show Valset.getCheckpoint geth value gravityID = .ok checkpoint ↔ _
      unfold Valset.getCheckpoint
      cases token : validateEthAddress value.rewardToken with
      | error reason =>
          rw [Outcome.bind_eq_ok]
          exact ⟨fun ⟨_, _, bad⟩ => (by cases bad),
            fun ⟨_, ⟨valid, _⟩, _⟩ => (by rw [valid] at token; cases token)⟩
      | ok passed =>
          cases reward : value.rewardAmount with
          | none =>
              rw [Outcome.bind_eq_ok]
              exact ⟨fun ⟨_, _, bad⟩ => (by cases bad),
                fun ⟨_, ⟨_, given⟩, _⟩ => (by rw [reward] at given; cases given)⟩
          | some amount =>
              refine packs.hashed_eq_ok_iff.trans ?_
              rw [value.encode_eq gravityID amount reward]
              exact ⟨fun ⟨short, equal⟩ => ⟨short, ⟨token, by rw [reward]; rfl⟩, equal⟩,
                fun ⟨short, _, equal⟩ => ⟨short, equal⟩⟩
  | batch value =>
      refine packs.hashed_eq_ok_iff.trans ?_
      rw [value.encode_eq]
      exact ⟨fun ⟨short, equal⟩ => ⟨short, trivial, equal⟩, fun ⟨short, _, equal⟩ => ⟨short, equal⟩⟩
  | logicCall value =>
      refine packs.hashed_eq_ok_iff.trans ?_
      rw [value.encode_eq]
      exact ⟨fun ⟨short, equal⟩ => ⟨short, trivial, equal⟩, fun ⟨short, _, equal⟩ => ⟨short, equal⟩⟩

end Checkpoints

/-! ### Encodings determine objects -/

theorem length_le_of_typed {record : EthereumSigned} (typed : record.Typed) :
    ∀ length ∈ record.lengths, length < 2 ^ 256 := fun length member =>
  (typed.2 length member).trans (by decide)

/-- The arguments for a record are in the range of their Solidity types. -/
theorem EthereumSigned.inRange_arguments {record : EthereumSigned} (typed : record.Typed)
    {word : Nat → Nat} (words : ∀ counter ∈ record.counters, word counter < 2 ^ 256) :
    (record.arguments word).InRange := by
  have short := length_le_of_typed typed
  have amounts : ∀ {α : Type} (items : List α) (amount : α → Int),
      ∀ value ∈ items.map (fun item => uint256OfInt (amount item)), value < 2 ^ 256 := by
    intro α items amount value member
    obtain ⟨item, _, rfl⟩ := List.mem_map.mp member
    exact uint256OfInt_lt _
  cases record with
  | valset value =>
      have members : value.members.length < 2 ^ 256 := short _ List.mem_cons_self
      refine ⟨by simpa [Valset.arguments] using members, by simpa [Valset.arguments] using members,
        fun power member => ?_, words _ List.mem_cons_self, uint256OfInt_lt _⟩
      obtain ⟨validator, inside, rfl⟩ := List.mem_map.mp member
      exact words _ (List.mem_cons_of_mem _ (List.mem_map_of_mem inside))
  | batch value =>
      have transactions : value.transactions.length < 2 ^ 256 := short _ List.mem_cons_self
      exact ⟨by simpa [OutgoingTxBatch.arguments] using transactions,
        by simpa [OutgoingTxBatch.arguments] using transactions,
        by simpa [OutgoingTxBatch.arguments] using transactions, amounts _ _, amounts _ _,
        words _ List.mem_cons_self, words _ (List.mem_cons_of_mem _ List.mem_cons_self)⟩
  | logicCall value =>
      have transfers : value.transfers.length < 2 ^ 256 := short _ List.mem_cons_self
      have fees : value.fees.length < 2 ^ 256 := short _ (List.mem_cons_of_mem _ List.mem_cons_self)
      have payload : value.payload.length < 2 ^ 256 := short _ (by simp [lengths])
      exact ⟨by simpa [OutgoingLogicCall.arguments] using transfers,
        by simpa [OutgoingLogicCall.arguments] using transfers,
        by simpa [OutgoingLogicCall.arguments] using fees,
        by simpa [OutgoingLogicCall.arguments] using fees, amounts _ _, amounts _ _, payload,
        words _ List.mem_cons_self, length_rightPad _ _,
        words _ (List.mem_cons_of_mem _ List.mem_cons_self)⟩

theorem EthereumSigned.inRange_packed {record : EthereumSigned} (typed : record.Typed) :
    record.packed.InRange :=
  inRange_arguments typed fun _ _ => uint256OfInt_lt _

theorem EthereumSigned.inRange_object {record : EthereumSigned} (typed : record.Typed) :
    record.object.InRange :=
  inRange_arguments typed fun counter member => (typed.1 counter member).trans (by decide)

/-- Every preimage starts with the id of the bridge and the name of the kind. -/
def SignedObject.kind : SignedObject → String
  | valset _ => "checkpoint"
  | batch _ => "transactionBatch"
  | logicCall _ => "logicCall"

theorem SignedObject.encoding_eq (gravityId : Bytes) (object : SignedObject) : ∃ rest,
    object.encoding gravityId =
      abiEncode (.bytes32 gravityId :: .bytes32 (methodName object.kind) :: rest) := by
  cases object <;> exact ⟨_, rfl⟩

/-- The bridge and the kind are read off an encoding. -/
theorem SignedObject.encoding_prefix {gravityId gravityId' : Bytes} (id : gravityId.length = 32)
    (id' : gravityId'.length = 32) {first second : SignedObject}
    (equal : first.encoding gravityId = second.encoding gravityId') :
    gravityId = gravityId' ∧ methodName first.kind = methodName second.kind := by
  obtain ⟨rest, encoding⟩ := first.encoding_eq gravityId
  obtain ⟨rest', encoding'⟩ := second.encoding_eq gravityId'
  rw [encoding, encoding'] at equal
  obtain ⟨ids, names⟩ := abiEncode_bytes32_pair equal
  rw [rightPad_of_length id, rightPad_of_length id'] at ids
  rw [rightPad_of_length (length_methodName _), rightPad_of_length (length_methodName _)] at names
  exact ⟨ids, names⟩

/-- **An encoding determines the bridge and the object.** -/
theorem SignedObject.encoding_determines {gravityId gravityId' : Bytes} (id : gravityId.length = 32)
    (id' : gravityId'.length = 32) {first second : SignedObject} (range : first.InRange)
    (range' : second.InRange) (equal : first.encoding gravityId = second.encoding gravityId') :
    gravityId = gravityId' ∧ first = second := by
  obtain ⟨rfl, _⟩ := encoding_prefix id id' equal
  exact ⟨rfl, encoding_inj id range range' equal⟩

end NabBridge
