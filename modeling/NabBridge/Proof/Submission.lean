/-
**What the relayer submits.**

The relayer and the contract check a batch by the same rules with different operators. The relayer wants
66 percent of `TOTAL_GRAVITY_POWER`, which no whole number is: its first power that is enough is
2834678415. The contract was deployed with this number and wants more. And the relayer lets a batch pass
at the height of its timeout, where the contract does not.

* `submitBatch_eq`: the checks of `submitBatch` as a part of its own;
* `orderSigs_eq_ok`: what the arrays hold, member by member;
* `checkValidatorSignatures_iff`: the contract's loop over such arrays;
* `submitted_batch_accepted_iff`: the two boundaries are the only difference.
-/

import NabBridge.Lib.AbiRead
import NabBridge.Orchestrator.Relayer
import NabBridge.Proof.Relaying
import Mathlib.Data.List.Induction
import Mathlib.Tactic.Linarith
import Mathlib.Tactic.NormNum

namespace NabBridge

/-! ### The checks of the contract -/

section Checks

variable {τ : Type} (evm : Evm) (others : Contracts τ) (entry : Entry τ)

/-- The checks of `submitBatch`. -/
def submitBatchChecks (currentValset : ValsetArgs) (signatures : Signatures) (args : BatchArgs)
    (eth : Ethereum τ) : Except GravityRevert Unit := do
  require (eth.gravity.lastBatchNonces args.tokenContract < args.batchNonce) .batchNonce
  require (eth.blockNumber < args.batchTimeout) .batchTimeout
  require (signatures.Match currentValset) .malformedCurrentValset
  require (makeCheckpoint evm currentValset eth.gravity.gravityId = eth.gravity.lastValsetCheckpoint)
    .checkpointMismatch
  require (args.amounts.length = args.destinations.length ∧ args.amounts.length = args.fees.length)
    .malformedBatch
  checkQuorum evm eth.gravity currentValset signatures (batchHash evm args eth.gravity.gravityId)

/-- **`submitBatch` makes these checks first**, and what follows has no others. -/
theorem submitBatch_eq (sender : EthAddress) (currentValset : ValsetArgs) (signatures : Signatures)
    (args : BatchArgs) :
    Ethereum.submitBatch evm others entry sender currentValset signatures args =
      nonReentrant (fun eth => do
        submitBatchChecks evm currentValset signatures args eth
        let eth := { eth with
          gravity := { eth.gravity with
            lastBatchNonces :=
              Function.update eth.gravity.lastBatchNonces args.tokenContract args.batchNonce } }
        let (totalFee, eth) ←
          eth.payBatch others entry args.tokenContract args.amounts args.destinations args.fees 0
        let eth ← eth.external entry (others.safeTransfer args.tokenContract sender totalFee)
        eth.emit fun nonce =>
          .transactionBatchExecuted args.batchNonce args.tokenContract nonce) := by
  unfold Ethereum.submitBatch submitBatchChecks
  simp only [bind_assoc]

theorem require_bind_eq_ok {α : Type} {condition : Prop} [Decidable condition] {reason : GravityRevert}
    {next : Unit → Except GravityRevert α} {value : α} :
    (require condition reason >>= next) = .ok value ↔ condition ∧ next () = .ok value := by
  unfold require
  split_ifs with holds
  · exact ⟨fun done => ⟨holds, done⟩, And.right⟩
  · exact ⟨fun bad => (by cases bad), fun there => absurd there.1 holds⟩

/-- **The checks pass** where each of them does. -/
theorem submitBatchChecks_eq_ok {currentValset : ValsetArgs} {signatures : Signatures}
    {args : BatchArgs} {eth : Ethereum τ} :
    submitBatchChecks evm currentValset signatures args eth = .ok () ↔
      eth.gravity.lastBatchNonces args.tokenContract < args.batchNonce ∧
      eth.blockNumber < args.batchTimeout ∧ signatures.Match currentValset ∧
      makeCheckpoint evm currentValset eth.gravity.gravityId = eth.gravity.lastValsetCheckpoint ∧
      (args.amounts.length = args.destinations.length ∧ args.amounts.length = args.fees.length) ∧
      checkQuorum evm eth.gravity currentValset signatures
        (batchHash evm args eth.gravity.gravityId) = .ok () := by
  unfold submitBatchChecks
  simp only [require_bind_eq_ok]

end Checks

namespace Orchestrator

/-! ### The ordered signatures -/

section Ordered

variable {T : Type} [Confirm T]

/-- What `get_signature_status` puts into the list for a member. -/
def orderedEntry (signatures : Store EthAddress T) (member : ValsetMember) : GravitySignature :=
  match member.ethAddress with
  | some ethAddress =>
      match signatures.get ethAddress with
      | some sig => ⟨member.power, ethAddress, (getSignature sig).v, (getSignature sig).r,
          (getSignature sig).s⟩
      | none => ⟨member.power, ethAddress, 0, 0, 0⟩
  | none => ⟨member.power, 0, 0, 0, 0⟩

/-- One of the confirmations carries the member's address. -/
def ValsetMember.HasSigned (member : ValsetMember) (confirms : List T) : Prop :=
  ∃ confirm ∈ confirms, member.ethAddress = some (getEthAddress confirm)

instance (member : ValsetMember) (confirms : List T) : Decidable (member.HasSigned confirms) := by
  unfold ValsetMember.HasSigned; infer_instance

/-- The power of the members that have signed. -/
def signedPower (members : List ValsetMember) (confirms : List T) : Nat :=
  ((members.filter fun member => member.HasSigned confirms).map ValsetMember.power).sum

theorem signedPower_cons (member : ValsetMember) (rest : List ValsetMember) (confirms : List T) :
    signedPower (member :: rest) confirms =
      (if member.HasSigned confirms then member.power else 0) + signedPower rest confirms := by
  unfold signedPower
  rw [List.filter_cons]
  split_ifs with signed signed'
  · rw [List.map_cons, List.sum_cons]
  · exact absurd (of_decide_eq_true signed) signed'
  · exact absurd (decide_eq_true ‹_›) signed
  · rw [Nat.zero_add]

theorem orderedEntry_ethAddress (signatures : Store EthAddress T) (member : ValsetMember) :
    (orderedEntry signatures member).ethAddress = member.ethAddress.getD 0 := by
  unfold orderedEntry
  cases member.ethAddress with
  | none => rfl
  | some ethAddress =>
      dsimp only
      cases signatures.get ethAddress <;> rfl

theorem orderedEntry_power (signatures : Store EthAddress T) (member : ValsetMember) :
    (orderedEntry signatures member).power = member.power := by
  unfold orderedEntry
  cases member.ethAddress with
  | none => rfl
  | some ethAddress =>
      dsimp only
      cases signatures.get ethAddress <;> rfl

theorem getHashmap_isSome_iff (confirms : List T) (ethAddress : EthAddress) :
    ((getHashmap confirms).get ethAddress).isSome = true ↔
      ∃ confirm ∈ confirms, getEthAddress confirm = ethAddress := by
  induction confirms using List.reverseRecOn with
  | nil => simp [getHashmap]
  | append_singleton rest last ih =>
      rw [getHashmap, List.foldl_append, List.foldl_cons, List.foldl_nil, Store.get_set]
      split_ifs with same
      · simp [same]
      · refine Iff.trans ih ?_
        simp [Ne.symm same]

/-- A member that has signed, as the loop finds it. -/
theorem hasSigned_iff (confirms : List T) (member : ValsetMember) :
    member.HasSigned confirms ↔
      ∃ ethAddress, member.ethAddress = some ethAddress ∧
        ((getHashmap confirms).get ethAddress).isSome = true := by
  unfold ValsetMember.HasSigned
  simp only [getHashmap_isSome_iff]
  constructor
  · rintro ⟨confirm, member, address⟩
    exact ⟨_, address, confirm, member, rfl⟩
  · rintro ⟨_, address, confirm, member, rfl⟩
    exact ⟨confirm, member, address⟩

variable {clarity : Clarity} {signedMessage : Bytes} {confirms : List T}

/-- **One turn of the loop** appends the member's entry; where a signature was found it counts the power,
and the signature recovers to the address. -/
theorem push_eq_ok {status after : SignatureStatus} {member : ValsetMember}
    (pushed : status.push clarity signedMessage (getHashmap confirms) member = .ok after) :
    after.orderedSignatures = status.orderedSignatures ++ [orderedEntry (getHashmap confirms) member] ∧
      after.powerOfGoodSigs =
        (if member.HasSigned confirms then addPower status.powerOfGoodSigs member.power
        else status.powerOfGoodSigs) ∧
      ∀ ethAddress sig, member.ethAddress = some ethAddress →
        (getHashmap confirms).get ethAddress = some sig →
        clarity.recover (getSignature sig) signedMessage = some ethAddress := by
  unfold SignatureStatus.push at pushed
  unfold orderedEntry
  cases address : member.ethAddress with
  | none =>
      simp only [address, Outcome.ok.injEq] at pushed
      subst pushed
      refine ⟨rfl, ?_, fun _ _ bad _ => by cases bad⟩
      rw [if_neg]
      rintro ⟨confirm, _, bad⟩
      rw [address] at bad
      cases bad
  | some ethAddress =>
      simp only [address] at pushed
      cases found : (getHashmap confirms).get ethAddress with
      | none =>
          simp only [found, Outcome.ok.injEq] at pushed
          subst pushed
          refine ⟨by simp only [found], ?_, fun other sig same there => ?_⟩
          · rw [if_neg]
            intro signed
            obtain ⟨other, same, there⟩ := (hasSigned_iff confirms member).mp signed
            obtain rfl := Option.some.inj (address.symm.trans same)
            rw [found] at there
            cases there
          · obtain rfl := Option.some.inj same
            rw [found] at there
            cases there
      | some sig =>
          simp only [found] at pushed
          unfold SignatureStatus.pushSignature at pushed
          split_ifs at pushed with other invalid
          rw [not_not] at other
          split at pushed
          · cases pushed
          · rename_i recoverKey recovered
            split_ifs at pushed with own
            obtain rfl := Outcome.ok.inj pushed
            refine ⟨by simp only [found, other], ?_, fun other' sig' same there => ?_⟩
            · rw [if_pos ((hasSigned_iff confirms member).mpr ⟨ethAddress, address, by rw [found]; rfl⟩)]
            · obtain rfl := Option.some.inj same
              obtain rfl := Option.some.inj (found.symm.trans there)
              rw [recovered, own, other]

theorem foldlM_push {members : List ValsetMember} {start status : SignatureStatus}
    (pushed : members.foldlM (SignatureStatus.push clarity signedMessage (getHashmap confirms)) start =
      .ok status)
    (small : start.powerOfGoodSigs + (members.map ValsetMember.power).sum < 2 ^ 64) :
    status.orderedSignatures =
        start.orderedSignatures ++ members.map (orderedEntry (getHashmap confirms)) ∧
      status.powerOfGoodSigs = start.powerOfGoodSigs + signedPower members confirms ∧
      ∀ member ∈ members, ∀ ethAddress sig, member.ethAddress = some ethAddress →
        (getHashmap confirms).get ethAddress = some sig →
        clarity.recover (getSignature sig) signedMessage = some ethAddress := by
  induction members generalizing start with
  | nil =>
      obtain rfl := Outcome.ok.inj pushed
      simp [signedPower]
  | cons member rest ih =>
      rw [List.foldlM_cons] at pushed
      obtain ⟨middle, first, pushed⟩ := Outcome.bind_eq_ok.mp pushed
      obtain ⟨entries, power, recovers⟩ := push_eq_ok first
      rw [List.map_cons, List.sum_cons] at small
      have counted : middle.powerOfGoodSigs =
          start.powerOfGoodSigs + if member.HasSigned confirms then member.power else 0 := by
        rw [power]
        split_ifs
        · exact Nat.mod_eq_of_lt (by omega)
        · rfl
      obtain ⟨later, total, others⟩ := ih pushed (by split_ifs at counted <;> omega)
      refine ⟨by rw [later, entries, List.map_cons, List.append_assoc]; rfl, ?_, ?_⟩
      · rw [total, counted, signedPower_cons, Nat.add_assoc]
      · rintro other (_ | ⟨_, member⟩)
        · exact recovers
        · exact others other member

/-- **What the arrays hold** where `order_sigs` is satisfied: one entry for each member; the power that
has signed is at least 2834678415; and each signature recovers to its address. -/
theorem orderSigs_eq_ok {valset : Valset} {sigs : List GravitySignature}
    (small : (valset.members.map ValsetMember.power).sum < 2 ^ 64)
    (ordered : valset.orderSigs clarity signedMessage confirms = .ok sigs) :
    sigs = valset.members.map (orderedEntry (getHashmap confirms)) ∧
      2834678415 ≤ signedPower valset.members confirms ∧
      ∀ member ∈ valset.members, ∀ ethAddress sig, member.ethAddress = some ethAddress →
        (getHashmap confirms).get ethAddress = some sig →
        clarity.recover (getSignature sig) signedMessage = some ethAddress := by
  unfold Valset.orderSigs Valset.getSignatureStatus at ordered
  split at ordered
  · cases ordered
  · cases ordered
  · rename_i status found
    split_ifs at found
    split_ifs at ordered with enough
    obtain rfl := Outcome.ok.inj ordered
    obtain ⟨entries, power, recovers⟩ := foldlM_push found (by simpa using small)
    refine ⟨by simpa using entries, ?_, recovers⟩
    rw [Nat.zero_add] at power
    rw [power, gravityPowerToPercent, not_lt] at enough
    have exact : (66 : ℚ) * 4294967295 ≤ signedPower valset.members confirms * 100 := by
      have total : ((totalGravityPower : Nat) : ℚ) = 4294967295 := by
        norm_num [totalGravityPower, maxUint32]
      rw [total] at enough
      linarith
    have whole : 66 * 4294967295 ≤ signedPower valset.members confirms * 100 := by exact_mod_cast exact
    omega

end Ordered

/-! ### The contract's loop -/

/-- The power of the entries with a signature. -/
def votedPower (sigs : List GravitySignature) : Nat :=
  ((sigs.filter fun sig => sig.v.toUInt8 ≠ 0).map GravitySignature.power).sum

example : votedPower [⟨5, 1, 27, 1, 1⟩, ⟨7, 2, 0, 0, 0⟩] = 5 := by decide +kernel

/-- The entry has no signature, or one that the contract verifies. -/
def GravitySignature.Passes (evm : Evm) (theHash : Bytes) (sig : GravitySignature) : Prop :=
  sig.v.toUInt8 ≠ 0 → verifySig evm sig.ethAddress theHash sig.v.toUInt8 (wordBytes sig.r)
    (wordBytes sig.s) = true

/-- The loop runs to its end, or stops where the threshold is passed. -/
theorem cumulativePower_eq_ok {evm : Evm} {theHash : Bytes} {powerThreshold start : Nat}
    {sigs : List GravitySignature} (passes : ∀ sig ∈ sigs, sig.Passes evm theHash)
    (below : start ≤ powerThreshold)
    (small : start + (sigs.map GravitySignature.power).sum < 2 ^ 256) :
    ∃ final, cumulativePower evm theHash powerThreshold start
        (sigs.map fun sig => sig.ethAddress) (sigs.map fun sig => sig.power)
        (sigs.map fun sig => sig.v.toUInt8) (sigs.map fun sig => wordBytes sig.r)
        (sigs.map fun sig => wordBytes sig.s) = .ok final ∧
      (final > powerThreshold ↔ start + votedPower sigs > powerThreshold) := by
  induction sigs generalizing start with
  | nil => exact ⟨start, rfl, by simp [votedPower]⟩
  | cons sig rest ih =>
      have others := fun other member => passes other (List.mem_cons_of_mem sig member)
      rw [List.map_cons, List.sum_cons] at small
      simp only [List.map_cons]
      rw [cumulativePower]
      by_cases given : sig.v.toUInt8 = 0
      · obtain ⟨final, ended, enough⟩ := ih others below (by omega)
        refine ⟨final, by rw [if_neg (not_not_intro given), ended], ?_⟩
        rw [enough, votedPower, votedPower, List.filter_cons_of_neg (by simp [given])]
      · have voted : votedPower (sig :: rest) = sig.power + votedPower rest := by
          rw [votedPower, List.filter_cons_of_pos (by simp [given]), List.map_cons, List.sum_cons,
            votedPower]
        have whole : (start + sig.power) % 2 ^ 256 = start + sig.power := Nat.mod_eq_of_lt (by omega)
        rw [if_pos given, if_pos (passes sig List.mem_cons_self given), whole, voted]
        by_cases enough : start + sig.power > powerThreshold
        · exact ⟨_, if_pos enough, ⟨fun _ => by omega, fun _ => enough⟩⟩
        · obtain ⟨final, ended, decides⟩ := ih others (not_lt.mp enough) (by omega)
          refine ⟨final, by rw [if_neg enough, ended], ?_⟩
          rw [decides, Nat.add_assoc]

/-- **The signatures pass** exactly if their power is above the threshold. -/
theorem checkValidatorSignatures_iff {evm : Evm} {theHash : Bytes} {powerThreshold : Nat}
    {sigs : List GravitySignature} (passes : ∀ sig ∈ sigs, sig.Passes evm theHash)
    (small : (sigs.map GravitySignature.power).sum < 2 ^ 256) :
    checkValidatorSignatures evm (sigs.map fun sig => sig.ethAddress) (sigs.map fun sig => sig.power)
        (sigs.map fun sig => sig.v.toUInt8) (sigs.map fun sig => wordBytes sig.r)
        (sigs.map fun sig => wordBytes sig.s) theHash powerThreshold = .ok () ↔
      votedPower sigs > powerThreshold := by
  obtain ⟨final, ended, enough⟩ := cumulativePower_eq_ok passes (Nat.zero_le powerThreshold)
    (by omega)
  rw [Nat.zero_add] at enough
  rw [checkValidatorSignatures, ended, ← enough]
  dsimp only
  split_ifs with above
  · exact ⟨fun _ => above, fun _ => rfl⟩
  · exact ⟨fun bad => (by cases bad), fun there => absurd there above⟩

/-! ### The two sides of a submission -/

/-- What is assumed of `clarity` and the EVM: messages are hashed as the contract hashes them, and from a
signature in Ethereum's format both recover the same signer. -/
structure Clarity.Agrees (clarity : Clarity) (evm : Evm) : Prop where
  ethereumMsgHash : ∀ data, clarity.ethereumMsgHash data = evm.messageDigest (evm.keccak256 data)
  recover : ∀ sig digest address, sig.v = 27 ∨ sig.v = 28 →
    clarity.recover sig digest = some address →
    evm.recover digest sig.v.toUInt8 (wordBytes sig.r) (wordBytes sig.s) = some address

/-- A signature of a digest, in Ethereum's format, for the address in its own confirmation. -/
def ValidFor {T : Type} [Confirm T] (clarity : Clarity) (digest : Bytes) (confirm : T) : Prop :=
  ((getSignature confirm).v = 27 ∨ (getSignature confirm).v = 28) ∧
    clarity.recover (getSignature confirm) digest = some (getEthAddress confirm)

instance {T : Type} [Confirm T] (clarity : Clarity) (digest : Bytes) (confirm : T) :
    Decidable (ValidFor clarity digest confirm) := by
  unfold ValidFor; infer_instance

section Submission

variable {clarity : Clarity} {evm : Evm}

/-- The relayer's hash of a batch is the digest the contract recovers signers from. -/
theorem encodeTxBatchConfirmHashed_eq (lawful : clarity.toCrates.Lawful) (agrees : clarity.Agrees evm)
    {gravityId : Bytes} (short : gravityId.length ≤ 32) (batch : TransactionBatch) :
    encodeTxBatchConfirmHashed clarity gravityId batch =
      evm.messageDigest (batchHash evm batch.batchArgs (rightPad 32 gravityId)) := by
  have encoded : encodeTxBatchConfirm clarity.toCrates gravityId batch =
      abiEncode (batch.batchArgs.preimage (rightPad 32 gravityId)) := by
    refine encodeTokens_eq lawful ?_ ?_
    · simp only [List.forall_mem_cons, Token.Fits]
      exact ⟨short, by decide, trivial, trivial, trivial, trivial, trivial, trivial,
        fun _ absent => absurd absent List.not_mem_nil⟩
    · simp only [TransactionBatch.batchArgs, BatchArgs.preimage, Token.abi,
        List.map_cons, List.map_nil, AbiValue.padded, methodName, rightPad_rightPad]
  rw [encodeTxBatchConfirmHashed, agrees.ethereumMsgHash, encoded, batchHash]

variable {T : Type} [Confirm T]

/-- The entry of a member passes where the signatures are valid. -/
theorem orderedEntry_passes (agrees : clarity.Agrees evm) {theHash : Bytes} {confirms : List T}
    (valid : ∀ confirm ∈ confirms, ValidFor clarity (evm.messageDigest theHash) confirm)
    (member : ValsetMember) :
    (orderedEntry (getHashmap confirms) member).Passes evm theHash := by
  unfold orderedEntry
  cases member.ethAddress with
  | none => exact fun given => absurd rfl given
  | some ethAddress =>
      dsimp only
      cases found : (getHashmap confirms).get ethAddress with
      | none => exact fun given => absurd rfl given
      | some sig =>
          intro _
          obtain ⟨inside, own⟩ := getHashmap_spec found
          obtain ⟨standard, recovered⟩ := valid sig inside
          have recovers := agrees.recover _ _ _ standard recovered
          rw [own] at recovers
          exact decide_eq_true (by rw [Evm.ecrecover, recovers, Option.getD_some])

/-- The entries with a signature are those of the members that have signed. -/
theorem votedPower_orderedEntry {digest : Bytes} {confirms : List T}
    (valid : ∀ confirm ∈ confirms, ValidFor clarity digest confirm) (members : List ValsetMember) :
    votedPower (members.map (orderedEntry (getHashmap confirms))) = signedPower members confirms := by
  induction members with
  | nil => rfl
  | cons member rest ih =>
      have given : (orderedEntry (getHashmap confirms) member).v.toUInt8 ≠ 0 ↔
          member.HasSigned confirms := by
        rw [hasSigned_iff]
        unfold orderedEntry
        cases member.ethAddress with
        | none => exact ⟨fun bad => absurd rfl bad, fun ⟨_, bad, _⟩ => by cases bad⟩
        | some ethAddress =>
            dsimp only
            cases found : (getHashmap confirms).get ethAddress with
            | none =>
                refine ⟨fun bad => absurd rfl bad, fun ⟨other, same, there⟩ => ?_⟩
                obtain rfl := Option.some.inj same
                rw [found] at there
                cases there
            | some sig =>
                refine ⟨fun _ => ⟨ethAddress, rfl, by rw [found]; rfl⟩, fun _ => ?_⟩
                rcases (valid sig (getHashmap_spec found).1).1 with standard | standard <;>
                  · dsimp only
                    rw [standard]
                    decide
      rw [signedPower_cons, ← ih, List.map_cons, votedPower, List.filter_cons, votedPower]
      simp only [decide_eq_true_eq, given]
      split_ifs
      · rw [List.map_cons, List.sum_cons, orderedEntry_power]
      · rw [Nat.zero_add]

/-- **The relayer's checks against the contract's**: a batch that passes the relayer's passes the
contract's too, unless exactly 2834678415 of the power has signed or the chain is at the height of the
timeout. -/
theorem submitted_batch_accepted_iff {τ : Type} (lawful : clarity.toCrates.Lawful)
    (agrees : clarity.Agrees evm) (eth : Ethereum τ) (gravityId : Bytes)
    (short : gravityId.length ≤ 32) (id : eth.gravity.gravityId = rightPad 32 gravityId)
    (deployed : eth.gravity.powerThreshold = 2834678415) (valset : Valset)
    (normalized : (valset.members.map ValsetMember.power).sum ≤ totalGravityPower)
    (installed : makeCheckpoint evm (encodeValsetStruct valset) eth.gravity.gravityId =
      eth.gravity.lastValsetCheckpoint)
    (batch : TransactionBatch) (confirms : List BatchConfirmResponse)
    (valid : ∀ confirm ∈ confirms,
      ValidFor clarity (encodeTxBatchConfirmHashed clarity gravityId batch) confirm)
    (sigs : List GravitySignature)
    (ordered : valset.orderSigs clarity (encodeTxBatchConfirmHashed clarity gravityId batch) confirms =
      .ok sigs)
    (submittable : batch.Submittable eth.blockNumber
      (eth.gravity.lastBatchNonces batch.tokenContract)) :
    submitBatchChecks evm (encodeValsetStruct valset) (toArrays sigs).decoded batch.batchArgs eth =
        .ok () ↔
      signedPower valset.members confirms ≠ 2834678415 ∧ batch.batchTimeout ≠ eth.blockNumber := by
  have bound : (valset.members.map ValsetMember.power).sum < 2 ^ 64 :=
    lt_of_le_of_lt normalized (by decide)
  obtain ⟨rfl, enough, _⟩ := orderSigs_eq_ok bound ordered
  rw [encodeTxBatchConfirmHashed_eq lawful agrees short, ← id] at valid
  set entries := valset.members.map (orderedEntry (getHashmap confirms)) with entriesIs
  have validators : (encodeValsetStruct valset).validators = entries.map fun sig => sig.ethAddress := by
    rw [entriesIs, List.map_map]
    exact List.map_congr_left fun member _ => (orderedEntry_ethAddress _ member).symm
  have powers : (encodeValsetStruct valset).powers = entries.map fun sig => sig.power := by
    rw [entriesIs, List.map_map]
    exact List.map_congr_left fun member _ => (orderedEntry_power _ member).symm
  have passes : ∀ sig ∈ entries, sig.Passes evm (batchHash evm batch.batchArgs eth.gravity.gravityId) := by
    intro sig inside
    obtain ⟨member, _, rfl⟩ := List.mem_map.mp inside
    exact orderedEntry_passes agrees valid member
  have quorum : checkQuorum evm eth.gravity (encodeValsetStruct valset) (toArrays entries).decoded
      (batchHash evm batch.batchArgs eth.gravity.gravityId) = .ok () ↔
      signedPower valset.members confirms > 2834678415 := by
    have small : (entries.map GravitySignature.power).sum < 2 ^ 256 := by
      have same : entries.map GravitySignature.power = valset.members.map ValsetMember.power :=
        powers.symm
      rw [same]
      exact bound.trans (by decide)
    rw [← votedPower_orderedEntry valid, ← entriesIs, ← deployed,
      ← checkValidatorSignatures_iff passes small, checkQuorum, validators, powers]
    simp only [toArrays, GravitySignatureArrays.decoded, List.map_map, Function.comp_def]
    cases checkValidatorSignatures evm _ _ _ _ _ _ _ with
    | error reason => exact ⟨fun bad => (by cases bad), fun bad => (by cases bad)⟩
    | ok value => exact ⟨fun _ => rfl, fun _ => rfl⟩
  have lengths : (toArrays entries).decoded.Match (encodeValsetStruct valset) := by
    refine ⟨?_, ?_, ?_, ?_⟩ <;>
      simp [toArrays, GravitySignatureArrays.decoded, encodeValsetStruct,
        Valset.filterEmptyAddresses, entriesIs]
  rw [submitBatchChecks_eq_ok, quorum]
  constructor
  · rintro ⟨_, early, _, _, _, more⟩
    exact ⟨by omega, ne_of_gt early⟩
  · rintro ⟨other, apart⟩
    refine ⟨submittable.2, lt_of_le_of_ne (not_lt.mp submittable.1) apart.symm, lengths, installed,
      ⟨?_, ?_⟩, by omega⟩ <;> simp [TransactionBatch.batchArgs]

end Submission

end Orchestrator

/-! ### A batch at the two boundaries -/

theorem exampleClarity_agrees : exampleClarity.Agrees recoveringEvm where
  ethereumMsgHash _ := rfl
  recover sig digest address standard recovered := by
    have same : beValue (wordBytes sig.r) % 2 ^ 160 = sig.r % 2 ^ 160 := by
      have reduced : wordBytes sig.r = wordBytes (sig.r % 2 ^ 256) := by
        rw [wordBytes, wordBytes, Nat.mod_mod]
      rw [reduced, beValue_wordBytes (Nat.mod_lt _ (by decide))]
      exact Nat.mod_mod_of_dvd _ (by decide)
    have format : sig.v.toUInt8 = 27 ∨ sig.v.toUInt8 = 28 := by
      rcases standard with last | last
      · exact Or.inl (by rw [last]; rfl)
      · exact Or.inr (by rw [last]; rfl)
    refine (if_pos format).trans ?_
    rw [← recovered]
    exact congrArg some (Fin.ext same)

/-- A validator set in which the address one has the given power. -/
def exampleInstalled (power : Nat) : Orchestrator.Valset :=
  ⟨1, [⟨power, some 1⟩, ⟨4294967295 - power, some 2⟩], 0, none⟩

/-- The contract with this validator set at block 100. -/
def exampleRelayEthereum (power : Nat) : Ethereum Unit where
  gravity :=
    { wNomAddress := 0
      lastValsetCheckpoint :=
        makeCheckpoint recoveringEvm (Orchestrator.encodeValsetStruct (exampleInstalled power))
          (rightPad 32 (ascii "foo"))
      lastBatchNonces := fun _ => 0
      invalidationMapping := fun _ => 0
      lastValsetNonce := 1
      lastEventNonce := 2
      gravityId := rightPad 32 (ascii "foo")
      powerThreshold := 2834678415
      entered := false }
  contracts := ()
  blockNumber := 100
  logs := []
  accepted := []

/-- A batch with the given timeout. -/
def exampleRelayBatch (batchTimeout : Nat) : Orchestrator.TransactionBatch :=
  ⟨1, batchTimeout, [⟨1, [], 5, ⟨10, 9⟩, ⟨1, 9⟩⟩], ⟨1, 9⟩, 9⟩

/-- The signature of the address one. -/
def exampleBatchConfirm : Orchestrator.BatchConfirmResponse := ⟨1, [], 9, 1, ⟨27, 1, 0⟩⟩

/-- What is signed. -/
def exampleRelayHash (batchTimeout : Nat) : Bytes :=
  Orchestrator.encodeTxBatchConfirmHashed exampleClarity (ascii "foo") (exampleRelayBatch batchTimeout)

/-- The relayer's part: the signature is valid, and the batch passes its checks. -/
def ExampleRelays (power batchTimeout : Nat) (sigs : List Orchestrator.GravitySignature) : Prop :=
  Orchestrator.ValidFor exampleClarity (exampleRelayHash batchTimeout) exampleBatchConfirm ∧
    (exampleInstalled power).orderSigs exampleClarity (exampleRelayHash batchTimeout)
      [exampleBatchConfirm] = .ok sigs ∧
    (exampleRelayBatch batchTimeout).Submittable 100 0

instance (power batchTimeout : Nat) (sigs : List Orchestrator.GravitySignature) :
    Decidable (ExampleRelays power batchTimeout sigs) := by
  unfold ExampleRelays; infer_instance

/-- The contract's part of it. -/
def exampleChecks (power batchTimeout : Nat) (sigs : List Orchestrator.GravitySignature) :
    Except GravityRevert Unit :=
  submitBatchChecks recoveringEvm (Orchestrator.encodeValsetStruct (exampleInstalled power))
    (Orchestrator.toArrays sigs).decoded (exampleRelayBatch batchTimeout).batchArgs
    (exampleRelayEthereum power)

/-- The arrays for a signature of the address one. -/
def exampleSigs (power : Nat) : List Orchestrator.GravitySignature :=
  [⟨power, 1, 27, 1, 0⟩, ⟨4294967295 - power, 2, 0, 0, 0⟩]

/-- Away from the boundaries the contract accepts the batch. -/
theorem submitted_batch_accepted : ExampleRelays 3000000000 101 (exampleSigs 3000000000) ∧
    exampleChecks 3000000000 101 (exampleSigs 3000000000) = .ok () := by
  have relays : ExampleRelays 3000000000 101 (exampleSigs 3000000000) := by decide +kernel
  exact ⟨relays, (Orchestrator.submitted_batch_accepted_iff exampleCrates_lawful exampleClarity_agrees
    (exampleRelayEthereum 3000000000) (ascii "foo") (by decide) rfl rfl (exampleInstalled 3000000000)
    (by decide) rfl (exampleRelayBatch 101) [exampleBatchConfirm]
    (List.forall_mem_singleton.mpr relays.1) _ relays.2.1 relays.2.2).mpr (by decide +kernel)⟩

/-- **At either boundary it does not**: not with a power of exactly 2834678415, and not at the height of the
timeout. -/
theorem submitted_batch_rejected :
    (ExampleRelays 2834678415 101 (exampleSigs 2834678415) ∧
      exampleChecks 2834678415 101 (exampleSigs 2834678415) =
        .error (.signatures .notEnoughPower)) ∧
    ExampleRelays 3000000000 100 (exampleSigs 3000000000) ∧
      exampleChecks 3000000000 100 (exampleSigs 3000000000) = .error .batchTimeout := by
  decide +kernel

end NabBridge
