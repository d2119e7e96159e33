/-
**Every event is read back.**

The contract writes the fields of an event by the ABI, the orchestrator finds them by fixed places and by
the lengths it has read. With nonces and block heights in 64 bits, the two are inverse:

* `deposit_readBack`, `deployed_readBack`, `valset_readBack`: one event each; the batches are
  `batch_parse_iff`;
* `fromLog_eventLog`: the four together. A text from 4 GiB on is refused, and nothing else.
-/

import NabBridge.Proof.LogParsing
import NabBridge.Proof.OracleRounds

namespace NabBridge

open Orchestrator

/-! ### One event -/

theorem drop_encodedDestinationAddress {account : Bytes} (length : account.length = 20) :
    (encodedDestinationAddress account).drop 12 = account := by
  have zeros : (List.replicate (32 - account.length) (0 : UInt8)).length = 12 := by
    rw [List.length_replicate, length]
  rw [encodedDestinationAddress, List.drop_left' zeros]

theorem deposit_readBack (evm : Evm) {crates : OracleCrates} {tokenContract sender : EthAddress}
    {account : Bytes} {amount eventNonce block : Nat}
    (accounts : ∀ bytes : Bytes, bytes.length = 20 → crates.cosmosFromBytes bytes = some bytes)
    (length : account.length = 20) (amountSmall : amount < 2 ^ 256) (eventSmall : eventNonce < 2 ^ 64)
    (blockSmall : block < 2 ^ 64) :
    SendToCosmosEvent.fromLog crates (eventLog evm (.sendToCosmos tokenContract sender
        (encodedDestinationAddress account) amount eventNonce) block) =
      .ok ⟨tokenContract, sender, account, amount, eventNonce, block⟩ := by
  have inRange : (GravityEvent.sendToCosmos tokenContract sender (encodedDestinationAddress account)
      amount eventNonce).InRange := by
    refine ⟨?_, amountSmall, eventSmall.trans (by decide)⟩
    rw [encodedDestinationAddress, List.length_append, List.length_replicate, length]
  have known : ∀ bytes : Bytes, bytes.length = 20 → (crates.cosmosFromBytes bytes).isSome :=
    fun bytes twenty => Option.isSome_iff_exists.mpr ⟨bytes, accounts bytes twenty⟩
  have read : crates.cosmosFromBytes ((encodedDestinationAddress account).drop 12) = some account := by
    rw [drop_encodedDestinationAddress length, accounts account length]
  refine (@deposit_fromLog_iff evm crates (_, block) _ _ known inRange rfl).mpr
    ⟨?_, eventSmall, blockSmall⟩
  rw [read, Option.getD_some]

/-- **A deployment is read back** exactly when its texts are shorter than 4 GiB. -/
theorem deployed_readBack (evm : Evm) {cosmosDenom name symbol : Bytes} {tokenContract : EthAddress}
    {decimals eventNonce block : Nat} (denomUtf8 : isUtf8 cosmosDenom = true)
    (nameUtf8 : isUtf8 name = true) (symbolUtf8 : isUtf8 symbol = true)
    (encodable : cosmosDenom.length < 2 ^ 256 ∧ name.length < 2 ^ 256 ∧ symbol.length < 2 ^ 256)
    (decimalsSmall : decimals < 256) (eventSmall : eventNonce < 2 ^ 64) :
    Erc20DeployedEvent.fromLog (eventLog evm (.erc20Deployed cosmosDenom tokenContract name symbol
        decimals eventNonce) block) =
      .ok ⟨cosmosDenom, tokenContract, name, symbol, decimals, eventNonce, block⟩ ↔
      cosmosDenom.length < 2 ^ 32 ∧ name.length < 2 ^ 32 ∧ symbol.length < 2 ^ 32 := by
  have inRange : (GravityEvent.erc20Deployed cosmosDenom tokenContract name symbol decimals
      eventNonce).InRange := ⟨encodable, decimalsSmall, eventSmall.trans (by decide)⟩
  refine (@deployed_fromLog_iff evm (_, block) _ _ inRange rfl).trans ⟨?_, ?_⟩
  · rintro ⟨_, _, denomReads, nameReads, symbolReads⟩
    exact ⟨denomReads.1, nameReads.1, symbolReads.1⟩
  · rintro ⟨denomShort, nameShort, symbolShort⟩
    exact ⟨rfl, eventSmall, ⟨denomShort, denomUtf8⟩, ⟨nameShort, nameUtf8⟩, symbolShort, symbolUtf8⟩

/-- **A validator set is read back** exactly when the length of its arrays is a `u64`. -/
theorem valset_readBack (evm : Evm) {newValsetNonce eventNonce rewardAmount block : Nat}
    {rewardToken : EthAddress} {validators : List EthAddress} {powers : List Nat}
    (nonceSmall : newValsetNonce < 2 ^ 64) (eventSmall : eventNonce < 2 ^ 64)
    (rewardSmall : rewardAmount < 2 ^ 256) (lengths : validators.length = powers.length)
    (encodable : validators.length < 2 ^ 256) (powersSmall : ∀ power ∈ powers, power < 2 ^ 64) :
    ValsetUpdatedEvent.fromLog (eventLog evm (.valsetUpdated newValsetNonce eventNonce rewardAmount
        rewardToken validators powers) block) =
      .ok ⟨newValsetNonce, eventNonce, block, rewardAmount,
        if rewardToken = 0 then none else some rewardToken, valsetMembers validators powers⟩ ↔
      validators.length < 2 ^ 64 := by
  have wide : ∀ value : Nat, value < 2 ^ 64 → value < 2 ^ 256 :=
    fun value small => small.trans (by decide)
  have inRange : (GravityEvent.valsetUpdated newValsetNonce eventNonce rewardAmount rewardToken
      validators powers).InRange :=
    ⟨wide _ nonceSmall, wide _ eventSmall, rewardSmall, lengths, encodable,
      fun power member => wide _ (powersSmall power member)⟩
  refine (@valset_fromLog_iff evm (_, block) _ _ inRange rfl).trans ⟨?_, ?_⟩
  · rintro ⟨_, _, _, short, _⟩
    exact short
  · intro short
    exact ⟨rfl, nonceSmall, eventSmall, short, powersSmall⟩

/-! ### The four events -/

/-- **Every event is read back.** `from_log` on the topics and the data of an event returns its fields;
of a deployment exactly when no text is longer than a `u32` counts, of a validator set exactly when its
length is a `u64`. -/
theorem fromLog_eventLog (evm : Evm) (crates : OracleCrates)
    (accounts : ∀ bytes : Bytes, bytes.length = 20 → crates.cosmosFromBytes bytes = some bytes) :
    (∀ (newValsetNonce eventNonce rewardAmount : Nat) (rewardToken : EthAddress)
      (validators : List EthAddress) (powers : List Nat) (block : Nat),
      newValsetNonce < 2 ^ 64 → eventNonce < 2 ^ 64 → rewardAmount < 2 ^ 256 →
      validators.length = powers.length → validators.length < 2 ^ 256 →
      (∀ power ∈ powers, power < 2 ^ 64) →
      (ValsetUpdatedEvent.fromLog (eventLog evm (.valsetUpdated newValsetNonce eventNonce rewardAmount
          rewardToken validators powers) block) =
        .ok ⟨newValsetNonce, eventNonce, block, rewardAmount,
          if rewardToken = 0 then none else some rewardToken, valsetMembers validators powers⟩ ↔
        validators.length < 2 ^ 64)) ∧
    (∀ (cosmosDenom : Bytes) (tokenContract : EthAddress) (name symbol : Bytes)
      (decimals eventNonce block : Nat),
      isUtf8 cosmosDenom = true → isUtf8 name = true → isUtf8 symbol = true →
      cosmosDenom.length < 2 ^ 256 ∧ name.length < 2 ^ 256 ∧ symbol.length < 2 ^ 256 →
      decimals < 256 → eventNonce < 2 ^ 64 →
      (Erc20DeployedEvent.fromLog (eventLog evm (.erc20Deployed cosmosDenom tokenContract name symbol
          decimals eventNonce) block) =
        .ok ⟨cosmosDenom, tokenContract, name, symbol, decimals, eventNonce, block⟩ ↔
        cosmosDenom.length < 2 ^ 32 ∧ name.length < 2 ^ 32 ∧ symbol.length < 2 ^ 32)) ∧
    (∀ (tokenContract sender : EthAddress) (account : Bytes) (amount eventNonce block : Nat),
      account.length = 20 → amount < 2 ^ 256 → eventNonce < 2 ^ 64 → block < 2 ^ 64 →
      SendToCosmosEvent.fromLog crates (eventLog evm (.sendToCosmos tokenContract sender
          (encodedDestinationAddress account) amount eventNonce) block) =
        .ok ⟨tokenContract, sender, account, amount, eventNonce, block⟩) ∧
    (∀ (batchNonce : Nat) (token : EthAddress) (eventNonce block : Nat),
      batchNonce < 2 ^ 64 → eventNonce < 2 ^ 64 → block < 2 ^ 64 →
      TransactionBatchExecutedEvent.fromLog (eventLog evm (.transactionBatchExecuted batchNonce token
          eventNonce) block) =
        .ok ⟨batchNonce, block, token, eventNonce⟩) := by
  refine ⟨?_, ?_, ?_, ?_⟩
  · intro newValsetNonce eventNonce rewardAmount rewardToken validators powers block
    exact valset_readBack evm
  · intro cosmosDenom tokenContract name symbol decimals eventNonce block
    exact deployed_readBack evm
  · intro tokenContract sender account amount eventNonce block
    exact deposit_readBack evm accounts
  · intro batchNonce token eventNonce block batchSmall eventSmall blockSmall
    exact (batch_parse_iff evm (batchSmall.trans (by decide)) (eventSmall.trans (by decide))).mpr
      ⟨rfl, eventSmall, batchSmall, blockSmall⟩

/-- A deposit, a deployment whose texts take no, one and two words, a set of two and a batch. -/
theorem fromLog_eventLog_examples :
    (ValsetUpdatedEvent.fromLog (eventLog exampleEvm (.valsetUpdated 4 9 0 0 [1, 2] [7, 8]) 100) =
      .ok ⟨4, 9, 100, 0, none, [⟨7, some 1⟩, ⟨8, some 2⟩]⟩) ∧
    (Erc20DeployedEvent.fromLog (eventLog exampleEvm (.erc20Deployed [] 3 (List.replicate 32 97)
        (List.replicate 33 98) 18 9) 100) =
      .ok ⟨[], 3, List.replicate 32 97, List.replicate 33 98, 18, 9, 100⟩) ∧
    (SendToCosmosEvent.fromLog exampleOracleCrates (eventLog exampleEvm (.sendToCosmos 3 4
        (encodedDestinationAddress (List.replicate 20 5)) (2 ^ 256 - 1) 9) 100) =
      .ok ⟨3, 4, List.replicate 20 5, 2 ^ 256 - 1, 9, 100⟩) ∧
    (TransactionBatchExecutedEvent.fromLog (eventLog exampleEvm (.transactionBatchExecuted 1 3 9) 100) =
      .ok ⟨1, 100, 3, 9⟩) := by
  obtain ⟨valset, deployed, deposit, batch⟩ :=
    fromLog_eventLog exampleEvm exampleOracleCrates fun _ _ => rfl
  refine ⟨?_, ?_, ?_, ?_⟩
  · exact (valset 4 9 0 0 [1, 2] [7, 8] 100 (by decide) (by decide) (by decide) rfl (by decide)
      (by decide)).mpr (by decide)
  · exact (deployed [] 3 (List.replicate 32 97) (List.replicate 33 98) 18 9 100 (by decide)
      (by decide +kernel) (by decide +kernel) ⟨by decide, by decide, by decide⟩ (by decide)
      (by decide)).mpr ⟨by decide, by decide, by decide⟩
  · exact deposit 3 4 (List.replicate 20 5) (2 ^ 256 - 1) 9 100 rfl (by decide) (by decide)
      (by decide)
  · exact batch 1 3 9 100 (by decide) (by decide) (by decide)

theorem isUtf8_replicate (count : Nat) : isUtf8 (List.replicate count 97) = true := by
  unfold isUtf8
  induction count with
  | zero => rfl
  | succ count ih =>
      rw [List.replicate_succ]
      exact ih

theorem deployed_tooLong {length : Nat} (long : 2 ^ 32 ≤ length) (encodable : length < 2 ^ 256) :
    Erc20DeployedEvent.fromLog (eventLog exampleEvm (.erc20Deployed (List.replicate length 97) 3 [] []
        18 9) 100) ≠ .ok ⟨List.replicate length 97, 3, [], [], 18, 9, 100⟩ := by
  intro reads
  have short := ((deployed_readBack exampleEvm (isUtf8_replicate length) rfl rfl
    ⟨by rw [List.length_replicate]; exact encodable, by decide, by decide⟩ (by decide)
    (by decide)).mp reads).1
  rw [List.length_replicate] at short
  omega

/-- A denom of 4 GiB is well-formed UTF-8, and its deployment is not read back. -/
theorem deployed_fourGiB : isUtf8 (List.replicate (2 ^ 32) 97) = true ∧
    Erc20DeployedEvent.fromLog (eventLog exampleEvm (.erc20Deployed (List.replicate (2 ^ 32) 97) 3 [] []
        18 9) 100) ≠ .ok ⟨List.replicate (2 ^ 32) 97, 3, [], [], 18, 9, 100⟩ :=
  ⟨isUtf8_replicate (2 ^ 32), deployed_tooLong le_rfl (by decide)⟩

end NabBridge
