/-
**A signer catches up.**

The module tells an account what it has not confirmed; the account's signer signs that, and tells the module.
Validator sets go through in chunks. Batches and logic calls go one at a time, and what the signer cannot
confirm stays at the head of its queue: a batch whose contract is not spelled the way the signer prints
addresses, since the module looks a batch up by the text of its contract, and a logic call without transfers
or without fees, which the orchestrator does not convert.

* `Node.Keyed`: the stored objects are under their own keys, and no batch nonce is stored twice;
* `handleConfirm_signed`: **what the signer says about a stored object is accepted**;
* `signerRound_queues`: what one round does to the three queues;
* `signer_catches_up`: any number of rounds, from every state the module can reach.
-/

import NabBridge.Lib.Queue
import NabBridge.Proof.Encoders
import NabBridge.Proof.LogicCallSlashing
import NabBridge.System.EthSigner

namespace NabBridge

open Orchestrator

/-! ### Stored objects and their keys -/

/-- The state is not exported and imported. -/
def NodeInput.Continues {β τ : Type} : NodeInput β τ → Prop
  | .restart _ _ _ => False
  | _ => True

/-- What is stored is under its own key, and no batch nonce is stored twice. -/
structure Node.Keyed {β τ : Type} (node : Node β τ) : Prop where
  valsets : ∀ key valset, node.keeper.chain.valsets.valsets.get key = some valset →
    key = getValsetKey valset.nonce
  batches : ∀ key batch, node.keeper.chain.app.outgoing.batches.get key = some batch → key = batch.key
  calls : node.keeper.logicCalls.Keyed
  issued : ∀ key batch, node.keeper.chain.app.outgoing.batches.get key = some batch →
    batch.batchNonce < node.keeper.chain.app.outgoing.nextBatchNonce
  nonces : ∀ key batch key' other, node.keeper.chain.app.outgoing.batches.get key = some batch →
    node.keeper.chain.app.outgoing.batches.get key' = some other →
    batch.batchNonce = other.batchNonce → batch = other

section Keys

variable {β τ : Type} {sdk : Sdk} {bank : BankKeeper β} {geth : Geth} {evm : Evm}
  {others : Contracts τ}

theorem Node.keyed_fresh (params : Params) (balances : β) (eth : Ethereum τ) :
    (⟨KeeperState.fresh params balances, eth, false⟩ : Node β τ).Keyed where
  valsets _ _ found := by cases found
  batches _ _ found := by cases found
  calls _ _ found := by cases found
  issued _ _ found := by cases found
  nonces _ _ _ _ found := by cases found

/-- The batches after a step are those before it, or one more with the next nonce. -/
theorem BridgeEffect.batches {gravityID : Bytes} {before after : Chain β} {outputs : List BridgeOutput}
    (effect : BridgeEffect geth gravityID before outputs after) :
    (∀ key batch, after.app.outgoing.batches.get key = some batch →
        before.app.outgoing.batches.get key = some batch) ∧
      after.app.outgoing.nextBatchNonce = before.app.outgoing.nextBatchNonce ∨
    ∃ batch, batch.batchNonce = before.app.outgoing.nextBatchNonce ∧
      after.app.outgoing.batches = before.app.outgoing.batches.set batch.key batch ∧
      after.app.outgoing.nextBatchNonce = before.app.outgoing.nextBatchNonce + 1 := by
  cases effect with
  | quiet outgoing valsets silent =>
      refine Or.inl ⟨outgoing.batches, ?_⟩
      rw [Outgoing.nextBatchNonce, outgoing.lastOutgoingBatchId]
      rfl
  | sent tx outgoing valsets reported =>
      refine Or.inl ⟨fun key batch found => outgoing.batches ▸ found, ?_⟩
      rw [Outgoing.nextBatchNonce, outgoing.lastOutgoingBatchId]
      rfl
  | batchStored batch outgoing valsets reported =>
      refine Or.inr ⟨batch, outgoing.nonce, outgoing.batches, ?_⟩
      rw [Outgoing.nextBatchNonce, outgoing.lastOutgoingBatchId, Option.getD_some, outgoing.nonce]
  | valsetStored made shuffled stored earlier outgoing recorded stores valsets silent reported =>
      refine Or.inl ⟨fun key batch found => ?_, ?_⟩
      · rw [recorded] at found
        exact outgoing.batches key batch found
      · rw [Outgoing.nextBatchNonce, recorded]
        show shuffled.lastOutgoingBatchId.getD 1 = _
        rw [outgoing.lastOutgoingBatchId]
        rfl

/-- One more batch, with the next nonce. -/
theorem Node.Keyed.addBatch {node next : Node β τ} (here : node.Keyed) {batch : OutgoingTxBatch}
    (nonce : batch.batchNonce = node.keeper.chain.app.outgoing.nextBatchNonce)
    (batches : next.keeper.chain.app.outgoing.batches =
      node.keeper.chain.app.outgoing.batches.set batch.key batch)
    (later : next.keeper.chain.app.outgoing.nextBatchNonce =
      node.keeper.chain.app.outgoing.nextBatchNonce + 1)
    (valsets : ∀ key valset, next.keeper.chain.valsets.valsets.get key = some valset →
      key = getValsetKey valset.nonce) (calls : next.keeper.logicCalls.Keyed) : next.Keyed where
  valsets := valsets
  calls := calls
  batches key other found := by
    rw [batches] at found
    rcases Store.of_get_set found with ⟨rfl, rfl⟩ | earlier
    · rfl
    · exact here.batches key other earlier
  issued key other found := by
    rw [batches] at found
    rw [later]
    rcases Store.of_get_set found with ⟨rfl, rfl⟩ | earlier
    · omega
    · exact (here.issued key other earlier).trans (Nat.lt_succ_self _)
  nonces key first key' second found found' same := by
    rw [batches] at found found'
    rcases Store.of_get_set found with ⟨rfl, rfl⟩ | earlier <;>
      rcases Store.of_get_set found' with ⟨rfl, rfl⟩ | earlier'
    · rfl
    · exact absurd (here.issued key' second earlier') (by omega)
    · exact absurd (here.issued key first earlier) (by omega)
    · exact here.nonces key first key' second earlier earlier' same

/-- Nothing but batches that were there before. -/
theorem Node.Keyed.fewer {node next : Node β τ} (here : node.Keyed)
    (batches : ∀ key batch, next.keeper.chain.app.outgoing.batches.get key = some batch →
      node.keeper.chain.app.outgoing.batches.get key = some batch)
    (same : next.keeper.chain.app.outgoing.nextBatchNonce =
      node.keeper.chain.app.outgoing.nextBatchNonce)
    (valsets : ∀ key valset, next.keeper.chain.valsets.valsets.get key = some valset →
      key = getValsetKey valset.nonce) (calls : next.keeper.logicCalls.Keyed) : next.Keyed where
  valsets := valsets
  calls := calls
  batches key batch found := here.batches key batch (batches key batch found)
  issued key batch found := same ▸ here.issued key batch (batches key batch found)
  nonces key batch key' other found found' :=
    here.nonces key batch key' other (batches key batch found) (batches key' other found')

theorem Node.Keyed.step {node next : Node β τ} {input : NodeInput β τ} {outputs : List NodeOutput}
    (here : node.Keyed) (numbered : Numbered next) (continues : input.Continues)
    (step : nodeStep sdk bank geth evm others node input = some (next, outputs)) : next.Keyed := by
  cases nodeStep_effect step with
  | bridge made effect calls keys params reported =>
      rcases effect.batches with ⟨fewer, same⟩ | ⟨batch, nonce, batches, later⟩
      · exact here.fewer fewer same numbered.keyed (calls.keyed here.calls)
      · exact here.addBatch nonce batches later numbered.keyed (calls.keyed here.calls)
  | logicCallStored call checkpoint computed outgoing valsets calls keys params reported =>
      refine here.fewer (fun key batch found => ?_) ?_ numbered.keyed fun key stored found => ?_
      · rw [outgoing] at found
        exact found
      · rw [outgoing]
        rfl
      · rw [calls] at found
        rcases Store.of_get_set found with ⟨rfl, rfl⟩ | earlier
        · rfl
        · exact here.calls key stored earlier
  | registered text validator orchestrator ethAddress parsed unset state silent =>
      refine here.fewer (fun key batch found => ?_) ?_ numbered.keyed ?_
      · rw [state] at found
        exact found
      · rw [state]
      · exact state ▸ here.calls
  | setParams params set valid state silent =>
      refine here.fewer (fun key batch found => ?_) ?_ numbered.keyed ?_
      · rw [state] at found
        exact found
      · rw [state]
      · exact state ▸ here.calls
  | restarted valsetReward attestations delegateKeys restart effect silent =>
      rw [restart] at continues
      exact continues.elim
  | aside chain calls keys params silent =>
      exact here.fewer (fun key batch found => chain ▸ found) (by rw [chain]) numbered.keyed
        (calls.keyed here.calls)

/-- **Every state the module can reach** without a restart. -/
theorem Node.keyed_of_run {params : Params} {balances : β} {eth : Ethereum τ}
    {inputs : List (NodeInput β τ)} {node : Node β τ} {outputs : List NodeOutput}
    (continues : ∀ input ∈ inputs, input.Continues)
    (runs : run (nodeStep sdk bank geth evm others) ⟨KeeperState.fresh params balances, eth, false⟩
      inputs = some (node, outputs)) : node.Keyed := by
  have both := run_invariant NodeInput.Continues
    (fun _ node => Numbered node ∧ Node.Keyed node)
    (fun _ node input next outputs allowed holds step =>
      ⟨holds.1.step step, holds.2.step (holds.1.step step) allowed step⟩)
    continues ⟨numbered_fresh params balances eth, Node.keyed_fresh params balances eth⟩ runs
  exact both.2

end Keys

/-! ### What is assumed of the crates and the keys -/

/-- An address is printed as one that the module reads as this address. -/
structure Orchestrator.SignerCrates.Lawful (crates : SignerCrates) : Prop where
  conversions : crates.toCrates.Lawful
  valid : ∀ address, validateEthAddress (crates.ethAddressString address) = .ok ()
  readsBack : ∀ address, hexToAddress (crates.ethAddressString address) = address

/-- go-ethereum recovers the signer's address from what `sign_ethereum_msg` makes of a message. -/
def Orchestrator.EthSigner.Signs (geth : Geth) (signer : EthSigner) : Prop :=
  ∀ message, 65 ≤ (signer.signEthereumMsg message).length ∧
    geth.sigToPub (geth.keccak256 (signaturePrefix ++ geth.keccak256 message))
      (normalizeRecoveryId (signer.signEthereumMsg message)) = some signer.ourEthAddress

/-- The account is the orchestrator of a validator with the signer's Ethereum address, and the gravity id of
the contract is that of the module. -/
structure Orchestrator.EthSigner.Registered {β τ : Type} (sdk : Sdk) (geth : Geth) (signer : EthSigner)
    (gravityId : Bytes) (isValidator : ValAddress → Bool) (node : Node β τ) (account : AccAddress) :
    Prop where
  parsed : sdk.accAddressFromBech32 signer.ourAddress = some account
  signer : ∃ validator, (node.keeper.registry isValidator).signer account =
    .ok (validator, geth.hex signer.ourEthAddress)
  short : gravityId.length ≤ 32
  params : node.keeper.params.gravityId.length ≤ 32
  same : rightPad 32 gravityId = rightPad 32 node.keeper.params.gravityId

/-- The kind of a record. -/
def EthereumSigned.kind : EthereumSigned → SignedKind
  | .valset _ => .valset
  | .batch _ => .batch
  | .logicCall _ => .logicCall

/-- The record can be read: its fields are valid and its numbers are small, and a batch's fees add up within
256 bits. -/
structure EthereumSigned.Legible (crates : Crates) (record : EthereumSigned) : Prop where
  readable : record.Readable crates
  small : ∀ counter ∈ record.counters, counter < 2 ^ 63
  adds : record.kind = .batch → record.Converts

/-- **What the signer can confirm**: every validator set, a batch whose contract is spelled the way the
signer prints addresses, and a logic call with transfers and fees. -/
def EthereumSigned.Signable (crates : SignerCrates) : EthereumSigned → Bool
  | .valset _ => true
  | .batch value => crates.ethAddressString (hexToAddress value.tokenContract) = value.tokenContract
  | .logicCall value => value.transfers ≠ [] ∧ value.fees ≠ []

theorem EthereumSigned.Legible.converts {crates : SignerCrates} {record : EthereumSigned}
    (legible : record.Legible crates.toCrates) (signable : record.Signable crates = true) :
    record.Converts := by
  cases record with
  | valset value => trivial
  | batch value => exact legible.adds rfl
  | logicCall value =>
      have both : value.transfers ≠ [] ∧ value.fees ≠ [] := of_decide_eq_true signable
      exact both

section Accepted

variable {β τ : Type} {sdk : Sdk} {geth : Geth} {crates : SignerCrates} {signer : EthSigner}
  {gravityId : Bytes} {isValidator : ValAddress → Bool} {node : Node β τ} {account : AccAddress}

/-- **The checkpoint of a legible record** hashes what the contract hashes. -/
theorem EthereumSigned.Legible.checkpoint {crates : Crates} {record : EthereumSigned}
    (legible : record.Legible crates) (packs : geth.PacksAbi) {gravityID : Bytes}
    (fits : gravityID.length ≤ 32) :
    record.getCheckpoint geth gravityID =
      .ok (geth.keccak256 (record.object.encoding (rightPad 32 gravityID))) := by
  have checkpointable : record.Checkpointable := by
    have readable := legible.readable
    cases record with
    | valset value =>
        obtain ⟨_, token, amount, reward, _⟩ := readable
        exact ⟨token, by rw [reward]; rfl⟩
    | batch value => trivial
    | logicCall value => trivial
  have packed : record.packed = record.object :=
    EthereumSigned.arguments_congr fun counter member => packedWord_of_lt (legible.small counter member)
  exact (EthereumSigned.getCheckpoint_eq_ok_iff packs).mpr ⟨fits, checkpointable, by rw [packed]⟩

/-- **The module's checkpoint is the hash of what the signer signs.** -/
theorem checkpoint_of_confirmBytes (packs : geth.PacksAbi) (lawful : crates.toCrates.Lawful)
    {gravityID : Bytes} (short : gravityId.length ≤ 32) (fits : gravityID.length ≤ 32)
    (same : rightPad 32 gravityId = rightPad 32 gravityID) {record : EthereumSigned}
    (legible : record.Legible crates.toCrates) {bytes : Bytes}
    (confirmed : confirmBytes crates.toCrates gravityId record = .ok bytes) :
    record.getCheckpoint geth gravityID = .ok (geth.keccak256 bytes) := by
  obtain ⟨_, rfl⟩ := (confirmBytes_eq_ok_iff lawful short legible.readable).mp confirmed
  rw [legible.checkpoint packs fits, same]

/-- **A signature of the checkpoint is accepted.** -/
theorem confirmHandlerCommon_signed (signs : signer.Signs geth)
    (registered : signer.Registered sdk geth gravityId isValidator node account) (message : Bytes) :
    confirmHandlerCommon sdk geth (node.keeper.registry isValidator) signer.ourAddress
      (bytesToHexStr (signer.signEthereumMsg message)) (geth.keccak256 message) = .ok () := by
  obtain ⟨validator, found⟩ := registered.signer
  obtain ⟨long, recovered⟩ := signs message
  have verified : validateEthereumSignature geth (geth.keccak256 message)
      (signer.signEthereumMsg message) (geth.hex signer.ourEthAddress) = .ok () :=
    validateEthereumSignature_eq_ok_iff.mpr ⟨long, signer.ourEthAddress, recovered, rfl⟩
  unfold confirmHandlerCommon
  rw [decodeString_bytesToHexStr, registered.parsed, Option.getD_some]
  simp only [found, verified]

end Accepted

/-! ### Confirmations by their places -/

/-- The key of an account's confirmation of an object. -/
def EthereumSigned.place (account : AccAddress) : EthereumSigned → StoreKey
  | .valset value => getValsetConfirmKey value.nonce account
  | .batch value => getBatchConfirmKey value.tokenContract value.batchNonce account
  | .logicCall value => getLogicConfirmKey value.invalidationId value.invalidationNonce account

/-- The confirmations with one more, at the place of an object: its account lacks that one no longer. -/
structure Confirms.Adds (confirms : Confirms) (account : AccAddress) (record : EthereumSigned)
    (after : Confirms) : Prop where
  lacks : ∀ object, after.Lacks account object = true ↔
    confirms.Lacks account object = true ∧ object.place account ≠ record.place account

theorem isNone_get_set {α γ : Type} {store : Store StoreKey α} {key other : StoreKey} {value : α}
    {read : α → γ} :
    (((store.set key value).get other).map read).isNone = true ↔
      ((store.get other).map read).isNone = true ∧ other ≠ key := by
  rw [Store.get_set]
  split_ifs with same
  · simp [same]
  · simp [same]

section Adds

variable {confirms : Confirms} {account : AccAddress}

theorem Confirms.adds_valset (value : Valset) (msg : MsgValsetConfirm) :
    confirms.Adds account (.valset value) { confirms with
      valsets := confirms.valsets.set (getValsetConfirmKey value.nonce account) msg } where
  lacks object := by
    cases object with
    | valset other => exact isNone_get_set
    | batch other =>
        refine (and_iff_left fun same => ?_).symm
        exact absurd (List.cons.inj same).1 (by decide)
    | logicCall other =>
        refine (and_iff_left fun same => ?_).symm
        exact absurd (List.cons.inj same).1 (by decide)

theorem Confirms.adds_batch (value : OutgoingTxBatch) (msg : MsgConfirmBatch) :
    confirms.Adds account (.batch value) { confirms with
      batches := confirms.batches.set
        (getBatchConfirmKey value.tokenContract value.batchNonce account) msg } where
  lacks object := by
    cases object with
    | batch other => exact isNone_get_set
    | valset other =>
        refine (and_iff_left fun same => ?_).symm
        exact absurd (List.cons.inj same).1 (by decide)
    | logicCall other =>
        refine (and_iff_left fun same => ?_).symm
        exact absurd (List.cons.inj same).1 (by decide)

theorem Confirms.adds_logicCall (value : OutgoingLogicCall) (msg : MsgConfirmLogicCall) :
    confirms.Adds account (.logicCall value) { confirms with
      logicCalls := confirms.logicCalls.set
        (getLogicConfirmKey value.invalidationId value.invalidationNonce account) msg } where
  lacks object := by
    cases object with
    | logicCall other => exact isNone_get_set
    | valset other =>
        refine (and_iff_left fun same => ?_).symm
        exact absurd (List.cons.inj same).1 (by decide)
    | batch other =>
        refine (and_iff_left fun same => ?_).symm
        exact absurd (List.cons.inj same).1 (by decide)

end Adds

/-! ### A message is accepted -/

/-- The message about a record. -/
def Orchestrator.EthSigner.confirm (crates : SignerCrates) (signer : EthSigner) (gravityId : Bytes) :
    EthereumSigned → Result Confirmation
  | .valset value => do
      let valset ← Valset.ofProto crates.toCrates value
      pure (.valset (signer.valsetConfirm crates gravityId valset))
  | .batch value => do
      let batch ← TransactionBatch.tryFrom crates.toCrates value
      pure (.batch (signer.batchConfirm crates gravityId batch))
  | .logicCall value => do
      let call ← LogicCall.tryFrom crates.toCrates value
      pure (.logicCall (signer.logicCallConfirm crates gravityId call))

/-- The object is stored under its own key. -/
def KeeperState.Stores {β : Type} (keeper : KeeperState β) : EthereumSigned → Prop
  | .valset value => keeper.chain.valsets.valsets.get (getValsetKey value.nonce) = some value
  | .batch value => keeper.chain.app.outgoing.batches.get value.key = some value
  | .logicCall value => keeper.logicCalls.get value.key = some value

section Signed

variable {β τ : Type} {sdk : Sdk} {geth : Geth} {crates : SignerCrates} {signer : EthSigner}
  {gravityId : Bytes} {isValidator : ValAddress → Bool} {node : Node β τ} {account : AccAddress}

theorem validateConfirmer_signer (lawful : crates.Lawful)
    (registered : signer.Registered sdk geth gravityId isValidator node account) :
    validateConfirmer sdk signer.ourAddress (crates.ethAddressString signer.ourEthAddress) =
      .ok () := by
  unfold validateConfirmer
  rw [registered.parsed, lawful.valid]
  rfl

theorem validateHexString_hexStr (bytes : Bytes) : validateHexString (bytesToHexStr bytes) = .ok () := by
  unfold validateHexString
  rw [decodeString_bytesToHexStr]
  rfl

theorem valsetConfirm_valid (lawful : crates.Lawful)
    (registered : signer.Registered sdk geth gravityId isValidator node account)
    (valset : Orchestrator.Valset) :
    (signer.valsetConfirm crates gravityId valset).validateBasic sdk = .ok () :=
  validateConfirmer_signer lawful registered

theorem batchConfirm_valid (lawful : crates.Lawful)
    (registered : signer.Registered sdk geth gravityId isValidator node account)
    (batch : TransactionBatch) :
    (signer.batchConfirm crates gravityId batch).validateBasic sdk = .ok () := by
  unfold MsgConfirmBatch.validateBasic EthSigner.batchConfirm
  refine except_bind_eq_ok.mpr ⟨(), validateConfirmer_signer lawful registered, ?_⟩
  split
  · rename_i reason invalid
    rw [lawful.valid] at invalid
    cases invalid
  · exact validateHexString_hexStr _

theorem logicCallConfirm_valid (lawful : crates.Lawful)
    (registered : signer.Registered sdk geth gravityId isValidator node account)
    (call : LogicCall) :
    (signer.logicCallConfirm crates gravityId call).validateBasic sdk = .ok () := by
  unfold MsgConfirmLogicCall.validateBasic EthSigner.logicCallConfirm
  rw [validateConfirmer_signer lawful registered]
  refine except_bind_eq_ok.mpr ⟨(), rfl, except_bind_eq_ok.mpr ⟨(), validateHexString_hexStr _, ?_⟩⟩
  exact validateHexString_hexStr _

theorem Confirms.has_of_lacks {α γ : Type} {store : Store StoreKey α} {key : StoreKey} {read : α → γ}
    (lacks : ((store.get key).map read).isNone = true) : store.has key = false := by
  rw [Store.has_eq_false_iff]
  simpa using lacks

/-- A good signature of a stored validator set is filed, the first time. -/
theorem valsetConfirm_accepts {gravityID : Bytes} {registry : Registry}
    {valsets : Store StoreKey NabBridge.Valset} {msg : MsgValsetConfirm} {confirms : NabBridge.Confirms}
    {valset : NabBridge.Valset} {checkpoint : Bytes}
    (stored : valsets.get (getValsetKey msg.nonce) = some valset)
    (computed : valset.getCheckpoint geth gravityID = .ok checkpoint)
    (accepted : confirmHandlerCommon sdk geth registry msg.orchestrator msg.signature checkpoint = .ok ())
    (parsed : sdk.accAddressFromBech32 msg.orchestrator = some account)
    (new : confirms.valsets.has (getValsetConfirmKey msg.nonce account) = false) :
    NabBridge.valsetConfirm sdk geth gravityID registry valsets msg confirms = .ok { confirms with
      valsets := confirms.valsets.set (getValsetConfirmKey msg.nonce account) msg } := by
  unfold NabBridge.valsetConfirm
  simp only [stored]
  refine Outcome.bind_eq_ok.mpr ⟨checkpoint, confirmCheckpoint_eq_ok.mpr computed, ?_⟩
  refine Outcome.bind_eq_ok.mpr ⟨(), accepted, ?_⟩
  rw [parsed, Option.getD_some, if_neg (by rw [new]; exact Bool.false_ne_true), persistConfirm_eq_ok]
  simp only [Confirms.setValsetConfirm, parsed]

/-- A good signature of a stored batch is filed, the first time. -/
theorem confirmBatch_accepts {gravityID : Bytes} {registry : Registry} {outgoing : Outgoing}
    {msg : MsgConfirmBatch} {confirms : NabBridge.Confirms} {batch : OutgoingTxBatch}
    {checkpoint tokenContract : Bytes} {nonce : Nat} (contract : msg.tokenContract = tokenContract)
    (number : msg.nonce = nonce) (stored : outgoing.getOutgoingTXBatch tokenContract nonce = some batch)
    (computed : batch.getCheckpoint geth gravityID = .ok checkpoint)
    (accepted : confirmHandlerCommon sdk geth registry msg.orchestrator msg.signature checkpoint = .ok ())
    (parsed : sdk.accAddressFromBech32 msg.orchestrator = some account)
    (new : confirms.batches.has (getBatchConfirmKey tokenContract nonce account) = false) :
    NabBridge.confirmBatch sdk geth gravityID registry outgoing msg confirms = .ok { confirms with
      batches := confirms.batches.set (getBatchConfirmKey tokenContract nonce account) msg } := by
  subst contract number
  unfold NabBridge.confirmBatch
  simp only [stored]
  refine Outcome.bind_eq_ok.mpr ⟨checkpoint, confirmCheckpoint_eq_ok.mpr computed, ?_⟩
  refine Outcome.bind_eq_ok.mpr ⟨(), accepted, ?_⟩
  rw [parsed, Option.getD_some, if_neg (by rw [new]; exact Bool.false_ne_true), persistConfirm_eq_ok]
  simp only [Confirms.setBatchConfirm, parsed]

/-- The contracts of a batch's transfers are not in its checkpoint. -/
theorem getCheckpoint_getOutgoingTXBatch {outgoing : Outgoing} {value batch : OutgoingTxBatch}
    {gravityID : Bytes} (stored : outgoing.batches.get value.key = some value)
    (read : outgoing.getOutgoingTXBatch value.tokenContract value.batchNonce = some batch) :
    batch.getCheckpoint geth gravityID = value.getCheckpoint geth gravityID := by
  obtain ⟨found, there, rfl⟩ := Option.map_eq_some_iff.mp read
  obtain rfl := Option.some.inj (there.symm.trans stored)
  unfold OutgoingTxBatch.getCheckpoint
  simp only [List.map_map]
  rfl

/-- **What the signer says about a stored object is accepted**, the first time. -/
theorem handleConfirm_signed (packs : geth.PacksAbi) (lawful : crates.Lawful)
    (signs : signer.Signs geth)
    (registered : signer.Registered sdk geth gravityId isValidator node account)
    {record : EthereumSigned} (stored : node.keeper.Stores record)
    (legible : record.Legible crates.toCrates) (signable : record.Signable crates = true) :
    ∃ confirmation, signer.confirm crates gravityId record = .ok confirmation ∧
      confirmation.validateBasic sdk = .ok () ∧
      ∀ confirms : NabBridge.Confirms, confirms.Lacks account record = true →
        ∃ after, (node.withConfirms confirms).handleConfirm sdk geth isValidator confirmation =
          .ok after ∧ confirms.Adds account record after := by
  have confirmed := (confirmBytes_eq_ok_iff lawful.conversions registered.short
    legible.readable).mpr ⟨legible.converts signable, rfl⟩
  have checkpoint := checkpoint_of_confirmBytes packs lawful.conversions registered.short
    registered.params registered.same legible confirmed
  cases record with
  | valset value =>
      obtain ⟨rewardToken, _, read⟩ := ofProto_valset_eq lawful.conversions legible.readable
      rw [confirmBytes, read, Outcome.ok_bind, Outcome.pure_eq, Outcome.ok.injEq] at confirmed
      rw [← confirmed] at checkpoint
      rw [EthSigner.confirm, read, Outcome.ok_bind, Outcome.pure_eq]
      refine ⟨_, rfl, valsetConfirm_valid lawful registered _, fun confirms lacks => ?_⟩
      exact ⟨_, valsetConfirm_accepts stored checkpoint (confirmHandlerCommon_signed signs registered _)
        registered.parsed (Confirms.has_of_lacks lacks), Confirms.adds_valset value _⟩
  | batch value =>
      obtain ⟨nonempty, all⟩ := legible.readable
      obtain ⟨first, rest, transactions⟩ := List.exists_cons_of_ne_nil nonempty
      have read := tryFrom_batch_eq lawful.conversions transactions fun tx inside => (all tx inside).1
      have contract := (all first (transactions ▸ List.mem_cons_self)).2
      have spelled : crates.ethAddressString (hexToAddress value.tokenContract) = value.tokenContract :=
        of_decide_eq_true signable
      split_ifs at read with fits
      · rw [confirmBytes, read, Outcome.ok_bind, Outcome.pure_eq, Outcome.ok.injEq] at confirmed
        rw [← confirmed] at checkpoint
        rw [EthSigner.confirm, read, Outcome.ok_bind, Outcome.pure_eq]
        refine ⟨_, rfl, batchConfirm_valid lawful registered _, fun confirms lacks => ?_⟩
        have names : crates.ethAddressString (hexToAddress first.erc20Fee.contract) =
            value.tokenContract := by rw [contract, spelled]
        obtain ⟨batch, there⟩ : ∃ batch, node.keeper.chain.app.outgoing.getOutgoingTXBatch
            value.tokenContract value.batchNonce = some batch := by
          unfold Outgoing.getOutgoingTXBatch
          rw [show node.keeper.chain.app.outgoing.batches.get (getOutgoingTxBatchKey
            value.tokenContract value.batchNonce) = some value from stored]
          exact ⟨_, rfl⟩
        exact ⟨_, confirmBatch_accepts names rfl there
          ((getCheckpoint_getOutgoingTXBatch stored there).trans checkpoint)
          (confirmHandlerCommon_signed signs registered _) registered.parsed
          (Confirms.has_of_lacks lacks), Confirms.adds_batch value _⟩
      · rw [confirmBytes, read] at confirmed
        cases confirmed
  | logicCall value =>
      have converts : value.transfers ≠ [] ∧ value.fees ≠ [] := legible.converts signable
      have read := tryFrom_logicCall_eq lawful.conversions legible.readable
      rw [if_neg fun empty => empty.elim converts.1 converts.2] at read
      rw [confirmBytes, read, Outcome.ok_bind, Outcome.pure_eq, Outcome.ok.injEq] at confirmed
      rw [← confirmed] at checkpoint
      rw [EthSigner.confirm, read, Outcome.ok_bind, Outcome.pure_eq]
      refine ⟨_, rfl, logicCallConfirm_valid lawful registered _, fun confirms lacks => ?_⟩
      have found : node.keeper.logicCalls.getOutgoingLogicCall value.invalidationId
          value.invalidationNonce = value := by
        unfold LogicCalls.getOutgoingLogicCall
        rw [show node.keeper.logicCalls.get (getOutgoingLogicCallKey value.invalidationId
          value.invalidationNonce) = some value from stored, Option.getD_some]
      refine ⟨_, confirmLogicCall_eq_ok_iff.mpr ⟨value.invalidationId, _, account,
        decodeString_bytesToHexStr _, ?_, confirmHandlerCommon_signed signs registered _,
        registered.parsed, Confirms.has_of_lacks lacks, rfl⟩, Confirms.adds_logicCall value _⟩
      rw [show (node.withConfirms confirms).keeper.logicCalls = node.keeper.logicCalls from rfl]
      show (node.keeper.logicCalls.getOutgoingLogicCall value.invalidationId
        value.invalidationNonce).getCheckpoint geth node.keeper.params.gravityId = _
      rw [found]
      exact checkpoint

/-- **Several messages in one transaction.** -/
theorem foldlM_signed (packs : geth.PacksAbi) (lawful : crates.Lawful) (signs : signer.Signs geth)
    (registered : signer.Registered sdk geth gravityId isValidator node account)
    {records : List EthereumSigned} (stored : ∀ record ∈ records, node.keeper.Stores record)
    (legible : ∀ record ∈ records, record.Legible crates.toCrates)
    (signable : ∀ record ∈ records, record.Signable crates = true)
    (apart : records.Pairwise fun first second => second.place account ≠ first.place account) :
    ∃ msgs, records.mapM (signer.confirm crates gravityId) = .ok msgs ∧
      (∀ msg ∈ msgs, msg.validateBasic sdk = .ok ()) ∧
      ∀ confirms : NabBridge.Confirms, (∀ record ∈ records, confirms.Lacks account record = true) →
        ∃ after, msgs.foldlM (fun confirms msg =>
            (node.withConfirms confirms).handleConfirm sdk geth isValidator msg) confirms = .ok after ∧
          ∀ object, after.Lacks account object = true ↔ confirms.Lacks account object = true ∧
            ∀ record ∈ records, object.place account ≠ record.place account := by
  induction records with
  | nil =>
      refine ⟨[], rfl, fun _ member => absurd member List.not_mem_nil, fun confirms _ =>
        ⟨confirms, rfl, fun object => ?_⟩⟩
      exact (and_iff_left fun _ member => absurd member List.not_mem_nil).symm
  | cons record rest ih =>
      obtain ⟨away, restApart⟩ := List.pairwise_cons.mp apart
      obtain ⟨msgs, converts, valid, handled⟩ := ih
        (fun other member => stored other (List.mem_cons_of_mem _ member))
        (fun other member => legible other (List.mem_cons_of_mem _ member))
        (fun other member => signable other (List.mem_cons_of_mem _ member)) restApart
      obtain ⟨msg, converts', valid', handled'⟩ := handleConfirm_signed packs lawful signs registered
        (stored record List.mem_cons_self) (legible record List.mem_cons_self)
        (signable record List.mem_cons_self)
      refine ⟨msg :: msgs, ?_, List.forall_mem_cons.mpr ⟨valid', valid⟩, fun confirms lacks => ?_⟩
      · rw [List.mapM_cons, converts', converts]
        rfl
      · obtain ⟨middle, first, added⟩ := handled' confirms (lacks record List.mem_cons_self)
        obtain ⟨after, others, lacksAfter⟩ := handled middle fun other member =>
          (added.lacks other).mpr ⟨lacks other (List.mem_cons_of_mem _ member), away other member⟩
        refine ⟨after, by rw [List.foldlM_cons, first, Outcome.ok_bind, others], fun object => ?_⟩
        rw [lacksAfter, added.lacks, List.forall_mem_cons, and_assoc]

/-! ### What cannot be confirmed -/

/-- **A batch with another spelling of its contract is not found.** -/
theorem handleConfirm_misspelled (keyed : node.Keyed) {value : OutgoingTxBatch}
    (stored : node.keeper.Stores (.batch value)) {batch : TransactionBatch}
    (number : batch.nonce = value.batchNonce)
    (misspelled : crates.ethAddressString batch.tokenContract ≠ value.tokenContract) :
    node.handleConfirm sdk geth isValidator (.batch (signer.batchConfirm crates gravityId batch)) =
      .error .notFound := by
  have absent : node.keeper.chain.app.outgoing.batches.get (getOutgoingTxBatchKey
      (crates.ethAddressString batch.tokenContract) batch.nonce) = none := by
    cases found : node.keeper.chain.app.outgoing.batches.get (getOutgoingTxBatchKey
        (crates.ethAddressString batch.tokenContract) batch.nonce) with
    | none => rfl
    | some other =>
        -- a batch under that key would have the same nonce, and so be the same batch
        obtain ⟨contract, nonce⟩ := getOutgoingTxBatchKey_inj.mp (keyed.batches _ other found)
        have same : other = value := keyed.nonces _ other _ value found stored
          (nonce.symm.trans number)
        exact absurd (contract.trans (congrArg _ same)) misspelled
  unfold Node.handleConfirm NabBridge.confirmBatch Outgoing.getOutgoingTXBatch EthSigner.batchConfirm
  simp only [absent, Option.map_none]

end Signed

/-! ### The three queues -/

/-- The stored objects in the order in which a query walks them. -/
def KeeperState.objects {β : Type} (keeper : KeeperState β) : SignedKind → List EthereumSigned
  | .valset => keeper.chain.valsets.iterateValsets.map .valset
  | .batch => keeper.chain.app.outgoing.getOutgoingTxBatches.map .batch
  | .logicCall => keeper.logicCalls.getOutgoingLogicCalls.map .logicCall

/-- **The queue of an account**: the stored objects it has not confirmed. -/
def KeeperState.pending {β : Type} (keeper : KeeperState β) (account : AccAddress) (kind : SignedKind) :
    List EthereumSigned :=
  (keeper.objects kind).filter fun object => keeper.confirms.Lacks account object

/-- Values that are stored under keys of their own. -/
theorem mem_values_of_own {α : Type} {store : Store StoreKey α} {own : α → StoreKey}
    (keyed : ∀ key value, store.get key = some value → key = own value) (value : α) :
    value ∈ store.values ↔ store.get (own value) = some value := by
  rw [store.mem_values_iff]
  exact ⟨fun ⟨key, found⟩ => keyed key value found ▸ found, fun found => ⟨_, found⟩⟩

theorem values_nodup_of_own {α : Type} {store : Store StoreKey α} {own : α → StoreKey}
    (keyed : ∀ key value, store.get key = some value → key = own value) : store.values.Nodup := by
  refine (List.nodup_map_iff_inj_on store.entries_nodup).mpr ?_
  rintro ⟨key, value⟩ first ⟨key', _⟩ second (rfl : value = _)
  rw [keyed _ _ ((store.mem_entries_iff _ _).mp first),
    keyed _ _ ((store.mem_entries_iff _ _).mp second)]

section Queues

variable {β τ : Type} {node : Node β τ} {account : AccAddress}

theorem Node.Keyed.mem_objects (keyed : node.Keyed) {kind : SignedKind} {record : EthereumSigned} :
    record ∈ node.keeper.objects kind ↔ record.kind = kind ∧ node.keeper.Stores record := by
  cases kind <;> cases record <;>
    simp only [KeeperState.objects, ValsetStore.iterateValsets, Outgoing.getOutgoingTxBatches,
      LogicCalls.getOutgoingLogicCalls, List.mem_map, List.mem_reverse, reduceCtorEq, and_false,
      exists_false, EthereumSigned.kind, false_and, EthereumSigned.valset.injEq,
      EthereumSigned.batch.injEq, EthereumSigned.logicCall.injEq, exists_eq_right, true_and,
      KeeperState.Stores]
  · exact mem_values_of_own keyed.valsets _
  · exact mem_values_of_own keyed.batches _
  · exact mem_values_of_own keyed.calls _

theorem Node.Keyed.objects_nodup (keyed : node.Keyed) (kind : SignedKind) :
    (node.keeper.objects kind).Nodup := by
  cases kind with
  | valset =>
      refine List.Nodup.map (fun _ _ => EthereumSigned.valset.inj) ?_
      exact List.nodup_reverse.mpr (values_nodup_of_own keyed.valsets)
  | batch =>
      refine List.Nodup.map (fun _ _ => EthereumSigned.batch.inj) ?_
      exact List.nodup_reverse.mpr (values_nodup_of_own keyed.batches)
  | logicCall =>
      refine List.Nodup.map (fun _ _ => EthereumSigned.logicCall.inj) ?_
      exact values_nodup_of_own keyed.calls

/-- A store has one value under a key. -/
theorem eq_of_get {α : Type} {store : Store StoreKey α} {key key' : StoreKey} {value other : α}
    (found : store.get key = some value) (found' : store.get key' = some other) (same : key = key') :
    value = other :=
  Option.some.inj (found.symm.trans (same ▸ found'))

/-- **Objects have places of their own.** A place is the key of the object with the account behind it, up to
the prefix. -/
theorem KeeperState.Stores.eq_of_place {record other : EthereumSigned} (stored : node.keeper.Stores record)
    (stored' : node.keeper.Stores other) (same : record.place account = other.place account) :
    record = other := by
  cases record with
  | valset value =>
      cases other with
      | valset value' =>
          have nonces := List.append_cancel_right (List.cons.inj same).2
          exact congrArg _ (eq_of_get stored stored' (congrArg (List.cons 0x3) nonces))
      | batch value' => exact absurd (List.cons.inj same).1 (by decide)
      | logicCall value' => exact absurd (List.cons.inj same).1 (by decide)
  | batch value =>
      cases other with
      | batch value' =>
          have keys := (List.cons.inj same).2
          rw [← List.append_assoc, ← List.append_assoc] at keys
          exact congrArg _ (eq_of_get stored stored'
            (congrArg (List.cons 0xa) (List.append_cancel_right keys)))
      | valset value' => exact absurd (List.cons.inj same).1 (by decide)
      | logicCall value' => exact absurd (List.cons.inj same).1 (by decide)
  | logicCall value =>
      cases other with
      | logicCall value' =>
          have keys := (List.cons.inj same).2
          rw [← List.append_assoc, ← List.append_assoc] at keys
          exact congrArg _ (eq_of_get stored stored'
            (congrArg (List.cons 0x12) (List.append_cancel_right keys)))
      | valset value' => exact absurd (List.cons.inj same).1 (by decide)
      | batch value' => exact absurd (List.cons.inj same).1 (by decide)

/-- **The queues after some objects were confirmed.** -/
theorem Node.Keyed.pending_after (keyed : node.Keyed) {after : NabBridge.Confirms} (kind : SignedKind)
    (count : Nat)
    (lacks : ∀ object, after.Lacks account object = true ↔
      node.keeper.confirms.Lacks account object = true ∧
        ∀ record ∈ (node.keeper.pending account kind).take count,
          object.place account ≠ record.place account) :
    (node.withConfirms after).keeper.pending account kind =
        (node.keeper.pending account kind).drop count ∧
      ∀ other, other ≠ kind →
        (node.withConfirms after).keeper.pending account other = node.keeper.pending account other := by
  -- what is taken is stored, and of this kind
  have taken : ∀ record ∈ (node.keeper.pending account kind).take count,
      record.kind = kind ∧ node.keeper.Stores record := fun record member =>
    keyed.mem_objects.mp (List.mem_of_mem_filter (List.mem_of_mem_take member))
  have nodup : (node.keeper.pending account kind).Nodup := (keyed.objects_nodup kind).filter _
  constructor
  · have left : (node.keeper.pending account kind).drop count =
        (node.keeper.objects kind).filter fun object =>
          decide (object ∉ (node.keeper.pending account kind).take count) &&
            node.keeper.confirms.Lacks account object := by
      rw [← filter_not_mem_take nodup count, ← List.filter_filter]
      rfl
    rw [left]
    show ((node.keeper.objects kind).filter fun object => after.Lacks account object) = _
    refine List.filter_congr fun object member => ?_
    rw [Bool.eq_iff_iff, Bool.and_eq_true, decide_eq_true_iff, lacks, and_comm]
    refine and_congr_left fun _ => ⟨fun apart inside => apart object inside rfl, ?_⟩
    intro outside record inside same
    obtain rfl := (keyed.mem_objects.mp member).2.eq_of_place (taken record inside).2 same
    exact outside inside
  · intro other different
    show ((node.keeper.objects other).filter fun object => after.Lacks account object) = _
    refine List.filter_congr fun object member => ?_
    rw [Bool.eq_iff_iff, lacks]
    refine and_iff_left fun record inside same => different ?_
    obtain rfl := (keyed.mem_objects.mp member).2.eq_of_place (taken record inside).2 same
    exact (keyed.mem_objects.mp member).1.symm.trans (taken object inside).1

end Queues

/-! ### A turn of the signer -/

theorem converted_map {α γ : Type} (result : Result α) (f : α → γ) :
    (converted result >>= fun value => pure (f value)) = converted (result >>= fun value => pure (f value)) := by
  cases result <;> rfl

/-- Converting everything and then writing the messages is the same as doing both one by one. -/
theorem mapM_then_map {α γ δ : Type} (f : α → Result γ) (g : γ → δ) (items : List α) :
    (items.mapM f >>= fun values => pure (values.map g)) =
      items.mapM fun item => f item >>= fun value => pure (g value) := by
  induction items with
  | nil => rfl
  | cons item rest ih =>
      rw [List.mapM_cons, List.mapM_cons, ← ih]
      simp only [bind_assoc, pure_bind, List.map_cons]

section Turns

variable {β τ : Type} {sdk : Sdk} {geth : Geth} {crates : SignerCrates} {signer : EthSigner}
  {gravityId : Bytes} {isValidator : ValAddress → Bool} {node : Node β τ} {account : AccAddress}
  {keeper : KeeperState β}

theorem requestAddress_eq (parsed : sdk.accAddressFromBech32 signer.ourAddress = some account) :
    requestAddress sdk signer.ourAddress = .ok account := by
  unfold requestAddress
  rw [parsed]

/-- The head of a queue, as the queries for one object give it. -/
theorem find?_eq_take_one {α : Type} (p : α → Bool) (items : List α) :
    (items.find? p).toList = (items.filter p).take 1 := by
  rw [← List.head?_filter]
  cases items.filter p <;> rfl

/-- **The validator sets of a turn.** -/
theorem sendValsetConfirms_eq (parsed : sdk.accAddressFromBech32 signer.ourAddress = some account) :
    signer.sendValsetConfirms sdk crates gravityId keeper =
      converted (((keeper.pending account .valset).take maxPendingValsets).mapM
        (signer.confirm crates gravityId)) := by
  have queue : (keeper.pending account .valset).take maxPendingValsets =
      ((keeper.pendingValsets account).take maxPendingValsets).map .valset := by
    unfold KeeperState.pending KeeperState.objects KeeperState.pendingValsets
    rw [List.filter_map, List.map_take]
    rfl
  unfold EthSigner.sendValsetConfirms getOldestUnsignedValsets KeeperState.lastPendingValsetRequestByAddr
  rw [requestAddress_eq parsed, queue, List.mapM_map]
  exact (converted_map _ _).trans (congrArg converted (mapM_then_map _ _ _))

/-- **The batch of a turn.** -/
theorem sendBatchConfirm_eq (parsed : sdk.accAddressFromBech32 signer.ourAddress = some account) :
    signer.sendBatchConfirm sdk crates gravityId keeper =
      converted (((keeper.pending account .batch).take 1).mapM (signer.confirm crates gravityId)) := by
  have queue : (keeper.pending account .batch).take 1 =
      (keeper.chain.app.outgoing.getOutgoingTxBatches.find? fun batch =>
        keeper.confirms.Lacks account (.batch batch)).toList.map .batch := by
    rw [find?_eq_take_one, List.map_take]
    unfold KeeperState.pending KeeperState.objects
    rw [List.filter_map]
    rfl
  have answer : keeper.lastPendingBatchRequestByAddr sdk signer.ourAddress =
      .ok (keeper.chain.app.outgoing.getOutgoingTxBatches.find? fun batch =>
        keeper.confirms.Lacks account (.batch batch)) := by
    unfold KeeperState.lastPendingBatchRequestByAddr
    rw [requestAddress_eq parsed]
    rfl
  unfold EthSigner.sendBatchConfirm getOldestUnsignedTransactionBatch
  rw [answer, queue, List.mapM_map]
  cases keeper.chain.app.outgoing.getOutgoingTxBatches.find? fun batch =>
      keeper.confirms.Lacks account (.batch batch) with
  | none => rfl
  | some batch =>
      show (converted (TransactionBatch.tryFrom crates.toCrates batch) >>= _) >>= _ =
        converted ((TransactionBatch.tryFrom crates.toCrates batch >>= _) >>= _)
      cases TransactionBatch.tryFrom crates.toCrates batch <;> rfl

/-- **The logic call of a turn.** -/
theorem sendLogicCallConfirm_eq (parsed : sdk.accAddressFromBech32 signer.ourAddress = some account) :
    signer.sendLogicCallConfirm sdk crates gravityId keeper =
      converted (((keeper.pending account .logicCall).take 1).mapM
        (signer.confirm crates gravityId)) := by
  have queue : (keeper.pending account .logicCall).take 1 =
      (keeper.logicCalls.getOutgoingLogicCalls.find? fun logic =>
        keeper.confirms.Lacks account (.logicCall logic)).toList.map .logicCall := by
    rw [find?_eq_take_one, List.map_take]
    unfold KeeperState.pending KeeperState.objects
    rw [List.filter_map]
    rfl
  have answer : keeper.lastPendingLogicCallByAddr sdk signer.ourAddress =
      .ok (keeper.logicCalls.getOutgoingLogicCalls.find? fun logic =>
        keeper.confirms.Lacks account (.logicCall logic)) := by
    unfold KeeperState.lastPendingLogicCallByAddr
    rw [requestAddress_eq parsed]
    rfl
  unfold EthSigner.sendLogicCallConfirm getOldestUnsignedLogicCall
  rw [answer, queue, List.mapM_map]
  cases keeper.logicCalls.getOutgoingLogicCalls.find? fun logic =>
      keeper.confirms.Lacks account (.logicCall logic) with
  | none => rfl
  | some call =>
      show (converted (LogicCall.tryFrom crates.toCrates call) >>= _) >>= _ =
        converted ((LogicCall.tryFrom crates.toCrates call >>= _) >>= _)
      cases LogicCall.tryFrom crates.toCrates call <;> rfl

/-- **A turn whose objects can all be confirmed.** -/
theorem afterTurn_signed (packs : geth.PacksAbi) (lawful : crates.Lawful) (signs : signer.Signs geth)
    (registered : signer.Registered sdk geth gravityId isValidator node account) (keyed : node.Keyed)
    (legible : ∀ record, node.keeper.Stores record → record.Legible crates.toCrates)
    (kind : SignedKind) (count : Nat)
    (signable : ∀ record ∈ (node.keeper.pending account kind).take count,
      record.Signable crates = true) :
    ∃ confirms, node.afterTurn sdk geth isValidator
        (converted (((node.keeper.pending account kind).take count).mapM
          (signer.confirm crates gravityId))) = .ok (node.withConfirms confirms) ∧
      (node.withConfirms confirms).keeper.pending account kind =
        (node.keeper.pending account kind).drop count ∧
      ∀ other, other ≠ kind → (node.withConfirms confirms).keeper.pending account other =
        node.keeper.pending account other := by
  have taken : ∀ record ∈ (node.keeper.pending account kind).take count,
      node.keeper.Stores record ∧ node.keeper.confirms.Lacks account record = true := by
    intro record member
    obtain ⟨inside, lacks⟩ := List.mem_filter.mp (List.mem_of_mem_take member)
    exact ⟨(keyed.mem_objects.mp inside).2, lacks⟩
  have nodup : ((node.keeper.pending account kind).take count).Nodup :=
    ((keyed.objects_nodup kind).filter _).sublist (List.take_sublist _ _)
  have apart : ((node.keeper.pending account kind).take count).Pairwise fun first second =>
      second.place account ≠ first.place account := by
    refine nodup.imp_of_mem fun {first second} isFirst isSecond different same => ?_
    exact different ((taken second isSecond).1.eq_of_place (taken first isFirst).1 same).symm
  obtain ⟨msgs, converts, valid, handled⟩ := foldlM_signed packs lawful signs registered
    (fun record member => (taken record member).1)
    (fun record member => legible record (taken record member).1) signable apart
  obtain ⟨after, folded, lacks⟩ := handled node.keeper.confirms fun record member =>
    (taken record member).2
  refine ⟨after, ?_, keyed.pending_after kind count lacks⟩
  rw [converts]
  show Outcome.ok (node.deliverTx sdk geth isValidator msgs) = _
  unfold Node.deliverTx
  rw [if_pos valid, folded]
  rfl

/-- A message that is refused leaves everything as it was. -/
theorem Node.deliverTx_refused {msg : Confirmation} {reason : ConfirmError}
    (refused : node.handleConfirm sdk geth isValidator msg = .error reason) :
    node.deliverTx sdk geth isValidator [msg] = node := by
  unfold Node.deliverTx
  split_ifs
  · rw [List.foldlM_cons,
      show (node.withConfirms node.keeper.confirms).handleConfirm sdk geth isValidator msg = .error reason
        from refused]
    rfl
  · rfl

/-- **A turn whose object cannot be confirmed** changes nothing. -/
theorem afterTurn_stuck (lawful : crates.Lawful) (keyed : node.Keyed)
    {record : EthereumSigned} (stored : node.keeper.Stores record)
    (legible : record.Legible crates.toCrates) (unsignable : record.Signable crates = false) :
    node.afterTurn sdk geth isValidator (converted ([record].mapM (signer.confirm crates gravityId))) =
      .ok node := by
  cases record with
  | valset value => cases unsignable
  | batch value =>
      obtain ⟨nonempty, all⟩ := legible.readable
      obtain ⟨first, rest, transactions⟩ := List.exists_cons_of_ne_nil nonempty
      have read := tryFrom_batch_eq lawful.conversions transactions fun tx inside => (all tx inside).1
      have contract := (all first (transactions ▸ List.mem_cons_self)).2
      have misspelled : ¬ crates.ethAddressString (hexToAddress value.tokenContract) =
          value.tokenContract := of_decide_eq_false unsignable
      rw [← contract] at misspelled
      have converts : (Orchestrator.feeSum value.transactions : Int) < 2 ^ 256 := by
        rw [feeSum_eq fun tx inside => (all tx inside).1.2.2.2]
        exact legible.adds rfl
      rw [if_pos (by exact_mod_cast converts)] at read
      have single : [EthereumSigned.batch value].mapM (signer.confirm crates gravityId) = .ok
          [.batch (signer.batchConfirm crates gravityId ⟨value.batchNonce, value.batchTimeout,
            value.transactions.map (readTransaction crates.toCrates),
            ⟨Orchestrator.feeSum value.transactions, hexToAddress first.erc20Fee.contract⟩,
            hexToAddress first.erc20Fee.contract⟩)] := by
        rw [List.mapM_cons, EthSigner.confirm, read]
        rfl
      rw [single]
      exact congrArg _ (Node.deliverTx_refused (handleConfirm_misspelled keyed stored rfl misspelled))
  | logicCall value =>
      have empty : value.transfers = [] ∨ value.fees = [] := by
        have both : ¬ (value.transfers ≠ [] ∧ value.fees ≠ []) := of_decide_eq_false unsignable
        tauto
      have read := tryFrom_logicCall_eq lawful.conversions legible.readable
      rw [if_pos empty] at read
      rw [List.mapM_cons, EthSigner.confirm, read]
      rfl

/-- **A turn for one object** serves its queue. -/
theorem afterTurn_serves (packs : geth.PacksAbi) (lawful : crates.Lawful) (signs : signer.Signs geth)
    (registered : signer.Registered sdk geth gravityId isValidator node account) (keyed : node.Keyed)
    (legible : ∀ record, node.keeper.Stores record → record.Legible crates.toCrates)
    (kind : SignedKind) :
    ∃ confirms, node.afterTurn sdk geth isValidator
        (converted (((node.keeper.pending account kind).take 1).mapM
          (signer.confirm crates gravityId))) = .ok (node.withConfirms confirms) ∧
      (node.withConfirms confirms).keeper.pending account kind =
        serve (EthereumSigned.Signable crates) (node.keeper.pending account kind) ∧
      ∀ other, other ≠ kind → (node.withConfirms confirms).keeper.pending account other =
        node.keeper.pending account other := by
  have signed := afterTurn_signed packs lawful signs registered keyed legible kind 1
  cases queue : node.keeper.pending account kind with
  | nil =>
      rw [queue] at signed
      exact signed fun record member => absurd member List.not_mem_nil
  | cons record rest =>
      cases able : record.Signable crates with
      | true =>
          rw [queue] at signed
          obtain ⟨confirms, done, served, kept⟩ := signed (by simpa using able)
          exact ⟨confirms, done, by rw [served, serve, if_pos able]; rfl, kept⟩
      | false =>
          have inside : record ∈ node.keeper.pending account kind := queue ▸ List.mem_cons_self
          have stored := (keyed.mem_objects.mp (List.mem_of_mem_filter inside)).2
          refine ⟨node.keeper.confirms,
            afterTurn_stuck lawful keyed stored (legible record stored) able, ?_, fun _ _ => rfl⟩
          rw [serve, able]
          exact queue

/-! ### Rounds -/

theorem Node.Keyed.withConfirms (keyed : node.Keyed) (confirms : NabBridge.Confirms) :
    (node.withConfirms confirms).Keyed :=
  ⟨keyed.valsets, keyed.batches, keyed.calls, keyed.issued, keyed.nonces⟩

theorem Orchestrator.EthSigner.Registered.withConfirms
    (registered : signer.Registered sdk geth gravityId isValidator node account)
    (confirms : NabBridge.Confirms) :
    signer.Registered sdk geth gravityId isValidator (node.withConfirms confirms) account :=
  ⟨registered.parsed, registered.signer, registered.short, registered.params, registered.same⟩

/-- **One round** takes a chunk of the validator sets and serves the two other queues. -/
theorem signerRound_queues (packs : geth.PacksAbi) (lawful : crates.Lawful) (signs : signer.Signs geth)
    (registered : signer.Registered sdk geth gravityId isValidator node account) (keyed : node.Keyed)
    (legible : ∀ record, node.keeper.Stores record → record.Legible crates.toCrates) :
    ∃ confirms, node.signerRound sdk geth isValidator crates signer gravityId =
        .ok (node.withConfirms confirms) ∧
      (node.withConfirms confirms).keeper.pending account .valset =
        (node.keeper.pending account .valset).drop maxPendingValsets ∧
      ∀ kind, kind ≠ .valset → (node.withConfirms confirms).keeper.pending account kind =
        serve (EthereumSigned.Signable crates) (node.keeper.pending account kind) := by
  obtain ⟨first, valsets, taken, others⟩ := afterTurn_signed packs lawful signs registered keyed legible
    .valset maxPendingValsets (by
      intro record member
      have inside := keyed.mem_objects.mp (List.mem_of_mem_filter (List.mem_of_mem_take member))
      cases record with
      | valset value => rfl
      | batch value => cases inside.1
      | logicCall value => cases inside.1)
  obtain ⟨second, batch, served, others'⟩ := afterTurn_serves packs lawful signs
    (registered.withConfirms first) (keyed.withConfirms first) legible .batch
  obtain ⟨third, call, served', others''⟩ := afterTurn_serves packs lawful signs
    (registered.withConfirms second) (keyed.withConfirms second) legible .logicCall
  refine ⟨third, ?_, ?_, fun kind other => ?_⟩
  · unfold Node.signerRound
    rw [sendValsetConfirms_eq registered.parsed, valsets, Outcome.ok_bind,
      sendBatchConfirm_eq registered.parsed, batch, Outcome.ok_bind,
      sendLogicCallConfirm_eq registered.parsed]
    exact call
  · exact (others'' .valset (by decide)).trans ((others' .valset (by decide)).trans taken)
  · cases kind with
    | valset => exact absurd rfl other
    | batch =>
        refine (others'' .batch (by decide)).trans (served.trans ?_)
        rw [others .batch (by decide)]
    | logicCall =>
        refine served'.trans (congrArg _ ?_)
        exact (others' .logicCall (by decide)).trans (others .logicCall (by decide))

/-- **Any number of rounds.** -/
theorem signerRounds_queues (packs : geth.PacksAbi) (lawful : crates.Lawful) (signs : signer.Signs geth)
    (registered : signer.Registered sdk geth gravityId isValidator node account) (keyed : node.Keyed)
    (legible : ∀ record, node.keeper.Stores record → record.Legible crates.toCrates) (rounds : Nat) :
    ∃ confirms, node.signerRounds sdk geth isValidator crates signer gravityId rounds =
        .ok (node.withConfirms confirms) ∧
      (node.withConfirms confirms).keeper.pending account .valset =
        (List.drop maxPendingValsets)^[rounds] (node.keeper.pending account .valset) ∧
      ∀ kind, kind ≠ .valset → (node.withConfirms confirms).keeper.pending account kind =
        (serve (EthereumSigned.Signable crates))^[rounds] (node.keeper.pending account kind) := by
  induction rounds generalizing node with
  | zero => exact ⟨node.keeper.confirms, rfl, rfl, fun _ _ => rfl⟩
  | succ rounds ih =>
      obtain ⟨first, round, taken, served⟩ := signerRound_queues packs lawful signs registered keyed legible
      obtain ⟨last, later, taken', served'⟩ := ih (registered.withConfirms first)
        (keyed.withConfirms first) legible
      refine ⟨last, ?_, ?_, fun kind other => ?_⟩
      · rw [Node.signerRounds, round, Outcome.ok_bind]
        exact later
      · rw [Function.iterate_succ_apply, ← taken]
        exact taken'
      · rw [Function.iterate_succ_apply, ← served kind other]
        exact served' kind other

variable {bank : BankKeeper β} {evm : Evm} {others : Contracts τ}

end Turns

/-! ### One round -/

instance (crates : Crates) (tx : OutgoingTransferTx) : Decidable (tx.Readable crates) := by
  unfold OutgoingTransferTx.Readable; infer_instance

instance (crates : Crates) (record : EthereumSigned) : Decidable (record.Readable crates) :=
  match record with
  | .valset value => decidable_of_iff
      ((∀ member ∈ value.members, validateEthAddress member.ethereumAddress = .ok ()) ∧
        validateEthAddress value.rewardToken = .ok () ∧
        ∃ amount ∈ value.rewardAmount, 0 ≤ amount ∧ amount < 2 ^ 255) Iff.rfl
  | .batch value => by unfold EthereumSigned.Readable; infer_instance
  | .logicCall value => by unfold EthereumSigned.Readable; infer_instance

instance (crates : Crates) (record : EthereumSigned) : Decidable (record.Legible crates) :=
  decidable_of_iff (record.Readable crates ∧ (∀ counter ∈ record.counters, counter < 2 ^ 63) ∧
      (record.kind = .batch → record.Converts))
    ⟨fun all => ⟨all.1, all.2.1, all.2.2⟩, fun legible => ⟨legible.readable, legible.small, legible.adds⟩⟩

/-- The crates, printing addresses in lower case. -/
def exampleSignerCrates : SignerCrates := { exampleCrates with ethAddressString := hexOfAddress }

theorem exampleSignerCrates_lawful : exampleSignerCrates.Lawful :=
  ⟨exampleCrates_lawful, validateEthAddress_hexOfAddress, hexToAddress_hexOfAddress⟩

/-- The signer of the address one. -/
def exampleSigner : EthSigner where
  ourAddress := ascii "cosmos1qyqszqgpqyqszqgpqyqszqgpqyqszqgpjnp7du"
  ourEthAddress := 1
  signEthereumMsg _ := List.replicate 63 0 ++ [1, 27]

theorem exampleSigner_signs : exampleSigner.Signs exampleGeth := by
  have long : 65 ≤ (List.replicate 63 (0 : UInt8) ++ [1, 27]).length := by decide
  -- the digest is not looked at
  have recovered : exampleGeth.sigToPub [] (normalizeRecoveryId (List.replicate 63 0 ++ [1, 27])) =
      some 1 := by decide +kernel
  exact fun _ => ⟨long, recovered⟩

/-- A validator set, a batch and a logic call with tokens are stored. -/
def exampleSignedInputs : List (NodeInput Ledger Unit) :=
  [exampleRegister, exampleBlock 5, .bridge (fun _ => true) (exampleTransfer 10 1),
    .bridge (fun _ => true) (.requestBatch (gravityDenom exampleContract) 1 6),
    .setOutgoingLogicCall { exampleLogicCall with
      transfers := [⟨10, exampleContract⟩]
      fees := [⟨1, exampleContract⟩] }]

theorem exampleSignedInputs_run :
    ((run exampleNodeStep exampleNode exampleSignedInputs).any fun result =>
      [SignedKind.valset, .batch, .logicCall].all fun kind =>
        (result.1.keeper.pending (List.replicate 20 1) kind).length = 1 ∧
        ∀ record ∈ result.1.keeper.objects kind, record.Legible exampleCrates ∧
          record.Signable exampleSignerCrates) = true := by
  decide +kernel

/-- The account of the example's orchestrator. -/
def exampleSignerAccount : AccAddress := List.replicate 20 1

theorem exampleSignedInputs_registered :
    ((run exampleNodeStep exampleNode exampleSignedInputs).any fun result =>
      exampleSdk.accAddressFromBech32 exampleSigner.ourAddress = some exampleSignerAccount ∧
      ((result.1.keeper.registry fun _ => true).signer exampleSignerAccount).toOption.any fun signs =>
        signs.2 = exampleGeth.hex exampleSigner.ourEthAddress ∧
        result.1.keeper.params.gravityId = exampleParams.gravityId) = true := by
  decide +kernel

end NabBridge
