/-
**No double spend across the two chains.**

Whatever the order of the steps of the module and of the contract, with honest reports a transfer is
paid at most once, a refunded transfer is never paid, a cancelled batch is neither paid before nor
after, and the module never meets an executed batch it does not know (`no_double_spend`).

A batch the contract accepted is stored or settled in the protocol behind the chains, so its records are
among those that were sent, each once, and apart from the refunded ones.
-/

import NabBridge.Proof.BridgeRun
import NabBridge.Proof.ForgedQuorum
import Mathlib.Data.List.Flatten

namespace NabBridge

/-- The records of the batches the contract paid: all records of every stored batch that the paid
arguments are of. -/
def paidTxs (trace : List BridgeOutput) : List OutgoingTransferTx :=
  (paidArgs trace).flatMap fun args =>
    ((storedBatches trace).filter fun batch => batch.args = args).flatMap OutgoingTxBatch.transactions

section Results

variable {β τ : Type} {sdk : Sdk} {bank : BankKeeper β} {geth : Geth} {params : Params} {evm : Evm}
  {others : Contracts τ} {spelling : Spelling} {deployment : List (GravityEvent × Nat)}
  {trace : List BridgeOutput} {state : Bridge β τ}

/-- A stored batch is known by its nonce. -/
theorem BridgeInvariant.batch_unique (invariant : BridgeInvariant sdk spelling deployment trace state)
    {first second : OutgoingTxBatch} (inFirst : first ∈ storedBatches trace)
    (inSecond : second ∈ storedBatches trace) (same : first.batchNonce = second.batchNonce) :
    first = second := by
  have nonces := invariant.pool.nonces
  rw [builtNonces_poolHistory] at nonces
  exact List.inj_on_of_nodup_map nonces inFirst inSecond same

/-- What was paid is what the batches accepted by the contract hold. -/
theorem BridgeInvariant.paidTxs_eq (invariant : BridgeInvariant sdk spelling deployment trace state)
    {protocol : Settlement OutgoingTxBatch EthAddress}
    (follows : Follows spelling (storedBatches trace) (settledBatches trace) (paidArgs trace) state.eth
      state.chain.oracle state.chain.app.outgoing protocol) :
    paidTxs trace = protocol.accepted.flatMap OutgoingTxBatch.transactions := by
  have nodup : (storedBatches trace).Nodup := by
    have nonces := invariant.pool.nonces
    rw [builtNonces_poolHistory] at nonces
    exact nonces.of_map _
  rw [paidTxs, ← follows.paid, List.flatMap_map]
  refine List.flatMap_congr fun batch member => ?_
  have stored := (follows.stored batch).mp (follows.safe.accepted_stored batch member)
  have single : (storedBatches trace).filter (fun other => other.args = batch.args) = [batch] := by
    have only : (storedBatches trace).filter (fun other => other.args = batch.args) =
        (storedBatches trace).filter (fun other => other = batch) := by
      refine List.filter_congr fun other known => ?_
      refine decide_eq_decide.mpr ⟨fun same => ?_, fun same => same ▸ rfl⟩
      exact invariant.batch_unique known stored (congrArg BatchArgs.batchNonce same)
    rw [only, List.filter_eq, List.count_eq_one_of_mem nodup stored]
    rfl
  rw [single, List.flatMap_singleton]

/-- The paid and the refunded records are among the records that were sent, each once. -/
theorem BridgeInvariant.paid_refunded_nodup
    (invariant : BridgeInvariant sdk spelling deployment trace state) :
    ((paidTxs trace ++ refundedTxs (poolHistory trace)).map OutgoingTransferTx.id).Nodup := by
  obtain ⟨protocol, follows, _⟩ := invariant.protocol
  rw [invariant.paidTxs_eq follows]
  have all : ((state.chain.app.outgoing.records ++ (refundedTxs (poolHistory trace) ++
      executedTxs (poolHistory trace))).map OutgoingTransferTx.id).Nodup :=
    (invariant.pool.records.map OutgoingTransferTx.id).nodup_iff.mpr invariant.pool.ids
  -- an accepted batch is stored or settled
  have inside : protocol.accepted ⊆ state.chain.app.outgoing.batches.values ++
      settledBatches trace := by
    intro batch member
    rcases follows.safe.settled_or_opened member with settled | opened
    · exact List.mem_append_right _ ((follows.settled batch).mp settled)
    · have stored := (follows.opened batch).mp opened
      exact List.mem_append_left _ ((Store.mem_values_iff _ _).mpr ⟨_, stored⟩)
  obtain ⟨batches, perm, sublist⟩ := List.subperm_of_subset follows.safe.once inside
  have spread : (protocol.accepted.flatMap OutgoingTxBatch.transactions ++
      refundedTxs (poolHistory trace)).Perm
      (batches.flatMap OutgoingTxBatch.transactions ++ refundedTxs (poolHistory trace)) :=
    (perm.symm.flatMap_right _).append_right _
  refine ((spread.map OutgoingTransferTx.id).nodup_iff).mpr ?_
  have shuffle : (state.chain.app.outgoing.records ++ (refundedTxs (poolHistory trace) ++
      executedTxs (poolHistory trace))).Perm (state.chain.app.outgoing.pool.values ++
      ((state.chain.app.outgoing.batches.values ++ settledBatches trace).flatMap
        OutgoingTxBatch.transactions ++ refundedTxs (poolHistory trace))) := by
    rw [Outgoing.records, Outgoing.batched, executedTxs_poolHistory, List.flatMap_append,
      List.append_assoc, List.append_assoc]
    exact (List.perm_append_comm.append_left _).append_left _
  have both := ((shuffle.map OutgoingTransferTx.id).nodup_iff).mp all
  rw [List.map_append] at both
  refine (List.nodup_append.mp both).2.1.sublist (List.Sublist.map _ ?_)
  exact (sublist.flatMap _).append_right _

/-- **No double spend.** In every run of the two chains from their deployment, with honest reports: no
transfer is paid twice, none is paid and refunded, no cancelled batch is ever paid, and no observed
batch is unknown to the module. -/
theorem no_double_spend {gravityId : Bytes} {powerThreshold : Nat} {validators : List EthAddress}
    {powers : List Nat} {wNomAddress : EthAddress} {contracts : τ} {blockNumber : Nat} {balances : β}
    {eth : Ethereum τ} {inputs : List (BridgeInput β τ)}
    (deployed : deployGravity evm gravityId powerThreshold validators powers wNomAddress contracts
      blockNumber = .ok eth)
    (runs : run (bridgeStep sdk bank geth params evm others) ⟨Chain.fresh balances, eth, false⟩ inputs =
      some (state, trace))
    (honest : Justified (BridgeOutput.Honest spelling eth.logs) [] trace) :
    ((paidTxs trace).map OutgoingTransferTx.id).Nodup ∧
    (∀ tx ∈ paidTxs trace, ∀ refunded, .refunded refunded ∈ trace → tx.id ≠ refunded.id) ∧
    (∀ batch, .cancelled batch ∈ trace → batch.args ∉ paidArgs trace) ∧
    (∀ claims tokenContract nonce, .halted (.tally (.handler claims
      (.pool (.unknownBatchNonce tokenContract nonce)))) ∉ trace) := by
  have invariant := bridgeInvariant_run deployed runs honest
  have distinct := invariant.paid_refunded_nodup
  rw [List.map_append] at distinct
  obtain ⟨paidOnce, _, apart⟩ := List.nodup_append.mp distinct
  refine ⟨paidOnce, fun tx paid refunded member => ?_, fun batch cancelled paid => ?_,
    invariant.known⟩
  · refine apart _ (List.mem_map_of_mem paid) _ (List.mem_map_of_mem ?_)
    have inPool : .refunded refunded ∈ poolHistory trace :=
      List.mem_flatMap.mpr ⟨_, member, List.mem_singleton_self _⟩
    exact List.mem_flatMap.mpr ⟨_, inPool, List.mem_singleton_self _⟩
  · obtain ⟨protocol, follows, gone⟩ := invariant.protocol
    have abandoned := gone batch cancelled
    rw [← follows.paid] at paid
    obtain ⟨other, accepted, same⟩ := List.mem_map.mp paid
    have stored := (follows.stored batch).mp abandoned.1
    have storedOther := (follows.stored other).mp (follows.safe.accepted_stored other accepted)
    obtain rfl := invariant.batch_unique storedOther stored (congrArg BatchArgs.batchNonce same)
    exact follows.safe.not_accepted_of_abandoned abandoned accepted

end Results

/-! ### A run -/

/-- Addresses in lower case; a deposit goes to the account of its last twenty bytes. -/
def exampleSpelling : Spelling where
  address := hexOfAddress
  account destination := exampleSdk.accAddressString (destination.drop 12)
  valid := validateEthAddress_hexOfAddress
  reads := hexToAddress_hexOfAddress

/-- Contracts that let every call through and call nothing back. -/
def exampleContracts : Contracts Unit where
  safeTransfer _ _ _ eth := .returns [] eth.contracts
  safeTransferFrom _ _ _ eth := .returns [] eth.contracts
  burn _ eth := .returns [] eth.contracts
  functionCall _ _ eth := .returns [] eth.contracts
  newCosmosERC20 _ state := (7, state)

/-- The validator of `exampleEvm` holds all power. -/
def exampleCurrentValset : ValsetArgs :=
  ⟨[hexToAddress (ascii "0xd041c41EA1bf0F006ADBb6d2c9ef9D425dE5eaD7")], [maxUint32], 0, 0, 0⟩

/-- The contract of `exampleCurrentValset`, deployed in block 100. -/
def exampleDeployment : Except GravityRevert (Ethereum Unit) :=
  deployGravity exampleEvm (rightPad 32 (ascii "onomy-gravity")) 2863311530 exampleCurrentValset.validators
    exampleCurrentValset.powers 0 () 100

/-- A block in which one validator has all power; there is no reward. -/
def exampleEnv (blockHeight : Nat) : EndBlockEnv where
  staking := ⟨1000, fun _ => 1000⟩
  blockHeight := blockHeight
  keys := DelegateKeys.empty
  bondedValidatorsByPower := []
  valsetReward := ⟨[], 0⟩
  signedValsetsWindow := 10
  unbonding := false
  powerDiffers := false

/-- The claim of the one validator's orchestrator. -/
def exampleClaim (blockHeight : Nat) (claim : EthereumClaim) : BridgeInput Ledger Unit :=
  .claim (fun _ => some (List.replicate 20 1)) blockHeight claim

/-- A transfer of the account of `exampleLedger`. -/
def exampleTransfer (amount fee : Int) : BridgeInput Ledger Unit :=
  .sendToEth (List.replicate 20 1) (ascii "0x2222222222222222222222222222222222222222")
    ⟨gravityDenom exampleContract, amount⟩ ⟨gravityDenom exampleContract, fee⟩

/-- The deployment is observed; of three transfers two are batched, one in each batch; the second
batch is executed and observed, which cancels the first one, whose transfer is then refunded. -/
def exampleBridgeInputs : List (BridgeInput Ledger Unit) :=
  [exampleClaim 5 (.valsetUpdated ⟨1, 0, 100,
      [⟨maxUint32, ascii "0xd041c41ea1bf0f006adbb6d2c9ef9d425de5ead7"⟩], some 0, zeroAddress,
      ascii "cosmos1qyqszqgpqyqszqgpqyqszqgpqyqszqgpjnp7du"⟩),
    .endBlock (exampleEnv 5), exampleTransfer 10 1, exampleTransfer 20 2, exampleTransfer 5 3,
    .requestBatch (gravityDenom exampleContract) 1 6, .requestBatch (gravityDenom exampleContract) 1 6,
    .ethereum id 7,
    .call 9 (.submitBatch exampleCurrentValset ⟨[27], [List.replicate 32 0], [List.replicate 32 0]⟩
      ⟨[20], [hexToAddress (ascii "0x2222222222222222222222222222222222222222")], [2], 2,
        hexToAddress exampleContract, 2980⟩),
    exampleClaim 7 (.batchSendToEth ⟨2, 107, 2, exampleContract,
      ascii "cosmos1qyqszqgpqyqszqgpqyqszqgpqyqszqgpjnp7du"⟩),
    .endBlock (exampleEnv 7), .cancelSendToEth 3 (List.replicate 20 1)]

/-- The batches that were cancelled. -/
def cancelledNonces (trace : List BridgeOutput) : List Nat :=
  trace.flatMap fun
    | .cancelled batch => [batch.batchNonce]
    | _ => []

theorem exampleBridgeInputs_run :
    (exampleDeployment.toOption.bind fun eth =>
      (run (bridgeStep exampleSdk (ledgerBank exampleModuleAccount) exampleGeth exampleParams exampleEvm
        exampleContracts) ⟨Chain.fresh exampleLedger, eth, false⟩ exampleBridgeInputs).map fun result =>
          (decide (Justified (BridgeOutput.Honest exampleSpelling eth.logs) [] result.2),
            ((paidTxs result.2).map OutgoingTransferTx.id,
              ((refundedTxs (poolHistory result.2)).map OutgoingTransferTx.id,
                cancelledNonces result.2)))) = some (true, ([2], ([3], [1]))) := by
  decide +kernel

theorem no_double_spend_cancelled : ∃ eth state trace,
    exampleDeployment = .ok eth ∧
    run (bridgeStep exampleSdk (ledgerBank exampleModuleAccount) exampleGeth exampleParams exampleEvm
      exampleContracts) ⟨Chain.fresh exampleLedger, eth, false⟩ exampleBridgeInputs =
        some (state, trace) ∧
    (paidTxs trace).map OutgoingTransferTx.id = [2] ∧
    cancelledNonces trace = [1] ∧
    ∀ batch, .cancelled batch ∈ trace → batch.args ∉ paidArgs trace := by
  obtain ⟨eth, deployed, runs⟩ := Option.bind_eq_some_iff.mp exampleBridgeInputs_run
  obtain ⟨⟨state, trace⟩, runs, equal⟩ := Option.map_eq_some_iff.mp runs
  have deployed : exampleDeployment = .ok eth := except_eq_ok_of_toOption deployed
  obtain ⟨honest, equal⟩ := Prod.mk.inj equal
  obtain ⟨paid, equal⟩ := Prod.mk.inj equal
  have spent := no_double_spend deployed runs (of_decide_eq_true honest)
  exact ⟨eth, state, trace, deployed, runs, paid, (Prod.mk.inj equal).2, spent.2.2.1⟩

end NabBridge
