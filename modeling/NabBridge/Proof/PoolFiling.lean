/-
**What a node files.**

What the walks over the pool rest on holds in every state of a node, a restart included: every record is
under its own key, its contract has the length of an address, and its fee is an `sdk.Int` that is not
negative. Records come from sends and go through batches back into the pool, where `GetOutgoingTXBatch`
has overwritten their contracts; contracts come from the index, the index from claims, and claims from
messages that passed `ValidateBasic`.

* `Outgoing.Tidy`: pool and batches, with one lemma for each operation;
* `DenomIndex.Filed`, `Oracle.NamesAddresses`: the index and the claims that wait;
* `Node.WellFiled.step`, `Node.wellFiled_of_run`: all of it in every state a node reaches.
-/

import NabBridge.Keeper.Params
import NabBridge.Proof.OracleIntegrity
import NabBridge.Proof.PoolOrder
import NabBridge.Proof.Restart

namespace NabBridge

/-! ### Pool and batches -/

/-- A record fits under any contract of the length of an address. -/
theorem OutgoingTransferTx.Fileable.withContract {tx : OutgoingTransferTx} (fileable : tx.Fileable)
    {contract : Bytes} (length : contract.length = ethContractAddressLen) :
    ({ tx with
      erc20Token := { tx.erc20Token with contract := contract }
      erc20Fee := { tx.erc20Fee with contract := contract } } : OutgoingTransferTx).Fileable :=
  ⟨length, fileable.nonneg, fileable.fits⟩

/-- A batch whose records can go back into the pool. -/
structure OutgoingTxBatch.Fileable (batch : OutgoingTxBatch) : Prop where
  contract : batch.tokenContract.length = ethContractAddressLen
  transactions : ∀ tx ∈ batch.transactions, tx.Fileable

namespace Outgoing

/-- **Pool and batches are filed.** -/
structure Tidy (outgoing : Outgoing) : Prop where
  pool : outgoing.Filed
  batches : outgoing.batches.All fun _ batch => batch.Fileable

variable {outgoing after : Outgoing}

theorem tidy_empty : Outgoing.empty.Tidy := ⟨Store.all_empty _, Store.all_empty _⟩

theorem Tidy.snapshot (tidy : outgoing.Tidy) {batch : OutgoingTxBatch}
    (member : batch ∈ outgoing.getOutgoingTxBatches) : batch.Fileable :=
  tidy.batches.of_mem_values (List.mem_reverse.mp member)

theorem Tidy.removeUnbatchedTX (tidy : outgoing.Tidy) {fee : ERC20Token} {txId : Nat}
    (removed : outgoing.removeUnbatchedTX fee txId = .ok after) : after.Tidy := by
  obtain ⟨_, rfl⟩ := removeUnbatchedTX_eq_ok removed
  exact ⟨Store.All.delete tidy.pool _, tidy.batches⟩

theorem Tidy.addUnbatchedTX (tidy : outgoing.Tidy) {tx : OutgoingTransferTx} (fileable : tx.Fileable)
    (added : outgoing.addUnbatchedTX tx = .ok after) : after.Tidy := by
  obtain ⟨_, rfl⟩ := addUnbatchedTX_eq_ok added
  exact ⟨Store.All.set tidy.pool ⟨rfl, fileable⟩, tidy.batches⟩

theorem Tidy.deleteBatch (tidy : outgoing.Tidy) (batch : OutgoingTxBatch) :
    (outgoing.deleteBatch batch).Tidy := ⟨tidy.pool, tidy.batches.delete _⟩

theorem Tidy.without (tidy : outgoing.Tidy) (txs : List OutgoingTransferTx) :
    (outgoing.without txs).Tidy :=
  ⟨fun key tx found => tidy.pool key tx (get_without.mp found).1, tidy.batches⟩

theorem Tidy.setPastEthSignatureCheckpoint (tidy : outgoing.Tidy) (checkpoint : Bytes) :
    (outgoing.setPastEthSignatureCheckpoint checkpoint).Tidy := ⟨tidy.pool, tidy.batches⟩

theorem Tidy.recordValset (tidy : outgoing.Tidy) (made : Option (Valset × Bytes)) :
    (outgoing.recordValset made).Tidy := by
  cases made with
  | none => exact tidy
  | some made => exact tidy.setPastEthSignatureCheckpoint made.2

/-- **A send** files its record, or drops it. -/
theorem Tidy.issue (tidy : outgoing.Tidy) {record : Nat → OutgoingTransferTx}
    (fileable : ∀ id, (record id).Fileable) : (outgoing.issue record).2.Tidy := by
  have counted : ({ outgoing with
      lastTxPoolId := (autoIncrementID outgoing.lastTxPoolId).2 } : Outgoing).Tidy :=
    ⟨tidy.pool, tidy.batches⟩
  unfold Outgoing.issue
  simp only
  split
  · rename_i added done
    exact counted.addUnbatchedTX (fileable _) done
  · exact counted

/-- **A cancelled batch** is filed under the contract it is asked for. -/
theorem Tidy.cancelOutgoingTXBatch (tidy : outgoing.Tidy) {tokenContract : Bytes}
    (length : tokenContract.length = ethContractAddressLen) (nonce : Nat) :
    (outgoing.cancelOutgoingTXBatch tokenContract nonce).Meets Tidy fun _ => True := by
  unfold Outgoing.cancelOutgoingTXBatch
  split
  · trivial
  · rename_i batch read
    obtain ⟨stored, found, rfl⟩ := Option.map_eq_some_iff.mp read
    refine Outcome.Meets.bind (Outcome.Meets.foldlM (fun current tx member tidy' => ?_) tidy)
      fun current tidy' => tidy'.deleteBatch _
    obtain ⟨original, inside, rfl⟩ := List.mem_map.mp member
    have fileable := ((tidy.batches _ stored found).transactions original inside).withContract length
    unfold putBack
    split
    · rename_i added
      exact tidy'.addUnbatchedTX fileable added
    · trivial

theorem Tidy.outgoingTxBatchExecuted (tidy : outgoing.Tidy) (tokenContract : Bytes) (nonce : Nat) :
    (outgoing.outgoingTxBatchExecuted tokenContract nonce).Meets Tidy fun _ => True := by
  unfold Outgoing.outgoingTxBatchExecuted
  split
  · trivial
  · rename_i batch read
    refine Outcome.Meets.bind (Outcome.Meets.foldlM (fun current earlier member tidy' => ?_) tidy)
      fun current tidy' => tidy'.deleteBatch _
    unfold cancelEarlier
    split_ifs with cancelled
    -- a batch of the snapshot has this contract, so it has the length of an address
    · have length : tokenContract.length = ethContractAddressLen :=
        cancelled.2 ▸ (tidy.snapshot member).contract
      have done := tidy'.cancelOutgoingTXBatch length earlier.batchNonce
      split
      · rename_i result
        exact done.ok result
      · trivial
      · trivial
    · exact tidy'

theorem Tidy.cleanupTimedOutBatches (tidy : outgoing.Tidy) (ethereumHeight : Nat) :
    (outgoing.cleanupTimedOutBatches ethereumHeight).Meets Tidy fun _ => True := by
  unfold Outgoing.cleanupTimedOutBatches
  refine Outcome.Meets.foldlM (fun current batch member tidy' => ?_) tidy
  unfold cleanupTimedOutBatch
  split_ifs
  · have done := tidy'.cancelOutgoingTXBatch (tidy.snapshot member).contract batch.batchNonce
    split
    · rename_i result
      exact done.ok result
    · exact tidy'
    · trivial
  · exact tidy'

/-- **A batch of filed records** is filed, and leaves a filed pool. -/
theorem Tidy.buildOutgoingTXBatch (tidy : outgoing.Tidy) {geth : Geth} {params : Params}
    {heights : LastObservedEthereumBlockHeight} {blockHeight maxElements : Nat} {contractAddress : Bytes}
    (length : contractAddress.length = ethContractAddressLen) {made : Option OutgoingTxBatch}
    (built : outgoing.buildOutgoingTXBatch geth params heights blockHeight contractAddress maxElements =
      .ok (made, after)) : after.Tidy := by
  unfold Outgoing.buildOutgoingTXBatch at built
  split_ifs at built with none
  obtain ⟨_, _, built⟩ := Outcome.bind_eq_ok.mp built
  rw [tidy.pool.pick length (Nat.pos_of_ne_zero none), Outcome.ok_bind] at built
  simp only at built
  split_ifs at built
  · obtain ⟨rfl, rfl⟩ := Prod.mk.inj (Outcome.ok.inj built)
    exact tidy.without _
  · obtain ⟨timeout, _, built⟩ := Outcome.bind_eq_ok.mp built
    obtain ⟨checkpoint, _, built⟩ := Outcome.bind_eq_ok.mp built
    obtain ⟨rfl, rfl⟩ := Prod.mk.inj (Outcome.ok.inj built)
    refine ⟨(tidy.without _).pool, Store.All.set tidy.batches ⟨length, fun tx member => ?_⟩⟩
    exact (tidy.pool.stored (List.mem_of_mem_take member)).2.1

end Outgoing

/-! ### The index and the claims -/

/-- **Registered contracts** are as long as addresses, as values and in keys. -/
structure DenomIndex.Filed (index : DenomIndex) : Prop where
  contracts : index.denomToERC20.All fun _ contract => contract.length = ethContractAddressLen
  keys : index.erc20ToDenom.All fun key _ => key.length = ethContractAddressLen + 1

theorem DenomIndex.filed_empty : DenomIndex.empty.Filed := ⟨Store.all_empty _, Store.all_empty _⟩

theorem DenomIndex.Filed.addresses {index : DenomIndex} (filed : index.Filed) : index.Addresses :=
  fun _ contract found => filed.contracts _ contract found

theorem DenomIndex.Filed.set {index : DenomIndex} (filed : index.Filed) (denom : Bytes)
    {contract : Bytes} (length : contract.length = ethContractAddressLen) :
    (index.setCosmosOriginatedDenomToERC20 denom contract).Filed := by
  refine ⟨filed.contracts.set length, filed.keys.set ?_⟩
  unfold getERC20ToDenomKey
  rw [List.length_cons, length_keyBytes, length]

/-- **An exported index** comes back filed. -/
theorem DenomIndex.Filed.restored {index : DenomIndex} (filed : index.Filed) :
    (index.erc20ToDenoms.foldl
      (fun index item => index.setCosmosOriginatedDenomToERC20 item.denom item.erc20)
      DenomIndex.empty).Filed := by
  refine List.foldlRecOn _ _ filed_empty fun current restored item member => ?_
  obtain ⟨⟨key, denom⟩, inside, rfl⟩ := List.mem_map.mp member
  have length := filed.keys key denom ((Store.mem_entries_iff _ _ _).mp inside)
  refine restored.set denom ?_
  unfold keyTail
  rw [List.length_map, List.length_tail, length, Nat.add_sub_cancel]

/-- The contract a claim would register is as long as an address. -/
def EthereumClaim.NamesAddress : EthereumClaim → Prop
  | .erc20Deployed claim => claim.tokenContract.length = ethContractAddressLen
  | _ => True

theorem EthereumClaim.NamesAddress.sortMembers {claim : EthereumClaim} (names : claim.NamesAddress) :
    claim.sortMembers.NamesAddress := by
  cases claim <;> exact names

theorem EthereumClaim.namesAddress_of_getClaimer {sdk : Sdk} {claim : EthereumClaim}
    {claimer : AccAddress} (claims : claim.getClaimer sdk = some claimer) : claim.NamesAddress := by
  have valid := getClaimer_eq_some claims
  cases claim with
  | erc20Deployed msg =>
      exact length_of_validateEthAddress (MsgERC20DeployedClaim.token_of_validateBasic valid)
  | sendToCosmos _ | batchSendToEth _ | logicCallExecuted _ | valsetUpdated _ => trivial

/-- All claims that wait name addresses. -/
def Oracle.NamesAddresses (oracle : Oracle) : Prop :=
  oracle.attestations.All fun _ att => att.claim.NamesAddress

theorem Oracle.NamesAddresses.vote {π : Type} {sdk : Sdk}
    {orchestratorValidator : AccAddress → Option ValAddress} {blockHeight : Nat} {claim : EthereumClaim}
    {oracle after : Oracle} {att : Attestation} (names : oracle.NamesAddresses)
    (voted : attest (π := π) sdk orchestratorValidator blockHeight claim oracle = .ok (after, att)) :
    after.NamesAddresses := by
  obtain ⟨validator, voter, _, rfl, rfl⟩ := attest_eq_ok voted
  obtain ⟨claimer, claims, _⟩ := Option.bind_eq_some_iff.mp voter
  refine Store.All.set names ?_
  show (oracle.attestationFor sdk blockHeight claim).claim.NamesAddress
  unfold Oracle.attestationFor
  cases found : oracle.getAttestation claim.getEventNonce (claim.claimHash sdk) with
  | none => exact EthereumClaim.namesAddress_of_getClaimer claims
  | some stored => exact names _ stored found

theorem Oracle.NamesAddresses.pruned {oracle : Oracle} (names : oracle.NamesAddresses) (sdk : Sdk) :
    (pruneAttestations sdk oracle).NamesAddresses := by
  unfold pruneAttestations
  split_ifs
  · exact names
  · refine List.foldlRecOn _ _ names fun current kept nonce _ => ?_
    refine List.foldlRecOn _ _ kept fun current kept att _ => ?_
    split_ifs
    · exact Store.All.delete kept _
    · exact kept

theorem Oracle.NamesAddresses.restored {oracle : Oracle} (names : oracle.NamesAddresses) (sdk : Sdk)
    {attestations : List Attestation} (exported : attestations.Perm oracle.attestations.values)
    (lastObservedNonce : Nat) :
    (initGenesisOracle sdk attestations lastObservedNonce).NamesAddresses := by
  unfold Oracle.NamesAddresses
  rw [initGenesisOracle, foldl_setAttestation, (restoreAttestations_restores attestations _).1.attestations]
  refine (Store.all_empty _).foldl_set fun pair member => ?_
  obtain ⟨att, inside, rfl⟩ := List.mem_map.mp member
  exact Store.All.of_mem_values names (exported.mem_iff.mp inside)

/-! ### The module -/

section Module

variable {β : Type} {sdk : Sdk} {bank : BankKeeper β} {params : Params}

/-- **What the module files.** -/
structure ModuleState.Filed (state : ModuleState β) : Prop where
  outgoing : state.outgoing.Tidy
  index : state.index.Filed

/-- **A send** puts a fee on record that it has checked. -/
theorem ModuleState.Filed.send {sender : AccAddress} {receiver : Bytes} {amount fee : Coin} {id : Nat}
    {state after : ModuleState β} (filed : state.Filed)
    (sent : addToOutgoingPool sdk bank sender receiver amount fee state = .ok (id, after)) :
    after.Filed := by
  obtain ⟨⟨_, _, amountValid, feeValid, _, fits⟩, _, contract, _, lookup, _, _, rfl⟩ :=
    addToOutgoingPool_eq_ok sent
  have nonneg : 0 ≤ amount.amount := of_decide_eq_true (Bool.and_eq_true_iff.mp amountValid).2
  have nonneg' : 0 ≤ fee.amount := of_decide_eq_true (Bool.and_eq_true_iff.mp feeValid).2
  refine ⟨filed.outgoing.issue fun id => ⟨filed.index.addresses.lookup lookup, nonneg', ?_⟩, filed.index⟩
  exact fitsSdkInt_of_le nonneg' (Int.le_add_of_nonneg_left nonneg) fits

theorem ModuleState.Filed.cancel {txId : Nat} {sender : AccAddress} {state after : ModuleState β}
    (filed : state.Filed)
    (removed : removeFromOutgoingPoolAndRefund sdk bank txId sender state = .ok after) :
    after.Filed := by
  obtain ⟨_, _, _, _, _, _, _, gone, _, _, rfl⟩ := removeFromOutgoingPoolAndRefund_eq_ok removed
  exact ⟨filed.outgoing.removeUnbatchedTX gone, filed.index⟩

theorem ModuleState.Filed.handle {att : Attestation} {claim : EthereumClaim} {state after : ModuleState β}
    (filed : state.Filed) (names : claim.NamesAddress)
    (done : NabBridge.handle sdk bank params att claim state = .ok after) : after.Filed := by
  have effect := handle_effect done
  cases claim with
  | batchSendToEth msg =>
      exact ⟨(filed.outgoing.outgoingTxBatchExecuted _ _).ok effect.1, effect.2.symm ▸ filed.index⟩
  | erc20Deployed msg =>
      exact ⟨effect.1.symm ▸ filed.outgoing, effect.2.symm ▸ filed.index.set msg.cosmosDenom names⟩
  | sendToCosmos msg | logicCallExecuted msg | valsetUpdated msg =>
      exact ⟨effect.1.symm ▸ filed.outgoing, effect.2.symm ▸ filed.index⟩

/-- What the module files, and the claims that wait. -/
structure Chain.Filed (chain : Chain β) : Prop where
  app : chain.app.Filed
  claims : chain.oracle.NamesAddresses

/-- **A tally** hands over claims that name addresses. -/
theorem Chain.Filed.tally {staking : StakingPowers} {blockHeight : Nat} {chain : Chain β}
    (filed : chain.Filed) :
    (attestationTally sdk staking (NabBridge.handle sdk bank params) blockHeight chain.oracle
      chain.app).Meets (fun ctx => ctx.app.Filed ∧ ctx.oracle.NamesAddresses) fun _ => True := by
  refine Outcome.Meets.foldlM (fun ctx nonce _ kept => ?_) ⟨filed.app, filed.claims⟩
  refine Outcome.Meets.foldlM (fun ctx att member kept => ?_) kept
  have names : att.claim.NamesAddress :=
    Store.All.of_mem_values filed.claims (List.mem_of_mem_filter member)
  have observed : (ctx.oracle.observe sdk blockHeight att).NamesAddresses := Store.All.set kept.2 names
  unfold tallyAttestation tryAttestation processAttestation
  split_ifs
  · trivial
  · trivial
  · cases handled : NabBridge.handle sdk bank params { att with observed := true }
        att.claim.sortMembers ctx.app with
    | ok after =>
        simp only [handled, Outcome.meets_ok]
        exact ⟨kept.1.handle names.sortMembers handled, observed⟩
    | error reason =>
        simp only [handled, Outcome.meets_ok]
        exact ⟨kept.1, observed⟩
    | panic reason =>
        simp only [handled]
        trivial
  · exact kept
  · exact kept

theorem Chain.Filed.endBlock {geth : Geth} {env : EndBlockEnv} {chain after : Chain β}
    {report : EndBlockReport} (filed : chain.Filed)
    (ended : endBlocker sdk bank geth params env chain = .ok (after, report)) : after.Filed := by
  obtain ⟨ctx, outgoing, made, store, counted, cleaned, _, rfl, _⟩ := endBlocker_eq_ok ended
  obtain ⟨app, names⟩ := filed.tally.ok counted
  exact ⟨⟨((app.outgoing.cleanupTimedOutBatches _).ok cleaned).recordValset made, app.index⟩,
    names.pruned sdk⟩

end Module

/-! ### The node -/

/-- The checks the parameter store makes of what a batch reads. -/
structure Params.Checked (params : Params) : Prop where
  gravityId : validateGravityID (.text params.gravityId) = .ok ()
  time : validateAverageEthereumBlockTime (.uint params.averageEthereumBlockTime) = .ok ()

/-- Parameters change to ones that pass the checks. -/
def NodeInput.ParamsChecked {β τ : Type} : NodeInput β τ → Prop
  | .setParams params => params.Checked
  | _ => True

section Node

variable {β τ : Type} {sdk : Sdk} {bank : BankKeeper β} {geth : Geth} {evm : Evm}
  {others : Contracts τ}

theorem Chain.Filed.step {params : Params} {state next : Bridge β τ} {action : BridgeInput β τ}
    {outputs : List BridgeOutput} (filed : state.chain.Filed)
    (step : bridgeStep sdk bank geth params evm others state action = some (next, outputs)) :
    next.chain.Filed := by
  cases action with
  | sendToEth sender receiver amount fee =>
      simp only [bridgeStep] at step
      split_ifs at step
      split at step
      · rename_i sent
        obtain ⟨rfl, rfl⟩ := Prod.mk.inj (Option.some.inj step)
        exact ⟨filed.app.send sent, filed.claims⟩
      · obtain ⟨rfl, rfl⟩ := Prod.mk.inj (Option.some.inj step)
        exact filed
  | cancelSendToEth txId sender =>
      simp only [bridgeStep] at step
      split_ifs at step
      split at step
      · rename_i removed
        obtain ⟨rfl, rfl⟩ := Prod.mk.inj (Option.some.inj step)
        exact ⟨filed.app.cancel removed, filed.claims⟩
      · obtain ⟨rfl, rfl⟩ := Prod.mk.inj (Option.some.inj step)
        exact filed
  | requestBatch denom maxElements blockHeight =>
      simp only [bridgeStep] at step
      split_ifs at step
      split at step
      · rename_i requested
        obtain ⟨rfl, rfl⟩ := Prod.mk.inj (Option.some.inj step)
        unfold requestBatch at requested
        split at requested
        · cases requested
        · rename_i lookup
          have length := filed.app.index.addresses.lookup lookup
          exact ⟨⟨filed.app.outgoing.buildOutgoingTXBatch length requested, filed.app.index⟩,
            filed.claims⟩
      · obtain ⟨rfl, rfl⟩ := Prod.mk.inj (Option.some.inj step)
        exact filed
  | claim orchestratorValidator blockHeight claim =>
      simp only [bridgeStep] at step
      split_ifs at step
      split at step
      · rename_i voted
        obtain ⟨rfl, rfl⟩ := Prod.mk.inj (Option.some.inj step)
        exact ⟨filed.app, filed.claims.vote voted⟩
      · obtain ⟨rfl, rfl⟩ := Prod.mk.inj (Option.some.inj step)
        exact filed
  | endBlock env =>
      simp only [bridgeStep] at step
      split_ifs at step
      split at step
      · rename_i ended
        obtain ⟨rfl, rfl⟩ := Prod.mk.inj (Option.some.inj step)
        exact filed.endBlock ended
      · rename_i reason _
        exact reason.elim
      · obtain ⟨rfl, rfl⟩ := Prod.mk.inj (Option.some.inj step)
        exact filed
  | accounts change =>
      obtain ⟨rfl, rfl⟩ := Prod.mk.inj (Option.some.inj step)
      exact ⟨⟨filed.app.outgoing, filed.app.index⟩, filed.claims⟩
  | call sender call =>
      simp only [bridgeStep] at step
      split at step
      all_goals
        obtain ⟨rfl, rfl⟩ := Prod.mk.inj (Option.some.inj step)
        exact filed
  | ethereum change newBlocks =>
      obtain ⟨rfl, rfl⟩ := Prod.mk.inj (Option.some.inj step)
      exact filed

/-- **A restart** brings back what was filed. -/
theorem Chain.Filed.restart {node : Node β τ} {valsetReward : Coin} {attestations : List Attestation}
    {delegateKeys : List MsgSetOrchestratorAddress} {after : KeeperState β}
    (filed : node.keeper.chain.Filed)
    (restarts : node.restart sdk geth valsetReward attestations delegateKeys = some after) :
    after.chain.Filed := by
  unfold Node.restart at restarts
  split_ifs at restarts with order
  have started := Outcome.value?_eq_some.mp restarts
  obtain ⟨_, oracle, _, _, called, calls, _, transfers⟩ := initGenesis_eq_ok started
  obtain ⟨_, _, ⟨archive, callsKept⟩, _⟩ := genesisCalls_spec calls
  obtain ⟨batchPool, _, _, _, storedBatches⟩ :=
    genesisBatches_spec (exportGenesis node.keeper attestations delegateKeys).batches Outgoing.empty
  have batches : called.1.Tidy := by
    rw [callsKept]
    refine ⟨fun key tx found => ?_, fun key batch found => ?_⟩
    · simp only [batchPool] at found
      cases found
    · rcases storedBatches key batch found with absent | ⟨listed, _⟩
      · cases absent
      · exact filed.app.outgoing.snapshot listed
  refine ⟨⟨?_, ?_⟩, ?_⟩
  · have filing : ((node.keeper.chain.app.outgoing.unbatchedTransactions
        Outgoing.outgoingTXPoolKey).foldlM genesisTransfer called.1).Meets Outgoing.Tidy
          fun _ => True := by
      refine Outcome.Meets.foldlM (fun current tx member tidy => ?_) batches
      obtain ⟨key, stored, _⟩ := Outgoing.mem_unbatchedTransactions member
      unfold genesisTransfer
      split
      · rename_i added
        exact tidy.addUnbatchedTX (filed.app.outgoing.pool key tx stored).2 added
      · trivial
    exact filing.ok transfers
  · rw [initGenesis_index started]
    exact filed.app.index.restored
  · rw [oracle]
    exact filed.claims.restored sdk order.1 _

/-- **A step of a node** files what it stores. -/
theorem Chain.Filed.node_step {node next : Node β τ} {input : NodeInput β τ} {outputs : List NodeOutput}
    (filed : node.keeper.chain.Filed)
    (step : nodeStep sdk bank geth evm others node input = some (next, outputs)) :
    next.keeper.chain.Filed := by
  cases input with
  | bridge isValidator action =>
      simp only [nodeStep] at step
      split at step
      · cases step
      · rename_i taken
        obtain ⟨rfl, rfl⟩ := Prod.mk.inj (Option.some.inj step)
        have chain : node.bridge.chain.Filed := filed
        exact chain.step taken
  | setOutgoingLogicCall call =>
      simp only [nodeStep] at step
      split_ifs at step
      split at step
      · rename_i stored
        obtain ⟨rfl, rfl⟩ := Prod.mk.inj (Option.some.inj step)
        obtain ⟨checkpoint, _, rfl, _⟩ := setOutgoingLogicCall_eq_ok stored
        exact ⟨⟨filed.app.outgoing.setPastEthSignatureCheckpoint checkpoint, filed.app.index⟩,
          filed.claims⟩
      · obtain ⟨rfl, rfl⟩ := Prod.mk.inj (Option.some.inj step)
        exact filed
  | setParams params =>
      simp only [nodeStep] at step
      split_ifs at step
      all_goals
        obtain ⟨rfl, rfl⟩ := Prod.mk.inj (Option.some.inj step)
        exact filed
  | restart valsetReward attestations delegateKeys =>
      obtain ⟨keeper, restarts, equal⟩ := Option.map_eq_some_iff.mp step
      obtain ⟨rfl, rfl⟩ := Prod.mk.inj equal
      exact filed.restart restarts
  | deleteOutgoingLogicCall _ _ | setOrchestratorAddress _ _ | valsetConfirm _ _ | confirmBatch _ _
  | confirmLogicCall _ _ | evidence _ _ _ =>
      simp only [nodeStep] at step
      split_ifs at step
      obtain ⟨rfl, rfl⟩ := Prod.mk.inj (Option.some.inj step)
      exact filed

/-- **What a node files**, under parameters that passed their checks. -/
structure Node.WellFiled (node : Node β τ) : Prop where
  chain : node.keeper.chain.Filed
  params : node.keeper.params.Checked

theorem Node.WellFiled.step {node next : Node β τ} {input : NodeInput β τ} {outputs : List NodeOutput}
    (filed : node.WellFiled) (checked : input.ParamsChecked)
    (step : nodeStep sdk bank geth evm others node input = some (next, outputs)) : next.WellFiled := by
  refine ⟨filed.chain.node_step step, ?_⟩
  cases nodeStep_effect step with
  | bridge made effect calls keys params reported => exact params ▸ filed.params
  | logicCallStored call checkpoint computed outgoing valsets calls keys params reported =>
      exact params ▸ filed.params
  | registered text validator orchestrator ethAddress parsed unset state silent =>
      exact state ▸ filed.params
  | setParams params set valid state silent =>
      subst set
      exact state ▸ checked
  | restarted valsetReward attestations delegateKeys restart effect silent =>
      exact effect.params ▸ filed.params
  | aside chain calls keys params silent => exact params ▸ filed.params

theorem Node.wellFiled_fresh {params : Params} (checked : params.Checked) (balances : β)
    (eth : Ethereum τ) : (⟨KeeperState.fresh params balances, eth, false⟩ : Node β τ).WellFiled :=
  ⟨⟨⟨Outgoing.tidy_empty, DenomIndex.filed_empty⟩, Store.all_empty _⟩, checked⟩

/-- **Every state a node reaches is filed.** -/
theorem Node.wellFiled_of_run {params : Params} (checked : params.Checked) {balances : β}
    {eth : Ethereum τ} {inputs : List (NodeInput β τ)} (allowed : ∀ input ∈ inputs, input.ParamsChecked)
    {node : Node β τ} {outputs : List NodeOutput}
    (runs : run (nodeStep sdk bank geth evm others) ⟨KeeperState.fresh params balances, eth, false⟩
      inputs = some (node, outputs)) : node.WellFiled :=
  run_invariant NodeInput.ParamsChecked (fun _ node => node.WellFiled)
    (fun _ _ _ _ _ checked filed step => filed.step checked step) allowed
    (Node.wellFiled_fresh checked balances eth) runs

end Node

end NabBridge
