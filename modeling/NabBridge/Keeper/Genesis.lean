/-
**Export and import of the module's state.**

`exportGenesis` writes the state into a genesis file and `initGenesis` rebuilds a state from one. The
file holds no counter: the nonce of the latest validator set is whatever the last imported set leaves
behind, and the ids of transfers and batches begin anew. It holds no checkpoints either: of the three
kinds of signed objects only logic calls record theirs on import.

Two of the exported lists are collected by walking a Go map; their order is an argument here.

* `initGenesis_eq_ok`: the parts of an import that goes through.
-/

import NabBridge.Keeper.Confirm
import NabBridge.Keeper.EndBlocker

namespace NabBridge

/-- The module's whole store, its parameters, and the bank's state. -/
structure KeeperState (β : Type) where
  chain : Chain β
  params : Params
  logicCalls : LogicCalls
  confirms : Confirms
  keys : DelegateKeys

/-- `GenesisState` -/
structure GenesisState where
  params : Params
  lastObservedNonce : Nat
  valsets : List Valset
  valsetConfirms : List MsgValsetConfirm
  batches : List OutgoingTxBatch
  batchConfirms : List MsgConfirmBatch
  logicCalls : List OutgoingLogicCall
  logicCallConfirms : List MsgConfirmLogicCall
  attestations : List Attestation
  delegateKeys : List MsgSetOrchestratorAddress
  erc20ToDenoms : List ERC20ToDenom
  unbatchedTransfers : List OutgoingTransferTx
  deriving DecidableEq

/-! ### Export -/

/-- `GetValsets`: in descending order of their nonces. -/
def ValsetStore.getValsets (store : ValsetStore) : List Valset :=
  store.valsets.values.reverse.insertionSort fun first second => second.nonce ≤ first.nonce

/-- What follows the prefix byte of a key. -/
def keyTail (key : StoreKey) : Bytes := key.tail.map Nat.toUInt8

namespace DelegateKeys

/-- The first map of `GetDelegateKeys`: the text of a validator, and its Ethereum address. -/
def ethAddresses (sdk : Sdk) (keys : DelegateKeys) : Store StoreKey (Bytes × Bytes) :=
  keys.ethAddressByValidator.entries.foldl
    (fun addresses entry =>
      let validator := sdk.valAddressString (keyTail entry.1)
      addresses.set (keyBytes validator) (validator, entry.2))
    Store.empty

/-- The second map of `GetDelegateKeys`: the text of a validator, and its orchestrator's. -/
def orchAddresses (sdk : Sdk) (keys : DelegateKeys) : Store StoreKey Bytes :=
  keys.validatorByOrchestrator.entries.foldl
    (fun addresses entry =>
      addresses.set (keyBytes (sdk.valAddressString entry.2)) (sdk.accAddressString (keyTail entry.1)))
    Store.empty

/-- `GetDelegateKeys` before it sorts; `none` is the panic `Can't find address`. -/
def getDelegateKeys (sdk : Sdk) (keys : DelegateKeys) : Option (List MsgSetOrchestratorAddress) :=
  (keys.ethAddresses sdk).values.mapM fun (validator, ethAddress) =>
    ((keys.orchAddresses sdk).get (keyBytes validator)).map fun orchestrator =>
      ⟨validator, orchestrator, ethAddress⟩

end DelegateKeys

/-- `IterateERC20ToDenom` -/
def DenomIndex.erc20ToDenoms (index : DenomIndex) : List ERC20ToDenom :=
  index.erc20ToDenom.entries.map fun entry => ⟨keyTail entry.1, entry.2⟩

section Export

variable {β : Type} (sdk : Sdk) (state : KeeperState β)

/-- The two lists are what walking the maps can give: all attestations in some order, and all
registrations sorted by Ethereum address. -/
def KeeperState.ExportOrder (attestations : List Attestation)
    (delegateKeys : List MsgSetOrchestratorAddress) : Prop :=
  attestations.Perm state.chain.oracle.attestations.values ∧
    ∃ collected ∈ state.keys.getDelegateKeys sdk, delegateKeys.Perm collected ∧
      delegateKeys.Pairwise fun first second =>
        keyBytes first.ethAddress ≤ keyBytes second.ethAddress

instance (attestations : List Attestation) (delegateKeys : List MsgSetOrchestratorAddress) :
    Decidable (state.ExportOrder sdk attestations delegateKeys) := by
  unfold KeeperState.ExportOrder; infer_instance

/-- `ExportGenesis` -/
def exportGenesis (attestations : List Attestation)
    (delegateKeys : List MsgSetOrchestratorAddress) : GenesisState :=
  let outgoing := state.chain.app.outgoing
  let valsets := state.chain.valsets.getValsets
  let batches := outgoing.getOutgoingTxBatches
  let calls := state.logicCalls.getOutgoingLogicCalls
  { params := state.params
    lastObservedNonce := state.chain.oracle.lastObservedEventNonce
    valsets := valsets
    valsetConfirms := valsets.flatMap fun valset => state.confirms.getValsetConfirms valset.nonce
    batches := batches
    batchConfirms := batches.flatMap fun batch =>
      state.confirms.getBatchConfirmByNonceAndTokenContract batch.batchNonce batch.tokenContract
    logicCalls := calls
    logicCallConfirms := calls.flatMap fun call =>
      state.confirms.getLogicConfirmByInvalidationIDAndNonce call.invalidationId
        call.invalidationNonce
    attestations := attestations
    delegateKeys := delegateKeys
    erc20ToDenoms := state.chain.app.index.erc20ToDenoms
    unbatchedTransfers := outgoing.unbatchedTransactions Outgoing.outgoingTXPoolKey }

end Export

/-! ### Import -/

/-- The panics of `InitGenesis`. -/
inductive GenesisPanic where
  | confirm (reason : ConfirmPanic)
  | checkpoint (reason : CheckpointPanic)
  /-- `addUnbatchedTX` failed -/
  | unbatched (reason : PoolError)
  /-- `Invalid delegate key in Genesis!` -/
  | delegateKey (reason : DelegateError)
  /-- `Invalid Cosmos originated denom for valset reward` -/
  | valsetReward
  deriving DecidableEq, Repr

/-- `StoreValsetUnsafe` -/
def ValsetStore.storeValsetUnsafe (store : ValsetStore) (valset : Valset) : ValsetStore :=
  ⟨store.valsets.set (getValsetKey valset.nonce) valset, valset.nonce⟩

/-- A confirmation of the genesis file. -/
def genesisConfirm {α : Type} : Outcome Empty ConfirmPanic α → Outcome Empty GenesisPanic α
  | .ok value => .ok value
  | .error reason => reason.elim
  | .panic reason => .panic (.confirm reason)

/-- A logic call of the genesis file. -/
def genesisCall {α : Type} : Outcome Empty CheckpointPanic α → Outcome Empty GenesisPanic α
  | .ok value => .ok value
  | .error reason => reason.elim
  | .panic reason => .panic (.checkpoint reason)

/-- A pool record of the genesis file. -/
def genesisTransfer (outgoing : Outgoing) (tx : OutgoingTransferTx) :
    Outcome Empty GenesisPanic Outgoing :=
  match outgoing.addUnbatchedTX tx with
  | .ok after => .ok after
  | .error reason => .panic (.unbatched reason)

/-- A registration of the genesis file. -/
def genesisDelegateKey (sdk : Sdk) (keys : DelegateKeys) (msg : MsgSetOrchestratorAddress) :
    Outcome Empty GenesisPanic DelegateKeys :=
  match msg.validateBasic sdk with
  | .error reason => .panic (.delegateKey reason)
  | .ok () =>
      -- both parse, or `ValidateBasic` had failed
      let validator := (sdk.valAddressFromBech32 msg.validator).getD []
      let orchestrator := (sdk.accAddressFromBech32 msg.orchestrator).getD []
      .ok ((keys.setOrchestratorValidator validator orchestrator).setEthAddressForValidator validator
        msg.ethAddress)

section Import

variable {β : Type} (sdk : Sdk) (geth : Geth)

/-- `InitGenesis` into an empty store. The bank has a genesis of its own; `valsetReward` is a
parameter that nothing else of the import reads. -/
def initGenesis (valsetReward : Coin) (data : GenesisState) (bank : β) :
    Outcome Empty GenesisPanic (KeeperState β) := do
  let valsets := data.valsets.foldl ValsetStore.storeValsetUnsafe ValsetStore.empty
  let confirms ← data.valsetConfirms.foldlM
    (fun confirms msg => genesisConfirm (confirms.setValsetConfirm sdk msg)) Confirms.empty
  let outgoing := data.batches.foldl Outgoing.storeBatchUnsafe Outgoing.empty
  let confirms ← data.batchConfirms.foldlM
    (fun confirms msg => genesisConfirm (confirms.setBatchConfirm sdk msg)) confirms
  let (outgoing, logicCalls) ← data.logicCalls.foldlM
    (fun stores call =>
      genesisCall (setOutgoingLogicCall geth data.params.gravityId call stores.1 stores.2))
    (outgoing, (Store.empty : LogicCalls))
  let confirms ← data.logicCallConfirms.foldlM
    (fun confirms msg => genesisConfirm (confirms.setLogicCallConfirm sdk msg)) confirms
  let outgoing ← data.unbatchedTransfers.foldlM genesisTransfer outgoing
  let oracle := initGenesisOracle sdk data.attestations data.lastObservedNonce
  let keys ← data.delegateKeys.foldlM (genesisDelegateKey sdk) DelegateKeys.empty
  let index := data.erc20ToDenoms.foldl
    (fun index item => index.setCosmosOriginatedDenomToERC20 item.denom item.erc20) DenomIndex.empty
  if valsetReward.isValid sdk ∧ ¬ valsetReward.isZero ∧
      (index.getCosmosOriginatedERC20 valsetReward.denom).isNone then .panic .valsetReward
  else
    pure {
      chain := ⟨oracle, ⟨bank, index, outgoing, none⟩, valsets⟩
      params := data.params
      logicCalls := logicCalls
      confirms := confirms
      keys := keys }

variable {sdk geth}

/-- **The parts of an import**: what each list of the file was turned into. -/
theorem initGenesis_eq_ok {valsetReward : Coin} {data : GenesisState} {bank : β}
    {state : KeeperState β} (started : initGenesis sdk geth valsetReward data bank = .ok state) :
    state.params = data.params ∧
    state.chain.oracle = initGenesisOracle sdk data.attestations data.lastObservedNonce ∧
    state.chain.valsets = data.valsets.foldl ValsetStore.storeValsetUnsafe ValsetStore.empty ∧
    data.delegateKeys.foldlM (genesisDelegateKey sdk) DelegateKeys.empty = .ok state.keys ∧
    ∃ called : Outgoing × LogicCalls,
      data.logicCalls.foldlM
        (fun stores call =>
          genesisCall (setOutgoingLogicCall geth data.params.gravityId call stores.1 stores.2))
        (data.batches.foldl Outgoing.storeBatchUnsafe Outgoing.empty, (Store.empty : LogicCalls)) =
          .ok called ∧
      state.logicCalls = called.2 ∧
      data.unbatchedTransfers.foldlM genesisTransfer called.1 = .ok state.chain.app.outgoing := by
  unfold initGenesis at started
  obtain ⟨confirms, _, started⟩ := Outcome.bind_eq_ok.mp started
  obtain ⟨confirms', _, started⟩ := Outcome.bind_eq_ok.mp started
  obtain ⟨called, calls, started⟩ := Outcome.bind_eq_ok.mp started
  obtain ⟨confirms'', _, started⟩ := Outcome.bind_eq_ok.mp started
  obtain ⟨outgoing, transfers, started⟩ := Outcome.bind_eq_ok.mp started
  obtain ⟨keys, registered, started⟩ := Outcome.bind_eq_ok.mp started
  simp only at started
  split_ifs at started
  obtain rfl := Outcome.ok.inj started
  exact ⟨rfl, rfl, rfl, registered, called, calls, rfl, transfers⟩

/-- The index of an import: the pairs of the file. -/
theorem initGenesis_index {valsetReward : Coin} {data : GenesisState} {bank : β}
    {state : KeeperState β} (started : initGenesis sdk geth valsetReward data bank = .ok state) :
    state.chain.app.index = data.erc20ToDenoms.foldl
      (fun index item => index.setCosmosOriginatedDenomToERC20 item.denom item.erc20)
      DenomIndex.empty := by
  unfold initGenesis at started
  obtain ⟨confirms, _, started⟩ := Outcome.bind_eq_ok.mp started
  obtain ⟨confirms', _, started⟩ := Outcome.bind_eq_ok.mp started
  obtain ⟨called, _, started⟩ := Outcome.bind_eq_ok.mp started
  obtain ⟨confirms'', _, started⟩ := Outcome.bind_eq_ok.mp started
  obtain ⟨outgoing, _, started⟩ := Outcome.bind_eq_ok.mp started
  obtain ⟨keys, _, started⟩ := Outcome.bind_eq_ok.mp started
  simp only at started
  split_ifs at started
  obtain rfl := Outcome.ok.inj started
  rfl

/-- The parts of an import that goes through: the batches and the confirmations. -/
theorem initGenesis_confirms {valsetReward : Coin} {data : GenesisState} {bank : β}
    {state : KeeperState β} (started : initGenesis sdk geth valsetReward data bank = .ok state) :
    ∃ valsets batches,
      data.valsetConfirms.foldlM
        (fun confirms msg => genesisConfirm (confirms.setValsetConfirm sdk msg)) Confirms.empty =
          .ok valsets ∧
      data.batchConfirms.foldlM
        (fun confirms msg => genesisConfirm (confirms.setBatchConfirm sdk msg)) valsets =
          .ok batches ∧
      data.logicCallConfirms.foldlM
        (fun confirms msg => genesisConfirm (confirms.setLogicCallConfirm sdk msg)) batches =
          .ok state.confirms := by
  unfold initGenesis at started
  obtain ⟨valsets, first, started⟩ := Outcome.bind_eq_ok.mp started
  obtain ⟨batches, second, started⟩ := Outcome.bind_eq_ok.mp started
  obtain ⟨called, _, started⟩ := Outcome.bind_eq_ok.mp started
  obtain ⟨confirms, third, started⟩ := Outcome.bind_eq_ok.mp started
  obtain ⟨outgoing, _, started⟩ := Outcome.bind_eq_ok.mp started
  obtain ⟨keys, _, started⟩ := Outcome.bind_eq_ok.mp started
  simp only at started
  split_ifs at started
  obtain rfl := Outcome.ok.inj started
  exact ⟨valsets, batches, first, second, third⟩

end Import

end NabBridge
