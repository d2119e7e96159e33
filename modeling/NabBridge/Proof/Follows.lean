/-
**The protocol behind the two chains.**

The module stores, observes and gives up batches, the contract accepts them: that is the protocol of
`Settlement`. `Follows` says what the two chains have to do with a state of it, and each kind of step is
matched there: a new batch by `store`, a call by entries of the log (`Follows.quiet`,
`Follows.submitBatch`), an observation by `observe` (`Follows.observe_batch`), the clean-up by `expire`
(`Follows.cleanup`). A whole tally is followed observation by observation (`TallyFollows.chain`), since
the clean-up must not run ahead of it.
-/

import NabBridge.Contract.Calls
import NabBridge.Lib.Settlement
import NabBridge.Proof.Conservation
import NabBridge.System.Bridge

namespace NabBridge

/-! ### What the chains have to do with the protocol -/

/-- A batch as both sides read it. -/
def batchTerms : Terms OutgoingTxBatch EthAddress where
  token batch := hexToAddress batch.tokenContract
  nonce := OutgoingTxBatch.batchNonce
  timeout := OutgoingTxBatch.batchTimeout

/-- The history as the pool saw it. -/
def poolHistory (trace : List BridgeOutput) : List PoolOutput :=
  trace.flatMap fun
    | .sent tx => [.added tx]
    | .refunded tx => [.refunded tx]
    | .batchStored batch => [.built batch.batchNonce]
    | .executed batch => [.executed batch]
    | _ => []

/-- The batches that were observed executed. -/
def settledBatches (trace : List BridgeOutput) : List OutgoingTxBatch :=
  trace.flatMap fun
    | .executed batch => [batch]
    | _ => []

/-- An entry of the protocol's log stands for a log of the contract. -/
def StandsFor (entry : Option OutgoingTxBatch × Nat) (log : GravityEvent × Nat) : Prop :=
  entry.2 = log.2 ∧
    match log.1 with
    | .transactionBatchExecuted batchNonce token _ =>
        ∃ batch, entry.1 = some batch ∧ batch.batchNonce = batchNonce ∧
          hexToAddress batch.tokenContract = token
    | _ => entry.1 = none

/-- The state of the protocol behind the two chains. -/
structure Follows {τ : Type} (spelling : Spelling) (stored executed : List OutgoingTxBatch)
    (paid : List BatchArgs) (eth : Ethereum τ) (oracle : Oracle) (outgoing : Outgoing)
    (protocol : Settlement OutgoingTxBatch EthAddress) : Prop where
  safe : protocol.Safe batchTerms
  canonical : ∀ batch ∈ stored, spelling.Canonical batch.tokenContract
  stored : ∀ batch, batch ∈ protocol.stored ↔ batch ∈ stored
  opened : ∀ batch, batch ∈ protocol.opened ↔ outgoing.batches.get batch.key = some batch
  settled : ∀ batch, batch ∈ protocol.settled ↔ batch ∈ executed
  log : List.Forall₂ StandsFor protocol.log eth.logs
  observed : protocol.observed = oracle.lastObservedEventNonce
  horizon : protocol.horizon = oracle.lastObservedEthereumBlockHeight.ethereumBlockHeight
  last : protocol.last = eth.gravity.lastBatchNonces
  block : protocol.block = eth.blockNumber
  paid : protocol.accepted.map OutgoingTxBatch.args = paid

/-- Steps of the protocol. -/
abbrev ProtocolSteps : Settlement OutgoingTxBatch EthAddress → Settlement OutgoingTxBatch EthAddress →
    Prop := Relation.ReflTransGen (Settlement.Step batchTerms)

section Follows

variable {τ : Type} {spelling : Spelling} {stored executed : List OutgoingTxBatch}
  {paid : List BatchArgs} {eth : Ethereum τ} {oracle : Oracle} {outgoing : Outgoing}
  {protocol : Settlement OutgoingTxBatch EthAddress}

/-- Two stored batches of one token spell it the same way. -/
theorem Follows.tokenContract_eq (follows : Follows spelling stored executed paid eth oracle outgoing
    protocol) {first second : OutgoingTxBatch} (inFirst : first ∈ protocol.stored)
    (inSecond : second ∈ protocol.stored) :
    hexToAddress first.tokenContract = hexToAddress second.tokenContract ↔
      first.tokenContract = second.tokenContract := by
  refine ⟨fun same => ?_, congrArg hexToAddress⟩
  have spelled := follows.canonical first ((follows.stored first).mp inFirst)
  have spelled' := follows.canonical second ((follows.stored second).mp inSecond)
  rw [← spelled, ← spelled', same]

/-! ### Steps of the contract -/

/-- **A call that accepts no batch** writes entries the module does not wait for. -/
theorem Follows.quiet (follows : Follows spelling stored executed paid eth oracle outgoing protocol)
    {after : Ethereum τ} (quiet : eth.Quiet after) :
    ∃ next, ProtocolSteps protocol next ∧
      Follows spelling stored executed paid after oracle outgoing next := by
  obtain ⟨new, logs, entries⟩ := quiet.logs
  have steps : ProtocolSteps protocol
      { protocol with log := protocol.log ++ List.replicate new.length (none, protocol.block) } :=
    Settlement.steps_other protocol new.length
  have noBatch : (List.replicate new.length ((none : Option OutgoingTxBatch),
      protocol.block)).filterMap Prod.fst = [] := by
    rw [List.filterMap_replicate]
  have same := follows.safe.observed_le
  refine ⟨_, steps, (follows.safe.of_steps steps).1, follows.canonical, follows.stored,
    follows.opened, ?_, ?_, follows.observed, ?_, follows.last.trans quiet.lastBatchNonces.symm,
    follows.block.trans quiet.blockNumber.symm, ?_⟩
  · rw [Settlement.settled, List.take_append_of_le_length same]
    exact follows.settled
  · rw [logs]
    refine List.rel_append follows.log ?_
    rw [List.forall₂_iff_get]
    refine ⟨by simp, fun index _ bound => ?_⟩
    obtain ⟨notBatch, block⟩ := entries (new.get ⟨index, bound⟩) (List.get_mem _ _)
    rw [List.get_eq_getElem, List.getElem_replicate]
    refine ⟨follows.block.trans block.symm, ?_⟩
    split
    · rename_i isBatch
      rw [isBatch] at notBatch
      cases notBatch
    · rfl
  · rw [Settlement.horizon, List.take_append_of_le_length same]
    exact follows.horizon
  · rw [Settlement.accepted, List.filterMap_append, noBatch, List.append_nil]
    exact follows.paid

/-- **An accepted batch** is one the module stored, accepted by the protocol too. -/
theorem Follows.submitBatch (follows : Follows spelling stored executed paid eth oracle outgoing
    protocol) {evm : Evm} {sender : EthAddress} {currentValset : ValsetArgs}
    {signatures : Signatures} {batch : OutgoingTxBatch} {after : Ethereum τ} (known : batch ∈ stored)
    (accepts : eth.Accepts evm sender (.submitBatch currentValset signatures batch.args) after) :
    ∃ next, ProtocolSteps protocol next ∧
      Follows spelling stored executed (paid ++ [batch.args]) after oracle outgoing next := by
  obtain ⟨higher, early, _⟩ := accepts.passes
  obtain ⟨nested, event, logs, deployments, reports⟩ := accepts.logs
  -- the deployments nested in the payments are logged first
  have before : eth.Quiet { eth with logs := eth.logs ++ nested } := by
    refine ⟨rfl, rfl, nested, rfl, fun log member => ?_⟩
    obtain ⟨deployment, block⟩ := deployments log member
    exact ⟨isBatch_of_isDeployment deployment, block⟩
  obtain ⟨logged, steps, follows⟩ := follows.quiet before
  have higherThere : logged.last (batchTerms.token batch) < batchTerms.nonce batch := by
    rw [follows.last]
    exact higher
  have earlyThere : logged.block < batchTerms.timeout batch := by
    rw [follows.block]
    exact early
  have step : Settlement.Step batchTerms logged _ :=
    .accept batch ((follows.stored batch).mpr known) higherThere earlyThere
  have same := follows.safe.observed_le
  refine ⟨_, steps.tail step, follows.safe.step step, follows.canonical, follows.stored,
    follows.opened, ?_, ?_, follows.observed, ?_, ?_, ?_, ?_⟩
  · rw [Settlement.settled, List.take_append_of_le_length same]
    exact follows.settled
  · rw [logs, reports]
    refine List.rel_append follows.log ?_
    refine List.Forall₂.cons ⟨follows.block, ?_⟩ List.Forall₂.nil
    exact ⟨batch, rfl, rfl, rfl⟩
  · rw [Settlement.horizon, List.take_append_of_le_length same]
    exact follows.horizon
  · rw [accepts.gravity]
    show Function.update logged.last _ _ = Function.update eth.gravity.lastBatchNonces _ _
    rw [follows.last]
    rfl
  · rw [accepts.blockNumber]
    exact follows.block
  · rw [Settlement.accepted, List.filterMap_append, List.map_append, ← Settlement.accepted,
      follows.paid]
    rfl

theorem Follows.mine (follows : Follows spelling stored executed paid eth oracle outgoing protocol)
    (contracts : τ) (newBlocks : Nat) :
    ∃ next, ProtocolSteps protocol next ∧
      Follows spelling stored executed paid
        { eth with contracts := contracts, blockNumber := eth.blockNumber + newBlocks } oracle outgoing
        next := by
  have step : Settlement.Step batchTerms protocol _ :=
    .mine (protocol.block + newBlocks) (Nat.le_add_right _ _)
  exact ⟨_, .single step, follows.safe.step step, follows.canonical, follows.stored, follows.opened,
    follows.settled, follows.log, follows.observed, follows.horizon, follows.last,
    by rw [follows.block], follows.paid⟩

/-! ### Steps of the module -/

/-- A step that leaves the stored batches as they are. -/
theorem Follows.keep (follows : Follows spelling stored executed paid eth oracle outgoing protocol)
    {oracle' : Oracle} {outgoing' : Outgoing} (batches : outgoing'.batches = outgoing.batches)
    (observed : oracle'.lastObservedEventNonce = oracle.lastObservedEventNonce)
    (height : oracle'.lastObservedEthereumBlockHeight = oracle.lastObservedEthereumBlockHeight) :
    Follows spelling stored executed paid eth oracle' outgoing' protocol :=
  { follows with
    opened := by rw [batches]; exact follows.opened
    observed := follows.observed.trans observed.symm
    horizon := by rw [height]; exact follows.horizon }

/-- **A new batch is stored.** -/
theorem Follows.store (follows : Follows spelling stored executed paid eth oracle outgoing protocol)
    {batch : OutgoingTxBatch} {after : Outgoing} (sound : outgoing.Sound)
    (built : Outgoing.Built outgoing batch after)
    (new : batch ∉ stored) (canonical : spelling.Canonical batch.tokenContract) :
    ∃ next, ProtocolSteps protocol next ∧
      Follows spelling (stored ++ [batch]) executed paid eth oracle after next := by
  have step : Settlement.Step batchTerms protocol _ :=
    .store batch (mt (follows.stored batch).mp new)
  refine ⟨_, .single step, follows.safe.step step, ?_, fun other => ?_, fun other => ?_,
    follows.settled, follows.log, follows.observed, follows.horizon, follows.last, follows.block,
    follows.paid⟩
  · intro other member
    rcases List.mem_append.mp member with old | isNew
    · exact follows.canonical other old
    · exact List.mem_singleton.mp isNew ▸ canonical
  · rw [Set.mem_insert_iff, List.mem_append, List.mem_singleton, follows.stored, or_comm]
  · rw [Set.mem_insert_iff, follows.opened, built.batches, Store.get_set]
    split_ifs with sameKey
    · -- the key of the new batch was free
      have nonce := (getOutgoingTxBatchKey_inj.mp sameKey).2
      constructor
      · rintro (rfl | old)
        · rfl
        · have issued := sound.noncesIssued _ _ old
          have isNext := built.nonce
          omega
      · intro found
        exact Or.inl (Option.some.inj found).symm
    · constructor
      · rintro (rfl | old)
        · exact absurd rfl sameKey
        · exact old
      · exact Or.inr

/-- **The clean-up gives up what is below the horizon.** -/
theorem Follows.cleanup (follows : Follows spelling stored executed paid eth oracle outgoing protocol)
    {after : Outgoing}
    (swept : Outgoing.Swept (fun batch => outgoing.batches.get batch.key = some batch ∧
      batch.batchTimeout < oracle.lastObservedEthereumBlockHeight.ethereumBlockHeight) outgoing after) :
    ∃ next, ProtocolSteps protocol next ∧
      Follows spelling stored executed paid eth oracle after next := by
  have step : Settlement.Step batchTerms protocol _ := .expire
  refine ⟨_, .single step, follows.safe.step step, follows.canonical, follows.stored, fun batch => ?_,
    follows.settled, follows.log, follows.observed, follows.horizon, follows.last, follows.block,
    follows.paid⟩
  rw [swept.batches]
  show batch ∈ protocol.opened ∧ ¬ batch.batchTimeout < protocol.horizon ↔ _
  rw [follows.opened, follows.horizon]
  exact ⟨fun kept => ⟨kept.1, fun gone => kept.2 gone.2⟩,
    fun kept => ⟨kept.1, fun late => kept.2 ⟨kept.1, late⟩⟩⟩

/-! ### Observing -/

/-- The entry a claim speaks about: the batch of a batch claim, and nothing for the others. -/
def Announces : EthereumClaim → Option OutgoingTxBatch → Prop
  | .batchSendToEth msg, slot => ∃ batch, slot = some batch ∧ batch.batchNonce = msg.batchNonce ∧
      batch.tokenContract = msg.tokenContract
  | _, slot => slot = none

theorem Ethereum.WellLogged.getElem?_of_nonce (well : eth.WellLogged) {log : GravityEvent × Nat}
    (member : log ∈ eth.logs) {index : Nat} (nonce : log.1.eventNonce = index + 1) :
    eth.logs[index]? = some log := by
  obtain ⟨place, bound, isLog⟩ := List.getElem_of_mem member
  have atPlace : (eth.logs.map fun log => log.1.eventNonce)[place]? = some log.1.eventNonce := by
    rw [List.getElem?_map, List.getElem?_eq_getElem bound, isLog]
    rfl
  rw [well.nonces, List.getElem?_range' (by omega), nonce] at atPlace
  have same : place = index := by
    have equal := Option.some.inj atPlace
    omega
  rw [← same, List.getElem?_eq_getElem bound, isLog]

theorem Spelling.getEventNonce_claimOf (spelling : Spelling) (log : GravityEvent × Nat) :
    (spelling.claimOf log).getEventNonce = log.1.eventNonce := by
  obtain ⟨event, block⟩ := log
  cases event <;> rfl

theorem Spelling.getBlockHeight_claimOf (spelling : Spelling) (log : GravityEvent × Nat) :
    (spelling.claimOf log).getBlockHeight = log.2 := by
  obtain ⟨event, block⟩ := log
  cases event <;> rfl

/-- **An honest claim of the next nonce speaks about the next entry**, in its block. -/
theorem Follows.next_entry (follows : Follows spelling stored executed paid eth oracle outgoing
    protocol) (well : eth.WellLogged) {claim : EthereumClaim} (reports : spelling.Reports eth.logs claim)
    (next : claim.getEventNonce = oracle.lastObservedEventNonce + 1) :
    ∃ entry, protocol.log[protocol.observed]? = some entry ∧ entry.2 = claim.getBlockHeight ∧
      Announces claim entry.1 := by
  obtain ⟨log, member, same⟩ := reports
  have nonce : log.1.eventNonce = protocol.observed + 1 := by
    rw [← spelling.getEventNonce_claimOf, ← EthereumClaim.getEventNonce_of_sameEvent same, next,
      follows.observed]
  have found := well.getElem?_of_nonce member nonce
  obtain ⟨bound, atPlace⟩ := List.getElem?_eq_some_iff.mp found
  have bound' : protocol.observed < protocol.log.length := follows.log.length_eq ▸ bound
  have standsFor : StandsFor protocol.log[protocol.observed] log := by
    rw [← atPlace]
    exact follows.log.get bound' bound
  refine ⟨_, List.getElem?_eq_getElem bound', ?_, ?_⟩
  · rw [EthereumClaim.getBlockHeight_of_sameEvent same, spelling.getBlockHeight_claimOf]
    exact standsFor.1
  · obtain ⟨event, block⟩ := log
    cases event with
    | transactionBatchExecuted batchNonce token eventNonce =>
        obtain ⟨batch, isBatch, nonceIs, tokenIs⟩ := standsFor.2
        have known : batch ∈ stored := by
          refine (follows.stored batch).mp (follows.safe.accepted_stored batch ?_)
          exact List.mem_filterMap.mpr ⟨_, List.getElem_mem bound', isBatch⟩
        cases claim with
        | batchSendToEth msg =>
            have fields : ({ msg with orchestrator := [] } : MsgBatchSendToEthClaim) =
              ⟨eventNonce, block, batchNonce, spelling.address token, []⟩ := same
            refine ⟨batch, isBatch, ?_, ?_⟩
            · exact nonceIs.trans (congrArg MsgBatchSendToEthClaim.batchNonce fields).symm
            · have spelled := follows.canonical batch known
              rw [← spelled, tokenIs]
              exact (congrArg MsgBatchSendToEthClaim.tokenContract fields).symm
        | _ => exact same.elim
    | sendToCosmos _ _ _ _ _ =>
        cases claim with
        | sendToCosmos msg => exact standsFor.2
        | _ => exact same.elim
    | erc20Deployed _ _ _ _ _ _ =>
        cases claim with
        | erc20Deployed msg => exact standsFor.2
        | _ => exact same.elim
    | valsetUpdated _ _ _ _ _ _ =>
        cases claim with
        | valsetUpdated msg => exact standsFor.2
        | _ => exact same.elim
    | logicCall _ _ _ _ =>
        cases claim with
        | logicCallExecuted msg => exact standsFor.2
        | _ => exact same.elim

/-- An observed event that is not about a batch. -/
theorem Follows.observe_none (follows : Follows spelling stored executed paid eth oracle outgoing
    protocol) {entry : Option OutgoingTxBatch × Nat}
    (found : protocol.log[protocol.observed]? = some entry) (slot : entry.1 = none) {after : Oracle}
    (observed : after.lastObservedEventNonce = oracle.lastObservedEventNonce + 1)
    (height : after.lastObservedEthereumBlockHeight.ethereumBlockHeight = entry.2) :
    ∃ next, ProtocolSteps protocol next ∧
      Follows spelling stored executed paid eth after outgoing next := by
  have step : Settlement.Step batchTerms protocol _ := .observe entry found
  refine ⟨_, .single step, follows.safe.step step, follows.canonical, follows.stored, fun batch => ?_,
    fun batch => ?_, follows.log, by rw [observed, follows.observed], ?_, follows.last, follows.block,
    follows.paid⟩
  · rw [← follows.opened]
    exact ⟨And.left, fun member => ⟨member, fun done isDone => by rw [slot] at isDone; cases isDone⟩⟩
  · rw [Settlement.settled, Settlement.settled_observe found, slot, Option.toList_none,
      List.append_nil]
    exact follows.settled batch
  · rw [Settlement.horizon, Settlement.horizon_observe found, height]

/-- **An observed batch is still stored**, and it is settled. -/
theorem Follows.observe_batch (follows : Follows spelling stored executed paid eth oracle outgoing
    protocol) {entry : Option OutgoingTxBatch × Nat}
    (found : protocol.log[protocol.observed]? = some entry) {batch : OutgoingTxBatch}
    (slot : entry.1 = some batch) :
    outgoing.batches.get batch.key = some batch ∧
      ∀ {after : Oracle} {settled : Outgoing},
        after.lastObservedEventNonce = oracle.lastObservedEventNonce + 1 →
        after.lastObservedEthereumBlockHeight.ethereumBlockHeight = entry.2 →
        Outgoing.Executed outgoing batch settled →
        ∃ next, ProtocolSteps protocol next ∧
          Follows spelling stored (executed ++ [batch]) paid eth after settled next := by
  have isOpen : batch ∈ protocol.opened := by
    obtain ⟨_, block⟩ := entry
    obtain rfl := slot
    exact follows.safe.opened_of_next found
  refine ⟨(follows.opened batch).mp isOpen, fun {after settled} observed height done => ?_⟩
  have step : Settlement.Step batchTerms protocol _ := .observe entry found
  refine ⟨_, .single step, follows.safe.step step, follows.canonical, follows.stored, fun other => ?_,
    fun other => ?_, follows.log, by rw [observed, follows.observed], ?_, follows.last, follows.block,
    follows.paid⟩
  · rw [done.batches, ← follows.opened]
    have closes : other ∈ protocol.opened → (Settlement.Closes batchTerms batch other ↔
        other = batch ∨ (other.batchNonce < batch.batchNonce ∧
          other.tokenContract = batch.tokenContract)) := by
      intro member
      have spelled := follows.tokenContract_eq (follows.safe.opened_stored member)
        (follows.safe.opened_stored isOpen)
      exact or_congr_right (and_congr_right fun _ => spelled)
    constructor
    · rintro ⟨member, keeps⟩
      exact ⟨member, not_or.mp (mt (closes member).mpr (keeps batch slot))⟩
    · rintro ⟨member, keeps⟩
      refine ⟨member, fun done isDone => ?_⟩
      rw [slot] at isDone
      obtain rfl := Option.some.inj isDone
      exact mt (closes member).mp (not_or.mpr keeps)
  · rw [Settlement.settled, Settlement.settled_observe found, slot, List.mem_append, follows.settled,
      List.mem_append]
    simp
  · rw [Settlement.horizon, Settlement.horizon_observe found, height]

end Follows

/-! ### A tally -/

section Tally

variable {β τ : Type} {sdk : Sdk} {bank : BankKeeper β} {params : Params} {spelling : Spelling}
  {stored executed : List OutgoingTxBatch} {paid : List BatchArgs} {eth : Ethereum τ}
  {history : List PoolOutput} {protocol : Settlement OutgoingTxBatch EthAddress}

theorem executedBatches_append (outgoing : Outgoing) (first second : List EthereumClaim) :
    executedBatches outgoing (first ++ second) =
      executedBatches outgoing first ++ executedBatches outgoing second := List.flatMap_append

theorem executedBatches_of_batch {outgoing : Outgoing} (sound : outgoing.Sound)
    {msg : MsgBatchSendToEthClaim} {batch : OutgoingTxBatch}
    (found : outgoing.batches.get batch.key = some batch) (nonce : batch.batchNonce = msg.batchNonce)
    (token : batch.tokenContract = msg.tokenContract) :
    executedBatches outgoing [.batchSendToEth msg] = [batch] := by
  have key : outgoing.batches.get (getOutgoingTxBatchKey msg.tokenContract msg.batchNonce) =
      some batch := by
    rw [← nonce, ← token]
    exact found
  obtain ⟨_, _, read⟩ := sound.getOutgoingTXBatch_of_stored key
  simp [executedBatches, read]

/-- What the handler does to the records when it observes an honest claim. -/
theorem handle_known (sdk : Sdk) (bank : BankKeeper β) (params : Params)
    {msg : MsgBatchSendToEthClaim} {app : ModuleState β} (sound : app.outgoing.Sound)
    {batch : OutgoingTxBatch} (found : app.outgoing.batches.get batch.key = some batch)
    (nonce : batch.batchNonce = msg.batchNonce) (token : batch.tokenContract = msg.tokenContract)
    (att : Attestation) :
    ∃ settled, Outgoing.Executed app.outgoing batch settled ∧
      handle sdk bank params att (.batchSendToEth msg) app =
        .ok { app with outgoing := settled } := by
  have key : app.outgoing.batches.get (getOutgoingTxBatchKey msg.tokenContract msg.batchNonce) =
      some batch := by
    rw [← nonce, ← token]
    exact found
  obtain ⟨settled, done, executed⟩ := sound.outgoingTxBatchExecuted_executed key
  refine ⟨settled, executed, ?_⟩
  simp only [handle, handleBatchSendToEth, done]

/-- The state after some observations of a tally that started with the records `start`: the batches
that were executed on the way are settled, and no batch has appeared. -/
structure TallyFollows (spelling : Spelling) (stored executed : List OutgoingTxBatch)
    (paid : List BatchArgs) (eth : Ethereum τ) (history : List PoolOutput) (start : Outgoing)
    (protocol : Settlement OutgoingTxBatch EthAddress) (ctx : Ctx (ModuleState β) HandleError) :
    Prop where
  pool : PoolInvariant (history ++ (executedBatches start
    (ctx.observations.map Observation.claim)).map .executed) ctx.app
  batches : ∀ key batch, ctx.app.outgoing.batches.get key = some batch →
    start.batches.get key = some batch
  follows : ∃ next, ProtocolSteps protocol next ∧
    Follows spelling stored (executed ++ executedBatches start
      (ctx.observations.map Observation.claim)) paid eth ctx.oracle ctx.app.outgoing next

/-- The index stays well spelled when an honest claim enters a token. -/
theorem HandleEffect.addresses {claim : EthereumClaim} {before after : ModuleState β}
    (effect : HandleEffect claim before after) (addresses : before.index.Addresses)
    (reports : spelling.Reports eth.logs claim) : after.index.Addresses := by
  cases claim with
  | erc20Deployed msg =>
      obtain ⟨_, index⟩ := effect
      obtain ⟨⟨event, block⟩, _, same⟩ := reports
      rw [index]
      intro denom contract found
      rcases Store.of_get_set found with ⟨_, rfl⟩ | earlier
      · cases event with
        | erc20Deployed denom' token name symbol decimals nonce =>
            have spelled : msg.tokenContract = spelling.address token :=
              congrArg MsgERC20DeployedClaim.tokenContract same
            rw [spelled]
            exact length_of_validateEthAddress (spelling.valid token)
        | _ => exact same.elim
      · exact addresses denom contract earlier
  | sendToCosmos msg => exact effect.2.symm ▸ addresses
  | batchSendToEth msg => exact effect.2.symm ▸ addresses
  | logicCallExecuted msg => exact effect.2.symm ▸ addresses
  | valsetUpdated msg => exact effect.2.symm ▸ addresses

/-- **One observation of a tally.** -/
theorem TallyFollows.observe {staking : StakingPowers} {blockHeight : Nat} {snapshot : Oracle}
    {start : Outgoing} {before after : Ctx (ModuleState β) HandleError} (well : eth.WellLogged)
    (startSound : start.Sound)
    (holds : TallyFollows spelling stored executed paid eth history start protocol before)
    (step : ObserveStep sdk staking (handle sdk bank params) blockHeight snapshot before after)
    (honest : ∀ observation ∈ after.observations, spelling.Reports eth.logs observation.claim) :
    TallyFollows spelling stored executed paid eth history start protocol after := by
  obtain ⟨att, _, _, _, nonce, app, failure, processed, rfl⟩ := step
  obtain ⟨current, steps, follows⟩ := holds.follows
  have reports : spelling.Reports eth.logs att.claim.sortMembers :=
    honest _ (List.mem_append_right _ (List.mem_singleton_self _))
  rw [← EthereumClaim.getEventNonce_sortMembers] at nonce
  obtain ⟨entry, found, block, announces⟩ := follows.next_entry well reports nonce
  have observed : (before.oracle.observe sdk blockHeight att).lastObservedEventNonce =
      before.oracle.lastObservedEventNonce + 1 := by
    rw [← nonce, EthereumClaim.getEventNonce_sortMembers]
    rfl
  have height : (before.oracle.observe sdk
      blockHeight att).lastObservedEthereumBlockHeight.ethereumBlockHeight = entry.2 := by
    rw [block, EthereumClaim.getBlockHeight_sortMembers]
    rfl
  rw [processAttestation] at processed
  by_cases isBatch : ∃ msg, att.claim.sortMembers = .batchSendToEth msg
  · obtain ⟨msg, claimIs⟩ := isBatch
    rw [claimIs] at announces processed
    obtain ⟨batch, slot, nonceIs, tokenIs⟩ := announces
    obtain ⟨present, settle⟩ := follows.observe_batch found slot
    obtain ⟨settled, done, handled⟩ := handle_known sdk bank params
      holds.pool.sound present nonceIs tokenIs { att with observed := true }
    rw [handled] at processed
    obtain ⟨rfl, rfl⟩ := Prod.mk.inj (Outcome.ok.inj processed)
    have nowExecuted := executedBatches_of_batch startSound (holds.batches _ _ present) nonceIs tokenIs
    obtain ⟨next, more, followsNext⟩ := settle observed height done
    have claims : executedBatches start ((before.observations ++
        [(⟨{ att with observed := true }, att.claim.sortMembers, none⟩ :
          Observation HandleError)]).map Observation.claim) =
        executedBatches start (before.observations.map Observation.claim) ++ [batch] := by
      rw [List.map_append, executedBatches_append, List.map_singleton, claimIs, nowExecuted]
    refine ⟨?_, fun key other kept => ?_, next, steps.trans more, ?_⟩
    · rw [claims, List.map_append, ← List.append_assoc]
      exact holds.pool.release holds.pool.addresses done.released rfl rfl
        (by simp [refundedTxs, executedTxs])
    · exact holds.batches key other ((done.batches key other).mp kept).1
    · rw [claims, ← List.append_assoc]
      exact followsNext
  · -- any other claim leaves the records alone, whether it is applied or fails
    have nothing : executedBatches start [att.claim.sortMembers] = [] := by
      cases claimIs : att.claim.sortMembers with
      | batchSendToEth msg => exact absurd ⟨msg, claimIs⟩ isBatch
      | _ => rfl
    have slot : entry.1 = none := by
      cases claimIs : att.claim.sortMembers with
      | batchSendToEth msg => exact absurd ⟨msg, claimIs⟩ isBatch
      | _ => rw [claimIs] at announces; exact announces
    have claims : ∀ failure, executedBatches start ((before.observations ++
        [(⟨{ att with observed := true }, att.claim.sortMembers, failure⟩ :
          Observation HandleError)]).map Observation.claim) =
        executedBatches start (before.observations.map Observation.claim) := by
      intro failure
      rw [List.map_append, executedBatches_append, List.map_singleton, nothing, List.append_nil]
    have same : app.outgoing = before.app.outgoing ∧ app.index.Addresses := by
      split at processed
      · rename_i handled
        obtain ⟨rfl, rfl⟩ := Prod.mk.inj (Outcome.ok.inj processed)
        have effect := handle_effect handled
        refine ⟨?_, effect.addresses holds.pool.addresses reports⟩
        cases claimIs : att.claim.sortMembers with
        | batchSendToEth msg => exact absurd ⟨msg, claimIs⟩ isBatch
        | _ => rw [claimIs] at effect; exact effect.1
      · obtain ⟨rfl, rfl⟩ := Prod.mk.inj (Outcome.ok.inj processed)
        exact ⟨rfl, holds.pool.addresses⟩
      · cases processed
    obtain ⟨next, more, followsNext⟩ := follows.observe_none found slot observed height
    refine ⟨?_, fun key other kept => ?_, next, steps.trans more, ?_⟩
    · rw [claims]
      have kept := holds.pool.keep same.2 same.1
      rwa [List.append_nil] at kept
    · exact holds.batches key other (same.1 ▸ kept)
    · rw [claims, same.1]
      exact followsNext

/-- **A tally is followed observation by observation.** -/
theorem TallyFollows.chain {staking : StakingPowers} {blockHeight : Nat} {snapshot oracle : Oracle}
    {app : ModuleState β} {ctx : Ctx (ModuleState β) HandleError} (well : eth.WellLogged)
    (pool : PoolInvariant history app)
    (follows : Follows spelling stored executed paid eth oracle app.outgoing protocol)
    (chain : Relation.ReflTransGen (ObserveStep sdk staking (handle sdk bank params) blockHeight
      snapshot) ⟨oracle, app, []⟩ ctx)
    (honest : ∀ observation ∈ ctx.observations, spelling.Reports eth.logs observation.claim) :
    TallyFollows spelling stored executed paid eth history app.outgoing protocol ctx := by
  induction chain with
  | refl =>
      refine ⟨?_, fun _ _ => id, protocol, .refl, ?_⟩
      · exact (List.append_nil history).symm ▸ pool
      · exact (List.append_nil executed).symm ▸ follows
  | tail _ step ih =>
      refine (ih fun observation member => honest observation ?_).observe well pool.sound step honest
      obtain ⟨_, _, _, _, _, _, _, _, rfl⟩ := step
      exact List.mem_append_left _ member

/-- **An honest claim never names an unknown batch.** -/
theorem TallyFollows.known {start : Outgoing} {ctx : Ctx (ModuleState β) HandleError}
    (well : eth.WellLogged)
    (holds : TallyFollows spelling stored executed paid eth history start protocol ctx)
    {att : Attestation} {claim : EthereumClaim} {tokenContract : Bytes} {nonce : Nat}
    (next : claim.getEventNonce = ctx.oracle.lastObservedEventNonce + 1)
    (reports : spelling.Reports eth.logs claim) :
    handle sdk bank params att claim ctx.app ≠
      .panic (.pool (.unknownBatchNonce tokenContract nonce)) := by
  intro panics
  obtain ⟨current, _, follows⟩ := holds.follows
  obtain ⟨entry, found, _, announces⟩ := follows.next_entry well reports next
  cases claim with
  | batchSendToEth msg =>
      obtain ⟨batch, slot, nonceIs, tokenIs⟩ := announces
      obtain ⟨present, _⟩ := follows.observe_batch found slot
      obtain ⟨settled, _, handled⟩ := handle_known sdk bank params
        holds.pool.sound present nonceIs tokenIs att
      rw [handled] at panics
      cases panics
  | _ => exact (handle_meets_of_not_batch (by simp)).panic panics trivial

end Tally

end NabBridge
