/-
**Runs of the two chains.**

`BridgeInvariant` is what is known after any history of the two chains with honest reports: the records
are conserved, the oracle has counted every event once, the logs are those of the history, and there is
a state of the protocol of `Settlement` behind it all. `BridgeInvariant.step`: every action of either
side keeps it. `BridgeInvariant.extend` says once what has to be shown for an action, and there is one
lemma for each kind.
-/

import NabBridge.Proof.Follows
import NabBridge.Proof.OracleRun

namespace NabBridge

/-! ### The history, output by output -/

section History

variable (first second : List BridgeOutput)

@[simp] theorem poolHistory_append :
    poolHistory (first ++ second) = poolHistory first ++ poolHistory second := List.flatMap_append

@[simp] theorem settledBatches_append :
    settledBatches (first ++ second) = settledBatches first ++ settledBatches second :=
  List.flatMap_append

@[simp] theorem storedBatches_append :
    storedBatches (first ++ second) = storedBatches first ++ storedBatches second :=
  List.flatMap_append

@[simp] theorem paidArgs_append : paidArgs (first ++ second) = paidArgs first ++ paidArgs second :=
  List.flatMap_append

@[simp] theorem loggedEvents_append :
    loggedEvents (first ++ second) = loggedEvents first ++ loggedEvents second := List.flatMap_append

theorem executedTxs_poolHistory (trace : List BridgeOutput) :
    executedTxs (poolHistory trace) =
      (settledBatches trace).flatMap OutgoingTxBatch.transactions := by
  induction trace with
  | nil => rfl
  | cons output rest ih =>
      have split : output :: rest = [output] ++ rest := rfl
      rw [split, poolHistory_append, settledBatches_append, List.flatMap_append, ← ih, executedTxs,
        List.flatMap_append]
      cases output <;> simp [poolHistory, settledBatches, executedTxs]

theorem builtNonces_poolHistory (trace : List BridgeOutput) :
    builtNonces (poolHistory trace) = (storedBatches trace).map OutgoingTxBatch.batchNonce := by
  induction trace with
  | nil => rfl
  | cons output rest ih =>
      have split : output :: rest = [output] ++ rest := rfl
      rw [split, poolHistory_append, storedBatches_append, List.map_append, ← ih, builtNonces,
        List.flatMap_append]
      cases output <;> simp [poolHistory, storedBatches, builtNonces]

end History

/-- Reading a list of outputs of one kind. -/
theorem flatMap_map_eq {ι γ : Type} {kind : ι → BridgeOutput} {pick : BridgeOutput → List γ}
    {read : ι → List γ} (items : List ι) (reads : ∀ item, pick (kind item) = read item) :
    (items.map kind).flatMap pick = items.flatMap read := by
  rw [List.flatMap_map]
  exact congrArg (fun pick => items.flatMap pick) (funext reads)

theorem flatMap_none {ι γ : Type} (items : List ι) : items.flatMap (fun _ => ([] : List γ)) = [] :=
  List.flatMap_eq_nil_iff.mpr fun _ _ => rfl

/-- The history of a block, kind by kind. -/
theorem flatMap_endBlockOutputs {γ : Type} (pick : BridgeOutput → List γ) (before after : Outgoing)
    (report : EndBlockReport) (observed : ∀ claim, pick (.observed claim) = [])
    (cancelled : ∀ batch, pick (.cancelled batch) = [])
    (valset : ∀ valset, pick (.valsetStored valset) = []) :
    (endBlockOutputs before after report).flatMap pick =
      (executedBatches before (report.observations.map Observation.claim)).flatMap
        fun batch => pick (.executed batch) := by
  have made : ((report.valset.map BridgeOutput.valsetStored).toList).flatMap pick = [] := by
    cases report.valset with
    | none => rfl
    | some made =>
        rw [Option.map_some, Option.toList_some, List.flatMap_singleton]
        exact valset made
  rw [endBlockOutputs]
  simp only [List.flatMap_append]
  rw [made, flatMap_map_eq _ observed, flatMap_map_eq _ cancelled, flatMap_none, flatMap_none,
    List.flatMap_map, List.nil_append, List.append_nil, List.append_nil]

/-- The history of a call: the call itself, then its logs. -/
theorem flatMap_callOutputs {τ γ : Type} (pick : BridgeOutput → List γ) (sender : EthAddress)
    (call : GravityCall) (before after : Ethereum τ) :
    (callOutputs sender call before after).flatMap pick =
      pick (.accepted sender call) ++ (after.logs.drop before.logs.length).flatMap
        fun log => pick (.logged log.1 log.2) := by
  rw [callOutputs, List.flatMap_cons, List.flatMap_map]

/-! ### The invariant -/

/-- Everything known of the two chains after a history. -/
structure BridgeInvariant {β τ : Type} (sdk : Sdk) (spelling : Spelling)
    (deployment : List (GravityEvent × Nat)) (past : List BridgeOutput) (state : Bridge β τ) :
    Prop where
  pool : PoolInvariant (poolHistory past) state.chain.app
  oracle : ∃ outputs : List (OracleOutput HandleError), OracleInvariant sdk outputs state.chain.oracle
  wellLogged : state.eth.WellLogged
  logs : state.eth.logs = deployment ++ loggedEvents past
  spelled : ∀ tx ∈ addedTxs (poolHistory past), spelling.Canonical tx.erc20Token.contract
  protocol : ∃ protocol, Follows spelling (storedBatches past) (settledBatches past) (paidArgs past)
    state.eth state.chain.oracle state.chain.app.outgoing protocol ∧
    ∀ batch, .cancelled batch ∈ past → batch ∈ protocol.abandoned
  known : ∀ claims tokenContract nonce, .halted (.tally (.handler claims
    (.pool (.unknownBatchNonce tokenContract nonce)))) ∉ past

section Steps

variable {β τ : Type} {sdk : Sdk} {bank : BankKeeper β} {geth : Geth} {params : Params} {evm : Evm}
  {others : Contracts τ} {spelling : Spelling} {deployment : List (GravityEvent × Nat)}
  {past : List BridgeOutput} {state : Bridge β τ}

/-- A step of the protocol behind a step of the chains. -/
def Moves (spelling : Spelling) (past outputs : List BridgeOutput) (state next : Bridge β τ) : Prop :=
  ∀ protocol, Follows spelling (storedBatches past) (settledBatches past) (paidArgs past) state.eth
      state.chain.oracle state.chain.app.outgoing protocol →
    ∃ after, ProtocolSteps protocol after ∧
      Follows spelling (storedBatches past ++ storedBatches outputs)
        (settledBatches past ++ settledBatches outputs) (paidArgs past ++ paidArgs outputs) next.eth
        next.chain.oracle next.chain.app.outgoing after ∧
      ∀ batch, .cancelled batch ∈ outputs → batch ∈ after.abandoned

/-- **A step keeps the invariant** when the records, the logs and the protocol move together. -/
theorem BridgeInvariant.extend (invariant : BridgeInvariant sdk spelling deployment past state)
    {next : Bridge β τ} {outputs : List BridgeOutput}
    (pool : PoolInvariant (poolHistory past ++ poolHistory outputs) next.chain.app)
    (oracle : ∃ outputs : List (OracleOutput HandleError),
      OracleInvariant sdk outputs next.chain.oracle)
    (wellLogged : next.eth.WellLogged)
    (logs : next.eth.logs = state.eth.logs ++ loggedEvents outputs)
    (spelled : ∀ tx ∈ addedTxs (poolHistory outputs), spelling.Canonical tx.erc20Token.contract)
    (moves : Moves spelling past outputs state next)
    (known : ∀ claims tokenContract nonce, .halted (.tally (.handler claims
      (.pool (.unknownBatchNonce tokenContract nonce)))) ∉ outputs) :
    BridgeInvariant sdk spelling deployment (past ++ outputs) next := by
  obtain ⟨current, follows, gone⟩ := invariant.protocol
  obtain ⟨after, steps, followsNext, goneNow⟩ := moves current follows
  refine ⟨?_, oracle, wellLogged, ?_, fun tx member => ?_, ⟨after, ?_, fun batch member => ?_⟩,
    fun claims tokenContract nonce member => ?_⟩
  · rwa [poolHistory_append]
  · rw [loggedEvents_append, ← List.append_assoc, ← invariant.logs, logs]
  · rw [poolHistory_append, addedTxs, List.flatMap_append] at member
    exact (List.mem_append.mp member).elim (invariant.spelled tx) (spelled tx)
  · rwa [storedBatches_append, settledBatches_append, paidArgs_append]
  · rcases List.mem_append.mp member with old | new
    · exact (follows.safe.of_steps steps).2 (gone batch old)
    · exact goneNow batch new
  · exact (List.mem_append.mp member).elim (invariant.known _ _ _) (known _ _ _)

/-- A step without outputs. -/
theorem BridgeInvariant.silent (invariant : BridgeInvariant sdk spelling deployment past state)
    {next : Bridge β τ} (index : next.chain.app.index = state.chain.app.index)
    (outgoing : next.chain.app.outgoing = state.chain.app.outgoing)
    (oracle : ∃ outputs : List (OracleOutput HandleError),
      OracleInvariant sdk outputs next.chain.oracle)
    (wellLogged : next.eth.WellLogged) (logs : next.eth.logs = state.eth.logs)
    (moves : Moves spelling past [] state next) :
    BridgeInvariant sdk spelling deployment (past ++ []) next := by
  refine invariant.extend ?_ oracle wellLogged ?_ ?_ moves ?_
  · exact invariant.pool.keep (index ▸ invariant.pool.addresses) outgoing
  · exact logs.trans (List.append_nil _).symm
  · exact fun _ member => absurd member List.not_mem_nil
  · exact fun _ _ _ => List.not_mem_nil

/-- Nothing the protocol sees has changed. -/
theorem Moves.stay {outputs : List BridgeOutput} {next : Bridge β τ} (eth : next.eth = state.eth)
    (batches : next.chain.app.outgoing.batches = state.chain.app.outgoing.batches)
    (observed : next.chain.oracle.lastObservedEventNonce = state.chain.oracle.lastObservedEventNonce)
    (height : next.chain.oracle.lastObservedEthereumBlockHeight =
      state.chain.oracle.lastObservedEthereumBlockHeight)
    (stored : storedBatches outputs = []) (settled : settledBatches outputs = [])
    (paid : paidArgs outputs = []) (cancelled : ∀ batch, .cancelled batch ∉ outputs) :
    Moves spelling past outputs state next := by
  intro protocol follows
  refine ⟨protocol, .refl, ?_, fun batch member => absurd member (cancelled batch)⟩
  rw [stored, settled, paid, List.append_nil, List.append_nil, List.append_nil, eth]
  exact follows.keep batches observed height

/-- A send. -/
theorem BridgeInvariant.send (invariant : BridgeInvariant sdk spelling deployment past state)
    {tx : OutgoingTransferTx} {app : ModuleState β} (index : app.index = state.chain.app.index)
    (issued : Outgoing.Issued state.chain.app.outgoing tx app.outgoing)
    (canonical : spelling.Canonical tx.erc20Token.contract) :
    BridgeInvariant sdk spelling deployment (past ++ [.sent tx]) (state.withApp app) := by
  refine invariant.extend (invariant.pool.add (index ▸ invariant.pool.addresses) issued)
    invariant.oracle invariant.wellLogged (List.append_nil _).symm (fun other member => ?_)
    (Moves.stay rfl issued.batches rfl rfl rfl rfl rfl (by simp)) (by simp)
  have same : other = tx := by simpa [poolHistory, addedTxs] using member
  exact same ▸ canonical

/-- A refund. -/
theorem BridgeInvariant.refund (invariant : BridgeInvariant sdk spelling deployment past state)
    {tx : OutgoingTransferTx} {app : ModuleState β} (index : app.index = state.chain.app.index)
    (batches : app.outgoing.batches = state.chain.app.outgoing.batches)
    (released : Outgoing.Released state.chain.app.outgoing [tx] app.outgoing) :
    BridgeInvariant sdk spelling deployment (past ++ [.refunded tx]) (state.withApp app) := by
  refine invariant.extend ?_ invariant.oracle invariant.wellLogged (List.append_nil _).symm
    (fun other member => ?_) (Moves.stay rfl batches rfl rfl rfl rfl rfl (by simp)) (by simp)
  · exact invariant.pool.release (index ▸ invariant.pool.addresses) released rfl rfl
      (List.Perm.refl _)
  · simp [poolHistory, addedTxs] at member

/-- A new batch: its nonce is new, and its token is spelled as its records are. -/
theorem BridgeInvariant.store (invariant : BridgeInvariant sdk spelling deployment past state)
    {batch : OutgoingTxBatch} {outgoing : Outgoing}
    (built : Outgoing.Built state.chain.app.outgoing batch outgoing) :
    BridgeInvariant sdk spelling deployment (past ++ [.batchStored batch])
      (state.withApp { state.chain.app with outgoing := outgoing }) := by
  refine invariant.extend (invariant.pool.build invariant.pool.addresses built) invariant.oracle
    invariant.wellLogged (List.append_nil _).symm (fun other member => ?_) (fun protocol follows => ?_) (by simp)
  · simp [poolHistory, addedTxs] at member
  · have new : batch ∉ storedBatches past := by
      intro member
      have used : batch.batchNonce ∈ builtNonces (poolHistory past) := by
        rw [builtNonces_poolHistory]
        exact List.mem_map_of_mem member
      have issued := invariant.pool.noncesIssued _ used
      rw [built.nonce] at issued
      exact lt_irrefl _ issued
    have canonical : spelling.Canonical batch.tokenContract := by
      obtain ⟨tx, inBatch⟩ := List.exists_mem_of_ne_nil _ built.nonempty
      have stored : outgoing.batches.get batch.key = some batch := by
        rw [built.batches, Store.get_set_self]
      have waiting : tx ∈ state.chain.app.outgoing.records :=
        built.records.mem_iff.mpr (List.mem_append_right _ (Outgoing.mem_batched stored inBatch))
      have added : tx ∈ addedTxs (poolHistory past) :=
        invariant.pool.records.mem_iff.mp (List.mem_append_left _ waiting)
      exact built.sound.batchToken _ _ stored tx inBatch ▸ invariant.spelled tx added
    obtain ⟨next, steps, followsNext⟩ := follows.store invariant.pool.sound built new canonical
    refine ⟨next, steps, ?_, by simp⟩
    have none : settledBatches [.batchStored batch] = [] ∧ paidArgs [.batchStored batch] = [] :=
      ⟨rfl, rfl⟩
    rw [none.1, none.2, List.append_nil, List.append_nil]
    exact followsNext

/-- A call of the contract. -/
theorem BridgeInvariant.call (invariant : BridgeInvariant sdk spelling deployment past state)
    {sender : EthAddress} {call : GravityCall} {eth : Ethereum τ}
    (done : state.eth.call evm others sender call = .ok eth)
    (honest : BridgeOutput.Honest spelling deployment past (.accepted sender call)) :
    BridgeInvariant sdk spelling deployment (past ++ callOutputs sender call state.eth eth)
      { state with eth := eth } := by
  have accepts := Ethereum.call_eq_ok done
  have grows : ∃ new, eth.logs = state.eth.logs ++ new := by
    obtain ⟨nested, event, logs, _⟩ := accepts.logs
    exact ⟨nested ++ [_], by rw [logs, List.append_assoc]⟩
  have logged : loggedEvents (callOutputs sender call state.eth eth) =
      eth.logs.drop state.eth.logs.length := by
    rw [loggedEvents, flatMap_callOutputs]
    exact List.flatMap_singleton' _
  have noPool : poolHistory (callOutputs sender call state.eth eth) = [] := by
    rw [poolHistory, flatMap_callOutputs]
    exact flatMap_none _
  have noStored : storedBatches (callOutputs sender call state.eth eth) = [] := by
    rw [storedBatches, flatMap_callOutputs]
    exact flatMap_none _
  have noSettled : settledBatches (callOutputs sender call state.eth eth) = [] := by
    rw [settledBatches, flatMap_callOutputs]
    exact flatMap_none _
  have paidIs : paidArgs (callOutputs sender call state.eth eth) = paidArgs [.accepted sender call] := by
    rw [paidArgs, flatMap_callOutputs, flatMap_none, paidArgs, List.flatMap_singleton,
      List.append_nil]
  have noModule : ∀ output ∈ callOutputs sender call state.eth eth,
      (∀ batch, output ≠ .cancelled batch) ∧ ∀ reason, output ≠ .halted reason := by
    intro output member
    rcases List.mem_cons.mp member with rfl | inLogs
    · simp
    · obtain ⟨log, _, rfl⟩ := List.mem_map.mp inLogs
      simp
  refine invariant.extend ?_ invariant.oracle ?_ ?_ ?_ (fun protocol follows => ?_) ?_
  · rw [noPool, List.append_nil]
    exact invariant.pool
  · exact accepts.wellLogged invariant.wellLogged
  · obtain ⟨new, logs⟩ := grows
    rw [logged, logs, List.drop_left]
  · rw [noPool]
    exact fun _ member => absurd member List.not_mem_nil
  · rw [noStored, noSettled, paidIs, List.append_nil, List.append_nil]
    have followed : ∃ next, ProtocolSteps protocol next ∧ Follows spelling (storedBatches past)
        (settledBatches past) (paidArgs past ++ paidArgs [.accepted sender call]) eth
        state.chain.oracle state.chain.app.outgoing next := by
      by_cases isBatch : ∃ currentValset signatures args,
          call = .submitBatch currentValset signatures args
      · obtain ⟨currentValset, signatures, args, rfl⟩ := isBatch
        obtain ⟨batch, stored, rfl⟩ := honest
        exact follows.submitBatch stored accepts
      · have quiet : state.eth.Quiet eth := accepts.quiet fun currentValset signatures args same =>
          isBatch ⟨currentValset, signatures, args, same⟩
        have none : paidArgs [.accepted sender call] = [] := by
          cases call with
          | submitBatch currentValset signatures args =>
              exact absurd ⟨currentValset, signatures, args, rfl⟩ isBatch
          | _ => rfl
        rw [none, List.append_nil]
        exact follows.quiet quiet
    obtain ⟨next, steps, followsNext⟩ := followed
    exact ⟨next, steps, followsNext, fun batch member => absurd rfl ((noModule _ member).1 batch)⟩
  · exact fun _ _ _ member => (noModule _ member).2 _ rfl

/-- The checkpoint of a validator set changes nothing of the records. -/
theorem PoolInvariant.recordValset {history : List PoolOutput} {app : ModuleState β}
    (invariant : PoolInvariant history app) (made : Option (Valset × Bytes)) :
    PoolInvariant history { app with outgoing := app.outgoing.recordValset made } := by
  cases made with
  | none => exact invariant
  | some made =>
      obtain ⟨sound, addresses, records, ids, idsIssued, nonces, noncesIssued⟩ := invariant
      exact ⟨⟨sound.poolKeyed, sound.batchKeyed, sound.batchToken, sound.ids, sound.oneContract,
        sound.contractLength, sound.idsIssued, sound.noncesIssued⟩, addresses, records, ids, idsIssued,
        nonces, noncesIssued⟩

theorem Outgoing.recordValset_batches (outgoing : Outgoing) (made : Option (Valset × Bytes)) :
    (outgoing.recordValset made).batches = outgoing.batches := by
  cases made <;> rfl

/-- The honest claims of a block report logs that are there. -/
theorem BridgeInvariant.reports_of_observed
    (invariant : BridgeInvariant sdk spelling deployment past state) {outputs : List BridgeOutput}
    (honest : Justified (BridgeOutput.Honest spelling deployment) past outputs)
    (silent : loggedEvents outputs = []) {claim : EthereumClaim}
    (member : .observed claim ∈ outputs) : spelling.Reports state.eth.logs claim := by
  obtain ⟨between, ⟨rest, rfl⟩, reports⟩ := honest.of_mem member
  have none : loggedEvents between = [] := by
    rw [loggedEvents_append] at silent
    exact (List.append_eq_nil_iff.mp silent).1
  rw [invariant.logs, ← List.append_nil (loggedEvents past), ← none, ← loggedEvents_append]
  exact reports

/-- **A block that ends.** -/
theorem BridgeInvariant.endBlock (invariant : BridgeInvariant sdk spelling deployment past state)
    {env : EndBlockEnv} {chain : Chain β} {report : EndBlockReport}
    (ended : endBlocker sdk bank geth params env state.chain = .ok (chain, report))
    (honest : Justified (BridgeOutput.Honest spelling deployment) past
      (endBlockOutputs state.chain.app.outgoing chain.app.outgoing report)) :
    BridgeInvariant sdk spelling deployment
      (past ++ endBlockOutputs state.chain.app.outgoing chain.app.outgoing report)
      { state with chain := chain } := by
  obtain ⟨ctx, outgoing, made, store, counted, cleaned, _, chainIs, reportIs⟩ := endBlocker_eq_ok ended
  obtain ⟨outputs, oracle⟩ := invariant.oracle
  have observations : report.observations = ctx.observations := by rw [reportIs]
  -- the parts of the history
  have noLogs : loggedEvents (endBlockOutputs state.chain.app.outgoing chain.app.outgoing report) =
      [] := by
    rw [loggedEvents, flatMap_endBlockOutputs _ _ _ _ (fun _ => rfl) (fun _ => rfl) fun _ => rfl]
    exact flatMap_none _
  have noStored : storedBatches (endBlockOutputs state.chain.app.outgoing chain.app.outgoing
      report) = [] := by
    rw [storedBatches, flatMap_endBlockOutputs _ _ _ _ (fun _ => rfl) (fun _ => rfl) fun _ => rfl]
    exact flatMap_none _
  have noPaid : paidArgs (endBlockOutputs state.chain.app.outgoing chain.app.outgoing report) =
      [] := by
    rw [paidArgs, flatMap_endBlockOutputs _ _ _ _ (fun _ => rfl) (fun _ => rfl) fun _ => rfl]
    exact flatMap_none _
  have settledIs : settledBatches (endBlockOutputs state.chain.app.outgoing chain.app.outgoing
      report) = executedBatches state.chain.app.outgoing
        (ctx.observations.map Observation.claim) := by
    rw [settledBatches, flatMap_endBlockOutputs _ _ _ _ (fun _ => rfl) (fun _ => rfl) fun _ => rfl,
      observations]
    exact List.flatMap_singleton' _
  have poolIs : poolHistory (endBlockOutputs state.chain.app.outgoing chain.app.outgoing report) =
      (executedBatches state.chain.app.outgoing
        (ctx.observations.map Observation.claim)).map .executed := by
    rw [poolHistory, flatMap_endBlockOutputs _ _ _ _ (fun _ => rfl) (fun _ => rfl) fun _ => rfl,
      observations]
    exact List.map_eq_flatMap.symm
  -- the tally, then the clean-up
  have reports : ∀ observation ∈ ctx.observations,
      spelling.Reports state.eth.logs observation.claim := by
    intro observation member
    refine invariant.reports_of_observed honest noLogs (List.mem_append_left _ ?_)
    exact List.mem_map_of_mem (List.mem_map_of_mem (observations ▸ member))
  have counting := (oracle.tally_meets env.staking (handle sdk bank params) env.blockHeight
    state.chain.app).ok counted
  have tally : ∀ protocol, Follows spelling (storedBatches past) (settledBatches past) (paidArgs past)
      state.eth state.chain.oracle state.chain.app.outgoing protocol →
      TallyFollows spelling (storedBatches past) (settledBatches past) (paidArgs past) state.eth
        (poolHistory past) state.chain.app.outgoing protocol ctx := fun protocol follows =>
    TallyFollows.chain invariant.wellLogged invariant.pool follows counting reports
  obtain ⟨_, follows, _⟩ := invariant.protocol
  have counted' := oracle.tally counted
  have pruned := pruneAttestations_pruned counted'.ballots.keyed
  obtain ⟨swept, cleaned', sweep⟩ := (tally _ follows).pool.sound.cleanupTimedOutBatches_swept
    ctx.oracle.lastObservedEthereumBlockHeight.ethereumBlockHeight
  obtain rfl : swept = outgoing := Outcome.ok.inj (cleaned'.symm.trans cleaned)
  have batches : chain.app.outgoing.batches = swept.batches := by
    rw [chainIs]
    exact Outgoing.recordValset_batches swept made
  have oracleNext : ∃ outputs : List (OracleOutput HandleError),
      OracleInvariant sdk outputs chain.oracle := by
    rw [chainIs]
    have step : OracleStep (π := HandlePanic) sdk (ctx.oracle, ()) (pruneAttestations sdk ctx.oracle,
      ()) ([] : List (OracleOutput HandleError)) := .prune
    exact ⟨_, counted'.step step⟩
  refine invariant.extend ?_ oracleNext invariant.wellLogged ?_ ?_ (fun protocol follows => ?_) ?_
  · rw [poolIs, chainIs]
    have released : PoolInvariant ((poolHistory past ++ (executedBatches state.chain.app.outgoing
        (ctx.observations.map Observation.claim)).map .executed) ++ [])
        { ctx.app with outgoing := swept } :=
      (tally _ follows).pool.release (tally _ follows).pool.addresses sweep.released rfl rfl
        (List.Perm.refl _)
    rw [List.append_nil] at released
    exact released.recordValset made
  · rw [noLogs, List.append_nil]
  · rw [poolIs]
    intro tx member
    obtain ⟨output, inside, isAdded⟩ := List.mem_flatMap.mp member
    obtain ⟨batch, _, rfl⟩ := List.mem_map.mp inside
    cases isAdded
  · obtain ⟨middle, steps, tallied⟩ := (tally protocol follows).follows
    obtain ⟨next, more, expired⟩ := tallied.cleanup sweep
    have observed : chain.oracle.lastObservedEventNonce = ctx.oracle.lastObservedEventNonce := by
      rw [chainIs]
      exact pruned.lastObserved
    have height : chain.oracle.lastObservedEthereumBlockHeight =
        ctx.oracle.lastObservedEthereumBlockHeight := by
      rw [chainIs]
      exact pruned.height
    have final := expired.keep batches observed height
    refine ⟨next, steps.trans more, ?_, fun batch member => ?_⟩
    · rw [noStored, noPaid, settledIs, List.append_nil, List.append_nil]
      exact final
    · -- a deleted batch that was not executed has been given up
      obtain ⟨inside, deleted, notExecuted⟩ : batch ∈ state.chain.app.outgoing.getOutgoingTxBatches ∧
          chain.app.outgoing.batches.get batch.key ≠ some batch ∧
          batch ∉ executedBatches state.chain.app.outgoing
            (report.observations.map Observation.claim) := by
        simpa [endBlockOutputs, cancelledBatches] using member
      have opened : batch ∈ protocol.opened :=
        (follows.opened batch).mpr ((invariant.pool.sound.batch_snapshot.1 batch).mp inside)
      have stored := (follows.stored batch).mp (follows.safe.opened_stored opened)
      refine ⟨(final.stored batch).mpr stored, mt (final.opened batch).mp deleted, fun settled => ?_⟩
      rcases List.mem_append.mp ((final.settled batch).mp settled) with old | now
      · exact follows.safe.settled_closed batch ((follows.settled batch).mpr old) opened
      · exact notExecuted (observations ▸ now)
  · intro claims tokenContract nonce member
    simp [endBlockOutputs] at member

/-- **A block that does not end**, but not for an unknown batch. -/
theorem BridgeInvariant.halt (invariant : BridgeInvariant sdk spelling deployment past state)
    {env : EndBlockEnv} {reason : EndBlockPanic}
    (panics : endBlocker sdk bank geth params env state.chain = .panic reason)
    (honest : BridgeOutput.Honest spelling deployment past (.halted reason)) :
    BridgeInvariant sdk spelling deployment (past ++ [.halted reason])
      { state with halted := true } := by
  refine invariant.extend ?_ invariant.oracle invariant.wellLogged (List.append_nil _).symm
    (fun _ member => absurd member List.not_mem_nil)
    (Moves.stay rfl rfl rfl rfl rfl rfl rfl (by simp)) ?_
  · exact invariant.pool.keep invariant.pool.addresses rfl
  · intro claims tokenContract nonce member
    obtain rfl := BridgeOutput.halted.inj (List.mem_singleton.mp member)
    obtain ⟨outputs, oracle⟩ := invariant.oracle
    obtain ⟨_, follows, _⟩ := invariant.protocol
    obtain ⟨ctx, cause, counting, att, _, next, handled, reasonIs⟩ :=
      (oracle.tally_meets env.staking (handle sdk bank params) env.blockHeight
        state.chain.app).panic (endBlocker_eq_panic_tally panics)
    obtain ⟨claimsIs, causeIs⟩ := OraclePanic.handler.inj reasonIs
    have reports : ∀ claim ∈ claims, spelling.Reports state.eth.logs claim := by
      rw [invariant.logs]
      exact honest
    rw [claimsIs] at reports
    have holds := TallyFollows.chain invariant.wellLogged invariant.pool follows counting
      fun observation member => reports _ (List.mem_append_left _ (List.mem_map_of_mem member))
    rw [← EthereumClaim.getEventNonce_sortMembers] at next
    have unknown : handle sdk bank params { att with observed := true } att.claim.sortMembers
        ctx.app = .panic (.pool (.unknownBatchNonce tokenContract nonce)) :=
      handled.trans (congrArg _ causeIs.symm)
    exact holds.known invariant.wellLogged next
      (reports _ (List.mem_append_right _ (List.mem_singleton_self _))) unknown

/-- A vote. -/
theorem BridgeInvariant.vote (invariant : BridgeInvariant sdk spelling deployment past state)
    {orchestratorValidator : AccAddress → Option ValAddress} {blockHeight : Nat}
    {claim : EthereumClaim} {oracle : Oracle} {att : Attestation}
    (voted : attest (π := HandlePanic) sdk orchestratorValidator blockHeight claim
      state.chain.oracle = .ok (oracle, att)) :
    BridgeInvariant sdk spelling deployment (past ++ [])
      { state with chain := { state.chain with oracle := oracle } } := by
  obtain ⟨validator, _, next, rfl, rfl⟩ := attest_eq_ok voted
  obtain ⟨outputs, holds⟩ := invariant.oracle
  have step : OracleStep (π := HandlePanic) sdk (state.chain.oracle, ()) _
    ([.vote validator claim] : List (OracleOutput HandleError)) :=
    .vote validator blockHeight claim next
  exact invariant.silent rfl rfl ⟨_, holds.step step⟩ invariant.wellLogged rfl
    (Moves.stay rfl rfl rfl rfl rfl rfl rfl (by simp))

/-- **Every step keeps the invariant.** -/
theorem BridgeInvariant.step (invariant : BridgeInvariant sdk spelling deployment past state)
    {input : BridgeInput β τ} {next : Bridge β τ} {outputs : List BridgeOutput}
    (step : bridgeStep sdk bank geth params evm others state input = some (next, outputs))
    (honest : Justified (BridgeOutput.Honest spelling deployment) past outputs) :
    BridgeInvariant sdk spelling deployment (past ++ outputs) next := by
  have unchanged : some (state, []) = some (next, outputs) →
      BridgeInvariant sdk spelling deployment (past ++ outputs) next := by
    intro equal
    obtain ⟨rfl, rfl⟩ := Prod.mk.inj (Option.some.inj equal)
    exact invariant.silent rfl rfl invariant.oracle invariant.wellLogged rfl
      (Moves.stay rfl rfl rfl rfl rfl rfl rfl (by simp))
  cases input with
  | sendToEth sender receiver amount fee =>
      simp only [bridgeStep] at step
      split_ifs at step
      split at step
      · rename_i id app sent
        obtain ⟨_, isCosmosOriginated, contract, balances, lookup, _, rfl, rfl⟩ :=
          addToOutgoingPool_eq_ok sent
        obtain ⟨idIs, issued⟩ := invariant.pool.sound.issue
          (fun id => newOutgoingTransferTx sdk id sender receiver contract amount.amount fee.amount)
          (fun _ => rfl) (fun _ => rfl) (fun _ => invariant.pool.addresses.lookup lookup)
        obtain ⟨rfl, rfl⟩ := Prod.mk.inj (Option.some.inj step)
        rw [sentTx, lookup, idIs] at honest ⊢
        exact invariant.send rfl issued honest.1
      · exact unchanged step
  | cancelSendToEth txId sender =>
      simp only [bridgeStep] at step
      split_ifs at step
      split at step
      · rename_i app removed
        obtain ⟨tx, outgoing, coins, balances, found, _, _, gone, _, _, rfl⟩ :=
          removeFromOutgoingPoolAndRefund_eq_ok removed
        obtain ⟨rfl, key, stored⟩ := Outgoing.getUnbatchedTxById_eq_some found
        obtain rfl := invariant.pool.sound.poolKeyed key tx stored
        obtain ⟨outgoingIs, released⟩ :=
          invariant.pool.sound.removeUnbatchedTX_released stored gone
        obtain ⟨rfl, rfl⟩ := Prod.mk.inj (Option.some.inj step)
        have batches : outgoing.batches = state.chain.app.outgoing.batches := by rw [outgoingIs]
        rw [found]
        exact invariant.refund rfl batches released
      · exact unchanged step
  | requestBatch denom maxElements blockHeight =>
      simp only [bridgeStep] at step
      split_ifs at step
      split at step
      · rename_i batch outgoing built
        unfold NabBridge.requestBatch at built
        split at built
        · cases built
        · rename_i isCosmosOriginated contract lookup
          have result := (invariant.pool.sound.buildOutgoingTXBatch_meets geth params
            state.chain.oracle.lastObservedEthereumBlockHeight blockHeight maxElements
            (invariant.pool.addresses.lookup lookup)).ok built
          cases batch with
          | none =>
              obtain rfl : outgoing = state.chain.app.outgoing := result
              exact unchanged step
          | some batch =>
              obtain ⟨rfl, rfl⟩ := Prod.mk.inj (Option.some.inj step)
              exact invariant.store result.1
      · exact unchanged step
  | claim orchestratorValidator blockHeight claim =>
      simp only [bridgeStep] at step
      split_ifs at step
      split at step
      · rename_i oracle att voted
        obtain ⟨rfl, rfl⟩ := Prod.mk.inj (Option.some.inj step)
        exact invariant.vote voted
      · exact unchanged step
  | endBlock env =>
      simp only [bridgeStep] at step
      split_ifs at step
      split at step
      · rename_i chain report ended
        obtain ⟨rfl, rfl⟩ := Prod.mk.inj (Option.some.inj step)
        exact invariant.endBlock ended honest
      · rename_i reason _
        exact reason.elim
      · rename_i reason panics
        obtain ⟨rfl, rfl⟩ := Prod.mk.inj (Option.some.inj step)
        exact invariant.halt panics honest.1
  | accounts change =>
      obtain ⟨rfl, rfl⟩ := Prod.mk.inj (Option.some.inj step)
      exact invariant.silent rfl rfl invariant.oracle invariant.wellLogged rfl
        (Moves.stay rfl rfl rfl rfl rfl rfl rfl (by simp))
  | call sender call =>
      simp only [bridgeStep] at step
      split at step
      · rename_i eth done
        obtain ⟨rfl, rfl⟩ := Prod.mk.inj (Option.some.inj step)
        exact invariant.call done honest.1
      · exact unchanged step
  | ethereum change newBlocks =>
      obtain ⟨rfl, rfl⟩ := Prod.mk.inj (Option.some.inj step)
      have well := invariant.wellLogged
      refine invariant.silent rfl rfl invariant.oracle ?_ rfl fun protocol follows => ?_
      · exact ⟨well.nonces, well.lastEventNonce, well.blocks,
          fun log member => (well.past log member).trans (Nat.le_add_right _ _)⟩
      · obtain ⟨after, steps, followsNext⟩ := follows.mine (change state.eth.contracts) newBlocks
        simp only [storedBatches, settledBatches, paidArgs, List.flatMap_nil, List.append_nil]
        exact ⟨after, steps, followsNext, by simp⟩

/-- **The invariant holds at the start.** -/
theorem bridgeInvariant_fresh {gravityId : Bytes} {powerThreshold : Nat} {validators : List EthAddress}
    {powers : List Nat} {wNomAddress : EthAddress} {contracts : τ} {blockNumber : Nat} {balances : β}
    {eth : Ethereum τ}
    (deployed : deployGravity evm gravityId powerThreshold validators powers wNomAddress contracts
      blockNumber = .ok eth) :
    BridgeInvariant sdk spelling eth.logs [] ⟨Chain.fresh balances, eth, false⟩ := by
  obtain ⟨_, _, _, rfl⟩ := deployGravity_eq_ok deployed
  have safe : Settlement.Safe batchTerms { Settlement.initial OutgoingTxBatch blockNumber with
      log := [(none, blockNumber)] } := (Settlement.Safe.initial blockNumber).other
  refine ⟨?_, ⟨[], ballotInvariant_empty, orderInvariant_empty⟩, ?_, (List.append_nil _).symm, ?_,
    ⟨_, ⟨safe, ?_, ?_, ?_, ?_, ?_, rfl, rfl, rfl, rfl, rfl⟩, ?_⟩, ?_⟩
  · exact ⟨Outgoing.sound_empty, fun _ _ found => (by cases found), List.Perm.refl _, List.nodup_nil,
      fun _ member => absurd member List.not_mem_nil, List.nodup_nil,
      fun _ member => absurd member List.not_mem_nil⟩
  · exact ⟨rfl, rfl, List.pairwise_singleton _ _, fun log member => by
      rw [List.mem_singleton.mp member]⟩
  · exact fun _ member => absurd member List.not_mem_nil
  · exact fun _ member => absurd member List.not_mem_nil
  · exact fun batch => ⟨False.elim, fun member => absurd member List.not_mem_nil⟩
  · exact fun batch => ⟨False.elim, fun found => by cases found⟩
  · exact fun batch => Iff.rfl
  · exact List.Forall₂.cons ⟨rfl, rfl⟩ List.Forall₂.nil
  · exact fun _ member => absurd member List.not_mem_nil
  · exact fun _ _ _ => List.not_mem_nil

/-- **Every run keeps the invariant.** -/
theorem bridgeInvariant_run {gravityId : Bytes} {powerThreshold : Nat} {validators : List EthAddress}
    {powers : List Nat} {wNomAddress : EthAddress} {contracts : τ} {blockNumber : Nat} {balances : β}
    {eth : Ethereum τ} {inputs : List (BridgeInput β τ)}
    (deployed : deployGravity evm gravityId powerThreshold validators powers wNomAddress contracts
      blockNumber = .ok eth)
    (runs : run (bridgeStep sdk bank geth params evm others) ⟨Chain.fresh balances, eth, false⟩ inputs =
      some (state, past))
    (honest : Justified (BridgeOutput.Honest spelling eth.logs) [] past) :
    BridgeInvariant sdk spelling eth.logs past state :=
  run_invariant_of_justified (fun _ => True) (BridgeOutput.Honest spelling eth.logs)
    (BridgeInvariant sdk spelling eth.logs)
    (fun _ _ _ _ _ _ invariant step honest => invariant.step step honest) (fun _ _ => trivial)
    (bridgeInvariant_fresh deployed) runs honest

end Steps

end NabBridge
