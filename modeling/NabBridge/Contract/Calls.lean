/-
**What a call of the bridge does.**

The reentrancy guard is up whenever the bridge calls out, so all that foreign code can get through is
`deployERC20`: `Nested` says what that leaves behind, and `Nested.external` that a call out of a
guarded function leaves nothing else.

`callAt_eq_ok` then says everything an accepted call does, for the five functions at once: the checks
it passed (`GravityCall.Passes`), the storage it wrote (`GravityCall.actions`), the logs of nested
deployments followed by its own. Every invariant of the contract is derived from it.

* `Ethereum.WellLogged`: the logs have event nonces `1, 2, 3, …`, in blocks that do not go back;
* `Ethereum.Quiet`: what every call but `submitBatch` does to the logs and the batch nonces.
-/

import NabBridge.Contract.Gravity

namespace NabBridge

theorem require_eq_ok {condition : Prop} [Decidable condition] {reason : GravityRevert} {passes : Unit}
    (passed : require condition reason = .ok passes) : condition := by
  unfold require at passed
  split_ifs at passed with holds
  exact holds

/-- Whether an event reports an executed batch. -/
def GravityEvent.isBatch : GravityEvent → Bool
  | transactionBatchExecuted _ _ _ => true
  | _ => false

/-- Whether an event reports a deployment. -/
def GravityEvent.isDeployment : GravityEvent → Bool
  | erc20Deployed _ _ _ _ _ _ => true
  | _ => false

/-- The fields of an event are in the range of their Solidity types, and hold what the contract checks: a
batch has a nonce above zero, and a validator set as many powers as validators. -/
def GravityEvent.InRange : GravityEvent → Prop
  | transactionBatchExecuted batchNonce _ eventNonce =>
      0 < batchNonce ∧ batchNonce < 2 ^ 256 ∧ eventNonce < 2 ^ 256
  | sendToCosmos _ _ destination amount eventNonce =>
      destination.length = 32 ∧ amount < 2 ^ 256 ∧ eventNonce < 2 ^ 256
  | erc20Deployed cosmosDenom _ name symbol decimals eventNonce =>
      (cosmosDenom.length < 2 ^ 256 ∧ name.length < 2 ^ 256 ∧ symbol.length < 2 ^ 256) ∧
        decimals < 256 ∧ eventNonce < 2 ^ 256
  | valsetUpdated newValsetNonce eventNonce rewardAmount _ validators powers =>
      newValsetNonce < 2 ^ 256 ∧ eventNonce < 2 ^ 256 ∧ rewardAmount < 2 ^ 256 ∧
        validators.length = powers.length ∧ validators.length < 2 ^ 256 ∧
          ∀ power ∈ powers, power < 2 ^ 256
  | logicCall invalidationId invalidationNonce _ eventNonce =>
      invalidationId.length = 32 ∧ invalidationNonce < 2 ^ 256 ∧ eventNonce < 2 ^ 256

instance (event : GravityEvent) : Decidable event.InRange := by
  rcases event <;> unfold GravityEvent.InRange <;> infer_instance

/-- Whether a call is for a deployment. -/
def GravityCall.isDeployment : GravityCall → Bool
  | deployERC20 _ => true
  | _ => false

/-- The event of a call. -/
def GravityCall.Reports (sender : EthAddress) : GravityCall → GravityEvent → Prop
  | updateValset newValset _ _, event =>
      event = .valsetUpdated newValset.valsetNonce event.eventNonce newValset.rewardAmount
        newValset.rewardToken newValset.validators newValset.powers
  | submitBatch _ _ args, event =>
      event = .transactionBatchExecuted args.batchNonce args.tokenContract event.eventNonce
  | submitLogicCall _ _ args, event => ∃ returnData,
      event = .logicCall args.invalidationId args.invalidationNonce returnData event.eventNonce
  | sendToCosmos tokenContract destination amount, event =>
      event = .sendToCosmos tokenContract sender destination amount event.eventNonce
  | deployERC20 args, event => ∃ erc20,
      event = .erc20Deployed args.cosmosDenom erc20 args.name args.symbol args.decimals
        event.eventNonce

section Effects

variable {τ : Type} {evm : Evm} {others : Contracts τ} {entry : Entry τ}

/-- The logs of a chain: event nonces `1, 2, 3, …`, in blocks that do not go back. -/
structure Ethereum.WellLogged (eth : Ethereum τ) : Prop where
  nonces : eth.logs.map (fun log => log.1.eventNonce) = List.range' 1 eth.logs.length
  lastEventNonce : eth.gravity.lastEventNonce = eth.logs.length
  blocks : eth.logs.Pairwise fun first second => first.2 ≤ second.2
  past : ∀ log ∈ eth.logs, log.2 ≤ eth.blockNumber

/-- What the calls that get past the guard leave behind: deployments. -/
structure Ethereum.Nested (before after : Ethereum τ) : Prop where
  gravity : after.gravity = { before.gravity with lastEventNonce := after.gravity.lastEventNonce }
  blockNumber : after.blockNumber = before.blockNumber
  logs : ∃ new, after.logs = before.logs ++ new ∧
    ∀ log ∈ new, log.1.isDeployment = true ∧ log.2 = before.blockNumber
  accepted : ∃ new, after.accepted = before.accepted ++ new ∧
    ∀ entry ∈ new, entry.2.isDeployment = true
  wellLogged : before.WellLogged → after.WellLogged
  inRange : ∀ log ∈ after.logs, log ∈ before.logs ∨ log.1.InRange

namespace Ethereum

/-! ### Logs -/

/-- **A log gets the next event nonce and the current block.** -/
theorem emit_eq_ok {event : Nat → GravityEvent} {eth after : Ethereum τ}
    (emitted : eth.emit event = .ok after) :
    after = { eth with
      gravity := { eth.gravity with lastEventNonce := eth.gravity.lastEventNonce + 1 }
      logs := eth.logs ++ [(event (eth.gravity.lastEventNonce + 1), eth.blockNumber)] } := by
  unfold emit at emitted
  simp only at emitted
  split_ifs at emitted
  exact (Except.ok.inj emitted).symm

/-- The event nonce of a log fits a word. -/
theorem lt_of_emit_eq_ok {event : Nat → GravityEvent} {eth after : Ethereum τ}
    (emitted : eth.emit event = .ok after) : eth.gravity.lastEventNonce + 1 < 2 ^ 256 := by
  unfold emit at emitted
  simp only at emitted
  split_ifs at emitted with fits
  exact fits

/-- The logs, their counter and the block decide whether a chain is well logged. -/
theorem WellLogged.congr {eth after : Ethereum τ} (well : eth.WellLogged)
    (event : after.gravity.lastEventNonce = eth.gravity.lastEventNonce)
    (block : after.blockNumber = eth.blockNumber) (logs : after.logs = eth.logs) :
    after.WellLogged :=
  ⟨by rw [logs]; exact well.nonces, by rw [logs, event]; exact well.lastEventNonce,
    by rw [logs]; exact well.blocks, by rw [logs, block]; exact well.past⟩

theorem WellLogged.emit {event : Nat → GravityEvent} {eth after : Ethereum τ}
    (well : eth.WellLogged) (nonce : ∀ value, (event value).eventNonce = value)
    (emitted : eth.emit event = .ok after) : after.WellLogged := by
  obtain rfl := emit_eq_ok emitted
  refine ⟨?_, ?_, ?_, fun log member => ?_⟩
  · rw [List.map_append, well.nonces, List.length_append, List.length_singleton,
      List.range'_concat, List.map_singleton, nonce, well.lastEventNonce]
    simp [Nat.add_comm]
  · simp [well.lastEventNonce]
  · rw [List.pairwise_append]
    refine ⟨well.blocks, List.pairwise_singleton _ _, fun log old new' new => ?_⟩
    rw [List.mem_singleton.mp new]
    exact well.past log old
  · rcases List.mem_append.mp member with old | new
    · exact well.past log old
    · rw [List.mem_singleton.mp new]

/-! ### Nested calls -/

theorem Nested.refl (eth : Ethereum τ) : eth.Nested eth :=
  ⟨rfl, rfl, ⟨[], by simp, by simp⟩, ⟨[], by simp, by simp⟩, id, fun _ => Or.inl⟩

theorem Nested.trans {first second third : Ethereum τ} (start : first.Nested second)
    (rest : second.Nested third) : first.Nested third := by
  obtain ⟨new, newIs, newNested⟩ := start.logs
  obtain ⟨more, moreIs, moreNested⟩ := rest.logs
  obtain ⟨calls, callsAre, callsNested⟩ := start.accepted
  obtain ⟨later, laterAre, laterNested⟩ := rest.accepted
  refine ⟨?_, rest.blockNumber.trans start.blockNumber,
    ⟨new ++ more, by rw [moreIs, newIs, List.append_assoc], fun log member => ?_⟩,
    ⟨calls ++ later, by rw [laterAre, callsAre, List.append_assoc], fun entry member => ?_⟩,
    fun well => rest.wellLogged (start.wellLogged well), fun log member =>
      (rest.inRange log member).elim (start.inRange log) Or.inr⟩
  · rw [rest.gravity, start.gravity]
  · exact (List.mem_append.mp member).elim (newNested log) fun later =>
      start.blockNumber ▸ moreNested log later
  · exact (List.mem_append.mp member).elim (callsNested entry) (laterNested entry)

theorem Nested.withContracts (eth : Ethereum τ) (contracts : τ) :
    eth.Nested { eth with contracts := contracts } :=
  ⟨rfl, rfl, ⟨[], by simp, by simp⟩, ⟨[], by simp, by simp⟩,
    fun well => well.congr rfl rfl rfl, fun _ => Or.inl⟩

/-- The guard stays as it is. -/
theorem Nested.entered {before after : Ethereum τ} (nested : before.Nested after) :
    after.gravity.entered = before.gravity.entered := by rw [nested.gravity]

theorem Nested.emit {event : Nat → GravityEvent} {eth after : Ethereum τ}
    (nonce : ∀ value, (event value).eventNonce = value)
    (deployment : ∀ value, (event value).isDeployment = true)
    (inRange : ∀ value < 2 ^ 256, (event value).InRange)
    (emitted : eth.emit event = .ok after) : eth.Nested after := by
  refine ⟨?_, ?_, ⟨[_], by rw [emit_eq_ok emitted], fun log member => ?_⟩, ⟨[], ?_, by simp⟩,
    fun well => well.emit nonce emitted, fun log member => ?_⟩
  · rw [emit_eq_ok emitted]
  · rw [emit_eq_ok emitted]
  · rw [List.mem_singleton.mp member]
    exact ⟨deployment _, rfl⟩
  · rw [emit_eq_ok emitted, List.append_nil]
  · rw [emit_eq_ok emitted] at member
    refine (List.mem_append.mp member).imp_right fun new => ?_
    rw [List.mem_singleton.mp new]
    exact inRange _ (lt_of_emit_eq_ok emitted)

theorem Nested.deployERC20 {args : DeployERC20Args} {eth after : Ethereum τ}
    (inRange : (GravityCall.deployERC20 args).InRange)
    (deployed : eth.deployERC20 others args = .ok after) : eth.Nested after := by
  unfold Ethereum.deployERC20 at deployed
  refine (Nested.withContracts eth _).trans (Nested.emit (fun _ => rfl) (fun _ => rfl) ?_ deployed)
  exact fun nonce fits => ⟨inRange.1, inRange.2, fits⟩

/-- A guarded function runs with the guard up, and not inside another one. -/
theorem nonReentrant_eq_ok {body : Ethereum τ → Except GravityRevert (Ethereum τ)}
    {eth after : Ethereum τ} (done : nonReentrant body eth = .ok after) :
    eth.gravity.entered = false ∧ ∃ last,
      body { eth with gravity := { eth.gravity with entered := true } } = .ok last ∧
      after = { last with gravity := { last.gravity with entered := false } } := by
  unfold nonReentrant at done
  obtain ⟨_, free, done⟩ := except_bind_eq_ok.mp done
  obtain ⟨last, ran, done⟩ := except_bind_eq_ok.mp done
  exact ⟨require_eq_ok free, last, ran, (Except.ok.inj done).symm⟩

theorem not_reentered {body : Ethereum τ → Except GravityRevert (Ethereum τ)} {eth after : Ethereum τ}
    (entered : eth.gravity.entered = true) : nonReentrant body eth ≠ .ok after := by
  intro done
  have free := (nonReentrant_eq_ok done).1
  rw [entered] at free
  cases free

/-- **What gets past the guard**: a call from inside a guarded function is a deployment. -/
theorem Nested.callAt {depth : Nat} {sender : EthAddress} {call : GravityCall} {eth after : Ethereum τ}
    (entered : eth.gravity.entered = true)
    (done : Ethereum.callAt evm others depth sender call eth = .ok after) : eth.Nested after := by
  cases depth with
  | zero => cases done
  | succ depth =>
      rw [Ethereum.callAt] at done
      obtain ⟨_, typed, done⟩ := except_bind_eq_ok.mp done
      obtain ⟨middle, dispatched, done⟩ := except_bind_eq_ok.mp done
      obtain rfl := Except.ok.inj done
      cases call with
      | updateValset =>
          rw [dispatch, updateValset] at dispatched
          exact absurd dispatched (not_reentered entered)
      | submitBatch =>
          rw [dispatch, submitBatch] at dispatched
          exact absurd dispatched (not_reentered entered)
      | submitLogicCall =>
          rw [dispatch, submitLogicCall] at dispatched
          exact absurd dispatched (not_reentered entered)
      | sendToCosmos =>
          rw [dispatch, sendToCosmos] at dispatched
          exact absurd dispatched (not_reentered entered)
      | deployERC20 args =>
          refine (Nested.deployERC20 (require_eq_ok typed) dispatched).trans
            ⟨rfl, rfl, ⟨[], by simp, by simp⟩,
              ⟨[(sender, .deployERC20 args)], rfl, fun entry member => ?_⟩,
              fun well => well.congr rfl rfl rfl, fun _ => Or.inl⟩
          rw [List.mem_singleton.mp member]
          rfl

end Ethereum

/-! ### Foreign code -/

/-- **The rule for foreign code**: it keeps what changes of the other contracts and accepted calls of
the bridge keep. -/
theorem Callee.run_keeps (kept : Ethereum τ → Prop)
    (contracts : ∀ eth contracts, kept eth → kept { eth with contracts := contracts })
    (entered : ∀ sender call eth after, kept eth → entry sender call eth = .ok after → kept after)
    {callee : Callee τ} {eth : Ethereum τ} {result : Bytes × Ethereum τ} (holds : kept eth)
    (done : callee.run entry eth = .ok result) : kept result.2 := by
  induction callee generalizing eth result with
  | returns data state =>
      obtain rfl := Except.ok.inj done
      exact contracts eth state holds
  | reverts => cases done
  | calls state sender call next ih =>
      rw [Callee.run] at done
      have before := contracts eth state holds
      cases called : entry sender call { eth with contracts := state } with
      | ok after =>
          rw [called] at done
          exact ih _ (entered sender call _ after before called) done
      | error reason =>
          rw [called] at done
          exact ih _ before done
  | tries state body next ihBody ih =>
      rw [Callee.run] at done
      have before := contracts eth state holds
      cases tried : body.run entry { eth with contracts := state } with
      | ok result =>
          rw [tried] at done
          exact ih _ (ihBody before tried) done
      | error reason =>
          rw [tried] at done
          exact ih _ before done

namespace Ethereum

/-- **A call out of a guarded function** leaves nothing behind but deployments. -/
theorem Nested.run {depth : Nat} {callee : Callee τ} {eth : Ethereum τ} {result : Bytes × Ethereum τ}
    (entered : eth.gravity.entered = true)
    (done : callee.run (Ethereum.callAt evm others depth) eth = .ok result) : eth.Nested result.2 := by
  refine Callee.run_keeps (fun after => eth.Nested after) ?_ ?_ (Nested.refl eth) done
  · intro after contracts nested
    exact nested.trans (Nested.withContracts after contracts)
  · intro sender call before after nested accepted
    exact nested.trans (Nested.callAt (nested.entered.trans entered) accepted)

theorem Nested.external {depth : Nat} {callee : Ethereum τ → Callee τ} {eth after : Ethereum τ}
    (entered : eth.gravity.entered = true)
    (done : eth.external (Ethereum.callAt evm others depth) callee = .ok after) : eth.Nested after := by
  unfold Ethereum.external at done
  obtain ⟨result, ran, done⟩ := except_bind_eq_ok.mp done
  obtain rfl := Except.ok.inj done
  exact Nested.run entered ran

theorem Nested.payReward {depth : Nat} {sender : EthAddress} {newValset : ValsetArgs}
    {eth after : Ethereum τ} (entered : eth.gravity.entered = true)
    (paid : eth.payReward others (Ethereum.callAt evm others depth) sender newValset = .ok after) :
    eth.Nested after := by
  unfold Ethereum.payReward at paid
  split_ifs at paid
  · exact Nested.external entered paid
  · obtain rfl := Except.ok.inj paid
    exact Nested.refl _

theorem Nested.burnWNom {depth : Nat} {tokenContract : EthAddress} {amount : Nat}
    {eth after : Ethereum τ} (entered : eth.gravity.entered = true)
    (burned : eth.burnWNom others (Ethereum.callAt evm others depth) tokenContract amount =
      .ok after) : eth.Nested after := by
  unfold Ethereum.burnWNom at burned
  split_ifs at burned
  · exact Nested.external entered burned
  · obtain rfl := Except.ok.inj burned
    exact Nested.refl _

theorem Nested.payBatch {depth : Nat} {token : EthAddress} {amounts : List Nat}
    {destinations : List EthAddress} {fees : List Nat} {totalFee : Nat} {eth : Ethereum τ}
    {result : Nat × Ethereum τ} (entered : eth.gravity.entered = true)
    (paid : eth.payBatch others (Ethereum.callAt evm others depth) token amounts destinations fees
      totalFee = .ok result) : eth.Nested result.2 := by
  induction amounts generalizing destinations fees totalFee eth with
  | nil =>
      rw [Ethereum.payBatch] at paid
      obtain rfl := Except.ok.inj paid
      exact Nested.refl _
  | cons amount amounts ih =>
      cases destinations with
      | nil => simp [Ethereum.payBatch] at paid
      | cons destination destinations =>
          cases fees with
          | nil => simp [Ethereum.payBatch] at paid
          | cons fee fees =>
              rw [Ethereum.payBatch] at paid
              obtain ⟨middle, sent, paid⟩ := except_bind_eq_ok.mp paid
              obtain ⟨_, _, paid⟩ := except_bind_eq_ok.mp paid
              have nested := Nested.external entered sent
              exact nested.trans (ih (nested.entered.trans entered) paid)

theorem Nested.payTokens {depth : Nat} {recipient : EthAddress} {amounts : List Nat}
    {tokens : List EthAddress} {eth after : Ethereum τ} (entered : eth.gravity.entered = true)
    (paid : eth.payTokens others (Ethereum.callAt evm others depth) recipient amounts tokens =
      .ok after) : eth.Nested after := by
  induction amounts generalizing tokens eth with
  | nil =>
      rw [Ethereum.payTokens.eq_2 _ _ _ _ _ _ (by simp)] at paid
      obtain rfl := Except.ok.inj paid
      exact Nested.refl _
  | cons amount amounts ih =>
      cases tokens with
      | nil =>
          rw [Ethereum.payTokens.eq_2 _ _ _ _ _ _ (by simp)] at paid
          obtain rfl := Except.ok.inj paid
          exact Nested.refl _
      | cons token tokens =>
          rw [Ethereum.payTokens] at paid
          obtain ⟨middle, sent, paid⟩ := except_bind_eq_ok.mp paid
          have nested := Nested.external entered sent
          exact nested.trans (ih (nested.entered.trans entered) paid)

end Ethereum

/-! ### Accepted calls -/

/-- The validator set the caller names is the current one, and enough of it has signed a hash. -/
structure GravityState.Approves (evm : Evm) (gravity : GravityState) (valset : ValsetArgs)
    (signatures : Signatures) (theHash : Bytes) : Prop where
  lengths : signatures.Match valset
  checkpoint : makeCheckpoint evm valset gravity.gravityId = gravity.lastValsetCheckpoint
  quorum : checkQuorum evm gravity valset signatures theHash = .ok ()

/-- The checks of a call. -/
def GravityCall.Passes (evm : Evm) (eth : Ethereum τ) : GravityCall → Prop
  | updateValset newValset currentValset signatures =>
      currentValset.valsetNonce < newValset.valsetNonce ∧
      newValset.validators.length = newValset.powers.length ∧
      eth.gravity.Approves evm currentValset signatures
        (makeCheckpoint evm newValset eth.gravity.gravityId)
  | submitBatch currentValset signatures args =>
      eth.gravity.lastBatchNonces args.tokenContract < args.batchNonce ∧
      eth.blockNumber < args.batchTimeout ∧
      eth.gravity.Approves evm currentValset signatures (batchHash evm args eth.gravity.gravityId)
  | submitLogicCall currentValset signatures args =>
      eth.gravity.invalidationMapping args.invalidationId < args.invalidationNonce ∧
      eth.blockNumber < args.timeOut ∧
      eth.gravity.Approves evm currentValset signatures
        (logicCallHash evm args eth.gravity.gravityId)
  | sendToCosmos _ _ _ => True
  | deployERC20 _ => True

/-- The storage a call writes, besides the event nonce. -/
def GravityCall.actions (evm : Evm) (gravity : GravityState) : GravityCall → GravityState
  | updateValset newValset _ _ =>
      { gravity with
        lastValsetCheckpoint := makeCheckpoint evm newValset gravity.gravityId
        lastValsetNonce := newValset.valsetNonce }
  | submitBatch _ _ args =>
      { gravity with
        lastBatchNonces :=
          Function.update gravity.lastBatchNonces args.tokenContract args.batchNonce }
  | submitLogicCall _ _ args =>
      { gravity with
        invalidationMapping :=
          Function.update gravity.invalidationMapping args.invalidationId args.invalidationNonce }
  | sendToCosmos _ _ _ => gravity
  | deployERC20 _ => gravity

/-- **Everything an accepted call does**: it passed its checks and wrote its storage, deployments may
be nested in it, and its own event comes last. -/
structure Ethereum.Accepts (evm : Evm) (sender : EthAddress) (call : GravityCall)
    (before after : Ethereum τ) : Prop where
  inRange : call.InRange
  passes : call.Passes evm before
  gravity : after.gravity =
    { call.actions evm before.gravity with lastEventNonce := after.gravity.lastEventNonce }
  blockNumber : after.blockNumber = before.blockNumber
  logs : ∃ nested event, after.logs = before.logs ++ nested ++ [(event, before.blockNumber)] ∧
    (∀ log ∈ nested, log.1.isDeployment = true ∧ log.2 = before.blockNumber) ∧
    call.Reports sender event
  accepted : ∃ nested, after.accepted = before.accepted ++ nested ++ [(sender, call)] ∧
    ∀ entry ∈ nested, entry.2.isDeployment = true
  wellLogged : before.WellLogged → after.WellLogged
  events : ∀ log ∈ after.logs, log ∈ before.logs ∨ log.1.InRange

/-- Logs are appended in the current block, none of them for a batch, and the batch nonces stay. -/
structure Ethereum.Quiet (before after : Ethereum τ) : Prop where
  lastBatchNonces : after.gravity.lastBatchNonces = before.gravity.lastBatchNonces
  blockNumber : after.blockNumber = before.blockNumber
  logs : ∃ new, after.logs = before.logs ++ new ∧
    ∀ log ∈ new, log.1.isBatch = false ∧ log.2 = before.blockNumber

theorem isBatch_of_isDeployment {event : GravityEvent} (deployment : event.isDeployment = true) :
    event.isBatch = false := by
  cases event with
  | erc20Deployed => rfl
  | _ => cases deployment

/-- The event of a call with arguments in range that has passed its checks. -/
theorem GravityCall.Reports.inRange {sender : EthAddress} {call : GravityCall} {event : GravityEvent}
    {eth : Ethereum τ} (reports : call.Reports sender event) (inRange : call.InRange)
    (passes : call.Passes evm eth) (nonce : event.eventNonce < 2 ^ 256) : event.InRange := by
  cases call with
  | updateValset newValset currentValset signatures =>
      obtain ⟨⟨validators, _, powers, valsetNonce, reward⟩, _⟩ := inRange
      rw [reports]
      exact ⟨valsetNonce, nonce, reward, passes.2.1, validators, powers⟩
  | submitBatch currentValset signatures args =>
      obtain ⟨_, _, _, _, _, _, _, batchNonce, _⟩ := inRange
      rw [reports]
      exact ⟨Nat.zero_lt_of_lt passes.1, batchNonce, nonce⟩
  | submitLogicCall currentValset signatures args =>
      obtain ⟨_, _, _, _, _, _, _, _, _, _, id, invalidationNonce⟩ := inRange
      obtain ⟨returnData, reports⟩ := reports
      rw [reports]
      exact ⟨id, invalidationNonce, nonce⟩
  | sendToCosmos tokenContract destination amount =>
      rw [reports]
      exact ⟨inRange.1, inRange.2, nonce⟩
  | deployERC20 args =>
      obtain ⟨erc20, reports⟩ := reports
      rw [reports]
      exact ⟨inRange.1, inRange.2, nonce⟩

namespace Ethereum

/-- The end of a call: after its actions and what is nested in it, it writes its log. -/
theorem Accepts.of_emit {sender : EthAddress} {call : GravityCall} {before middle last : Ethereum τ}
    {entered : Bool} {event : Nat → GravityEvent} (emitted : middle.emit event = .ok last)
    (inRange : call.InRange) (passes : call.Passes evm before)
    (nested : Nested { before with
      gravity := { call.actions evm before.gravity with entered := entered } } middle)
    (counter : (call.actions evm before.gravity).lastEventNonce = before.gravity.lastEventNonce)
    (guard : (call.actions evm before.gravity).entered = before.gravity.entered)
    (nonce : ∀ value, (event value).eventNonce = value)
    (reports : ∀ value, call.Reports sender (event value)) :
    Accepts evm sender call before { last with
      gravity := { last.gravity with entered := before.gravity.entered }
      accepted := last.accepted ++ [(sender, call)] } := by
  obtain ⟨new, logs, newNested⟩ := nested.logs
  obtain ⟨calls, accepted, callsNested⟩ := nested.accepted
  have block : middle.blockNumber = before.blockNumber := nested.blockNumber
  refine ⟨inRange, passes, ?_, ?_, ⟨new, event (middle.gravity.lastEventNonce + 1), ?_, newNested,
    reports _⟩, ⟨calls, ?_, callsNested⟩, fun well => ?_, fun log member => ?_⟩
  · rw [emit_eq_ok emitted, nested.gravity, ← guard]
  · rw [emit_eq_ok emitted]
    exact block
  · rw [emit_eq_ok emitted, ← block]
    exact congrArg (· ++ _) logs
  · rw [emit_eq_ok emitted]
    exact congrArg (· ++ _) accepted
  · have there := nested.wellLogged (well.congr counter rfl rfl)
    exact (there.emit nonce emitted).congr rfl rfl rfl
  · have written : log ∈ middle.logs ++
        [(event (middle.gravity.lastEventNonce + 1), middle.blockNumber)] := by
      rw [emit_eq_ok emitted] at member
      exact member
    rcases List.mem_append.mp written with earlier | own
    · exact nested.inRange log earlier
    · rw [List.mem_singleton.mp own]
      refine Or.inr ((reports _).inRange inRange passes ?_)
      rw [nonce]
      exact lt_of_emit_eq_ok emitted

/-- **Inversion of a call.** -/
theorem callAt_eq_ok {depth : Nat} {sender : EthAddress} {call : GravityCall} {eth after : Ethereum τ}
    (done : callAt evm others depth sender call eth = .ok after) :
    Accepts evm sender call eth after := by
  cases depth with
  | zero => cases done
  | succ depth =>
      rw [callAt] at done
      obtain ⟨_, inRange, done⟩ := except_bind_eq_ok.mp done
      obtain ⟨final, dispatched, done⟩ := except_bind_eq_ok.mp done
      obtain rfl := Except.ok.inj done
      have inRange : call.InRange := require_eq_ok inRange
      cases call with
      | updateValset newValset currentValset signatures =>
          rw [dispatch, updateValset] at dispatched
          obtain ⟨free, last, ran, rfl⟩ := nonReentrant_eq_ok dispatched
          obtain ⟨_, higher, ran⟩ := except_bind_eq_ok.mp ran
          obtain ⟨_, formed, ran⟩ := except_bind_eq_ok.mp ran
          obtain ⟨_, lengths, ran⟩ := except_bind_eq_ok.mp ran
          obtain ⟨_, checkpoint, ran⟩ := except_bind_eq_ok.mp ran
          obtain ⟨_, quorum, ran⟩ := except_bind_eq_ok.mp ran
          obtain ⟨middle, reward, emitted⟩ := except_bind_eq_ok.mp ran
          rw [← free]
          exact Accepts.of_emit emitted inRange ⟨require_eq_ok higher, require_eq_ok formed,
            require_eq_ok lengths, require_eq_ok checkpoint, quorum⟩
            (Nested.payReward rfl reward) rfl rfl (fun _ => rfl) (fun _ => rfl)
      | submitBatch currentValset signatures args =>
          rw [dispatch, submitBatch] at dispatched
          obtain ⟨free, last, ran, rfl⟩ := nonReentrant_eq_ok dispatched
          obtain ⟨_, higher, ran⟩ := except_bind_eq_ok.mp ran
          obtain ⟨_, early, ran⟩ := except_bind_eq_ok.mp ran
          obtain ⟨_, lengths, ran⟩ := except_bind_eq_ok.mp ran
          obtain ⟨_, checkpoint, ran⟩ := except_bind_eq_ok.mp ran
          obtain ⟨_, formed, ran⟩ := except_bind_eq_ok.mp ran
          obtain ⟨_, quorum, ran⟩ := except_bind_eq_ok.mp ran
          obtain ⟨paid, payments, ran⟩ := except_bind_eq_ok.mp ran
          obtain ⟨middle, fees, emitted⟩ := except_bind_eq_ok.mp ran
          have nested := Nested.payBatch rfl payments
          rw [← free]
          exact Accepts.of_emit emitted inRange ⟨require_eq_ok higher, require_eq_ok early,
            require_eq_ok lengths, require_eq_ok checkpoint, quorum⟩
            (nested.trans (Nested.external nested.entered fees)) rfl rfl (fun _ => rfl) (fun _ => rfl)
      | submitLogicCall currentValset signatures args =>
          rw [dispatch, submitLogicCall] at dispatched
          obtain ⟨free, last, ran, rfl⟩ := nonReentrant_eq_ok dispatched
          obtain ⟨_, early, ran⟩ := except_bind_eq_ok.mp ran
          obtain ⟨_, higher, ran⟩ := except_bind_eq_ok.mp ran
          obtain ⟨_, lengths, ran⟩ := except_bind_eq_ok.mp ran
          obtain ⟨_, checkpoint, ran⟩ := except_bind_eq_ok.mp ran
          obtain ⟨_, transfersFormed, ran⟩ := except_bind_eq_ok.mp ran
          obtain ⟨_, feesFormed, ran⟩ := except_bind_eq_ok.mp ran
          obtain ⟨_, quorum, ran⟩ := except_bind_eq_ok.mp ran
          obtain ⟨moved, transfers, ran⟩ := except_bind_eq_ok.mp ran
          obtain ⟨called, logic, ran⟩ := except_bind_eq_ok.mp ran
          obtain ⟨middle, fees, emitted⟩ := except_bind_eq_ok.mp ran
          have first := Nested.payTokens rfl transfers
          have second := first.trans (Nested.run first.entered logic)
          rw [← free]
          exact Accepts.of_emit emitted inRange ⟨require_eq_ok higher, require_eq_ok early,
            require_eq_ok lengths, require_eq_ok checkpoint, quorum⟩
            (second.trans (Nested.payTokens second.entered fees)) rfl rfl (fun _ => rfl)
            (fun _ => ⟨_, rfl⟩)
      | sendToCosmos tokenContract destination amount =>
          rw [dispatch, sendToCosmos] at dispatched
          obtain ⟨free, last, ran, rfl⟩ := nonReentrant_eq_ok dispatched
          obtain ⟨taken, transfer, ran⟩ := except_bind_eq_ok.mp ran
          obtain ⟨middle, burning, emitted⟩ := except_bind_eq_ok.mp ran
          have nested := Nested.external rfl transfer
          rw [← free]
          exact Accepts.of_emit emitted inRange trivial
            (nested.trans (Nested.burnWNom nested.entered burning)) rfl rfl (fun _ => rfl)
            (fun _ => rfl)
      | deployERC20 args =>
          rw [dispatch, deployERC20] at dispatched
          have accepts : Accepts evm sender (.deployERC20 args) eth _ :=
            Accepts.of_emit dispatched inRange trivial (Nested.withContracts eth _) rfl rfl
              (fun _ => rfl) (fun _ => ⟨_, rfl⟩)
          have guard : eth.gravity.entered = final.gravity.entered := by
            rw [emit_eq_ok dispatched]
          rwa [guard] at accepts

theorem call_eq_ok {sender : EthAddress} {call : GravityCall} {eth after : Ethereum τ}
    (done : eth.call evm others sender call = .ok after) : Accepts evm sender call eth after :=
  callAt_eq_ok done

/-- An accepted call that is not for a batch is quiet. -/
theorem Accepts.quiet {sender : EthAddress} {call : GravityCall} {before after : Ethereum τ}
    (accepts : Accepts evm sender call before after)
    (other : ∀ currentValset signatures args, call ≠ .submitBatch currentValset signatures args) :
    before.Quiet after := by
  obtain ⟨nested, event, logs, deployments, reports⟩ := accepts.logs
  have own : event.isBatch = false := by
    cases call with
    | updateValset => rw [reports]; rfl
    | submitBatch => exact absurd rfl (other _ _ _)
    | submitLogicCall => obtain ⟨_, reports⟩ := reports; rw [reports]; rfl
    | sendToCosmos => rw [reports]; rfl
    | deployERC20 => obtain ⟨_, reports⟩ := reports; rw [reports]; rfl
  refine ⟨?_, accepts.blockNumber, nested ++ [(event, before.blockNumber)], by
    rw [logs, List.append_assoc], fun log member => ?_⟩
  · rw [accepts.gravity]
    cases call with
    | submitBatch => exact absurd rfl (other _ _ _)
    | _ => rfl
  · rcases List.mem_append.mp member with inside | last
    · obtain ⟨deployment, block⟩ := deployments log inside
      exact ⟨isBatch_of_isDeployment deployment, block⟩
    · rw [List.mem_singleton.mp last]
      exact ⟨own, rfl⟩

end Ethereum

/-- **The invariant rule of the chain**: what changes of the other contracts, new blocks and accepted
calls keep holds after every list of transactions. -/
theorem Ethereum.after_keeps (kept : Ethereum τ → Prop)
    (contracts : ∀ eth contracts, kept eth → kept { eth with contracts := contracts })
    (blocks : ∀ eth count, kept eth → kept { eth with blockNumber := eth.blockNumber + count })
    (accepts : ∀ sender call eth after, kept eth → Accepts evm sender call eth after → kept after)
    {start : Ethereum τ} (initially : kept start) (inputs : List (EthereumInput τ)) :
    kept (start.after evm others inputs) := by
  induction inputs generalizing start with
  | nil => exact initially
  | cons input rest ih =>
      refine ih ?_
      cases input with
      | blocks count => exact blocks start count initially
      | transaction code =>
          rw [Ethereum.next, Ethereum.transact]
          cases done : (code start).run (Ethereum.callAt evm others 1024) start with
          | error reason => exact initially
          | ok result =>
              refine Callee.run_keeps kept contracts ?_ initially done
              intro sender call eth after holds called
              exact accepts sender call eth after holds (Ethereum.callAt_eq_ok called)

/-- **Inversion of the constructor.** -/
theorem deployGravity_eq_ok {gravityId : Bytes} {powerThreshold : Nat} {validators : List EthAddress}
    {powers : List Nat} {wNomAddress : EthAddress} {contracts : τ} {blockNumber : Nat}
    {eth : Ethereum τ}
    (deployed : deployGravity evm gravityId powerThreshold validators powers wNomAddress contracts
      blockNumber = .ok eth) :
    gravityId.length = 32 ∧ (⟨validators, powers, 0, 0, 0⟩ : ValsetArgs).InRange ∧
    validators.length = powers.length ∧
    eth =
      { gravity :=
          { wNomAddress := wNomAddress
            lastValsetCheckpoint := makeCheckpoint evm ⟨validators, powers, 0, 0, 0⟩ gravityId
            lastBatchNonces := fun _ => 0
            invalidationMapping := fun _ => 0
            lastValsetNonce := 0
            lastEventNonce := 1
            gravityId := gravityId
            powerThreshold := powerThreshold
            entered := false }
        contracts := contracts
        blockNumber := blockNumber
        logs := [(.valsetUpdated 0 1 0 0 validators powers, blockNumber)]
        accepted := [] } := by
  unfold deployGravity at deployed
  obtain ⟨_, calldata, deployed⟩ := except_bind_eq_ok.mp deployed
  obtain ⟨_, formed, deployed⟩ := except_bind_eq_ok.mp deployed
  obtain ⟨_, _, deployed⟩ := except_bind_eq_ok.mp deployed
  obtain ⟨id, _, inRange⟩ := require_eq_ok calldata
  exact ⟨id, inRange, require_eq_ok formed, (Except.ok.inj deployed).symm⟩

end Effects

end NabBridge
