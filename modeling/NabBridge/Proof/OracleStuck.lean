/-
**A loop that has passed an event reports nothing more.**

The module counts a vote only for the nonce after the validator's last one. Once the cursor is past the event
with this nonce, no later round holds it, every transaction of the loop starts above it and fails, and the answer
of the module never changes again (`oracle_stuck`). Nothing in the loop notices; only a new start, which asks
for the block of the last reported event, goes back.
-/

import NabBridge.Proof.OracleLoop

namespace NabBridge

open Orchestrator

section Stuck

variable {σ ε π τ : Type} {evm : Evm} {others : Contracts τ} {crates : OracleCrates} {sdk : Sdk}
  {unmarshalInt : Bytes → Option (Option Int)} {ourAddress : Bytes} {account : AccAddress}
  {orchestratorValidator : AccAddress → Option ValAddress} {validator : ValAddress}

/-! ### What goes on around the loop -/

/-- Nobody else votes for the validator, and the module's chain is not started again. -/
def LoopInput.Foreign (sdk : Sdk) (validator : ValAddress) : LoopInput σ ε π τ → Prop
  | .module (.attest orchestratorValidator _ claim) =>
      claimVoter sdk orchestratorValidator claim ≠ some validator
  | .module (.restart _ _) => False
  | _ => True

instance (input : LoopInput σ ε π τ) : Decidable (input.Foreign sdk validator) := by
  unfold LoopInput.Foreign; split <;> infer_instance

/-- The newest block that a round gets to see is after `block`. -/
def LoopInput.LooksPast (block : Nat) : LoopInput σ ε π τ → Prop
  | .action (.fetch netVersion latestBlock) => block < latestBlock - getBlockDelay netVersion
  | _ => True

instance (block : Nat) (input : LoopInput σ ε π τ) : Decidable (input.LooksPast block) := by
  unfold LoopInput.LooksPast; split <;> infer_instance

/-- The loop is not started again, by a panic or otherwise. -/
def StaysUp (evm : Evm) (others : Contracts τ) (crates : OracleCrates) (sdk : Sdk)
    (unmarshalInt : Bytes → Option (Option Int)) (ourAddress : Bytes)
    (orchestratorValidator : AccAddress → Option ValAddress) (validator : ValAddress) (block : Nat)
    (state : OracleLoop σ τ) (input : LoopInput σ ε π τ) : Prop :=
  input.Foreign sdk validator ∧ input.LooksPast block ∧
    ∀ result ∈ oracleLoopStep evm others crates sdk unmarshalInt ourAddress orchestratorValidator
      validator state input, result.1.phase ≠ .resync

instance (block : Nat) (state : OracleLoop σ τ) (input : LoopInput σ ε π τ) :
    Decidable (StaysUp evm others crates sdk unmarshalInt ourAddress orchestratorValidator validator block
      state input) := by
  unfold StaysUp; infer_instance

/-- The counter of a validator is changed by its own votes only. -/
theorem OracleHistory.foreign {past outputs : List (OracleOutput ε)} {before after : Oracle × σ}
    {input : OracleInput σ ε π} (history : OracleHistory sdk past before.1)
    (foreign : (LoopInput.module input : LoopInput σ ε π τ).Foreign sdk validator)
    (step : oracleStep sdk before input = some (after, outputs)) :
    after.1.lastEventNonceByValidator.get (getLastEventNonceByValidatorKey validator) =
      before.1.lastEventNonceByValidator.get (getLastEventNonceByValidatorKey validator) := by
  cases input with
  | attest orchestratorValidator blockHeight claim =>
      simp only [oracleStep] at step
      split at step
      · rename_i oracle att voted
        obtain ⟨voter, isVoter, next, rfl, rfl⟩ := attest_eq_ok voted
        obtain ⟨rfl, _⟩ := Prod.mk.inj (Option.some.inj step)
        have other : validator ≠ voter := fun same => foreign (same ▸ isVoter)
        simp only [Oracle.recordVote, Oracle.setLastEventNonceByValidator, Store.get_set,
          getLastEventNonceByValidatorKey_inj, if_neg other]
        rfl
      · obtain ⟨rfl, _⟩ := Prod.mk.inj (Option.some.inj step)
        rfl
  | attestationTally staking handle blockHeight =>
      simp only [oracleStep] at step
      split at step
      · rename_i ctx counted
        obtain ⟨rfl, _⟩ := Prod.mk.inj (Option.some.inj step)
        rw [(history.invariant.keeps counted).counters]
      · cases step
  | pruneAttestations =>
      obtain ⟨rfl, _⟩ := Prod.mk.inj (Option.some.inj step)
      rw [(pruneAttestations_pruned history.invariant.ballots.keyed).counters]
  | restart attestations app => exact foreign.elim
  | other app =>
      obtain ⟨rfl, _⟩ := Prod.mk.inj (Option.some.inj step)
      rfl

/-- **A round of a validator that has voted is undisturbed** where nobody else votes for the validator and
no transaction but its own is executed. -/
theorem undisturbed_of_voted {past : List (OracleOutput ε)} {state : OracleLoop σ τ}
    {input : LoopInput σ ε π τ} (history : OracleHistory sdk past state.module.1)
    (foreign : input.Foreign sdk validator)
    (own : ∀ claims ∈ state.phase.claims?, ∀ executed ∈ input.executed state.inFlight, executed = claims)
    {nonce : Nat} (voted : state.module.1.lastEventNonceByValidator.get
      (getLastEventNonceByValidatorKey validator) = some nonce) :
    Undisturbed evm others crates sdk unmarshalInt ourAddress orchestratorValidator validator state
      input := by
  intro claims made
  cases input with
  | ethereum input =>
      refine Or.inr fun result step => ?_
      obtain rfl := Option.some.inj step
      rfl
  | module input =>
      refine Or.inr fun result step => ?_
      simp only [oracleLoopStep] at step
      split at step
      · rename_i module votes taken
        obtain rfl := Option.some.inj step
        have kept := history.foreign foreign taken
        rw [OracleLoop.lastEventNonce, OracleLoop.lastEventNonce,
          Oracle.getLastEventNonceByValidator_of_some voted,
          Oracle.getLastEventNonceByValidator_of_some (kept.trans voted)]
      · cases step
  | execute position blockHeight =>
      cases found : state.inFlight[position]? with
      | some executed => exact Or.inl (found.trans (congrArg some (own claims made executed found)))
      | none =>
          refine Or.inr fun result step => ?_
          simp only [oracleLoopStep, found] at step
          cases step
  | lose position =>
      refine Or.inr fun result step => ?_
      obtain rfl := Option.some.inj step
      rfl
  | action action =>
      refine Or.inr fun result step => ?_
      simp only [oracleLoopStep] at step
      split at step
      · obtain rfl := Option.some.inj step
        rfl
      · cases step

/-! ### Past an event -/

/-- The claims of logs above the next nonce. -/
def SkipsNext (crates : OracleCrates) (ourAddress : Bytes) (nonce : Nat) (claims : List ProtoClaim) : Prop :=
  ∃ logs : List (GravityEvent × Nat), claims = logs.map (wireClaim crates ourAddress) ∧
    ∀ log ∈ logs, nonce + 1 < log.1.eventNonce

/-- Such a transaction is refused, unless it is empty. -/
theorem SkipsNext.refused (ours : sdk.accAddressFromBech32 ourAddress = some account)
    (known : orchestratorValidator account = some validator) {oracle after : Oracle} {blockHeight : Nat}
    {claims : List ProtoClaim}
    (skips : SkipsNext crates ourAddress (oracle.getLastEventNonceByValidator validator) claims)
    (accepted : acceptClaims unmarshalInt sdk orchestratorValidator blockHeight oracle claims =
      some after) : claims = [] ∧ after = oracle := by
  obtain ⟨logs, rfl, above⟩ := skips
  cases logs with
  | nil => exact ⟨rfl, (Option.some.inj accepted).symm⟩
  | cons log rest =>
      have next := (acceptClaims_reports ours known accepted).1 log rfl
      have high := above log List.mem_cons_self
      omega

/-- The loop is past a block, and all its claims are above the next nonce. -/
def OraclePhase.Past (evm : Evm) (crates : OracleCrates) (ourAddress : Bytes) (eth : Ethereum τ)
    (nonce block : Nat) : OraclePhase → Prop
  | resync => False
  | searching _ => False
  | waiting lastCheckedBlock => block < lastCheckedBlock
  | fetched lastCheckedBlock latestBlock logs =>
      block < lastCheckedBlock ∧ block < latestBlock ∧ latestBlock < eth.blockNumber ∧
        logs = roundLogs evm (logsBetween eth.logs lastCheckedBlock latestBlock)
  | claimed lastCheckedBlock _ lastEventNonce claims =>
      block < lastCheckedBlock ∧ lastEventNonce = nonce ∧ SkipsNext crates ourAddress nonce claims
  | sent lastCheckedBlock _ lastEventNonce claims =>
      block < lastCheckedBlock ∧ lastEventNonce = nonce ∧ SkipsNext crates ourAddress nonce claims

theorem OraclePhase.Past.cursor {phase : OraclePhase} {eth : Ethereum τ} {nonce block : Nat}
    (isPast : phase.Past evm crates ourAddress eth nonce block) :
    ∃ lastCheckedBlock, phase.lastCheckedBlock? = some lastCheckedBlock ∧ block < lastCheckedBlock := by
  cases phase with
  | resync => exact isPast.elim
  | searching => exact isPast.elim
  | waiting => exact ⟨_, rfl, isPast⟩
  | fetched => exact ⟨_, rfl, isPast.1⟩
  | claimed => exact ⟨_, rfl, isPast.1⟩
  | sent => exact ⟨_, rfl, isPast.1⟩

theorem OraclePhase.Past.grows {phase : OraclePhase} {before after : Ethereum τ} {nonce block : Nat}
    (isPast : phase.Past evm crates ourAddress before nonce block) (grows : before.Grows after) :
    phase.Past evm crates ourAddress after nonce block := by
  cases phase with
  | fetched lastCheckedBlock latestBlock logs =>
      obtain ⟨low, high, mined, logsAre⟩ := isPast
      exact ⟨low, high, mined.trans_le grows.blockNumber, (grows.logsBetween mined).symm ▸ logsAre⟩
  | _ => exact isPast

/-- **A loop that is past the next event**: of a validator that has voted. -/
structure LoopStuck (ε : Type) (evm : Evm) (crates : OracleCrates) (sdk : Sdk) (ourAddress : Bytes)
    (validator : ValAddress) (validators : List EthAddress) (powers : List Nat) (blockNumber : Nat)
    (log : GravityEvent × Nat) (nonce : Nat) (state : OracleLoop σ τ) : Prop where
  world : LoopWorld ε sdk validators powers blockNumber state
  counter : state.module.1.lastEventNonceByValidator.get (getLastEventNonceByValidatorKey validator) =
    some nonce
  member : log ∈ state.ethereum.logs
  phase : state.phase.Past evm crates ourAddress state.ethereum nonce log.2
  inFlight : ∀ claims ∈ state.inFlight, SkipsNext crates ourAddress nonce claims

section Step

variable {validators : List EthAddress} {powers : List Nat} {blockNumber : Nat}
  {log : GravityEvent × Nat} {nonce : Nat}

theorem LoopStuck.lastEventNonce {state : OracleLoop σ τ}
    (stuck : LoopStuck ε evm crates sdk ourAddress validator validators powers blockNumber log nonce
      state) : state.lastEventNonce validator = nonce :=
  Oracle.getLastEventNonceByValidator_of_some stuck.counter

/-- The claims of a round that starts past an event. -/
theorem Ethereum.Readable.skipsNext {eth : Ethereum τ}
    (readable : eth.Readable validators powers blockNumber) (member : log ∈ eth.logs)
    (next : log.1.eventNonce = nonce + 1) {startingBlock latestBlock : Nat} (isPast : log.2 < startingBlock) :
    SkipsNext crates ourAddress nonce
      (newClaims crates ourAddress nonce (logsBetween eth.logs startingBlock latestBlock)) := by
  refine ⟨_, rfl, fun other new => ?_⟩
  obtain ⟨inLogs, above, _⟩ := mem_logsBetween.mp (List.mem_filter.mp new).1
  rw [← next]
  exact readable.nonce_lt member inLogs (isPast.trans_le above)

/-- What the loop does leaves it past the event, and so are the transactions it sends. -/
theorem LoopStuck.action (lawful : crates.Lawful) (next : log.1.eventNonce = nonce + 1)
    {state : OracleLoop σ τ} {action : LoopAction} {phase : OraclePhase}
    {transaction : Option (List ProtoClaim)}
    (stuck : LoopStuck ε evm crates sdk ourAddress validator validators powers blockNumber log nonce
      state)
    (looks : (LoopInput.action action : LoopInput σ ε π τ).LooksPast log.2) (up : phase ≠ .resync)
    (taken : oracleLoopAction evm crates ourAddress validator state action = some (phase, transaction)) :
    phase.Past evm crates ourAddress state.ethereum nonce log.2 ∧
      ∀ claims ∈ transaction, SkipsNext crates ourAddress nonce claims := by
  have isPast := stuck.phase
  have readable := stuck.world.readable
  have nothing : ∀ claims ∈ (none : Option (List ProtoClaim)), SkipsNext crates ourAddress nonce claims :=
    fun _ sent => by cases sent
  cases action with
  | crash =>
      obtain ⟨rfl, _⟩ := Prod.mk.inj (Option.some.inj taken)
      exact absurd rfl up
  | resync =>
      simp only [oracleLoopAction] at taken
      split at taken
      · rename_i phaseIs
        rw [phaseIs] at isPast
        exact isPast.elim
      · cases taken
  | search latestBlock =>
      simp only [oracleLoopAction] at taken
      split at taken
      · rename_i phaseIs
        rw [phaseIs] at isPast
        exact isPast.elim
      · cases taken
  | fetch netVersion latestBlock =>
      simp only [oracleLoopAction] at taken
      split at taken
      · rename_i lastCheckedBlock phaseIs
        rw [phaseIs] at isPast
        split_ifs at taken with mined early
        · obtain ⟨rfl, _⟩ := Prod.mk.inj (Option.some.inj taken)
          exact absurd rfl up
        · obtain ⟨rfl, rfl⟩ := Prod.mk.inj (Option.some.inj taken)
          exact ⟨⟨isPast, looks, (Nat.sub_le _ _).trans_lt mined, rfl⟩, nothing⟩
      · cases taken
  | ask =>
      simp only [oracleLoopAction] at taken
      split at taken
      · rename_i lastCheckedBlock latestBlock logs phaseIs
        rw [phaseIs] at isPast
        obtain ⟨low, high, _, rfl⟩ := isPast
        split at taken
        · obtain ⟨rfl, rfl⟩ := Prod.mk.inj (Option.some.inj taken)
          exact ⟨high, nothing⟩
        · rename_i claims _ sent
          obtain ⟨rfl, rfl⟩ := Prod.mk.inj (Option.some.inj taken)
          rw [stuck.lastEventNonce] at sent ⊢
          rw [readable.claims_of_round lawful sent]
          exact ⟨⟨low, rfl, readable.skipsNext stuck.member next low⟩, nothing⟩
        · obtain ⟨rfl, rfl⟩ := Prod.mk.inj (Option.some.inj taken)
          exact ⟨low, nothing⟩
        · obtain ⟨rfl, _⟩ := Prod.mk.inj (Option.some.inj taken)
          exact absurd rfl up
      · cases taken
  | send delivered =>
      simp only [oracleLoopAction] at taken
      split at taken
      · rename_i phaseIs
        rw [phaseIs] at isPast
        obtain ⟨rfl, rfl⟩ := Prod.mk.inj (Option.some.inj taken)
        refine ⟨isPast, fun claims sent => ?_⟩
        split_ifs at sent
        · exact Option.some.inj sent ▸ isPast.2.2
        · exact nothing claims sent
      · cases taken
  | askAgain =>
      simp only [oracleLoopAction] at taken
      split at taken
      · rename_i phaseIs
        rw [phaseIs] at isPast
        -- the answer has not changed
        rw [if_pos (stuck.lastEventNonce.trans isPast.2.1.symm)] at taken
        obtain ⟨rfl, rfl⟩ := Prod.mk.inj (Option.some.inj taken)
        exact ⟨isPast.1, nothing⟩
      · cases taken
  | fail =>
      simp only [oracleLoopAction] at taken
      obtain ⟨lastCheckedBlock, isNext, low⟩ := isPast.cursor
      rw [isNext] at taken
      obtain ⟨rfl, rfl⟩ := Prod.mk.inj (Option.some.inj taken)
      exact ⟨low, nothing⟩

/-- **A stuck loop stays stuck**, and none of its claims is accepted. -/
theorem LoopStuck.step (lawful : crates.Lawful)
    (ours : sdk.accAddressFromBech32 ourAddress = some account)
    (known : orchestratorValidator account = some validator) (next : log.1.eventNonce = nonce + 1)
    {state after : OracleLoop σ τ} {input : LoopInput σ ε π τ} {outputs : List ProtoClaim}
    (stuck : LoopStuck ε evm crates sdk ourAddress validator validators powers blockNumber log nonce state)
    (up : StaysUp evm others crates sdk unmarshalInt ourAddress orchestratorValidator validator log.2
      state input)
    (step : oracleLoopStep evm others crates sdk unmarshalInt ourAddress orchestratorValidator validator
      state input = some (after, outputs)) :
    outputs = [] ∧
      LoopStuck ε evm crates sdk ourAddress validator validators powers blockNumber log nonce after := by
  have world := stuck.world.step step
  obtain ⟨foreign, looks, running⟩ := up
  have running := running _ step
  cases input with
  | ethereum input =>
      obtain ⟨rfl, rfl⟩ := Prod.mk.inj (Option.some.inj step)
      have grows : state.ethereum.Grows (state.ethereum.next evm others input) :=
        state.ethereum.next_grows input
      obtain ⟨new, logs, _⟩ := grows.logs
      exact ⟨rfl, world, stuck.counter, logs ▸ List.mem_append_left _ stuck.member,
        stuck.phase.grows grows, stuck.inFlight⟩
  | module input =>
      simp only [oracleLoopStep] at step
      split at step
      · rename_i module votes taken
        obtain ⟨rfl, rfl⟩ := Prod.mk.inj (Option.some.inj step)
        obtain ⟨past, history⟩ := stuck.world.history
        exact ⟨rfl, world, (history.foreign foreign taken).trans stuck.counter, stuck.member, stuck.phase,
          stuck.inFlight⟩
      · cases step
  | execute position blockHeight =>
      have others : ∀ claims ∈ state.inFlight.eraseIdx position, SkipsNext crates ourAddress nonce claims :=
        fun claims member => stuck.inFlight claims (List.mem_of_mem_eraseIdx member)
      simp only [oracleLoopStep] at step
      split at step
      · rename_i claims found
        split at step
        · rename_i oracle accepted
          have skips := stuck.inFlight claims (List.mem_of_getElem? found)
          rw [← stuck.lastEventNonce] at skips
          obtain ⟨none, rfl⟩ := skips.refused ours known accepted
          obtain ⟨rfl, rfl⟩ := Prod.mk.inj (Option.some.inj step)
          exact ⟨none, world, stuck.counter, stuck.member, stuck.phase, others⟩
        · obtain ⟨rfl, rfl⟩ := Prod.mk.inj (Option.some.inj step)
          exact ⟨rfl, world, stuck.counter, stuck.member, stuck.phase, others⟩
      · cases step
  | lose position =>
      obtain ⟨rfl, rfl⟩ := Prod.mk.inj (Option.some.inj step)
      exact ⟨rfl, world, stuck.counter, stuck.member, stuck.phase,
        fun claims member => stuck.inFlight claims (List.mem_of_mem_eraseIdx member)⟩
  | action action =>
      simp only [oracleLoopStep] at step
      split at step
      · rename_i phase sent taken
        obtain ⟨rfl, rfl⟩ := Prod.mk.inj (Option.some.inj step)
        obtain ⟨isPast, sends⟩ := stuck.action lawful next looks running taken
        refine ⟨rfl, world, stuck.counter, stuck.member, isPast, fun claims member => ?_⟩
        rcases List.mem_append.mp member with old | new
        · exact stuck.inFlight claims old
        · exact sends claims (Option.mem_toList.mp new)
      · cases step

end Step

end Stuck

/-! ### After a late transaction -/

/-- A round after `exampleLateRounds`, with a new event. -/
def exampleStuckRound : List (LoopInput Unit Unit Unit Unit) :=
  exampleDeploys 1 ++ [.action (.fetch 31337 104), .action .ask, .action (.send true), .execute 0 10,
    .action .askAgain]

/-- The event of the third nonce, in block 102. -/
def examplePassed : GravityEvent × Nat :=
  (.erc20Deployed (ascii "unom") 6 (ascii "Nom") (ascii "NOM") 18 3, 102)

/-- What is left behind by the late transaction, and whether the loop goes on from there. -/
def exampleStuckAt (start : Ethereum Unit) : Option (Bool × (OraclePhase × Bool)) :=
  (run exampleLoopStep (OracleLoop.fresh () start) (exampleFirstRound ++ exampleLateRounds)).map fun result =>
    (decide (result.1.inFlight = [] ∧ result.1.module.1.lastEventNonceByValidator.get
        (getLastEventNonceByValidatorKey (List.replicate 20 1)) = some 2 ∧
        examplePassed ∈ result.1.ethereum.logs ∧
        StepsMeet exampleLoopStep (StaysUp exampleEvm reentrantContracts exampleOracleCrates
          exampleOracleSdk exampleUnmarshalInt exampleOrchestrator exampleDelegate
          (List.replicate 20 1) examplePassed.2) result.1 exampleStuckRound),
      (result.1.phase, (run exampleLoopStep result.1 exampleStuckRound).isSome))

theorem exampleStuckAt_eq : (reentrantDeployment.toOption.bind exampleStuckAt) =
    some (true, (.waiting 103, true)) := by
  decide +kernel

end NabBridge
