/-
**The cursor of the oracle.**

A round that starts at a block has to find every event there that the validator has not reported. What carries
it over a run is `OraclePhase.Safe`: no event below the cursor is unreported, and once the claims of a round are
made, the nonce the module tells is either the one it told before or covers the whole range.

* `OracleHistory.reported_mono`: the nonce the module tells never goes back, not over a restart of the chain
  either;
* `resync_finds`: where a resync ends there is the event it looked for, whatever else the logs hold;
* `acceptClaims_reports`: an accepted transaction takes the nonce to its last claim;
* `oracle_cursor_safe`: **the cursor passes no unreported event** while, between the two questions of a round,
  nothing but its own transaction changes the answer.
-/

import NabBridge.Proof.OracleProgress
import NabBridge.Proof.OracleResync
import NabBridge.System.OracleLoop

namespace NabBridge

open Orchestrator

/-! ### The module never takes a nonce back -/

section History

variable {σ ε π : Type} {sdk : Sdk}

/-- The invariant of the oracle, and that a counter is the nonce of a vote. -/
structure OracleHistory (sdk : Sdk) (past : List (OracleOutput ε)) (oracle : Oracle) : Prop where
  invariant : OracleInvariant sdk past oracle
  counted : ∀ validator nonce, oracle.lastEventNonceByValidator.get
    (getLastEventNonceByValidatorKey validator) = some nonce → (validator, nonce) ∈ votesCast past

theorem oracleHistory_empty : OracleHistory sdk ([] : List (OracleOutput ε)) Oracle.empty :=
  ⟨⟨ballotInvariant_empty, orderInvariant_empty⟩, fun _ _ found => by cases found⟩

/-- The counters of a restored oracle are nonces of stored votes. -/
theorem initGenesisOracle_counts (attestations : List Attestation) (lastObservedNonce : Nat) :
    CountsVotes attestations (initGenesisOracle sdk attestations lastObservedNonce) := by
  rw [initGenesisOracle, foldl_setAttestation]
  exact CountsVotes.restore ⟨fun _ _ found => by cases found⟩

/-- **Every step keeps the history.** -/
theorem OracleHistory.step {past outputs : List (OracleOutput ε)} {before after : Oracle × σ}
    (history : OracleHistory sdk past before.1)
    (step : OracleStep (π := π) sdk before after outputs) :
    OracleHistory sdk (past ++ outputs) after.1 := by
  refine ⟨history.invariant.step step, fun validator nonce found => ?_⟩
  rw [votesCast_append]
  cases step with
  | vote voter blockHeight claim next =>
      simp only [Oracle.recordVote, Oracle.setLastEventNonceByValidator, Store.get_set,
        getLastEventNonceByValidatorKey_inj] at found
      split_ifs at found with same
      · rw [votesCast_vote, ← Option.some.inj found, same]
        exact List.mem_append_right _ (List.mem_singleton_self _)
      · exact List.mem_append_left _ (history.counted validator nonce found)
  | tally staking handle blockHeight ctx counted =>
      rw [(history.invariant.keeps counted).counters] at found
      exact List.mem_append_left _ (history.counted validator nonce found)
  | prune =>
      rw [(pruneAttestations_pruned history.invariant.ballots.keyed).counters] at found
      exact List.mem_append_left _ (history.counted validator nonce found)
  | restart attestations app exported =>
      obtain ⟨att, member, rfl, voted⟩ :=
        (initGenesisOracle_counts attestations _).counter validator nonce found
      obtain ⟨key, stored⟩ := (Store.mem_values_iff _ _).mp (exported.mem_iff.mp member)
      exact List.mem_append_left _ (history.invariant.ballots.stored key att stored validator voted)
  | other app => exact List.mem_append_left _ (history.counted validator nonce found)

/-- A restart does not take a counter back: the vote it stands for is stored, or so old that a validator
without a counter starts above it. -/
theorem OracleHistory.restart_mono {past : List (OracleOutput ε)} {oracle : Oracle}
    (history : OracleHistory sdk past oracle) {attestations : List Attestation}
    (exported : attestations.Perm oracle.attestations.values) (validator : ValAddress) :
    oracle.getLastEventNonceByValidator validator ≤
      (initGenesisOracle sdk attestations
        oracle.lastObservedEventNonce).getLastEventNonceByValidator validator := by
  have ballots := history.invariant.ballots
  obtain ⟨_, lastObserved, above, reached⟩ := initGenesisOracle_spec ballots.keyed exported
  have least : oracle.lastObservedEventNonce - 1 ≤ (initGenesisOracle sdk attestations
      oracle.lastObservedEventNonce).getLastEventNonceByValidator validator := by
    cases found : (initGenesisOracle sdk attestations
        oracle.lastObservedEventNonce).lastEventNonceByValidator.get
        (getLastEventNonceByValidatorKey validator) with
    | none => rw [Oracle.getLastEventNonceByValidator_of_none found, lastObserved]
    | some nonce =>
        have high := above validator nonce found
        rw [Oracle.getLastEventNonceByValidator_of_some found]
        omega
  cases found : oracle.lastEventNonceByValidator.get (getLastEventNonceByValidatorKey validator) with
  | none =>
      rw [Oracle.getLastEventNonceByValidator_of_none found]
      exact least
  | some nonce =>
      rw [Oracle.getLastEventNonceByValidator_of_some found]
      have cast := history.counted validator nonce found
      by_cases recent : oracle.lastObservedEventNonce ≤ nonce + eventsToKeep
      · obtain ⟨key, att, stored, rfl, voted⟩ := ballots.recent validator nonce cast recent
        exact reached key att stored validator voted
      · unfold eventsToKeep at recent
        omega

/-- A vote takes no counter back. -/
theorem recordVote_mono {oracle : Oracle} {claim : EthereumClaim} {att : Attestation} {voter : ValAddress}
    (next : claim.getEventNonce = oracle.getLastEventNonceByValidator voter + 1) (validator : ValAddress) :
    oracle.getLastEventNonceByValidator validator ≤
      (oracle.recordVote sdk claim att voter).getLastEventNonceByValidator validator := by
  rw [Oracle.recordVote, Oracle.getLastEventNonceByValidator_set]
  split_ifs with same
  · rw [same]
    omega
  · exact le_rfl

/-- **The nonce the module tells never goes back.** -/
theorem OracleHistory.reported_mono {past outputs : List (OracleOutput ε)} {before after : Oracle × σ}
    (history : OracleHistory sdk past before.1)
    (step : OracleStep (π := π) sdk before after outputs) (validator : ValAddress) :
    before.1.getLastEventNonceByValidator validator ≤ after.1.getLastEventNonceByValidator validator := by
  cases step with
  | vote voter blockHeight claim next => exact recordVote_mono next validator
  | tally staking handle blockHeight ctx counted =>
      have keeps := history.invariant.keeps counted
      exact getLastEventNonceByValidator_mono keeps.counters
        (keeps.lastObserved ▸ Nat.le_add_right _ _) validator
  | prune =>
      have pruned := pruneAttestations_pruned history.invariant.ballots.keyed
      exact getLastEventNonceByValidator_mono pruned.counters pruned.lastObserved.ge validator
  | restart attestations app exported => exact history.restart_mono exported validator
  | other app => exact le_rfl

/-! ### Transactions -/

variable {crates : OracleCrates} {unmarshalInt : Bytes → Option (Option Int)} {ourAddress : Bytes}
  {account : AccAddress} {orchestratorValidator : AccAddress → Option ValAddress}
  {validator : ValAddress} {blockHeight : Nat}

/-- An accepted claim is a vote. -/
theorem acceptClaim_eq_some {oracle after : Oracle} {claim : ProtoClaim}
    (accepted : acceptClaim unmarshalInt sdk orchestratorValidator blockHeight oracle claim = some after) :
    ∃ msg voter, claim.decode unmarshalInt = some msg ∧ claimVoter sdk orchestratorValidator msg = some voter ∧
      msg.getEventNonce = oracle.getLastEventNonceByValidator voter + 1 ∧
      after = oracle.recordVote sdk msg ((oracle.attestationFor sdk blockHeight msg).addVote voter) voter := by
  unfold acceptClaim at accepted
  split at accepted
  · cases accepted
  · rename_i msg decoded
    split at accepted
    · cases accepted
    · obtain ⟨⟨next, att⟩, voted, rfl⟩ := Option.map_eq_some_iff.mp accepted
      obtain ⟨voter, isVoter, nonce, rfl, rfl⟩ := attest_eq_ok (Outcome.value?_eq_some.mp voted)
      exact ⟨msg, voter, decoded, isVoter, nonce, rfl⟩

/-- Accepted claims are votes, so they take no nonce back. -/
theorem acceptClaims_mono {oracle after : Oracle} {claims : List ProtoClaim}
    (accepted : acceptClaims unmarshalInt sdk orchestratorValidator blockHeight oracle claims = some after)
    (validator : ValAddress) :
    oracle.getLastEventNonceByValidator validator ≤ after.getLastEventNonceByValidator validator := by
  induction claims generalizing oracle with
  | nil =>
      obtain rfl := Option.some.inj accepted
      exact le_rfl
  | cons claim rest ih =>
      rw [acceptClaims, List.foldlM_cons, Option.bind_eq_bind] at accepted
      obtain ⟨middle, first, others⟩ := Option.bind_eq_some_iff.mp accepted
      obtain ⟨msg, voter, _, _, next, rfl⟩ := acceptClaim_eq_some first
      exact (recordVote_mono next validator).trans (ih others)

theorem OracleHistory.acceptClaims {past : List (OracleOutput ε)} {oracle after : Oracle}
    (history : OracleHistory sdk past oracle) {claims : List ProtoClaim}
    (accepted : acceptClaims unmarshalInt sdk orchestratorValidator blockHeight oracle claims = some after) :
    ∃ votes, OracleHistory sdk (past ++ votes) after := by
  induction claims generalizing oracle past with
  | nil =>
      obtain rfl := Option.some.inj accepted
      exact ⟨[], by rwa [List.append_nil]⟩
  | cons claim rest ih =>
      rw [NabBridge.acceptClaims, List.foldlM_cons, Option.bind_eq_bind] at accepted
      obtain ⟨middle, first, others⟩ := Option.bind_eq_some_iff.mp accepted
      obtain ⟨msg, voter, _, _, next, rfl⟩ := acceptClaim_eq_some first
      have step : OracleStep (ε := ε) (π := Unit) sdk (oracle, ()) _ [.vote voter msg] :=
        .vote voter blockHeight msg next
      obtain ⟨votes, kept⟩ := ih (history.step step) others
      exact ⟨_, List.append_assoc past _ votes ▸ kept⟩

/-- The message behind the claim of a log. -/
theorem decode_wireClaim_fields {log : GravityEvent × Nat} {msg : EthereumClaim}
    (decoded : (wireClaim crates ourAddress log).decode unmarshalInt = some msg) :
    msg.getEventNonce = log.1.eventNonce ∧ msg.orchestrator = ourAddress := by
  obtain ⟨event, block⟩ := log
  cases event with
  | sendToCosmos =>
      obtain ⟨amount, _, rfl⟩ := Option.map_eq_some_iff.mp decoded
      exact ⟨rfl, rfl⟩
  | valsetUpdated =>
      obtain ⟨amount, _, rfl⟩ := Option.map_eq_some_iff.mp decoded
      exact ⟨rfl, rfl⟩
  | erc20Deployed =>
      obtain ⟨_, same⟩ := Option.ite_none_right_eq_some.mp decoded
      obtain rfl := Option.some.inj same
      exact ⟨rfl, rfl⟩
  | transactionBatchExecuted =>
      obtain rfl := Option.some.inj decoded
      exact ⟨rfl, rfl⟩
  | logicCall =>
      obtain rfl := Option.some.inj decoded
      exact ⟨rfl, rfl⟩

/-- **An accepted transaction** of ours starts at the next nonce, and no claim in it is left unreported. -/
theorem acceptClaims_reports (ours : sdk.accAddressFromBech32 ourAddress = some account)
    (known : orchestratorValidator account = some validator) {logs : List (GravityEvent × Nat)}
    {oracle after : Oracle}
    (accepted : acceptClaims unmarshalInt sdk orchestratorValidator blockHeight oracle
      (logs.map (wireClaim crates ourAddress)) = some after) :
    (∀ log ∈ logs.head?, log.1.eventNonce = oracle.getLastEventNonceByValidator validator + 1) ∧
      ∀ log ∈ logs, log.1.eventNonce ≤ after.getLastEventNonceByValidator validator := by
  induction logs generalizing oracle with
  | nil =>
      refine ⟨fun _ first => ?_, fun _ member => absurd member List.not_mem_nil⟩
      cases first
  | cons log rest ih =>
      rw [List.map_cons, acceptClaims, List.foldlM_cons, Option.bind_eq_bind] at accepted
      obtain ⟨middle, first, others⟩ := Option.bind_eq_some_iff.mp accepted
      obtain ⟨msg, voter, decoded, isVoter, next, rfl⟩ := acceptClaim_eq_some first
      obtain ⟨nonce, orchestrator⟩ := decode_wireClaim_fields decoded
      obtain ⟨claimer, isClaimer, mapped⟩ := Option.bind_eq_some_iff.mp isVoter
      have isAccount : claimer = account := by
        unfold EthereumClaim.getClaimer at isClaimer
        split at isClaimer
        · rw [orchestrator, ours] at isClaimer
          exact (Option.some.inj isClaimer).symm
        · cases isClaimer
      obtain rfl : validator = voter := Option.some.inj ((isAccount ▸ known).symm.trans mapped)
      refine ⟨fun other same => ?_, fun other member => ?_⟩
      · obtain rfl := Option.some.inj same
        exact nonce.symm.trans next
      · rcases List.mem_cons.mp member with rfl | later
        · have reached : (oracle.recordVote sdk msg
              ((oracle.attestationFor sdk blockHeight msg).addVote validator)
              validator).getLastEventNonceByValidator validator = other.1.eventNonce := by
            rw [Oracle.recordVote, Oracle.getLastEventNonceByValidator_set, if_pos rfl, nonce]
          rw [← reached]
          exact acceptClaims_mono others validator
        · exact (ih others).2 other later

end History

/-! ### The contract's side -/

section Contract

variable {τ : Type} {evm : Evm} {others : Contracts τ} {crates : OracleCrates}

/-- What is mined stays as it is: new logs are in the current block or a later one. -/
structure Ethereum.Grows (before after : Ethereum τ) : Prop where
  blockNumber : before.blockNumber ≤ after.blockNumber
  logs : ∃ new, after.logs = before.logs ++ new ∧ ∀ log ∈ new, before.blockNumber ≤ log.2

theorem Ethereum.next_grows (eth : Ethereum τ) (input : EthereumInput τ) :
    eth.Grows (eth.next evm others input) := by
  refine Ethereum.after_keeps (Ethereum.Grows eth)
    (fun _ _ kept => ⟨kept.blockNumber, kept.logs⟩) ?_ ?_
    ⟨le_rfl, [], (List.append_nil _).symm, fun _ member => absurd member List.not_mem_nil⟩ [input]
  · exact fun later count kept => ⟨kept.blockNumber.trans (Nat.le_add_right _ _), kept.logs⟩
  · intro sender call later after kept accepts
    obtain ⟨old, logs, above⟩ := kept.logs
    obtain ⟨nested, reported, grown, deployments, _⟩ := accepts.logs
    refine ⟨kept.blockNumber.trans accepts.blockNumber.ge, old ++ (nested ++ [(reported, later.blockNumber)]),
      ?_, fun log member => ?_⟩
    · rw [grown, logs]
      simp only [List.append_assoc]
    · rcases List.mem_append.mp member with earlier | new
      · exact above log earlier
      · rcases List.mem_append.mp new with inside | own
        · rw [(deployments log inside).2]
          exact kept.blockNumber
        · rw [List.mem_singleton.mp own]
          exact kept.blockNumber

/-- A range of mined blocks keeps its logs. -/
theorem Ethereum.Grows.logsBetween {before after : Ethereum τ} (grows : before.Grows after)
    {startingBlock latestBlock : Nat} (mined : latestBlock < before.blockNumber) :
    logsBetween after.logs startingBlock latestBlock =
      NabBridge.logsBetween before.logs startingBlock latestBlock := by
  obtain ⟨new, logs, above⟩ := grows.logs
  have outside : NabBridge.logsBetween new startingBlock latestBlock = [] := by
    refine List.filter_eq_nil_iff.mpr fun log member inside => ?_
    have later := above log member
    have range := of_decide_eq_true inside
    omega
  unfold NabBridge.logsBetween at outside ⊢
  rw [logs, List.filter_append, outside, List.append_nil]

/-- No event in a block before `block` has a higher nonce than `nonce`. -/
def Ethereum.ReportedBefore (eth : Ethereum τ) (nonce block : Nat) : Prop :=
  block ≤ eth.blockNumber ∧ ∀ log ∈ eth.logs, log.2 < block → log.1.eventNonce ≤ nonce

instance (eth : Ethereum τ) (nonce block : Nat) : Decidable (eth.ReportedBefore nonce block) := by
  unfold Ethereum.ReportedBefore; infer_instance

theorem Ethereum.ReportedBefore.mono {eth : Ethereum τ} {nonce higher block : Nat}
    (reported : eth.ReportedBefore nonce block) (le : nonce ≤ higher) : eth.ReportedBefore higher block :=
  ⟨reported.1, fun log member below => (reported.2 log member below).trans le⟩

theorem Ethereum.Grows.reportedBefore {before after : Ethereum τ} (grows : before.Grows after)
    {nonce block : Nat} (reported : before.ReportedBefore nonce block) :
    after.ReportedBefore nonce block := by
  obtain ⟨new, logs, above⟩ := grows.logs
  refine ⟨reported.1.trans grows.blockNumber, fun log member below => ?_⟩
  rw [logs] at member
  rcases List.mem_append.mp member with old | later
  · exact reported.2 log old below
  · have high := above log later
    have low := reported.1
    omega

/-- What the loop relies on in the logs. -/
structure Ethereum.Readable (validators : List EthAddress) (powers : List Nat) (blockNumber : Nat)
    (eth : Ethereum τ) : Prop where
  wellLogged : eth.WellLogged
  inRange : ∀ log ∈ eth.logs, log.1.InRange
  setsFollow : SetsFollow validators powers blockNumber eth

theorem Ethereum.Readable.next {validators : List EthAddress} {powers : List Nat} {blockNumber : Nat}
    {eth : Ethereum τ} (readable : eth.Readable validators powers blockNumber) (input : EthereumInput τ) :
    (eth.next evm others input).Readable validators powers blockNumber := by
  refine Ethereum.after_keeps 
    (Ethereum.Readable validators powers blockNumber) (fun _ _ kept => ?_) (fun later count kept => ?_)
    (fun sender call later after kept accepts => ?_) readable [input]
  · exact ⟨kept.wellLogged.congr rfl rfl rfl, kept.inRange, kept.setsFollow⟩
  · exact ⟨⟨kept.wellLogged.nonces, kept.wellLogged.lastEventNonce, kept.wellLogged.blocks,
      fun log member => (kept.wellLogged.past log member).trans (Nat.le_add_right _ _)⟩,
      kept.inRange, kept.setsFollow⟩
  · exact ⟨accepts.wellLogged kept.wellLogged,
      fun log member => (accepts.events log member).elim (kept.inRange log) id,
      kept.setsFollow.accepts accepts⟩

end Contract

/-! ### Where a resync ends -/

section Resync

variable {evm : Evm} {crates : OracleCrates} {lastEventNonce : Nat} {logs : List (GravityEvent × Nat)}

/-- A loop over the events of one kind ends at an event with the wanted nonce. -/
theorem findEvent_finds {α : Type} {parse : Log → EventResult α} {eventNonce : α → Nat}
    {view : GravityEvent × Nat → Option α} {signature : String}
    (kind : ∀ log, log.1.signature = signature ↔ (view log).isSome)
    (reads : ∀ log ∈ logs, ∀ event, view log = some event → ∀ result,
      parse (eventLog evm log.1 log.2) = .ok result ↔ result = event ∧ Parses log)
    (nonces : ∀ log event, view log = some event → eventNonce event = log.1.eventNonce) {block : Nat}
    (found : findEvent lastEventNonce parse eventNonce (searchLogs evm logs signature) = .ok (some block)) :
    ∃ log ∈ logs, log.2 = block ∧ log.1.eventNonce = lastEventNonce := by
  induction logs with
  | nil => cases found
  | cons log rest ih =>
      have later := ih fun other member => reads other (List.mem_cons_of_mem _ member)
      have inRest : ∀ {block}, (∃ other ∈ rest, other.2 = block ∧ other.1.eventNonce = lastEventNonce) →
          ∃ other ∈ log :: rest, other.2 = block ∧ other.1.eventNonce = lastEventNonce :=
        fun ⟨other, member, both⟩ => ⟨other, List.mem_cons_of_mem _ member, both⟩
      unfold searchLogs at later found
      cases seen : view log with
      | none =>
          have other : ¬ log.1.signature = signature := by
            rw [kind, seen]
            simp
          rw [List.filter_cons_of_neg (by simpa using other)] at found
          exact inRest (later found)
      | some event =>
          have same : log.1.signature = signature := (kind log).mpr (by rw [seen]; rfl)
          rw [List.filter_cons_of_pos (by simpa using same), List.map_cons, findEvent] at found
          split at found
          · rename_i parsed isParsed
            obtain ⟨rfl, _⟩ := (reads log List.mem_cons_self event seen parsed).mp isParsed
            by_cases wanted : eventNonce parsed = lastEventNonce
            · obtain rfl := Option.some.inj (Outcome.ok.inj ((if_pos wanted).symm.trans found))
              exact ⟨log, List.mem_cons_self, rfl, (nonces log parsed seen).symm.trans wanted⟩
            · exact inRest (later ((if_neg wanted).symm.trans found))
          · exact inRest (later found)
          · cases found

/-- The loop over the validator sets ends at an event with the wanted nonce, or at the first set where the
first event is wanted. -/
theorem findValsetEvent_finds (inRange : ∀ log ∈ logs, log.1.InRange) {block : Nat}
    (found : findValsetEvent lastEventNonce (searchLogs evm logs
      "ValsetUpdatedEvent(uint256,uint256,uint256,address,address[],uint256[])") = .ok (some block)) :
    ∃ log ∈ logs, log.2 = block ∧ (log.1.eventNonce = lastEventNonce ∨ lastEventNonce = 1 ∧
      ∃ event, valsetOf? log = some event ∧ event.valsetNonce = 0) := by
  induction logs with
  | nil => cases found
  | cons log rest ih =>
      have later := ih fun other member => inRange other (List.mem_cons_of_mem _ member)
      have inRest : ∀ {block}, (∃ other ∈ rest, other.2 = block ∧
          (other.1.eventNonce = lastEventNonce ∨ lastEventNonce = 1 ∧
            ∃ event, valsetOf? other = some event ∧ event.valsetNonce = 0)) →
          ∃ other ∈ log :: rest, other.2 = block ∧
            (other.1.eventNonce = lastEventNonce ∨ lastEventNonce = 1 ∧
              ∃ event, valsetOf? other = some event ∧ event.valsetNonce = 0) :=
        fun ⟨other, member, both⟩ => ⟨other, List.mem_cons_of_mem _ member, both⟩
      unfold searchLogs at later found
      cases seen : valsetOf? log with
      | none =>
          have other := (valset_signature_iff log).not.mpr (by rw [seen]; decide)
          rw [List.filter_cons_of_neg (by simpa using other)] at found
          exact inRest (later found)
      | some event =>
          have same := (valset_signature_iff log).mpr (by rw [seen]; rfl)
          rw [List.filter_cons_of_pos (by simpa using same), List.map_cons, findValsetEvent] at found
          split at found
          · rename_i parsed isParsed
            obtain ⟨rfl, _⟩ := (valset_fromLog_iff evm (inRange log List.mem_cons_self) seen).mp isParsed
            by_cases ends : parsed.eventNonce = lastEventNonce ∧
                (eventLog evm log.1 log.2).blockNumber.isSome ∨
                parsed.valsetNonce = 0 ∧ lastEventNonce = 1
            · rw [if_pos ends] at found
              obtain rfl := Option.some.inj (Outcome.ok.inj found)
              refine ⟨log, List.mem_cons_self, rfl, ?_⟩
              rcases ends with wanted | first
              · exact Or.inl ((eventNonce_of_valsetOf? seen).symm.trans wanted.1)
              · exact Or.inr ⟨first.2, parsed, seen, first.1⟩
            · rw [if_neg ends] at found
              split_ifs at found
              exact inRest (later found)
          · exact inRest (later found)
          · cases found

theorem ResyncResult.otherwise_eq_some {first next : ResyncResult} {block : Nat}
    (found : first.otherwise next = .ok (some block)) :
    first = .ok (some block) ∨ next = .ok (some block) := by
  obtain ⟨result, firstIs, rest⟩ := Outcome.bind_eq_ok.mp found
  cases result with
  | some other => exact Or.inl (firstIs.trans rest)
  | none => exact Or.inr rest

variable {validators : List EthAddress} {powers : List Nat} {blockNumber : Nat} {τ : Type}
  {eth : Ethereum τ}

/-- The first set is logged with the first event nonce. -/
theorem SetsFollow.first (follow : SetsFollow validators powers blockNumber eth)
    {log : GravityEvent × Nat} (member : log ∈ eth.logs) {event : ValsetUpdatedEvent}
    (seen : valsetOf? log = some event) (zero : event.valsetNonce = 0) : log.1.eventNonce = 1 := by
  obtain ⟨later, logs, positive⟩ := follow
  rw [logs] at member
  rcases List.mem_cons.mp member with rfl | there
  · rfl
  · exact absurd zero (positive log there event seen)

/-- A range of blocks. -/
theorem searchRange_finds (lawful : crates.Lawful) (inRange : ∀ log ∈ logs, log.1.InRange)
    (first : ∀ log ∈ logs, ∀ event, valsetOf? log = some event → event.valsetNonce = 0 →
      log.1.eventNonce = 1) {block : Nat}
    (found : searchRange lastEventNonce crates (roundLogs evm logs) = .ok (some block)) :
    ∃ log ∈ logs, log.2 = block ∧ log.1.eventNonce = lastEventNonce := by
  have accounts : ∀ bytes : Bytes, bytes.length = 20 → (crates.cosmosFromBytes bytes).isSome := by
    intro bytes length
    obtain ⟨account, _, known, _⟩ := lawful.accounts bytes length
    rw [known]
    rfl
  unfold searchRange at found
  rcases ResyncResult.otherwise_eq_some found with batches | found
  · exact findEvent_finds batch_signature_iff
      (fun log member event kind result => batch_fromLog_iff evm (inRange log member) kind)
      (fun log => (eventNonce_of_view crates log).1) batches
  rcases ResyncResult.otherwise_eq_some found with deposits | found
  · exact findEvent_finds (deposit_signature_iff crates)
      (fun log member event kind result => deposit_fromLog_iff evm accounts (inRange log member) kind)
      (fun log => (eventNonce_of_view crates log).2.1) deposits
  rcases ResyncResult.otherwise_eq_some found with deployments | found
  · exact findEvent_finds deployed_signature_iff
      (fun log member event kind result => deployed_fromLog_iff evm (inRange log member) kind)
      (fun log => (eventNonce_of_view crates log).2.2.1) deployments
  rcases ResyncResult.otherwise_eq_some found with logicCalls | valsets
  · exact findEvent_finds logicCall_signature_iff
      (fun log _ event kind result => logicCall_fromLog_iff evm kind)
      (fun log => (eventNonce_of_view crates log).2.2.2) logicCalls
  · simp only [roundLogs, searchLogs_reverse] at valsets
    obtain ⟨log, member, blockIs, ends⟩ := findValsetEvent_finds
      (fun log member => inRange log (List.mem_reverse.mp member)) valsets
    have member := List.mem_reverse.mp member
    refine ⟨log, member, blockIs, ?_⟩
    rcases ends with wanted | ⟨one, event, seen, zero⟩
    · exact wanted
    · rw [first log member event seen zero, one]

/-- **Where a resync ends there is the event it looked for**, whatever else is among the logs. -/
theorem resync_finds (readable : eth.Readable validators powers blockNumber) (lawful : crates.Lawful)
    {currentBlock block : Nat} (found : resyncFrom crates (fun startingBlock latestBlock =>
      roundLogs evm (logsBetween eth.logs startingBlock latestBlock)) lastEventNonce currentBlock =
        .ok block) : ∃ log ∈ eth.logs, log.2 = block ∧ log.1.eventNonce = lastEventNonce := by
  induction currentBlock using Nat.strong_induction_on with
  | _ currentBlock ih =>
      rw [resyncFrom] at found
      by_cases positive : currentBlock > 0
      · rw [if_pos positive] at found
        generalize endIs : (if currentBlock < blocksToSearch then 0 else currentBlock - blocksToSearch) =
          endSearch at found
        have below : endSearch < currentBlock := by
          rw [← endIs]
          unfold blocksToSearch
          split_ifs <;> omega
        simp only at found
        split at found
        · rename_i ends range
          obtain rfl := Outcome.ok.inj found
          obtain ⟨log, member, holds⟩ := searchRange_finds lawful
            (fun log member => readable.inRange log (mem_logsBetween.mp member).1)
            (fun log member event => readable.setsFollow.first (mem_logsBetween.mp member).1) range
          exact ⟨log, (mem_logsBetween.mp member).1, holds⟩
        · exact ih endSearch below found
        · cases found
        · cases found
      · rw [if_neg positive] at found
        cases found

end Resync

/-! ### The invariant of the loop -/

section Cursor

variable {σ ε π τ : Type} {evm : Evm} {others : Contracts τ} {crates : OracleCrates} {sdk : Sdk}
  {unmarshalInt : Bytes → Option (Option Int)} {ourAddress : Bytes} {account : AccAddress}
  {orchestratorValidator : AccAddress → Option ValAddress} {validator : ValAddress}

/-- A round after its first question: `lastEventNonce` was the answer, and `nonce` is it now. -/
structure RoundSafe (evm : Evm) (crates : OracleCrates) (ourAddress : Bytes) (eth : Ethereum τ)
    (nonce lastCheckedBlock latestBlock lastEventNonce : Nat) (claims : List ProtoClaim) : Prop where
  before : eth.ReportedBefore lastEventNonce lastCheckedBlock
  mined : latestBlock < eth.blockNumber
  claims : claims = newClaims crates ourAddress lastEventNonce
    (logsBetween eth.logs lastCheckedBlock latestBlock)
  higher : lastEventNonce ≤ nonce
  answer : nonce = lastEventNonce ∨ eth.ReportedBefore nonce (latestBlock + 1)

/-- **No event is passed**, wherever the loop stands. -/
def OraclePhase.Safe (evm : Evm) (crates : OracleCrates) (ourAddress : Bytes) (eth : Ethereum τ)
    (nonce : Nat) : OraclePhase → Prop
  | resync => True
  | searching lastEventNonce => lastEventNonce ≤ nonce
  | waiting lastCheckedBlock => eth.ReportedBefore nonce lastCheckedBlock
  | fetched lastCheckedBlock latestBlock logs =>
      eth.ReportedBefore nonce lastCheckedBlock ∧ latestBlock < eth.blockNumber ∧
        logs = roundLogs evm (logsBetween eth.logs lastCheckedBlock latestBlock)
  | claimed lastCheckedBlock latestBlock lastEventNonce claims =>
      RoundSafe evm crates ourAddress eth nonce lastCheckedBlock latestBlock lastEventNonce claims
  | sent lastCheckedBlock latestBlock lastEventNonce claims =>
      RoundSafe evm crates ourAddress eth nonce lastCheckedBlock latestBlock lastEventNonce claims

/-- The claims a round has made. -/
def OraclePhase.claims? : OraclePhase → Option (List ProtoClaim)
  | claimed _ _ _ claims => some claims
  | sent _ _ _ claims => some claims
  | _ => none

/-- What was reported stays so while the contract grows, and while the answer rises between two rounds. -/
theorem OraclePhase.Safe.transfer {phase : OraclePhase} {before after : Ethereum τ} {nonce higher : Nat}
    (safe : phase.Safe evm crates ourAddress before nonce) (grows : before.Grows after)
    (le : nonce ≤ higher) (same : phase.claims?.isSome → higher = nonce) :
    phase.Safe evm crates ourAddress after higher := by
  have round : ∀ {lastCheckedBlock latestBlock lastEventNonce claims},
      RoundSafe evm crates ourAddress before nonce lastCheckedBlock latestBlock lastEventNonce claims →
      RoundSafe evm crates ourAddress after nonce lastCheckedBlock latestBlock lastEventNonce claims :=
    fun safe => ⟨grows.reportedBefore safe.before, safe.mined.trans_le grows.blockNumber,
      (grows.logsBetween safe.mined).symm ▸ safe.claims, safe.higher,
      safe.answer.imp_right grows.reportedBefore⟩
  cases phase with
  | resync => trivial
  | searching lastEventNonce => exact safe.trans le
  | waiting lastCheckedBlock => exact (grows.reportedBefore safe).mono le
  | fetched lastCheckedBlock latestBlock logs =>
      obtain ⟨reported, mined, logsAre⟩ := safe
      exact ⟨(grows.reportedBefore reported).mono le, mined.trans_le grows.blockNumber,
        (grows.logsBetween mined).symm ▸ logsAre⟩
  | claimed lastCheckedBlock latestBlock lastEventNonce claims => exact same rfl ▸ round safe
  | sent lastCheckedBlock latestBlock lastEventNonce claims => exact same rfl ▸ round safe

/-- The block an iteration goes back to is safe to start from. -/
theorem OraclePhase.Safe.cursor {phase : OraclePhase} {eth : Ethereum τ} {nonce lastCheckedBlock : Nat}
    (safe : phase.Safe evm crates ourAddress eth nonce)
    (isNext : phase.lastCheckedBlock? = some lastCheckedBlock) :
    eth.ReportedBefore nonce lastCheckedBlock := by
  cases phase with
  | resync => cases isNext
  | searching => cases isNext
  | waiting => exact Option.some.inj isNext ▸ safe
  | fetched => exact Option.some.inj isNext ▸ safe.1
  | claimed => exact Option.some.inj isNext ▸ safe.before.mono safe.higher
  | sent => exact Option.some.inj isNext ▸ safe.before.mono safe.higher

theorem Ethereum.Grows.refl (eth : Ethereum τ) : eth.Grows eth :=
  ⟨le_rfl, [], (List.append_nil _).symm, fun _ member => absurd member List.not_mem_nil⟩

/-- What a round has covered. -/
theorem reportedBefore_of_round {eth : Ethereum τ} {lastCheckedBlock latestBlock low high : Nat}
    (before : eth.ReportedBefore low lastCheckedBlock) (mined : latestBlock < eth.blockNumber)
    (le : low ≤ high)
    (covered : ∀ log ∈ logsBetween eth.logs lastCheckedBlock latestBlock, low < log.1.eventNonce →
      log.1.eventNonce ≤ high) : eth.ReportedBefore high (latestBlock + 1) := by
  refine ⟨mined, fun log member below => ?_⟩
  by_cases earlier : log.2 < lastCheckedBlock
  · exact (before.2 log member earlier).trans le
  · by_cases new : low < log.1.eventNonce
    · exact covered log (mem_logsBetween.mpr ⟨member, by omega, by omega⟩) new
    · omega

theorem Ethereum.ReportedBefore.earlier {eth : Ethereum τ} {nonce block : Nat}
    (reported : eth.ReportedBefore nonce (block + 1)) : eth.ReportedBefore nonce block :=
  ⟨by have := reported.1; omega, fun log member below => reported.2 log member (by omega)⟩

/-- **The transaction of the round** is accepted only as a whole. -/
theorem RoundSafe.accepted {eth : Ethereum τ} {oracle after : Oracle} {blockHeight : Nat}
    {lastCheckedBlock latestBlock lastEventNonce : Nat} {claims : List ProtoClaim}
    (safe : RoundSafe evm crates ourAddress eth (oracle.getLastEventNonceByValidator validator)
      lastCheckedBlock latestBlock lastEventNonce claims)
    (ours : sdk.accAddressFromBech32 ourAddress = some account)
    (known : orchestratorValidator account = some validator)
    (accepted : acceptClaims unmarshalInt sdk orchestratorValidator blockHeight oracle claims = some after) :
    RoundSafe evm crates ourAddress eth (after.getLastEventNonceByValidator validator)
      lastCheckedBlock latestBlock lastEventNonce claims := by
  have higher := safe.higher.trans (acceptClaims_mono accepted validator)
  refine ⟨safe.before, safe.mined, safe.claims, higher, Or.inr ?_⟩
  rw [safe.claims] at accepted
  have reports := (acceptClaims_reports ours known accepted).2
  exact reportedBefore_of_round safe.before safe.mined higher fun log member new =>
    reports log (List.mem_filter.mpr ⟨member, decide_eq_true new⟩)

/-- The chains around the loop: the contract can be read, and the module has a history. -/
structure LoopWorld (ε : Type) (sdk : Sdk) (validators : List EthAddress) (powers : List Nat)
    (blockNumber : Nat) (state : OracleLoop σ τ) : Prop where
  readable : state.ethereum.Readable validators powers blockNumber
  history : ∃ past : List (OracleOutput ε), OracleHistory sdk past state.module.1

/-- The transaction an input executes. -/
def LoopInput.executed (inFlight : List (List ProtoClaim)) :
    LoopInput σ ε π τ → Option (List ProtoClaim)
  | .execute position _ => inFlight[position]?
  | _ => none

/-- **Between the two questions of a round nothing but its own transaction changes the answer.** -/
def Undisturbed (evm : Evm) (others : Contracts τ) (crates : OracleCrates) (sdk : Sdk)
    (unmarshalInt : Bytes → Option (Option Int)) (ourAddress : Bytes)
    (orchestratorValidator : AccAddress → Option ValAddress) (validator : ValAddress)
    (state : OracleLoop σ τ) (input : LoopInput σ ε π τ) : Prop :=
  ∀ claims ∈ state.phase.claims?, input.executed state.inFlight = some claims ∨
    ∀ result ∈ oracleLoopStep evm others crates sdk unmarshalInt ourAddress orchestratorValidator
      validator state input, result.1.lastEventNonce validator = state.lastEventNonce validator

instance (state : OracleLoop σ τ) (input : LoopInput σ ε π τ) :
    Decidable (Undisturbed evm others crates sdk unmarshalInt ourAddress orchestratorValidator validator
      state input) := by
  unfold Undisturbed; infer_instance

section Step

variable {validators : List EthAddress} {powers : List Nat} {blockNumber : Nat}

/-- An event of a readable contract is determined by its nonce, and the blocks follow the nonces. -/
theorem Ethereum.Readable.nonce_lt {eth : Ethereum τ} (readable : eth.Readable validators powers blockNumber)
    {first second : GravityEvent × Nat} (member : first ∈ eth.logs) (member' : second ∈ eth.logs)
    (below : first.2 < second.2) : first.1.eventNonce < second.1.eventNonce := by
  have increasing : eth.logs.Pairwise fun log other =>
      log.2 < other.2 → log.1.eventNonce < other.1.eventNonce := by
    refine (increasing_of_gapless readable.wellLogged.nonces).imp ?_
    exact fun nonces _ => nonces
  refine increasing.forall_of_forall_of_flip (fun log _ under => absurd under (lt_irrefl _)) ?_ member
    member' below
  exact readable.wellLogged.blocks.imp fun blocks under => absurd blocks (not_le.mpr under)

/-- The block a resync ends at is safe to start from. -/
theorem Ethereum.Readable.resync {eth : Ethereum τ} (readable : eth.Readable validators powers blockNumber)
    (lawful : crates.Lawful) {latestBlock lastEventNonce nonce block : Nat} (low : lastEventNonce ≤ nonce)
    (found : getLastCheckedBlock crates (fun startingBlock latestBlock =>
      roundLogs evm (logsBetween eth.logs startingBlock latestBlock)) latestBlock lastEventNonce =
        .ok block) : eth.ReportedBefore nonce block := by
  obtain ⟨wanted, member, rfl, nonceIs⟩ := resync_finds readable lawful found
  refine ⟨readable.wellLogged.past wanted member, fun log inLogs below => ?_⟩
  have lower := readable.nonce_lt inLogs member below
  split_ifs at nonceIs <;> omega

/-- The claims of a round. -/
theorem Ethereum.Readable.claims_of_round {eth : Ethereum τ}
    (readable : eth.Readable validators powers blockNumber) (lawful : crates.Lawful)
    {lastEventNonce startingBlock latestBlock : Nat} {claims : List ProtoClaim}
    (sent : checkForEvents crates ourAddress lastEventNonce
      (roundLogs evm (logsBetween eth.logs startingBlock latestBlock)) = .ok claims) :
    claims = newClaims crates ourAddress lastEventNonce
      (logsBetween eth.logs startingBlock latestBlock) :=
  ((checkForEvents_eq_ok_iff evm lawful ourAddress lastEventNonce
    (fun log member => readable.inRange log (mem_logsBetween.mp member).1)
    ((increasing_of_gapless readable.wellLogged.nonces).filter _) claims).mp sent).1

/-- Every step keeps both chains as they are supposed to be. -/
theorem LoopWorld.step {state next : OracleLoop σ τ} {input : LoopInput σ ε π τ}
    {outputs : List ProtoClaim} (world : LoopWorld ε sdk validators powers blockNumber state)
    (step : oracleLoopStep evm others crates sdk unmarshalInt ourAddress orchestratorValidator validator
      state input = some (next, outputs)) : LoopWorld ε sdk validators powers blockNumber next := by
  obtain ⟨readable, past, history⟩ := world
  cases input with
  | ethereum input =>
      obtain ⟨rfl, _⟩ := Prod.mk.inj (Option.some.inj step)
      exact ⟨readable.next input, past, history⟩
  | module input =>
      simp only [oracleLoopStep] at step
      split at step
      · rename_i module votes taken
        obtain ⟨rfl, _⟩ := Prod.mk.inj (Option.some.inj step)
        exact ⟨readable, _, history.step (oracleStep_cases taken)⟩
      · cases step
  | execute position blockHeight =>
      simp only [oracleLoopStep] at step
      split at step
      · split at step
        · rename_i oracle accepted
          obtain ⟨rfl, _⟩ := Prod.mk.inj (Option.some.inj step)
          obtain ⟨votes, kept⟩ := history.acceptClaims accepted
          exact ⟨readable, _, kept⟩
        · obtain ⟨rfl, _⟩ := Prod.mk.inj (Option.some.inj step)
          exact ⟨readable, past, history⟩
      · cases step
  | lose position =>
      obtain ⟨rfl, _⟩ := Prod.mk.inj (Option.some.inj step)
      exact ⟨readable, past, history⟩
  | action action =>
      simp only [oracleLoopStep] at step
      split at step
      · obtain ⟨rfl, _⟩ := Prod.mk.inj (Option.some.inj step)
        exact ⟨readable, past, history⟩
      · cases step

/-- A transaction in flight is executed. -/
theorem OraclePhase.Safe.execute (ours : sdk.accAddressFromBech32 ourAddress = some account)
    (known : orchestratorValidator account = some validator) {phase : OraclePhase} {eth : Ethereum τ}
    {oracle after : Oracle} {blockHeight : Nat} {claims : List ProtoClaim}
    (safe : phase.Safe evm crates ourAddress eth (oracle.getLastEventNonceByValidator validator))
    (undisturbed : ∀ made ∈ phase.claims?, claims = made ∨
      after.getLastEventNonceByValidator validator = oracle.getLastEventNonceByValidator validator)
    (accepted : acceptClaims unmarshalInt sdk orchestratorValidator blockHeight oracle claims =
      some after) :
    phase.Safe evm crates ourAddress eth (after.getLastEventNonceByValidator validator) := by
  have mono := acceptClaims_mono accepted validator
  cases phase with
  | claimed lastCheckedBlock latestBlock lastEventNonce made =>
      rcases undisturbed made rfl with rfl | same
      · exact RoundSafe.accepted safe ours known accepted
      · exact safe.transfer (Ethereum.Grows.refl _) mono fun _ => same
  | sent lastCheckedBlock latestBlock lastEventNonce made =>
      rcases undisturbed made rfl with rfl | same
      · exact RoundSafe.accepted safe ours known accepted
      · exact safe.transfer (Ethereum.Grows.refl _) mono fun _ => same
  | _ => exact safe.transfer (Ethereum.Grows.refl _) mono fun made => by cases made

/-- **Whatever the loop does, it passes no event.** -/
theorem OraclePhase.Safe.action (lawful : crates.Lawful) {state : OracleLoop σ τ} {action : LoopAction}
    {phase : OraclePhase} {transaction : Option (List ProtoClaim)}
    (readable : state.ethereum.Readable validators powers blockNumber)
    (safe : state.phase.Safe evm crates ourAddress state.ethereum (state.lastEventNonce validator))
    (taken : oracleLoopAction evm crates ourAddress validator state action = some (phase, transaction)) :
    phase.Safe evm crates ourAddress state.ethereum (state.lastEventNonce validator) := by
  cases action with
  | crash =>
      obtain ⟨rfl, _⟩ := Prod.mk.inj (Option.some.inj taken)
      trivial
  | resync =>
      simp only [oracleLoopAction] at taken
      split at taken
      · obtain ⟨rfl, _⟩ := Prod.mk.inj (Option.some.inj taken)
        exact le_rfl
      · cases taken
  | search latestBlock =>
      simp only [oracleLoopAction] at taken
      split at taken
      · rename_i lastEventNonce phaseIs
        rw [phaseIs] at safe
        split at taken
        · rename_i block found
          obtain ⟨rfl, _⟩ := Prod.mk.inj (Option.some.inj taken)
          exact readable.resync lawful safe found
        · obtain ⟨rfl, _⟩ := Prod.mk.inj (Option.some.inj taken)
          trivial
      · cases taken
  | fetch netVersion latestBlock =>
      simp only [oracleLoopAction] at taken
      split at taken
      · rename_i lastCheckedBlock phaseIs
        rw [phaseIs] at safe
        split_ifs at taken with mined early
        · obtain ⟨rfl, _⟩ := Prod.mk.inj (Option.some.inj taken)
          trivial
        · obtain ⟨rfl, _⟩ := Prod.mk.inj (Option.some.inj taken)
          exact ⟨safe, (Nat.sub_le _ _).trans_lt mined, rfl⟩
      · cases taken
  | ask =>
      simp only [oracleLoopAction] at taken
      split at taken
      · rename_i lastCheckedBlock latestBlock logs phaseIs
        rw [phaseIs] at safe
        obtain ⟨reported, mined, rfl⟩ := safe
        split at taken
        · rename_i sent
          obtain ⟨rfl, _⟩ := Prod.mk.inj (Option.some.inj taken)
          -- nothing is new up to the latest block
          refine Ethereum.ReportedBefore.earlier ?_
          refine reportedBefore_of_round reported mined le_rfl fun log member new => ?_
          have none := List.map_eq_nil_iff.mp (readable.claims_of_round lawful sent).symm
          exact absurd (decide_eq_true new) (List.filter_eq_nil_iff.mp none log member)
        · rename_i claims _ sent
          obtain ⟨rfl, _⟩ := Prod.mk.inj (Option.some.inj taken)
          exact ⟨reported, mined, readable.claims_of_round lawful sent, le_rfl, Or.inl rfl⟩
        · obtain ⟨rfl, _⟩ := Prod.mk.inj (Option.some.inj taken)
          exact reported
        · obtain ⟨rfl, _⟩ := Prod.mk.inj (Option.some.inj taken)
          trivial
      · cases taken
  | send delivered =>
      simp only [oracleLoopAction] at taken
      split at taken
      · rename_i phaseIs
        rw [phaseIs] at safe
        obtain ⟨rfl, _⟩ := Prod.mk.inj (Option.some.inj taken)
        exact safe
      · cases taken
  | askAgain =>
      simp only [oracleLoopAction] at taken
      split at taken
      · rename_i lastCheckedBlock latestBlock lastEventNonce claims phaseIs
        rw [phaseIs] at safe
        split_ifs at taken with same
        · obtain ⟨rfl, _⟩ := Prod.mk.inj (Option.some.inj taken)
          exact safe.before.mono safe.higher
        · obtain ⟨rfl, _⟩ := Prod.mk.inj (Option.some.inj taken)
          exact (safe.answer.resolve_left same).earlier
      · cases taken
  | fail =>
      simp only [oracleLoopAction] at taken
      split at taken
      · rename_i lastCheckedBlock isNext
        obtain ⟨rfl, _⟩ := Prod.mk.inj (Option.some.inj taken)
        exact safe.cursor isNext
      · cases taken

/-- **Every undisturbed step passes no event.** -/
theorem OraclePhase.Safe.step (lawful : crates.Lawful)
    (ours : sdk.accAddressFromBech32 ourAddress = some account)
    (known : orchestratorValidator account = some validator) {state next : OracleLoop σ τ}
    {input : LoopInput σ ε π τ} {outputs : List ProtoClaim}
    (world : LoopWorld ε sdk validators powers blockNumber state)
    (safe : state.phase.Safe evm crates ourAddress state.ethereum (state.lastEventNonce validator))
    (undisturbed : Undisturbed evm others crates sdk unmarshalInt ourAddress orchestratorValidator validator
      state input)
    (step : oracleLoopStep evm others crates sdk unmarshalInt ourAddress orchestratorValidator validator
      state input = some (next, outputs)) :
    next.phase.Safe evm crates ourAddress next.ethereum (next.lastEventNonce validator) := by
  have sameUnless : ∀ made ∈ state.phase.claims?, input.executed state.inFlight = some made ∨
      next.lastEventNonce validator = state.lastEventNonce validator :=
    fun made isMade => (undisturbed made isMade).imp_right fun same => same _ step
  cases input with
  | ethereum input =>
      obtain ⟨rfl, _⟩ := Prod.mk.inj (Option.some.inj step)
      exact safe.transfer (state.ethereum.next_grows input) le_rfl fun _ => rfl
  | module input =>
      simp only [oracleLoopStep] at step
      split at step
      · rename_i module votes taken
        obtain ⟨rfl, _⟩ := Prod.mk.inj (Option.some.inj step)
        obtain ⟨past, history⟩ := world.history
        refine safe.transfer (Ethereum.Grows.refl _)
          (history.reported_mono (oracleStep_cases taken) validator) fun made => ?_
        exact (sameUnless _ (Option.get_mem made)).resolve_left fun none => by cases none
      · cases step
  | execute position blockHeight =>
      simp only [oracleLoopStep] at step
      split at step
      · rename_i claims found
        split at step
        · rename_i oracle accepted
          obtain ⟨rfl, _⟩ := Prod.mk.inj (Option.some.inj step)
          refine OraclePhase.Safe.execute ours known safe (fun made isMade => ?_) accepted
          exact (sameUnless made isMade).imp_left fun executed =>
            Option.some.inj (found.symm.trans executed)
        · obtain ⟨rfl, _⟩ := Prod.mk.inj (Option.some.inj step)
          exact safe
      · cases step
  | lose position =>
      obtain ⟨rfl, _⟩ := Prod.mk.inj (Option.some.inj step)
      exact safe
  | action action =>
      simp only [oracleLoopStep] at step
      split at step
      · rename_i taken
        have kept := OraclePhase.Safe.action lawful world.readable safe taken
        obtain ⟨rfl, _⟩ := Prod.mk.inj (Option.some.inj step)
        exact kept
      · cases step

/-- The logs up to a block come first. -/
theorem Ethereum.Readable.logs_split {eth : Ethereum τ} (readable : eth.Readable validators powers blockNumber)
    (latestBlock : Nat) : ∃ later, eth.logs = logsBetween eth.logs 0 latestBlock ++ later := by
  refine ⟨eth.logs.filter fun log => ¬ (0 ≤ log.2 ∧ log.2 ≤ latestBlock), ?_⟩
  have blocks := readable.wellLogged.blocks
  unfold logsBetween
  generalize eth.logs = logs at blocks ⊢
  induction logs with
  | nil => rfl
  | cons log rest ih =>
      obtain ⟨first, sorted⟩ := List.pairwise_cons.mp blocks
      by_cases low : log.2 ≤ latestBlock
      · rw [List.filter_cons_of_pos (by simpa using low), List.filter_cons_of_neg (by simpa using low),
          List.cons_append, ← ih sorted]
      · have none : (log :: rest).filter (fun log => decide (0 ≤ log.2 ∧ log.2 ≤ latestBlock)) = [] := by
          refine List.filter_eq_nil_iff.mpr fun other member inside => low ?_
          have range := of_decide_eq_true inside
          rcases List.mem_cons.mp member with rfl | there
          · exact range.2
          · exact (first other there).trans range.2
        rw [none, List.nil_append, List.filter_eq_self.mpr]
        intro other member
        have outside := List.filter_eq_nil_iff.mp none other member
        simpa using outside

/-- The new logs up to a block follow the reported ones without a gap. -/
theorem Ethereum.Readable.new_gapless {eth : Ethereum τ} (readable : eth.Readable validators powers blockNumber)
    (crates : OracleCrates) (ourAddress : Bytes) (nonce latestBlock : Nat) : ∃ count,
      (newClaims crates ourAddress nonce (logsBetween eth.logs 0 latestBlock)).map ProtoClaim.eventNonce =
        List.range' (nonce + 1) count := by
  obtain ⟨later, split⟩ := readable.logs_split latestBlock
  have nonces := readable.wellLogged.nonces
  generalize mined : logsBetween eth.logs 0 latestBlock = logs at split
  rw [split, List.map_append] at nonces
  obtain ⟨k, _, gapless, _⟩ := List.range'_eq_append_iff.mp nonces.symm
  rw [newClaims, List.map_map]
  have same : (ProtoClaim.eventNonce ∘ wireClaim crates ourAddress) = fun log => log.1.eventNonce :=
    funext fun log => eventNonce_wireClaim log
  rw [same]
  rcases Nat.le_total nonce k with low | high
  · exact ⟨k - nonce, nonces_of_new gapless low⟩
  · refine ⟨0, ?_⟩
    rw [List.filter_eq_nil_iff.mpr]
    · rfl
    · intro log member new
      have inRange : log.1.eventNonce ∈ List.range' 1 k :=
        gapless ▸ List.mem_map_of_mem member
      have bound := List.mem_range'_1.mp inRange
      have above := of_decide_eq_true new
      omega

end Step

/-! ### The cursor -/

/-- The loop as it starts, beside a new module and a new contract. -/
def OracleLoop.fresh (app : σ) (ethereum : Ethereum τ) : OracleLoop σ τ where
  module := (Oracle.empty, app)
  ethereum := ethereum
  inFlight := []
  phase := .resync

theorem loopWorld_fresh {gravityId : Bytes} {powerThreshold : Nat} {validators : List EthAddress}
    {powers : List Nat} {wNomAddress : EthAddress} {contracts : τ} {blockNumber : Nat}
    {start : Ethereum τ} (deployed : deployGravity evm gravityId powerThreshold validators powers wNomAddress
      contracts blockNumber = .ok start) (app : σ) :
    LoopWorld ε sdk validators powers blockNumber (OracleLoop.fresh app start) := by
  obtain ⟨_, inRange, lengths, rfl⟩ := deployGravity_eq_ok deployed
  refine ⟨⟨wellLogged_of_deployed deployed, fun log member => ?_, ?_⟩, [], oracleHistory_empty⟩
  · rw [List.mem_singleton.mp member]
    exact ⟨by decide, by decide, by decide, lengths, inRange.1, inRange.2.2.1⟩
  · exact ⟨[], rfl, fun _ member => absurd member List.not_mem_nil⟩

/-- **The cursor passes no unreported event.** Whatever happens on both chains and to the requests and the
transactions of the loop, and however often it is started again: as long as between the two questions of a round
nothing but its own transaction changes the answer, every event above the reported nonce is in a block that
the loop has still to search. So the next round that has an answer sends a claim for each of the events that
follow the reported one, none left out and none sent again. -/
theorem oracle_cursor_safe (lawful : crates.Lawful)
    (ours : sdk.accAddressFromBech32 ourAddress = some account)
    (known : orchestratorValidator account = some validator) {gravityId : Bytes} {powerThreshold : Nat}
    {validators : List EthAddress} {powers : List Nat} {wNomAddress : EthAddress} {contracts : τ}
    {blockNumber : Nat} {start : Ethereum τ}
    (deployed : deployGravity evm gravityId powerThreshold validators powers wNomAddress contracts
      blockNumber = .ok start) {app : σ} {inputs : List (LoopInput σ ε π τ)} {final : OracleLoop σ τ}
    {outputs : List ProtoClaim}
    (undisturbed : StepsMeet (oracleLoopStep evm others crates sdk unmarshalInt ourAddress
        orchestratorValidator validator)
      (Undisturbed evm others crates sdk unmarshalInt ourAddress orchestratorValidator validator)
      (OracleLoop.fresh app start) inputs)
    (runs : run (oracleLoopStep evm others crates sdk unmarshalInt ourAddress orchestratorValidator
      validator) (OracleLoop.fresh app start) inputs = some (final, outputs))
    {lastCheckedBlock : Nat} (cursor : final.phase.lastCheckedBlock? = some lastCheckedBlock) :
    (∀ log ∈ final.ethereum.logs, final.lastEventNonce validator < log.1.eventNonce →
      lastCheckedBlock ≤ log.2) ∧
    ∀ latestBlock claims, checkForEvents crates ourAddress (final.lastEventNonce validator)
        (final.searches evm lastCheckedBlock latestBlock) = .ok claims →
      claims = newClaims crates ourAddress (final.lastEventNonce validator)
        (logsBetween final.ethereum.logs 0 latestBlock) ∧
      claims.map ProtoClaim.eventNonce =
        List.range' (final.lastEventNonce validator + 1) claims.length := by
  have invariant := run_state_invariant_of_meets _ (fun state : OracleLoop σ τ =>
      LoopWorld ε sdk validators powers blockNumber state ∧
        state.phase.Safe evm crates ourAddress state.ethereum (state.lastEventNonce validator))
    (fun state input next outputs undisturbed both step => ⟨both.1.step step,
      OraclePhase.Safe.step lawful ours known both.1 both.2 undisturbed step⟩) undisturbed
    ⟨loopWorld_fresh deployed app, trivial⟩ runs
  have readable := invariant.1.readable
  have reported := invariant.2.cursor cursor
  have ahead : ∀ log ∈ final.ethereum.logs, final.lastEventNonce validator < log.1.eventNonce →
      lastCheckedBlock ≤ log.2 := by
    intro log member new
    by_contra below
    exact absurd (reported.2 log member (not_le.mp below)) (not_le.mpr new)
  refine ⟨ahead, fun latestBlock claims sent => ?_⟩
  have whole : claims = newClaims crates ourAddress (final.lastEventNonce validator)
      (logsBetween final.ethereum.logs 0 latestBlock) := by
    rw [readable.claims_of_round lawful sent, newClaims, newClaims, logsBetween, logsBetween,
      List.filter_filter, List.filter_filter]
    refine congrArg _ (List.filter_congr fun log member => ?_)
    have above := ahead log member
    simp only [Bool.and_eq_decide, decide_eq_true_eq, decide_eq_decide]
    omega
  refine ⟨whole, ?_⟩
  obtain ⟨count, nonces⟩ := readable.new_gapless crates ourAddress (final.lastEventNonce validator)
    latestBlock
  rw [← whole] at nonces
  have length := congrArg List.length nonces
  rw [List.length_map, List.length_range'] at length
  rw [nonces, length]

end Cursor

/-! ### A loop whose transaction is lost -/

/-- Every orchestrator is the first validator's. -/
def exampleDelegate : AccAddress → Option ValAddress := fun _ => some (List.replicate 20 1)

/-- The loop of `exampleOrchestrator`. -/
def exampleLoopStep : OracleLoop Unit Unit → LoopInput Unit Unit Unit Unit →
    Option (OracleLoop Unit Unit × List ProtoClaim) :=
  oracleLoopStep exampleEvm reentrantContracts exampleOracleCrates exampleOracleSdk exampleUnmarshalInt
    exampleOrchestrator exampleDelegate (List.replicate 20 1)

/-- Deploys a token, some blocks before the next transaction. -/
def exampleDeploys (count : Nat) : List (LoopInput Unit Unit Unit Unit) :=
  [.ethereum (directly 9 (.deployERC20 ⟨ascii "unom", ascii "Nom", ascii "NOM", 18⟩)),
    .ethereum (.blocks count)]

/-- The first round, which reports the constructor's event. -/
def exampleFirstRound : List (LoopInput Unit Unit Unit Unit) :=
  [.ethereum (.blocks 1), .action .resync, .action (.search 100), .action (.fetch 31337 100), .action .ask,
    .action (.send true), .execute 0 7, .action .askAgain]

/-- A second round, with a vote of another validator in its middle; its transaction does not get through. -/
def exampleLostRound : List (LoopInput Unit Unit Unit Unit) :=
  exampleDeploys 2 ++ [.action (.fetch 31337 102), .action .ask,
    .module (.attest (fun _ => some (List.replicate 20 2)) 7
      (exampleDeposit 1 "cosmos1qgpqyqszqgpqyqszqgpqyqszqgpqyqszrh8mx2")),
    .action (.send false), .action .askAgain]

/-- What a run of the loop ends with, as long as it is undisturbed. -/
def exampleLoopEnd (start : Ethereum Unit) (inputs : List (LoopInput Unit Unit Unit Unit)) :
    Option (Bool × (OraclePhase × Nat)) :=
  (run exampleLoopStep (OracleLoop.fresh () start) inputs).map fun result =>
    (decide (StepsMeet exampleLoopStep (Undisturbed exampleEvm reentrantContracts exampleOracleCrates
        exampleOracleSdk exampleUnmarshalInt exampleOrchestrator exampleDelegate
        (List.replicate 20 1)) (OracleLoop.fresh () start) inputs),
      (result.1.phase, result.1.lastEventNonce (List.replicate 20 1)))

theorem exampleLostRound_runs : (reentrantDeployment.toOption.bind fun start =>
    exampleLoopEnd start (exampleFirstRound ++ exampleLostRound)) =
      some (true, (.waiting 100, 1)) := by
  decide +kernel

theorem oracle_cursor_safe_lost : ∃ start final outputs,
    reentrantDeployment = .ok start ∧
    run exampleLoopStep (OracleLoop.fresh () start) (exampleFirstRound ++ exampleLostRound) =
      some (final, outputs) ∧
    final.phase = .waiting 100 ∧ final.lastEventNonce (List.replicate 20 1) = 1 ∧
    ∀ log ∈ final.ethereum.logs, final.lastEventNonce (List.replicate 20 1) < log.1.eventNonce →
      100 ≤ log.2 := by
  obtain ⟨start, deployed, ends⟩ := Option.bind_eq_some_iff.mp exampleLostRound_runs
  have deployed := except_eq_ok_of_toOption deployed
  obtain ⟨⟨final, outputs⟩, runs, ends⟩ := Option.map_eq_some_iff.mp ends
  obtain ⟨undisturbed, ends⟩ := Prod.mk.inj ends
  obtain ⟨phase, nonce⟩ := Prod.mk.inj ends
  have known : exampleDelegate (List.replicate 20 1) = some (List.replicate 20 1) := rfl
  have cursor := oracle_cursor_safe exampleOracleCrates_lawful exampleModuleReads.ours known deployed
    (of_decide_eq_true undisturbed) runs (congrArg OraclePhase.lastCheckedBlock? phase)
  exact ⟨start, final, outputs, deployed, runs, phase, nonce, cursor.1⟩

/-- A transaction that is executed late: it is taken for lost, the next round reports one event more, and its
second question is answered when the first transaction has been executed after all. -/
def exampleLateRounds : List (LoopInput Unit Unit Unit Unit) :=
  exampleDeploys 1 ++ [.action (.fetch 31337 101), .action .ask, .action (.send true), .action .fail] ++
    exampleDeploys 2 ++ [.action (.fetch 31337 103), .action .ask, .action (.send true), .execute 0 8,
      .action .askAgain, .execute 0 9]

-- the cursor has passed the third event, which is in block 102
example : (reentrantDeployment.toOption.bind fun start =>
    exampleLoopEnd start (exampleFirstRound ++ exampleLateRounds)) =
      some (false, (.waiting 103, 2)) := by
  decide +kernel

end NabBridge
