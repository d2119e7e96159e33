/-
**The oracle makes progress.**

As soon as validators with enough power have voted for the same events up to a nonce, the next tally observes
everything up to it (`oracle_progress`), whatever the others voted for, however the votes were interleaved
with tallies, prunings and restarts, and although a validator only ever votes for the nonce after its last.

* `attestationTally_progress`: a tally goes on as far as there are attestations with enough votes;
* `FilingInvariant`: a validator has voted for every nonce between the last observed one and its counter, and
  every stored vote is filed under the key of the claim it was cast with;
* `EthereumClaim.SameEvent.attestationKey`: votes for one event are filed under one key.
-/

import NabBridge.Proof.Majority
import NabBridge.Proof.OracleIntegrity
import NabBridge.Proof.RecentAttestations
import NabBridge.Proof.ValsetOrder

namespace NabBridge

/-! ### One key for one event -/

/-- Sorting forgets the order of the members. -/
theorem sortBridgeValidators_eq {first second : List BridgeValidator} (perm : first.Perm second) :
    sortBridgeValidators first = sortBridgeValidators second := by
  obtain ⟨permFirst, sortedFirst⟩ := sortBridgeValidators_sorted first
  obtain ⟨permSecond, sortedSecond⟩ := sortBridgeValidators_sorted second
  refine List.Perm.eq_of_pairwise (fun left right _ _ below above => ?_) sortedFirst sortedSecond
    (permFirst.trans (perm.trans permSecond.symm))
  obtain ⟨power, address⟩ := left
  obtain ⟨power', address'⟩ := right
  rw [not_before_iff] at below above
  dsimp only at below above
  rcases below with less | ⟨rfl, lower⟩
  · omega
  · rcases above with less | ⟨_, upper⟩
    · omega
    · rw [keyBytes_injective (le_antisymm lower upper)]

/-- Claims of one event have one hashed text. -/
theorem EthereumClaim.SameEvent.path {first second : EthereumClaim} (same : first.SameEvent second) :
    first.path = second.path := by
  cases first with
  | valsetUpdated msg =>
      cases second with
      | valsetUpdated msg' =>
          obtain ⟨fields, members⟩ := same
          have sorted := sortBridgeValidators_eq members
          simp only [MsgValsetUpdatedClaim.mk.injEq] at fields
          simp only [EthereumClaim.path, sorted, fields]
      | _ => exact same.elim
  | _ =>
      -- the other claims are alike in every field but the orchestrator, which is not hashed
      cases second <;> simp_all [EthereumClaim.SameEvent, EthereumClaim.path]

theorem EthereumClaim.SameEvent.attestationKey {first second : EthereumClaim} {sdk : Sdk}
    (same : first.SameEvent second) : attestationKey sdk first = NabBridge.attestationKey sdk second := by
  unfold NabBridge.attestationKey EthereumClaim.claimHash
  rw [same.path, same.getEventNonce]

/-! ### How far a tally goes -/

section Tally

variable {σ ε π : Type} {sdk : Sdk} {staking : StakingPowers}
  {handle : Attestation → EthereumClaim → σ → Outcome ε π σ} {blockHeight : Nat}

/-- A round of the tally does not go back. -/
theorem tallyAttestation_mono {nonce : Nat} {before after : Ctx σ ε} {att : Attestation}
    (counted : tallyAttestation sdk staking handle blockHeight nonce before att = .ok after) :
    before.oracle.lastObservedEventNonce ≤ after.oracle.lastObservedEventNonce := by
  unfold tallyAttestation at counted
  split_ifs at counted with next
  · rcases tryAttestation_lastObserved counted with same | one <;> omega
  · obtain rfl := Outcome.ok.inj counted
    exact le_rfl

/-- The attestations of one nonce do not take the tally back. -/
theorem tallyNonce_mono {nonce : Nat} {atts : List Attestation} {before after : Ctx σ ε}
    (counted : atts.foldlM (tallyAttestation sdk staking handle blockHeight nonce) before = .ok after) :
    before.oracle.lastObservedEventNonce ≤ after.oracle.lastObservedEventNonce := by
  have kept : (atts.foldlM (tallyAttestation sdk staking handle blockHeight nonce) before).Meets
      (fun ctx => before.oracle.lastObservedEventNonce ≤ ctx.oracle.lastObservedEventNonce)
      fun _ => True := by
    refine Outcome.Meets.foldlM (fun ctx att _ low => ?_) le_rfl
    cases round : tallyAttestation sdk staking handle blockHeight nonce ctx att with
    | ok next => exact low.trans (tallyAttestation_mono round)
    | error reason => trivial
    | panic reason => trivial
  exact kept.ok counted

/-- **An attestation with enough votes** takes the tally to its nonce. -/
theorem tallyNonce_reaches {nonce : Nat} {atts : List Attestation} {before after : Ctx σ ε}
    (next : before.oracle.lastObservedEventNonce + 1 = nonce) {att : Attestation} (member : att ∈ atts)
    (nonces : ∀ att ∈ atts, att.claim.getEventNonce = nonce) (enough : staking.Enough att.votes)
    (counted : atts.foldlM (tallyAttestation sdk staking handle blockHeight nonce) before = .ok after) :
    nonce ≤ after.oracle.lastObservedEventNonce := by
  refine Outcome.foldlM_reaches (fun ctx : Ctx σ ε => nonce ≤ ctx.oracle.lastObservedEventNonce + 1)
    (fun ctx => nonce ≤ ctx.oracle.lastObservedEventNonce) member ?_ ?_ ?_ next.ge counted
  · exact fun ctx att _ after low round => low.trans (Nat.succ_le_succ (tallyAttestation_mono round))
  · intro ctx after low round
    unfold tallyAttestation at round
    split_ifs at round with now
    · -- it is not passed over: it has the votes
      unfold tryAttestation at round
      split_ifs at round with observed skipped
      · simp only at round
        split at round
        · obtain rfl := Outcome.ok.inj round
          exact (nonces att member).ge
        · rename_i reason _
          exact reason.elim
        · cases round
      · exact absurd enough (by assumption)
    · obtain rfl := Outcome.ok.inj round
      omega
  · exact fun ctx att _ after low round => low.trans (tallyAttestation_mono round)

/-- The walk over the nonces, from the middle on: those that are left cover what is still to be observed. -/
theorem tallyNonces_progress {oracle : Oracle} {nonces : List Nat} {goal : Nat} {before after : Ctx σ ε}
    (sorted : nonces.Pairwise (· < ·))
    (left : ∀ nonce, before.oracle.lastObservedEventNonce < nonce → nonce ≤ goal → nonce ∈ nonces ∧
      ∃ att ∈ oracle.attestationsAt nonce, staking.Enough att.votes)
    (counted : nonces.foldlM (fun ctx nonce => (oracle.attestationsAt nonce).foldlM
      (tallyAttestation sdk staking handle blockHeight nonce) ctx) before = .ok after) :
    goal ≤ after.oracle.lastObservedEventNonce := by
  induction nonces generalizing before with
  | nil =>
      obtain rfl := Outcome.ok.inj counted
      by_contra short
      exact absurd (left goal (by omega) le_rfl).1 List.not_mem_nil
  | cons nonce rest ih =>
      obtain ⟨above, sortedRest⟩ := List.pairwise_cons.mp sorted
      rw [List.foldlM_cons] at counted
      obtain ⟨middle, first, counted⟩ := Outcome.bind_eq_ok.mp counted
      have mono := tallyNonce_mono first
      -- what is left after this nonce is among the rest
      refine ih sortedRest (fun other higher low => ?_) counted
      obtain ⟨member, att, enough⟩ := left other (by omega) low
      refine ⟨(List.mem_cons.mp member).resolve_left ?_, att, enough⟩
      rintro rfl
      obtain ⟨nextMember, nextAtt, inNext, nextEnough⟩ :=
        left (before.oracle.lastObservedEventNonce + 1) (by omega) (by omega)
      have next : before.oracle.lastObservedEventNonce + 1 = other := by
        rcases List.mem_cons.mp nextMember with same | later
        · exact same
        · have higher := above _ later
          omega
      rw [next] at inNext
      have reached := tallyNonce_reaches next inNext
        (fun att inNonce => of_decide_eq_true (List.mem_filter.mp inNonce).2) nextEnough first
      omega

/-- **A tally goes on** as far as there are attestations with enough votes. -/
theorem attestationTally_progress {oracle : Oracle} {app : σ} {ctx : Ctx σ ε} {goal : Nat}
    (enough : ∀ nonce, oracle.lastObservedEventNonce < nonce → nonce ≤ goal →
      ∃ att ∈ oracle.attestationsAt nonce, staking.Enough att.votes)
    (counted : attestationTally sdk staking handle blockHeight oracle app = .ok ctx) :
    goal ≤ ctx.oracle.lastObservedEventNonce := by
  refine tallyNonces_progress ?_ (fun nonce higher low => ?_) counted
  · exact (List.Pairwise.and Oracle.eventNonces_sorted Oracle.eventNonces_nodup).imp fun both =>
      lt_of_le_of_ne both.1 both.2
  · obtain ⟨att, member, votes⟩ := enough nonce higher low
    obtain ⟨stored, same⟩ := List.mem_filter.mp member
    exact ⟨Oracle.mem_eventNonces.mpr ⟨att, stored, of_decide_eq_true same⟩, att, member, votes⟩

end Tally

/-! ### What the counters and the keys say -/

section Filing

variable {σ ε π : Type} {sdk : Sdk}

/-- What the votes of a history have to do with the oracle: a validator has voted for every nonce between the
last observed one and its counter, and a stored vote was cast with a claim of the key it is stored under. -/
structure FilingInvariant (sdk : Sdk) (past : List (OracleOutput ε)) (oracle : Oracle) : Prop where
  gapless : ∀ validator nonce, oracle.lastObservedEventNonce < nonce →
    nonce ≤ oracle.getLastEventNonceByValidator validator → (validator, nonce) ∈ votesCast past
  filed : ∀ key att, oracle.attestations.get key = some att → ∀ validator ∈ att.votes,
    ∃ claim, .vote validator claim ∈ past ∧ attestationKey sdk claim = key

theorem filingInvariant_empty : FilingInvariant sdk ([] : List (OracleOutput ε)) Oracle.empty := by
  refine ⟨fun validator nonce higher low => ?_, fun key att found => by cases found⟩
  have zero : Oracle.empty.getLastEventNonceByValidator validator = 0 := rfl
  omega

/-- Nothing is voted for: the last observed nonce may rise, attestations may go, and no counter rises above
the last observed nonce. -/
theorem FilingInvariant.transfer {past outputs : List (OracleOutput ε)} {before after : Oracle}
    (invariant : FilingInvariant sdk past before)
    (higher : before.lastObservedEventNonce ≤ after.lastObservedEventNonce)
    (counters : ∀ validator, after.lastObservedEventNonce < after.getLastEventNonceByValidator validator →
      after.getLastEventNonceByValidator validator ≤ before.getLastEventNonceByValidator validator)
    (stored : ∀ key att, after.attestations.get key = some att →
      ∃ earlier, before.attestations.get key = some earlier ∧ earlier.votes = att.votes) :
    FilingInvariant sdk (past ++ outputs) after := by
  refine ⟨fun validator nonce above low => ?_, fun key att found validator voted => ?_⟩
  · rw [votesCast_append]
    have bound := counters validator (by omega)
    exact List.mem_append_left _ (invariant.gapless validator nonce (by omega) (low.trans bound))
  · obtain ⟨earlier, look, votes⟩ := stored key att found
    obtain ⟨claim, cast, key⟩ := invariant.filed key earlier look validator (votes ▸ voted)
    exact ⟨claim, List.mem_append_left _ cast, key⟩

/-- A vote. -/
theorem FilingInvariant.vote {past : List (OracleOutput ε)} {oracle : Oracle}
    (invariant : FilingInvariant sdk past oracle) {validator : ValAddress} {blockHeight : Nat}
    {claim : EthereumClaim} (next : claim.getEventNonce = oracle.getLastEventNonceByValidator validator + 1) :
    FilingInvariant sdk (past ++ [.vote validator claim]) (oracle.recordVote sdk claim
      ((oracle.attestationFor sdk blockHeight claim).addVote validator) validator) := by
  refine ⟨fun voter nonce above low => ?_, fun key att found voter voted => ?_⟩
  · rw [Oracle.recordVote, Oracle.getLastEventNonceByValidator_set] at low
    rw [votesCast_append, votesCast_vote]
    split_ifs at low with same
    · rcases Nat.lt_or_ge nonce claim.getEventNonce with earlier | now
      · refine List.mem_append_left _ (invariant.gapless voter nonce above ?_)
        rw [same]
        omega
      · obtain rfl : nonce = claim.getEventNonce := by omega
        exact List.mem_append_right _ (List.mem_singleton.mpr (congrArg (·, _) same))
    · exact List.mem_append_left _ (invariant.gapless voter nonce above low)
  · rw [Oracle.get_recordVote] at found
    split_ifs at found with same
    · obtain rfl := Option.some.inj found
      rcases List.mem_append.mp voted with earlier | now
      · obtain ⟨other, cast, keyIs⟩ :=
          invariant.filed _ _ (stored_of_mem_attestationFor earlier) voter earlier
        exact ⟨other, List.mem_append_left _ cast, keyIs.trans same.symm⟩
      · rw [List.mem_singleton.mp now]
        exact ⟨claim, List.mem_append_right _ (List.mem_singleton_self _), same.symm⟩
    · obtain ⟨other, cast, keyIs⟩ := invariant.filed key att found voter voted
      exact ⟨other, List.mem_append_left _ cast, keyIs⟩

/-- A restored counter is the nonce of a restored vote. -/
structure CountsVotes (attestations : List Attestation) (oracle : Oracle) : Prop where
  counter : ∀ validator nonce, oracle.lastEventNonceByValidator.get
    (getLastEventNonceByValidatorKey validator) = some nonce →
      ∃ att ∈ attestations, att.claim.getEventNonce = nonce ∧ validator ∈ att.votes

theorem CountsVotes.restoreVote {attestations : List Attestation} {oracle : Oracle}
    (counts : CountsVotes attestations oracle) {att : Attestation} (member : att ∈ attestations)
    {validator : ValAddress} (voted : validator ∈ att.votes) :
    CountsVotes attestations (NabBridge.restoreVote att.claim.getEventNonce oracle validator) := by
  unfold NabBridge.restoreVote
  split_ifs with higher
  · refine ⟨fun other nonce found => ?_⟩
    simp only [Oracle.setLastEventNonceByValidator, Store.get_set,
      getLastEventNonceByValidatorKey_inj] at found
    split_ifs at found with same
    · exact ⟨att, member, Option.some.inj found, same ▸ voted⟩
    · exact counts.counter other nonce found
  · exact counts

theorem CountsVotes.restore {attestations : List Attestation} {oracle : Oracle}
    (counts : CountsVotes attestations oracle) : CountsVotes attestations (attestations.foldl
      (fun oracle att => att.votes.foldl (NabBridge.restoreVote att.claim.getEventNonce) oracle) oracle) := by
  refine List.foldlRecOn attestations _ counts fun oracle counts att member => ?_
  exact List.foldlRecOn att.votes _ counts fun oracle counts validator voted =>
    counts.restoreVote member voted

/-- **A restored counter is no higher than it was**, unless it reads as one below the last observed nonce. -/
theorem initGenesisOracle_counter_le {past : List (OracleOutput ε)} {oracle : Oracle}
    (ballots : BallotInvariant sdk (votesCast past) oracle) {attestations : List Attestation}
    (exported : attestations.Perm oracle.attestations.values) {validator : ValAddress}
    (above : oracle.lastObservedEventNonce < (initGenesisOracle sdk attestations
      oracle.lastObservedEventNonce).getLastEventNonceByValidator validator) :
    (initGenesisOracle sdk attestations
      oracle.lastObservedEventNonce).getLastEventNonceByValidator validator ≤
        oracle.getLastEventNonceByValidator validator := by
  have lastObserved := (initGenesisOracle_spec ballots.keyed exported).2.1
  have counts : CountsVotes attestations
      (initGenesisOracle sdk attestations oracle.lastObservedEventNonce) := by
    rw [initGenesisOracle, foldl_setAttestation]
    exact CountsVotes.restore ⟨fun _ _ found => by cases found⟩
  cases found : (initGenesisOracle sdk attestations
      oracle.lastObservedEventNonce).lastEventNonceByValidator.get
      (getLastEventNonceByValidatorKey validator) with
  | none =>
      rw [Oracle.getLastEventNonceByValidator_of_none found, lastObserved] at above
      omega
  | some nonce =>
      obtain ⟨att, member, rfl, voted⟩ := counts.counter validator nonce found
      obtain ⟨key, stored⟩ := (Store.mem_values_iff _ _).mp (exported.mem_iff.mp member)
      rw [Oracle.getLastEventNonceByValidator_of_some found]
      exact ballots.counter _ _ (ballots.stored key att stored validator voted)

/-- **Every step files its votes.** -/
theorem FilingInvariant.step {past outputs : List (OracleOutput ε)} {before after : Oracle × σ}
    (known : OracleInvariant sdk past before.1) (invariant : FilingInvariant sdk past before.1)
    (step : OracleStep (π := π) sdk before after outputs) :
    FilingInvariant sdk (past ++ outputs) after.1 := by
  cases step with
  | vote validator blockHeight claim next => exact invariant.vote next
  | tally staking handle blockHeight ctx counted =>
      have keeps := known.keeps counted
      refine invariant.transfer ?_ (fun validator above => ?_) fun key att found => ?_
      · rw [keeps.lastObserved]
        exact Nat.le_add_right _ _
      · cases counter : before.1.lastEventNonceByValidator.get
            (getLastEventNonceByValidatorKey validator) with
        | none =>
            rw [Oracle.getLastEventNonceByValidator_of_none (keeps.counters ▸ counter)] at above
            omega
        | some nonce =>
            rw [Oracle.getLastEventNonceByValidator_of_some (keeps.counters ▸ counter),
              Oracle.getLastEventNonceByValidator_of_some counter]
      · obtain ⟨earlier, look, votes, _⟩ := exists_of_ballot_eq (keeps.ballots key) found
        exact ⟨earlier, look, votes⟩
  | prune =>
      have pruned := pruneAttestations_pruned known.ballots.keyed
      refine invariant.transfer pruned.lastObserved.ge (fun validator _ => ?_) fun key att found => ?_
      · unfold Oracle.getLastEventNonceByValidator
        rw [pruned.counters, pruned.lastObserved]
      · exact ⟨att, pruned.stored key att found, rfl⟩
  | restart attestations app exported =>
      obtain ⟨gets, lastObserved, _⟩ := initGenesisOracle_spec known.ballots.keyed exported
      refine invariant.transfer lastObserved.ge (fun validator above => ?_) fun key att found => ?_
      · rw [lastObserved] at above
        exact initGenesisOracle_counter_le known.ballots exported above
      · exact ⟨att, gets key ▸ found, rfl⟩
  | other app => exact invariant.transfer le_rfl (fun _ _ => le_rfl) fun _ att found => ⟨att, found, rfl⟩

/-- **Every run files its votes.** -/
theorem filingInvariant_run {app : σ} {inputs : List (OracleInput σ ε π)} {final : Oracle × σ}
    {outputs : List (OracleOutput ε)}
    (runs : run (oracleStep sdk) (Oracle.empty, app) inputs = some (final, outputs)) :
    OracleInvariant sdk outputs final.1 ∧ FilingInvariant sdk outputs final.1 := by
  have initially : OracleInvariant sdk ([] : List (OracleOutput ε)) (Oracle.empty, app).1 ∧
      FilingInvariant sdk ([] : List (OracleOutput ε)) (Oracle.empty, app).1 :=
    ⟨⟨ballotInvariant_empty, orderInvariant_empty⟩, filingInvariant_empty⟩
  exact run_invariant (fun _ => True)
    (fun past state => OracleInvariant sdk past state.1 ∧ FilingInvariant sdk past state.1)
    (fun _ _ _ _ _ _ both step => ⟨both.1.step (oracleStep_cases step),
      both.2.step both.1 (oracleStep_cases step)⟩)
    (fun _ _ => trivial) initially runs

end Filing

/-! ### Progress -/

section Progress

variable {σ ε π : Type} {sdk : Sdk} {staking : StakingPowers}

/-- The votes of some validators are for the true event of their nonce. -/
def OracleOutput.Faithful (voters : List ValAddress) (truth : Nat → EthereumClaim) :
    OracleOutput ε → Prop
  | .vote validator claim => validator ∈ voters → claim.SameEvent (truth claim.getEventNonce)
  | .handled _ => True

instance (voters : List ValAddress) (truth : Nat → EthereumClaim) (output : OracleOutput ε) :
    Decidable (output.Faithful voters truth) := by
  unfold OracleOutput.Faithful; split <;> infer_instance

/-- More votes are enough, too. -/
theorem StakingPowers.Assigned.enough_mono {validators voters votes : List ValAddress}
    (assigned : staking.Assigned validators) (distinct : voters.Nodup) (more : voters ⊆ votes)
    (enough : staking.Enough voters) : staking.Enough votes := by
  obtain ⟨some, power⟩ := assigned.enough_iff.mp enough
  refine assigned.enough_iff.mpr ⟨fun none => some (List.subset_nil.mp (none ▸ more)), power.trans ?_⟩
  obtain ⟨between, perm, sublist⟩ := List.subperm_of_subset distinct more
  have same : staking.votePower between = staking.votePower voters := (perm.map _).sum_eq
  rw [← same]
  refine List.Sublist.sum_le_sum (sublist.map _) fun value member => ?_
  obtain ⟨validator, _, rfl⟩ := List.mem_map.mp member
  exact assigned.nonneg validator

/-- **The oracle makes progress.** After any run from a fresh store, and whatever the other validators
voted for: if validators with enough power have counters at a nonce or above it, and each of them only ever
reported the true event of a nonce, then the next tally observes everything up to that nonce, unless the
attestation handler panics. -/
theorem oracle_progress {validators voters : List ValAddress} {truth : Nat → EthereumClaim} {goal : Nat}
    (assigned : staking.Assigned validators) (distinct : voters.Nodup) (enough : staking.Enough voters)
    {app : σ} {inputs : List (OracleInput σ ε π)} {final : Oracle × σ} {outputs : List (OracleOutput ε)}
    (runs : run (oracleStep sdk) (Oracle.empty, app) inputs = some (final, outputs))
    (faithful : ∀ output ∈ outputs, output.Faithful voters truth)
    (voted : ∀ voter ∈ voters, goal ≤ final.1.getLastEventNonceByValidator voter)
    (handle : Attestation → EthereumClaim → σ → Outcome ε π σ) (blockHeight : Nat) :
    (attestationTally sdk staking handle blockHeight final.1 final.2).Meets
      (fun ctx => goal ≤ ctx.oracle.lastObservedEventNonce)
      (HandlerPanic sdk staking handle blockHeight final.1 ⟨final.1, final.2, []⟩) := by
  obtain ⟨known, filing⟩ := filingInvariant_run runs
  have meets := known.tally_meets staking handle blockHeight final.2
  cases counted : attestationTally sdk staking handle blockHeight final.1 final.2 with
  | error reason => trivial
  | panic reason => exact meets.panic counted
  | ok ctx =>
      refine attestationTally_progress (fun nonce higher low => ?_) counted
      -- all their votes for this nonce are under the key of the true event
      have under : ∀ voter ∈ voters, ∃ att, final.1.attestations.get
          (attestationKey sdk (truth nonce)) = some att ∧ att.claim.getEventNonce = nonce ∧
          voter ∈ att.votes := by
        intro voter member
        have cast := filing.gapless voter nonce higher (low.trans (voted voter member))
        obtain ⟨key, att, found, nonceIs, inVotes⟩ :=
          known.ballots.recent voter nonce cast (by omega)
        obtain ⟨claim, reported, keyIs⟩ := filing.filed key att found voter inVotes
        have same : claim.SameEvent (truth claim.getEventNonce) := faithful _ reported member
        have keyed := known.ballots.keyed key att found
        rw [← keyIs] at keyed
        have claimNonce : claim.getEventNonce = nonce :=
          (getAttestationKey_inj.mp keyed).1.trans nonceIs
        rw [claimNonce] at same
        rw [← keyIs, same.attestationKey] at found
        exact ⟨att, found, nonceIs, inVotes⟩
      obtain ⟨first, member⟩ := List.exists_mem_of_ne_nil _ (assigned.enough_iff.mp enough).1
      obtain ⟨att, found, nonceIs, _⟩ := under first member
      refine ⟨att, List.mem_filter.mpr ⟨?_, decide_eq_true nonceIs⟩, ?_⟩
      · exact (Store.mem_values_iff _ _).mpr ⟨_, found⟩
      · refine assigned.enough_mono distinct (fun voter member => ?_) enough
        obtain ⟨other, foundOther, _, inVotes⟩ := under voter member
        rw [found] at foundOther
        exact Option.some.inj foundOther ▸ inVotes

end Progress

/-- Three validators with 34, 33 and 33 of 100. -/
def exampleThirds : StakingPowers :=
  ⟨100, fun validator =>
    if validator = List.replicate 20 1 then 34
    else if validator = List.replicate 20 2 then 33
    else if validator = List.replicate 20 3 then 33 else 0⟩

/-- The third validator votes first, and for something else; the other two vote for two deposits. -/
def exampleRace : List (OracleInput Unit Unit Unit) :=
  [.attest some 7 (.batchSendToEth ⟨1, 10, 4, ascii "0x429881672B9AE42b8EbA0E26cD9C73711b891Ca5",
      ascii "cosmos1qvpsxqcrqvpsxqcrqvpsxqcrqvpsxqcrz8x6vt"⟩),
    .attest some 7 (exampleDeposit 1 "cosmos1qyqszqgpqyqszqgpqyqszqgpqyqszqgpjnp7du"),
    .attest some 7 (exampleDeposit 1 "cosmos1qgpqyqszqgpqyqszqgpqyqszqgpqyqszrh8mx2"),
    .attest some 8 (exampleDeposit 2 "cosmos1qgpqyqszqgpqyqszqgpqyqszqgpqyqszrh8mx2"),
    .attest some 8 (exampleDeposit 2 "cosmos1qyqszqgpqyqszqgpqyqszqgpqyqszqgpjnp7du")]

theorem exampleThirds_assigned :
    exampleThirds.Assigned [List.replicate 20 1, List.replicate 20 2, List.replicate 20 3] where
  distinct := by decide
  nonneg validator := by
    unfold exampleThirds
    dsimp only
    split_ifs <;> decide
  others validator outside := by
    simp only [List.mem_cons, List.not_mem_nil, or_false, not_or] at outside
    simp only [exampleThirds, if_neg outside.1, if_neg outside.2.1, if_neg outside.2.2]
  total := by decide

/-- The tally of the next block; the handler does nothing. -/
def exampleTally (state : Oracle × Unit) : Outcome Empty (OraclePanic Unit) (Ctx Unit Unit) :=
  attestationTally exampleSdk exampleThirds (fun _ _ app => .ok app) 9 state.1 state.2

theorem exampleRace_runs :
    (run (oracleStep exampleSdk) (Oracle.empty, ()) exampleRace).map (fun result =>
      (decide (∀ output ∈ result.2, output.Faithful [List.replicate 20 1, List.replicate 20 2]
          fun nonce => exampleDeposit nonce ""),
        ([List.replicate 20 1, List.replicate 20 2].map result.1.1.getLastEventNonceByValidator,
          (result.1.1.lastObservedEventNonce, (exampleTally result.1).value?.isSome)))) =
      some (true, ([2, 2], (0, true))) := by
  decide +kernel

theorem oracle_progress_exampleRace : ∃ final outputs ctx,
    run (oracleStep exampleSdk) (Oracle.empty, ()) exampleRace = some (final, outputs) ∧
      final.1.lastObservedEventNonce = 0 ∧ exampleTally final = .ok ctx ∧
      2 ≤ ctx.oracle.lastObservedEventNonce := by
  obtain ⟨⟨final, outputs⟩, runs, equal⟩ := Option.map_eq_some_iff.mp exampleRace_runs
  obtain ⟨faithful, equal⟩ := Prod.mk.inj equal
  obtain ⟨counters, equal⟩ := Prod.mk.inj equal
  obtain ⟨last, counted⟩ := Prod.mk.inj equal
  obtain ⟨ctx, counted⟩ := Option.isSome_iff_exists.mp counted
  have voted : ∀ voter ∈ [List.replicate 20 1, List.replicate 20 2],
      2 ≤ final.1.getLastEventNonceByValidator voter := by
    simp only [List.map_cons, List.map_nil, List.cons.injEq, and_true] at counters
    intro voter member
    simp only [List.mem_cons, List.not_mem_nil, or_false] at member
    rcases member with rfl | rfl
    · exact counters.1.ge
    · exact counters.2.ge
  have progress := oracle_progress exampleThirds_assigned (by decide) (by decide) runs
    (of_decide_eq_true faithful) voted (fun _ _ app => (.ok app : Outcome Unit Unit Unit)) 9
  have counted : exampleTally final = .ok ctx := Outcome.value?_eq_some.mp counted
  exact ⟨final, outputs, ctx, runs, last, counted, progress.ok counted⟩

end NabBridge
