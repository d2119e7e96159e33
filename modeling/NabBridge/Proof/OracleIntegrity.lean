/-
**Byzantine oracle integrity.**

With fixed powers, a total of at least 100 and less than 34 % of it in Byzantine hands, every
attestation that becomes observed has an honest vote (`exists_honest_voter`: voters are distinct and
the threshold is 66 %, rounded down). An honest vote is for the true event, and votes are matched by
claim hash, so the observed claim, which is the one of the first voter, has the hash of the true
event.

That makes it the true event exactly where the hash binds every field. `observed_claims_are_true`
states it for runs in which every submitted claim is `Bound` by the true event of its nonce:
batch claims carry the true height, and deployments are reported for unambiguous texts.
`forged_height_observed` is a run without this condition in which the first, Byzantine voter chooses
the Ethereum height that the whole chain takes over.
-/

import NabBridge.Proof.OracleRun
import NabBridge.Types.ClaimHash

namespace NabBridge

/-! ### Honest voters -/

section Power

/-- The power that the tally summed up belongs to a first part of the votes. -/
theorem exists_prefix_of_reachesPower {power : ValAddress → Int} {required start : Int}
    {votes : List ValAddress} (reaches : reachesPower power required start votes = true) :
    ∃ voters, voters <+: votes ∧ required ≤ start + (voters.map power).sum := by
  induction votes generalizing start with
  | nil => cases reaches
  | cons validator rest ih =>
      unfold reachesPower at reaches
      split_ifs at reaches with enough
      · exact ⟨[validator], by simp, by simpa using enough⟩
      · obtain ⟨voters, isPrefix, bound⟩ := ih reaches
        refine ⟨validator :: voters, (List.prefix_cons_inj validator).mpr isPrefix, ?_⟩
        rw [List.map_cons, List.sum_cons]
        omega

/-- **A Byzantine minority**: the total is at least 100, and distinct Byzantine validators hold
strictly less than 34 % of it. -/
structure Minority (staking : StakingPowers) (byzantine : ValAddress → Prop) : Prop where
  total : 100 ≤ staking.lastTotalPower
  power : ∀ voters : List ValAddress, voters.Nodup → (∀ voter ∈ voters, byzantine voter) →
    100 * (voters.map staking.lastValidatorPower).sum < 34 * staking.lastTotalPower

/-- **Distinct voters that reach the threshold include an honest one.** -/
theorem exists_honest_voter {staking : StakingPowers} {byzantine : ValAddress → Prop}
    (minority : Minority staking byzantine) {votes : List ValAddress} (distinct : votes.Nodup)
    (reaches : reachesPower staking.lastValidatorPower staking.requiredPower 0 votes = true) :
    ∃ voter ∈ votes, ¬ byzantine voter := by
  by_contra allByzantine
  have everyone : ∀ voter ∈ votes, byzantine voter := fun voter member =>
    by_contra fun honest => allByzantine ⟨voter, member, honest⟩
  obtain ⟨voters, isPrefix, bound⟩ := exists_prefix_of_reachesPower reaches
  have small := minority.power voters (distinct.sublist isPrefix.sublist)
    fun voter member => everyone voter (isPrefix.subset member)
  have total := minority.total
  unfold StakingPowers.requiredPower attestationVotesPowerThreshold at bound
  rw [Int.tdiv_eq_ediv_of_nonneg (by omega)] at bound
  omega

end Power

/-! ### Claims of one event -/

namespace EthereumClaim

theorem SameEvent.trans {first second third : EthereumClaim} (left : first.SameEvent second)
    (right : second.SameEvent third) : first.SameEvent third := by
  cases first <;> cases second <;> cases third <;>
    first
    | exact left.elim
    | exact right.elim
    | exact Eq.trans left right
    | exact ⟨left.1.trans right.1, left.2.trans right.2⟩

theorem sameEvent_sortMembers (claim : EthereumClaim) : claim.sortMembers.SameEvent claim := by
  cases claim <;>
    first
    | exact rfl
    | exact ⟨rfl, sortBridgeValidators_perm _⟩

theorem SameEvent.getEventNonce {first second : EthereumClaim} (same : first.SameEvent second) :
    first.getEventNonce = second.getEventNonce := by
  cases first <;> cases second <;>
    first
    | exact same.elim
    | simp_all [SameEvent, EthereumClaim.getEventNonce]

theorem SameEvent.getBlockHeight {first second : EthereumClaim} (same : first.SameEvent second) :
    first.getBlockHeight = second.getBlockHeight := by
  cases first <;> cases second <;>
    first
    | exact same.elim
    | simp_all [SameEvent, EthereumClaim.getBlockHeight]

/-- What a claim is bound by does not depend on who reported the event. -/
theorem Bound.of_sameEvent {claim other truth : EthereumClaim} (bound : claim.Bound truth)
    (same : other.SameEvent truth) : claim.Bound other := by
  cases claim <;> cases other <;> cases truth <;>
    first
    | trivial
    | exact same.elim
    | simp_all [SameEvent, Bound, MsgERC20DeployedClaim.Unambiguous]

end EthereumClaim

/-! ### The invariant -/

section Integrity

variable {σ ε π : Type} {sdk : Sdk} {staking : StakingPowers} {byzantine : ValAddress → Prop}
  {truth : Nat → EthereumClaim}

/-- The inputs of a run with fixed powers in which honest validators report the true event of each
nonce. -/
def HonestInput (sdk : Sdk) (staking : StakingPowers) (byzantine : ValAddress → Prop)
    (truth : Nat → EthereumClaim) : OracleInput σ ε π → Prop
  | .attest orchestratorValidator _ claim =>
      ∀ validator, claimVoter sdk orchestratorValidator claim = some validator →
        ¬ byzantine validator → claim.SameEvent (truth claim.getEventNonce)
  | .attestationTally powers _ _ => powers = staking
  | .pruneAttestations => True
  | .restart _ _ => False
  | .other _ => True

/-- The inputs whose claims are bound by the true event of their nonce. -/
def BoundInput (truth : Nat → EthereumClaim) : OracleInput σ ε π → Prop
  | .attest _ _ claim => claim.Bound (truth claim.getEventNonce)
  | _ => True

/-- **The integrity invariant**: every stored claim is well formed and bound, each of its honest
votes was for the true event under the same key, and what was handed on so far is true. -/
structure IntegrityInvariant (sdk : Sdk) (byzantine : ValAddress → Prop)
    (truth : Nat → EthereumClaim) (calls : List (Observation ε)) (oracle : Oracle) : Prop where
  stored : ∀ key att, oracle.attestations.get key = some att →
    att.claim.validateBasic sdk = .ok () ∧ att.claim.Bound (truth att.claim.getEventNonce)
  votes : ∀ key att, oracle.attestations.get key = some att → ∀ voter ∈ att.votes,
    ¬ byzantine voter → ∃ claim : EthereumClaim, claim.validateBasic sdk = .ok () ∧
      claim.SameEvent (truth claim.getEventNonce) ∧ attestationKey sdk claim = key
  calls : ∀ call ∈ calls, call.attestation.claim.SameEvent (truth call.claim.getEventNonce) ∧
    call.claim.SameEvent (truth call.claim.getEventNonce)
  height : 0 < oracle.lastObservedEventNonce →
    oracle.lastObservedEthereumBlockHeight.ethereumBlockHeight =
      (truth oracle.lastObservedEventNonce).getBlockHeight

theorem integrityInvariant_empty :
    IntegrityInvariant sdk byzantine truth ([] : List (Observation ε)) Oracle.empty := by
  constructor <;> simp [Oracle.empty]

/-- **An attestation that passes the threshold has the true claim.** -/
theorem IntegrityInvariant.sameEvent {calls : List (Observation ε)} {oracle : Oracle}
    (invariant : IntegrityInvariant sdk byzantine truth calls oracle)
    (collisionFree : Function.Injective sdk.tmhash)
    (bech32 : ∀ text address, sdk.accAddressFromBech32 text = some address → 47 ∉ text)
    (minority : Minority staking byzantine) {key : StoreKey} {att : Attestation}
    (keyed : key = attestationKey sdk att.claim)
    (found : oracle.attestations.get key = some att) (distinct : att.votes.Nodup)
    (reaches : reachesPower staking.lastValidatorPower staking.requiredPower 0 att.votes = true) :
    att.claim.SameEvent (truth att.claim.getEventNonce) := by
  obtain ⟨voter, voted, honest⟩ := exists_honest_voter minority distinct reaches
  obtain ⟨valid, bound⟩ := invariant.stored key att found
  obtain ⟨claim, claimValid, same, keyIs⟩ := invariant.votes key att found voter voted honest
  obtain ⟨nonces, hashes⟩ := getAttestationKey_inj.mp (keyIs.trans keyed)
  rw [nonces] at same
  have paths : att.claim.path = claim.path := (collisionFree hashes).symm
  have agree := EthereumClaim.path_sameEvent bech32 valid claimValid (bound.of_sameEvent same) paths
  exact agree.trans same

/-- A tally hands on true claims only. -/
theorem IntegrityInvariant.tally {past : List (OracleOutput ε)} {oracle : Oracle} {app : σ}
    {handle : Attestation → EthereumClaim → σ → Outcome ε π σ} {blockHeight : Nat} {ctx : Ctx σ ε}
    (known : OracleInvariant sdk past oracle)
    (invariant : IntegrityInvariant sdk byzantine truth (handlerCalls past) oracle)
    (collisionFree : Function.Injective sdk.tmhash)
    (bech32 : ∀ text address, sdk.accAddressFromBech32 text = some address → 47 ∉ text)
    (minority : Minority staking byzantine)
    (counted : attestationTally sdk staking handle blockHeight oracle app = .ok ctx) :
    IntegrityInvariant sdk byzantine truth (handlerCalls past ++ ctx.observations) ctx.oracle := by
  have keeps := known.keeps counted
  have chain := (known.tally_meets staking handle blockHeight app).ok counted
  have handed : (∀ call ∈ ctx.observations,
      call.attestation.claim.SameEvent (truth call.claim.getEventNonce) ∧
        call.claim.SameEvent (truth call.claim.getEventNonce)) ∧
      (0 < ctx.oracle.lastObservedEventNonce →
        ctx.oracle.lastObservedEthereumBlockHeight.ethereumBlockHeight =
          (truth ctx.oracle.lastObservedEventNonce).getBlockHeight) := by
    clear counted keeps
    induction chain with
    | refl => exact ⟨fun _ seen => absurd seen List.not_mem_nil, invariant.height⟩
    | tail _ step ih =>
        obtain ⟨att, member, _, reaches, _, _, _, _, rfl⟩ := step
        obtain ⟨key, found⟩ := (Store.mem_values_iff _ _).mp member
        have same := invariant.sameEvent collisionFree bech32 minority
          (known.ballots.keyed key att found) found (known.ballots.votesNodup key att found) reaches
        refine ⟨fun call seen => ?_, fun _ => same.getBlockHeight⟩
        rcases List.mem_append.mp seen with earlier | now
        · exact ih.1 call earlier
        · rw [List.mem_singleton.mp now, EthereumClaim.getEventNonce_sortMembers]
          exact ⟨same, (EthereumClaim.sameEvent_sortMembers _).trans same⟩
  constructor
  case stored =>
    intro key att found
    obtain ⟨earlier, look, _, claims⟩ := exists_of_ballot_eq (keeps.ballots key) found
    exact claims ▸ invariant.stored key earlier look
  case votes =>
    intro key att found voter voted honest
    obtain ⟨earlier, look, votes, _⟩ := exists_of_ballot_eq (keeps.ballots key) found
    exact invariant.votes key earlier look voter (votes ▸ voted) honest
  case calls =>
    intro call seen
    rcases List.mem_append.mp seen with earlier | now
    · exact invariant.calls call earlier
    · exact handed.1 call now
  case height => exact handed.2

theorem getClaimer_eq_some {claim : EthereumClaim} {claimer : AccAddress}
    (claims : claim.getClaimer sdk = some claimer) : claim.validateBasic sdk = .ok () := by
  unfold EthereumClaim.getClaimer at claims
  split at claims
  · rename_i valid
    exact valid
  · cases claims

/-- A vote keeps the integrity invariant. -/
theorem IntegrityInvariant.vote {calls : List (Observation ε)} {oracle : Oracle}
    (invariant : IntegrityInvariant sdk byzantine truth calls oracle)
    {orchestratorValidator : AccAddress → Option ValAddress} {validator : ValAddress}
    {blockHeight : Nat} {claim : EthereumClaim}
    (voter : claimVoter sdk orchestratorValidator claim = some validator)
    (honest : ¬ byzantine validator → claim.SameEvent (truth claim.getEventNonce))
    (bound : claim.Bound (truth claim.getEventNonce)) :
    IntegrityInvariant sdk byzantine truth calls (oracle.recordVote sdk claim
      ((oracle.attestationFor sdk blockHeight claim).addVote validator) validator) := by
  obtain ⟨claimer, claims, _⟩ := Option.bind_eq_some_iff.mp voter
  have valid := getClaimer_eq_some claims
  -- the attestation the vote goes to is a stored one or a new one with this claim
  have joined : (oracle.attestations.get (attestationKey sdk claim) =
      some (oracle.attestationFor sdk blockHeight claim)) ∨
      oracle.attestationFor sdk blockHeight claim = ⟨false, [], blockHeight, claim⟩ := by
    unfold Oracle.attestationFor Oracle.getAttestation attestationKey
    cases oracle.attestations.get (getAttestationKey claim.getEventNonce (claim.claimHash sdk)) with
    | none => exact Or.inr rfl
    | some att => exact Or.inl rfl
  constructor
  case stored =>
    intro key att found
    rw [Oracle.get_recordVote] at found
    split_ifs at found with same
    · obtain rfl := Option.some.inj found
      rcases joined with stored | new
      · have kept := invariant.stored _ _ stored
        exact kept
      · simp only [Attestation.addVote, new]
        exact ⟨valid, bound⟩
    · exact invariant.stored key att found
  case votes =>
    intro key att found other voted isHonest
    rw [Oracle.get_recordVote] at found
    split_ifs at found with same
    · obtain rfl := Option.some.inj found
      rcases List.mem_append.mp voted with earlier | now
      · rcases joined with stored | new
        · exact same ▸ invariant.votes _ _ stored other earlier isHonest
        · simp [new] at earlier
      · rw [List.mem_singleton.mp now] at isHonest
        exact ⟨claim, valid, honest isHonest, same.symm⟩
    · exact invariant.votes key att found other voted isHonest
  case calls => exact invariant.calls
  case height => exact invariant.height

/-- Every step on an honest input with bound claims keeps the invariant. -/
theorem IntegrityInvariant.step {past outputs : List (OracleOutput ε)} {before after : Oracle × σ}
    {input : OracleInput σ ε π} (known : OracleInvariant sdk past before.1)
    (invariant : IntegrityInvariant sdk byzantine truth (handlerCalls past) before.1)
    (collisionFree : Function.Injective sdk.tmhash)
    (bech32 : ∀ text address, sdk.accAddressFromBech32 text = some address → 47 ∉ text)
    (minority : Minority staking byzantine) (honest : HonestInput sdk staking byzantine truth input)
    (bound : BoundInput truth input) (step : oracleStep sdk before input = some (after, outputs)) :
    IntegrityInvariant sdk byzantine truth (handlerCalls (past ++ outputs)) after.1 := by
  rw [handlerCalls_append]
  cases input with
  | attest orchestratorValidator blockHeight claim =>
      simp only [oracleStep] at step
      split at step
      · rename_i oracle att voted
        obtain ⟨validator, voter, _, rfl, rfl⟩ := attest_eq_ok voted
        rw [voter] at step
        obtain ⟨rfl, rfl⟩ := Prod.mk.inj (Option.some.inj step)
        simpa using invariant.vote voter (honest validator voter) bound
      · obtain ⟨rfl, rfl⟩ := Prod.mk.inj (Option.some.inj step)
        simpa using invariant
  | attestationTally powers handle blockHeight =>
      simp only [oracleStep] at step
      split at step
      · rename_i ctx counted
        obtain ⟨rfl, rfl⟩ := Prod.mk.inj (Option.some.inj step)
        obtain rfl : powers = staking := honest
        rw [handlerCalls_handled]
        exact invariant.tally known collisionFree bech32 minority counted
      · cases step
  | pruneAttestations =>
      obtain ⟨rfl, rfl⟩ := Prod.mk.inj (Option.some.inj step)
      have pruned := pruneAttestations_pruned known.ballots.keyed
      rw [handlerCalls_nil, List.append_nil]
      refine ⟨fun key att found => invariant.stored key att (pruned.stored key att found),
        fun key att found => invariant.votes key att (pruned.stored key att found),
        invariant.calls, ?_⟩
      rw [pruned.lastObserved, pruned.height]
      exact invariant.height
  | restart attestations app => exact absurd honest id
  | other app =>
      obtain ⟨rfl, rfl⟩ := Prod.mk.inj (Option.some.inj step)
      simpa using invariant

/-- **Observed claims are true.** Powers are fixed, the total is at least 100, Byzantine validators
hold less than 34 % of it, honest ones report the true event of each nonce, and the hash is collision
free. Then in every run from a fresh store whose submitted claims are bound by the true event of
their nonce, every observed attestation stores, and hands to the handler and to the observed Ethereum
height, the true event of its nonce. -/
theorem observed_claims_are_true (collisionFree : Function.Injective sdk.tmhash)
    (bech32 : ∀ text address, sdk.accAddressFromBech32 text = some address → 47 ∉ text)
    (minority : Minority staking byzantine) {app : σ} {inputs : List (OracleInput σ ε π)}
    (honest : ∀ input ∈ inputs, HonestInput sdk staking byzantine truth input)
    (bound : ∀ input ∈ inputs, BoundInput truth input) {final : Oracle × σ}
    {outputs : List (OracleOutput ε)}
    (runs : run (oracleStep sdk) (Oracle.empty, app) inputs = some (final, outputs)) :
    (∀ key att, final.1.attestations.get key = some att → att.observed = true →
      att.claim.SameEvent (truth att.claim.getEventNonce)) ∧
    (∀ call ∈ handlerCalls outputs,
      call.attestation.claim.SameEvent (truth call.claim.getEventNonce) ∧
      call.claim.SameEvent (truth call.claim.getEventNonce)) ∧
    (0 < final.1.lastObservedEventNonce →
      final.1.lastObservedEthereumBlockHeight.ethereumBlockHeight =
        (truth final.1.lastObservedEventNonce).getBlockHeight) := by
  have initially : OracleInvariant sdk ([] : List (OracleOutput ε)) (Oracle.empty, app).1 ∧
      IntegrityInvariant sdk byzantine truth (handlerCalls ([] : List (OracleOutput ε)))
        (Oracle.empty, app).1 :=
    ⟨⟨ballotInvariant_empty, orderInvariant_empty⟩, integrityInvariant_empty⟩
  obtain ⟨known, invariant⟩ := run_invariant
    (fun input => HonestInput sdk staking byzantine truth input ∧ BoundInput truth input)
    (fun past state => OracleInvariant sdk past state.1 ∧
      IntegrityInvariant sdk byzantine truth (handlerCalls past) state.1)
    (fun _ _ _ _ _ allowed both step => ⟨both.1.step (oracleStep_cases step),
      both.2.step both.1 collisionFree bech32 minority allowed.1 allowed.2 step⟩)
    (fun input member => ⟨honest input member, bound input member⟩) initially runs
  refine ⟨fun key att found marked => ?_, invariant.calls, invariant.height⟩
  obtain ⟨call, seen, claims⟩ := known.order.observed key att found marked
  have handed := known.order.handed call seen
  have same := (invariant.calls call seen).1
  rw [handed, EthereumClaim.getEventNonce_sortMembers] at same
  exact claims ▸ same

end Integrity

/-! ### Two runs -/

section Examples

/-- The true event: batch 1 was executed at height 10. -/
def exampleBatchExecuted (blockHeight : Nat) (orchestrator : String) : EthereumClaim :=
  .batchSendToEth {
    eventNonce := 1
    blockHeight := blockHeight
    batchNonce := 1
    tokenContract := ascii "0x429881672B9AE42b8EbA0E26cD9C73711b891Ca5"
    orchestrator := ascii orchestrator }

/-- The powers of the runs: one Byzantine validator with 33 of 100, one honest with 67. -/
def examplePowers : StakingPowers :=
  ⟨100, fun validator =>
    if validator = List.replicate 20 1 then 33 else if validator = List.replicate 20 2 then 67 else 0⟩

/-- The first validator is Byzantine. -/
def exampleByzantine (validator : ValAddress) : Prop := validator = List.replicate 20 1

theorem examplePowers_minority : Minority examplePowers exampleByzantine := by
  refine ⟨by decide, fun voters distinct byzantine => ?_⟩
  cases voters with
  | nil => decide
  | cons first rest =>
      have firstIs : first = List.replicate 20 1 := byzantine first List.mem_cons_self
      have alone : rest = [] := by
        refine List.eq_nil_iff_forall_not_mem.mpr fun voter member => ?_
        have same : voter = first :=
          (byzantine voter (List.mem_cons_of_mem _ member)).trans firstIs.symm
        exact (List.nodup_cons.mp distinct).1 (same ▸ member)
      rw [firstIs, alone]
      decide

/-- The Byzantine validator reports the event first, with a height of its own, then the honest one
reports the true event; the end blocker tallies. -/
def exampleReports (reported : Nat) : List (OracleInput Unit Unit Unit) :=
  [.attest some 7 (exampleBatchExecuted reported "cosmos1qyqszqgpqyqszqgpqyqszqgpqyqszqgpjnp7du"),
    .attest some 7 (exampleBatchExecuted 10 "cosmos1qgpqyqszqgpqyqszqgpqyqszqgpqyqszrh8mx2"),
    .attestationTally examplePowers (fun _ _ app => .ok app) 8]

/-- The true event of every nonce of the runs. -/
def exampleTruth (_ : Nat) : EthereumClaim := exampleBatchExecuted 10 ""

set_option maxRecDepth 2000 in
theorem exampleReports_honest (reported : Nat) : ∀ input ∈ exampleReports reported,
    HonestInput exampleSdk examplePowers exampleByzantine exampleTruth input := by
  intro input member
  simp only [exampleReports, List.mem_cons, List.not_mem_nil, or_false] at member
  rcases member with rfl | rfl | rfl
  · intro validator voter honest
    have first : claimVoter exampleSdk some (exampleBatchExecuted reported
        "cosmos1qyqszqgpqyqszqgpqyqszqgpqyqszqgpjnp7du") = some (List.replicate 20 1) := by rfl
    exact absurd (Option.some.inj (voter.symm.trans first)) honest
  · intro validator _ _
    rfl
  · rfl

/-- **A forged height is observed.** All hypotheses of `observed_claims_are_true` hold but that the
claims are bound: the batch claim of the first voter names another height. The observed attestation,
the claim handed to the handler and the observed Ethereum height are the forged ones. -/
theorem forged_height_observed : ∃ final outputs,
    Function.Injective exampleSdk.tmhash ∧ Minority examplePowers exampleByzantine ∧
    (∀ input ∈ exampleReports 99999,
      HonestInput exampleSdk examplePowers exampleByzantine exampleTruth input) ∧
    run (oracleStep exampleSdk) (Oracle.empty, ()) (exampleReports 99999) =
      some (final, outputs) ∧
    final.1.lastObservedEthereumBlockHeight.ethereumBlockHeight = 99999 ∧
    (exampleTruth 1).getBlockHeight = 10 ∧
    ∃ call ∈ handlerCalls outputs, ¬ call.claim.SameEvent (exampleTruth call.claim.getEventNonce) := by
  have evaluated : (run (oracleStep exampleSdk) (Oracle.empty, ()) (exampleReports 99999)).map
      (fun result => (result.1.1.lastObservedEthereumBlockHeight.ethereumBlockHeight,
        (handlerCalls result.2).map fun call => (call.claim.getEventNonce, call.claim))) =
      some (99999, [(1, exampleBatchExecuted 99999
        "cosmos1qyqszqgpqyqszqgpqyqszqgpqyqszqgpjnp7du")]) := by decide +kernel
  obtain ⟨⟨final, outputs⟩, runs, results⟩ := Option.map_eq_some_iff.mp evaluated
  obtain ⟨height, calls⟩ := Prod.mk.inj results
  refine ⟨final, outputs, fun _ _ => id, examplePowers_minority, exampleReports_honest 99999, runs,
    height, rfl, ?_⟩
  cases handed : handlerCalls outputs with
  | nil => simp [handed] at calls
  | cons call rest =>
      simp only [handed, List.map_cons, List.cons.injEq, Prod.mk.injEq] at calls
      obtain ⟨⟨_, claim⟩, _⟩ := calls
      refine ⟨call, List.mem_cons_self, fun same => ?_⟩
      rw [claim] at same
      have heights := same.getBlockHeight
      exact absurd heights (by decide)

theorem observed_claims_are_true_exampleReports : ∃ final outputs,
    run (oracleStep exampleSdk) (Oracle.empty, ()) (exampleReports 10) = some (final, outputs) ∧
      final.1.lastObservedEventNonce = 1 ∧
      final.1.lastObservedEthereumBlockHeight.ethereumBlockHeight = 10 := by
  have evaluated : (run (oracleStep exampleSdk) (Oracle.empty, ()) (exampleReports 10)).map
      (fun result => result.1.1.lastObservedEventNonce) = some 1 := by decide +kernel
  obtain ⟨⟨final, outputs⟩, runs, last⟩ := Option.map_eq_some_iff.mp evaluated
  have bound : ∀ input ∈ exampleReports 10, BoundInput exampleTruth input := by
    intro input member
    simp only [exampleReports, List.mem_cons, List.not_mem_nil, or_false] at member
    rcases member with rfl | rfl | rfl
    · exact fun _ _ => rfl
    · exact fun _ _ => rfl
    · trivial
  have height := (observed_claims_are_true (fun _ _ => id) exampleSdk_slash_free
    examplePowers_minority (exampleReports_honest 10) bound runs).2.2 (by simp only at last; omega)
  exact ⟨final, outputs, runs, last, height⟩

example : (exampleTruth 1).getBlockHeight = 10 := by decide +kernel

end Examples

end NabBridge
