/-
**Runs of the oracle: no double vote, events in order.**

`oracleStep` is the oracle as a machine. Its inputs are votes with whatever delegate keys are in
force, tallies with whatever powers and handler, prunings, restarts from an export in any order, and
arbitrary changes to the rest of the module in between. Its outputs are the votes that were taken
and the calls of the attestation handler.

Two invariants carry everything:

* `BallotInvariant`: the votes taken so far are pairwise distinct, every voter's counter is at or
  above its votes (a missing counter reads as one below the last observed nonce, so a voter without
  one has only voted strictly below that nonce), and the votes within `eventsToKeep` of the last
  observed nonce are all stored, each once;
* `OrderInvariant`: the handler was called for the nonces `1, 2, …, lastObservedEventNonce`, in this
  order, and every attestation marked observed is one it was called for.
-/

import NabBridge.Lib.Run
import NabBridge.Keeper.Attestation

namespace NabBridge

/-! ### The machine -/

section Machine

variable {σ ε π : Type}

/-- The inputs of the oracle. -/
inductive OracleInput (σ ε π : Type) where
  | attest (orchestratorValidator : AccAddress → Option ValAddress) (blockHeight : Nat)
      (claim : EthereumClaim)
  | attestationTally (staking : StakingPowers)
      (handle : Attestation → EthereumClaim → σ → Outcome ε π σ) (blockHeight : Nat)
  | pruneAttestations
  /-- A restart from the exported attestations, in the order of the genesis file. -/
  | restart (attestations : List Attestation) (app : σ)
  /-- Anything else the chain does; it does not touch the oracle. -/
  | other (app : σ)

/-- The outputs of the oracle. -/
inductive OracleOutput (ε : Type) where
  | vote (validator : ValAddress) (claim : EthereumClaim)
  | handled (observation : Observation ε)
  deriving DecidableEq

/-- One step. A vote that fails leaves the state as it was; a panic in the tally halts the chain. -/
def oracleStep (sdk : Sdk) (state : Oracle × σ) :
    OracleInput σ ε π → Option ((Oracle × σ) × List (OracleOutput ε))
  | .attest orchestratorValidator blockHeight claim =>
      match attest (π := π) sdk orchestratorValidator blockHeight claim state.1 with
      | .ok (oracle, _) => some ((oracle, state.2),
          (claimVoter sdk orchestratorValidator claim).toList.map fun validator =>
            .vote validator claim)
      | _ => some (state, [])
  | .attestationTally staking handle blockHeight =>
      match attestationTally sdk staking handle blockHeight state.1 state.2 with
      | .ok ctx => some ((ctx.oracle, ctx.app), ctx.observations.map .handled)
      | _ => none
  | .pruneAttestations => some ((pruneAttestations sdk state.1, state.2), [])
  | .restart attestations app =>
      if attestations.Perm state.1.attestations.values then
        some ((initGenesisOracle sdk attestations state.1.lastObservedEventNonce, app), [])
      else none
  | .other app => some ((state.1, app), [])

/-- The votes among the outputs: who voted, and for which event nonce. -/
def votesCast (outputs : List (OracleOutput ε)) : List (ValAddress × Nat) :=
  outputs.filterMap fun output =>
    match output with
    | .vote validator claim => some (validator, claim.getEventNonce)
    | .handled _ => none

/-- The handler calls among the outputs. -/
def handlerCalls (outputs : List (OracleOutput ε)) : List (Observation ε) :=
  outputs.filterMap fun output =>
    match output with
    | .vote _ _ => none
    | .handled observation => some observation

@[simp] theorem votesCast_append (first second : List (OracleOutput ε)) :
    votesCast (first ++ second) = votesCast first ++ votesCast second := List.filterMap_append

@[simp] theorem handlerCalls_append (first second : List (OracleOutput ε)) :
    handlerCalls (first ++ second) = handlerCalls first ++ handlerCalls second :=
  List.filterMap_append

@[simp] theorem votesCast_nil : votesCast ([] : List (OracleOutput ε)) = [] := rfl

@[simp] theorem handlerCalls_nil : handlerCalls ([] : List (OracleOutput ε)) = [] := rfl

@[simp] theorem votesCast_vote (validator : ValAddress) (claim : EthereumClaim) :
    votesCast ([.vote validator claim] : List (OracleOutput ε)) =
      [(validator, claim.getEventNonce)] := rfl

@[simp] theorem handlerCalls_vote (validator : ValAddress) (claim : EthereumClaim) :
    handlerCalls ([.vote validator claim] : List (OracleOutput ε)) = [] := rfl

@[simp] theorem votesCast_handled (observations : List (Observation ε)) :
    votesCast (observations.map .handled) = [] := by
  rw [votesCast, List.filterMap_map, List.filterMap_eq_nil_iff]
  exact fun _ _ => rfl

@[simp] theorem handlerCalls_handled (observations : List (Observation ε)) :
    handlerCalls (observations.map .handled) = observations := by
  rw [handlerCalls, List.filterMap_map]
  exact List.filterMap_some

/-- **What one step can do**, one case per input. -/
inductive OracleStep (sdk : Sdk) (before : Oracle × σ) :
    Oracle × σ → List (OracleOutput ε) → Prop where
  | vote (validator : ValAddress) (blockHeight : Nat) (claim : EthereumClaim)
      (next : claim.getEventNonce = before.1.getLastEventNonceByValidator validator + 1) :
      OracleStep sdk before
        (before.1.recordVote sdk claim
          ((before.1.attestationFor sdk blockHeight claim).addVote validator) validator, before.2)
        [.vote validator claim]
  | tally (staking : StakingPowers) (handle : Attestation → EthereumClaim → σ → Outcome ε π σ)
      (blockHeight : Nat) (ctx : Ctx σ ε)
      (counted : attestationTally sdk staking handle blockHeight before.1 before.2 = .ok ctx) :
      OracleStep sdk before (ctx.oracle, ctx.app) (ctx.observations.map .handled)
  | prune : OracleStep sdk before (pruneAttestations sdk before.1, before.2) []
  | restart (attestations : List Attestation) (app : σ)
      (exported : attestations.Perm before.1.attestations.values) :
      OracleStep sdk before
        (initGenesisOracle sdk attestations before.1.lastObservedEventNonce, app) []
  | other (app : σ) : OracleStep sdk before (before.1, app) []

theorem oracleStep_cases {sdk : Sdk} {before after : Oracle × σ} {input : OracleInput σ ε π}
    {outputs : List (OracleOutput ε)} (step : oracleStep sdk before input = some (after, outputs)) :
    OracleStep (π := π) sdk before after outputs := by
  cases input with
  | attest orchestratorValidator blockHeight claim =>
      simp only [oracleStep] at step
      split at step
      · rename_i oracle att voted
        obtain ⟨validator, voter, next, rfl, rfl⟩ := attest_eq_ok voted
        rw [voter] at step
        obtain ⟨rfl, rfl⟩ := Prod.mk.inj (Option.some.inj step)
        exact .vote validator blockHeight claim next
      · obtain ⟨rfl, rfl⟩ := Prod.mk.inj (Option.some.inj step)
        exact .other before.2
  | attestationTally staking handle blockHeight =>
      simp only [oracleStep] at step
      split at step
      · rename_i ctx counted
        obtain ⟨rfl, rfl⟩ := Prod.mk.inj (Option.some.inj step)
        exact .tally staking handle blockHeight ctx counted
      · cases step
  | pruneAttestations =>
      obtain ⟨rfl, rfl⟩ := Prod.mk.inj (Option.some.inj step)
      exact .prune
  | restart attestations app =>
      simp only [oracleStep] at step
      split_ifs at step with exported
      · obtain ⟨rfl, rfl⟩ := Prod.mk.inj (Option.some.inj step)
        exact .restart attestations app exported
  | other app =>
      obtain ⟨rfl, rfl⟩ := Prod.mk.inj (Option.some.inj step)
      exact .other app

end Machine

/-! ### Votes -/

section Ballots

variable {sdk : Sdk}

/-- **The voting invariant**, over the votes taken so far. -/
structure BallotInvariant (sdk : Sdk) (cast : List (ValAddress × Nat)) (oracle : Oracle) :
    Prop where
  keyed : oracle.Keyed sdk
  castNodup : cast.Nodup
  counter : ∀ validator nonce, (validator, nonce) ∈ cast →
    nonce ≤ oracle.getLastEventNonceByValidator validator
  stored : ∀ key att, oracle.attestations.get key = some att → ∀ validator ∈ att.votes,
    (validator, att.claim.getEventNonce) ∈ cast
  recent : ∀ validator nonce, (validator, nonce) ∈ cast →
    oracle.lastObservedEventNonce ≤ nonce + eventsToKeep →
    ∃ key att, oracle.attestations.get key = some att ∧ att.claim.getEventNonce = nonce ∧
      validator ∈ att.votes
  votesNodup : ∀ key att, oracle.attestations.get key = some att → att.votes.Nodup
  votesDisjoint : ∀ key att key' att', oracle.attestations.get key = some att →
    oracle.attestations.get key' = some att' →
    att.claim.getEventNonce = att'.claim.getEventNonce →
    ∀ validator ∈ att.votes, validator ∈ att'.votes → key = key'

theorem ballotInvariant_empty : BallotInvariant sdk [] Oracle.empty := by
  constructor <;> simp [Oracle.Keyed, Oracle.empty]

theorem attestationFor_key {oracle : Oracle} (keyed : oracle.Keyed sdk) (blockHeight : Nat)
    (claim : EthereumClaim) :
    attestationKey sdk (oracle.attestationFor sdk blockHeight claim).claim =
      attestationKey sdk claim := by
  unfold Oracle.attestationFor
  cases found : oracle.getAttestation claim.getEventNonce (claim.claimHash sdk) with
  | none => rfl
  | some att => exact (keyed _ att found).symm

/-- The votes a new vote joins are stored votes. -/
theorem stored_of_mem_attestationFor {oracle : Oracle} {blockHeight : Nat} {claim : EthereumClaim}
    {validator : ValAddress}
    (voted : validator ∈ (oracle.attestationFor sdk blockHeight claim).votes) :
    oracle.attestations.get (attestationKey sdk claim) =
      some (oracle.attestationFor sdk blockHeight claim) := by
  unfold Oracle.attestationFor at voted ⊢
  cases found : oracle.getAttestation claim.getEventNonce (claim.claimHash sdk) with
  | none => simp [found] at voted
  | some att => exact found

/-- **A vote keeps the invariant.** -/
theorem BallotInvariant.vote {cast : List (ValAddress × Nat)} {oracle : Oracle}
    (invariant : BallotInvariant sdk cast oracle) (validator : ValAddress) (blockHeight : Nat)
    (claim : EthereumClaim)
    (next : claim.getEventNonce = oracle.getLastEventNonceByValidator validator + 1) :
    BallotInvariant sdk (cast ++ [(validator, claim.getEventNonce)])
      (oracle.recordVote sdk claim
        ((oracle.attestationFor sdk blockHeight claim).addVote validator) validator) := by
  generalize attIs : oracle.attestationFor sdk blockHeight claim = att
  have keyIs : attestationKey sdk att.claim = attestationKey sdk claim := by
    rw [← attIs, attestationFor_key invariant.keyed]
  have nonceIs : att.claim.getEventNonce = claim.getEventNonce := (getAttestationKey_inj.mp keyIs).1
  have storedAtt : ∀ voter ∈ att.votes,
      oracle.attestations.get (attestationKey sdk claim) = some att := by
    intro voter voted
    rw [← attIs] at voted ⊢
    exact stored_of_mem_attestationFor voted
  have fresh : (validator, claim.getEventNonce) ∉ cast := by
    intro member
    have low := invariant.counter _ _ member
    omega
  have freshAt : ∀ key found, oracle.attestations.get key = some found →
      found.claim.getEventNonce = claim.getEventNonce → validator ∉ found.votes := by
    intro key found lookup same voted
    exact fresh (same ▸ invariant.stored key found lookup validator voted)
  have look : ∀ key found, (oracle.recordVote sdk claim (att.addVote validator)
      validator).attestations.get key = some found →
      (key = attestationKey sdk claim ∧ found = att.addVote validator) ∨
        oracle.attestations.get key = some found := by
    intro key found lookup
    rw [Oracle.get_recordVote] at lookup
    split_ifs at lookup with same
    · exact Or.inl ⟨same, (Option.some.inj lookup).symm⟩
    · exact Or.inr lookup
  have other : ∀ key found, oracle.attestations.get key = some found →
      found.claim.getEventNonce = claim.getEventNonce → ∀ voter ∈ (att.addVote validator).votes,
      voter ∈ found.votes → key = attestationKey sdk claim := by
    intro key found lookup same voter voted votedHere
    rcases List.mem_append.mp voted with earlier | now
    · exact invariant.votesDisjoint key found _ att lookup (storedAtt voter earlier)
        (same.trans nonceIs.symm) voter votedHere earlier
    · rw [List.mem_singleton.mp now] at votedHere
      exact absurd votedHere (freshAt key found lookup same)
  constructor
  case keyed =>
    intro key found lookup
    rcases look key found lookup with ⟨rfl, rfl⟩ | before
    · exact keyIs.symm
    · exact invariant.keyed key found before
  case castNodup =>
    exact List.nodup_append.mpr ⟨invariant.castNodup, List.nodup_singleton _, by
      rintro vote member _ single rfl
      exact fresh (List.mem_singleton.mp single ▸ member)⟩
  case counter =>
    intro voter nonce member
    rw [Oracle.recordVote, Oracle.getLastEventNonceByValidator_set]
    rcases List.mem_append.mp member with earlier | now
    · have low := invariant.counter voter nonce earlier
      split_ifs with same
      · rw [same] at low
        omega
      · exact low
    · obtain ⟨rfl, rfl⟩ := Prod.mk.inj (List.mem_singleton.mp now)
      rw [if_pos rfl]
  case stored =>
    intro key found lookup voter voted
    rcases look key found lookup with ⟨rfl, rfl⟩ | before
    · rcases List.mem_append.mp voted with earlier | now
      · exact List.mem_append_left _ (invariant.stored _ att (storedAtt voter earlier) voter earlier)
      · rw [List.mem_singleton.mp now]
        exact List.mem_append_right _ (List.mem_singleton.mpr (congrArg _ nonceIs))
    · exact List.mem_append_left _ (invariant.stored key found before voter voted)
  case recent =>
    intro voter nonce member bound
    rcases List.mem_append.mp member with earlier | now
    · obtain ⟨key, found, lookup, rfl, voted⟩ := invariant.recent voter nonce earlier bound
      by_cases same : key = attestationKey sdk claim
      · -- the vote went to the attestation that holds this one
        have foundIs : found = att := by
          have stored := lookup
          rw [same, attestationKey] at stored
          rw [← attIs, Oracle.attestationFor, Oracle.getAttestation, stored]
          rfl
        subst foundIs
        refine ⟨key, found.addVote validator, ?_, rfl, List.mem_append_left _ voted⟩
        rw [Oracle.get_recordVote, if_pos same]
      · refine ⟨key, found, ?_, rfl, voted⟩
        rw [Oracle.get_recordVote, if_neg same]
        exact lookup
    · obtain ⟨rfl, rfl⟩ := Prod.mk.inj (List.mem_singleton.mp now)
      refine ⟨attestationKey sdk claim, att.addVote voter, ?_, nonceIs, ?_⟩
      · rw [Oracle.get_recordVote, if_pos rfl]
      · exact List.mem_append_right _ (List.mem_singleton.mpr rfl)
  case votesNodup =>
    intro key found lookup
    rcases look key found lookup with ⟨rfl, rfl⟩ | before
    · have nodup : att.votes.Nodup := by
        cases votes : att.votes with
        | nil => exact List.nodup_nil
        | cons head rest =>
            rw [← votes]
            exact invariant.votesNodup _ att (storedAtt head (votes ▸ List.mem_cons_self))
      refine List.nodup_append.mpr ⟨nodup, List.nodup_singleton _, ?_⟩
      rintro voter voted _ single rfl
      rw [List.mem_singleton.mp single] at voted
      exact freshAt _ att (storedAtt _ voted) nonceIs voted
    · exact invariant.votesNodup key found before
  case votesDisjoint =>
    intro key found key' found' lookup lookup' same voter voted voted'
    rcases look key found lookup with ⟨rfl, rfl⟩ | before
    · rcases look key' found' lookup' with ⟨rfl, rfl⟩ | before'
      · rfl
      · exact (other key' found' before' (same.symm.trans nonceIs) voter voted voted').symm
    · rcases look key' found' lookup' with ⟨rfl, rfl⟩ | before'
      · exact other key found before (same.trans nonceIs) voter voted' voted
      · exact invariant.votesDisjoint key found key' found' before before' same voter voted voted'

/-- **The invariant survives whatever keeps the recent votes.** Attestations may lose or change
their observed mark, and may go when their nonce is more than `eventsToKeep` below the last observed
one; their votes and claims stay, and no counter falls below a vote. -/
theorem BallotInvariant.transfer {cast : List (ValAddress × Nat)} {before after : Oracle}
    (invariant : BallotInvariant sdk cast before)
    (lastObserved : before.lastObservedEventNonce ≤ after.lastObservedEventNonce)
    (counter : ∀ validator nonce, (validator, nonce) ∈ cast →
      nonce ≤ after.getLastEventNonceByValidator validator)
    (back : ∀ key att, after.attestations.get key = some att →
      ∃ earlier, before.attestations.get key = some earlier ∧ earlier.votes = att.votes ∧
        earlier.claim = att.claim)
    (forth : ∀ key att, before.attestations.get key = some att →
      before.lastObservedEventNonce ≤ att.claim.getEventNonce + eventsToKeep →
      ∃ later, after.attestations.get key = some later ∧ later.votes = att.votes ∧
        later.claim = att.claim) :
    BallotInvariant sdk cast after := by
  constructor
  case keyed =>
    intro key att found
    obtain ⟨earlier, look, _, claims⟩ := back key att found
    exact claims ▸ invariant.keyed key earlier look
  case castNodup => exact invariant.castNodup
  case counter => exact counter
  case stored =>
    intro key att found validator voted
    obtain ⟨earlier, look, votes, claims⟩ := back key att found
    exact claims ▸ invariant.stored key earlier look validator (votes ▸ voted)
  case recent =>
    intro validator nonce member bound
    have boundBefore : before.lastObservedEventNonce ≤ nonce + eventsToKeep :=
      lastObserved.trans bound
    obtain ⟨key, att, look, rfl, voted⟩ := invariant.recent validator nonce member boundBefore
    obtain ⟨later, found, votes, claims⟩ := forth key att look boundBefore
    exact ⟨key, later, found, by rw [claims], votes ▸ voted⟩
  case votesNodup =>
    intro key att found
    obtain ⟨earlier, look, votes, _⟩ := back key att found
    exact votes ▸ invariant.votesNodup key earlier look
  case votesDisjoint =>
    intro key att key' att' found found' same validator voted voted'
    obtain ⟨earlier, look, votes, claims⟩ := back key att found
    obtain ⟨earlier', look', votes', claims'⟩ := back key' att' found'
    exact invariant.votesDisjoint key earlier key' earlier' look look'
      (by rw [claims, claims', same]) validator (votes ▸ voted) (votes' ▸ voted')

/-- The part of an attestation that the tally does not change. -/
def Attestation.ballot (att : Attestation) : List ValAddress × EthereumClaim := (att.votes, att.claim)

theorem exists_of_ballot_eq {store store' : Store StoreKey Attestation} {key : StoreKey}
    {att : Attestation}
    (same : (store.get key).map Attestation.ballot = (store'.get key).map Attestation.ballot)
    (found : store.get key = some att) :
    ∃ other, store'.get key = some other ∧ other.votes = att.votes ∧ other.claim = att.claim := by
  rw [found, Option.map_some] at same
  obtain ⟨other, look, ballots⟩ := Option.map_eq_some_iff.mp same.symm
  obtain ⟨votes, claims⟩ := Prod.mk.inj ballots
  exact ⟨other, look, votes, claims⟩

/-- A counter that is not set moves with the last observed nonce. -/
theorem getLastEventNonceByValidator_mono {before after : Oracle}
    (counters : after.lastEventNonceByValidator = before.lastEventNonceByValidator)
    (lastObserved : before.lastObservedEventNonce ≤ after.lastObservedEventNonce)
    (validator : ValAddress) :
    before.getLastEventNonceByValidator validator ≤
      after.getLastEventNonceByValidator validator := by
  cases found : before.lastEventNonceByValidator.get (getLastEventNonceByValidatorKey validator) with
  | none =>
      rw [Oracle.getLastEventNonceByValidator_of_none found,
        Oracle.getLastEventNonceByValidator_of_none (counters ▸ found)]
      omega
  | some nonce =>
      rw [Oracle.getLastEventNonceByValidator_of_some found,
        Oracle.getLastEventNonceByValidator_of_some (counters ▸ found)]

/-- Pruning keeps the voting invariant. -/
theorem BallotInvariant.prune {cast : List (ValAddress × Nat)} {oracle : Oracle}
    (invariant : BallotInvariant sdk cast oracle) :
    BallotInvariant sdk cast (pruneAttestations sdk oracle) := by
  have pruned := pruneAttestations_pruned invariant.keyed
  refine invariant.transfer pruned.lastObserved.ge (fun validator nonce member => ?_)
    (fun key att found => ⟨att, pruned.stored key att found, rfl, rfl⟩)
    (fun key att found bound => ⟨att, pruned.recent key att found bound, rfl, rfl⟩)
  exact (invariant.counter validator nonce member).trans
    (getLastEventNonceByValidator_mono pruned.counters pruned.lastObserved.ge validator)

/-- **A restart keeps the voting invariant**: a voter whose votes were all pruned restarts one below
the last observed nonce, which is above all of them. -/
theorem BallotInvariant.restart {cast : List (ValAddress × Nat)} {oracle : Oracle}
    (invariant : BallotInvariant sdk cast oracle) {attestations : List Attestation}
    (exported : attestations.Perm oracle.attestations.values) :
    BallotInvariant sdk cast
      (initGenesisOracle sdk attestations oracle.lastObservedEventNonce) := by
  obtain ⟨gets, lastObserved, above, reached⟩ := initGenesisOracle_spec invariant.keyed exported
  refine invariant.transfer lastObserved.ge (fun validator nonce member => ?_)
    (fun key att found => ⟨att, (gets key) ▸ found, rfl, rfl⟩)
    (fun key att found _ => ⟨att, (gets key).symm ▸ found, rfl, rfl⟩)
  by_cases bound : oracle.lastObservedEventNonce ≤ nonce + eventsToKeep
  · obtain ⟨key, att, found, rfl, voted⟩ := invariant.recent validator nonce member bound
    exact reached key att found validator voted
  · have low : nonce + 1 ≤ oracle.lastObservedEventNonce := by
      unfold eventsToKeep at bound
      omega
    cases found : (initGenesisOracle sdk attestations
        oracle.lastObservedEventNonce).lastEventNonceByValidator.get
        (getLastEventNonceByValidatorKey validator) with
    | none =>
        rw [Oracle.getLastEventNonceByValidator_of_none found, lastObserved]
        omega
    | some counter =>
        have high := above validator counter found
        rw [Oracle.getLastEventNonceByValidator_of_some found]
        omega

end Ballots

/-! ### Order -/

section Order

variable {σ ε π : Type} {sdk : Sdk} {staking : StakingPowers}
  {handle : Attestation → EthereumClaim → σ → Outcome ε π σ} {blockHeight : Nat}

/-- **What a tally leaves alone and what it puts out**: votes, claims and counters stay; the handler
is called for the nonces right after the last observed one, in order; and what is marked observed
afterwards was so before or is one of these. -/
structure TallyKeeps (start : Oracle) (ctx : Ctx σ ε) : Prop where
  ballots : ∀ key, (ctx.oracle.attestations.get key).map Attestation.ballot =
    (start.attestations.get key).map Attestation.ballot
  counters : ctx.oracle.lastEventNonceByValidator = start.lastEventNonceByValidator
  lastObserved : ctx.oracle.lastObservedEventNonce =
    start.lastObservedEventNonce + ctx.observations.length
  nonces : (ctx.observations.map fun observation => observation.claim.getEventNonce) =
    List.range' (start.lastObservedEventNonce + 1) ctx.observations.length
  calls : ∀ observation ∈ ctx.observations,
    observation.claim = observation.attestation.claim.sortMembers
  observed : ∀ key att, ctx.oracle.attestations.get key = some att → att.observed = true →
    start.attestations.get key = some att ∨
      ∃ observation ∈ ctx.observations, observation.attestation.claim = att.claim

theorem TallyKeeps.observe {start : Oracle} {before after : Ctx σ ε} (keyed : start.Keyed sdk)
    (keeps : TallyKeeps start before)
    (step : ObserveStep sdk staking handle blockHeight start before after) :
    TallyKeeps start after := by
  obtain ⟨att, member, _, _, next, app, failure, _, rfl⟩ := step
  obtain ⟨key, stored⟩ := (Store.mem_values_iff _ _).mp member
  obtain rfl := keyed key att stored
  have look : ∀ key, (before.oracle.observe sdk blockHeight att).attestations.get key =
      if key = attestationKey sdk att.claim then some { att with observed := true }
      else before.oracle.attestations.get key := fun key => Store.get_set _ _ _ _
  constructor
  case ballots =>
    intro key
    rw [look]
    split_ifs with same
    · rw [same, stored]
      rfl
    · exact keeps.ballots key
  case counters => exact keeps.counters
  case lastObserved =>
    simp only [Oracle.observe, Oracle.setAttestation, List.length_append, List.length_singleton]
    rw [next, keeps.lastObserved]
    omega
  case nonces =>
    rw [List.map_append, keeps.nonces, List.length_append, List.length_singleton,
      List.range'_concat]
    simp only [List.map_cons, List.map_nil, EthereumClaim.getEventNonce_sortMembers, next,
      keeps.lastObserved, Nat.one_mul]
    congr 2
    omega
  case calls =>
    intro observation seen
    rcases List.mem_append.mp seen with earlier | now
    · exact keeps.calls observation earlier
    · rw [List.mem_singleton.mp now]
  case observed =>
    intro key found lookup marked
    rw [look] at lookup
    split_ifs at lookup with same
    · obtain rfl := Option.some.inj lookup
      exact Or.inr ⟨_, List.mem_append_right _ (List.mem_singleton.mpr rfl), rfl⟩
    · rcases keeps.observed key found lookup marked with earlier | ⟨observation, seen, claims⟩
      · exact Or.inl earlier
      · exact Or.inr ⟨observation, List.mem_append_left _ seen, claims⟩

theorem TallyKeeps.chain {start : Oracle} {app : σ} {ctx : Ctx σ ε} (keyed : start.Keyed sdk)
    (chain : Relation.ReflTransGen (ObserveStep sdk staking handle blockHeight start)
      ⟨start, app, []⟩ ctx) : TallyKeeps start ctx := by
  induction chain with
  | refl =>
      exact ⟨fun _ => rfl, rfl, rfl, rfl, fun _ seen => absurd seen List.not_mem_nil,
        fun _ _ found _ => Or.inl found⟩
  | tail _ step ih => exact ih.observe keyed step

/-- **The order invariant**, over the handler calls so far. -/
structure OrderInvariant (calls : List (Observation ε)) (oracle : Oracle) : Prop where
  nonces : (calls.map fun call => call.claim.getEventNonce) =
    List.range' 1 oracle.lastObservedEventNonce
  handed : ∀ call ∈ calls, call.claim = call.attestation.claim.sortMembers
  observed : ∀ key att, oracle.attestations.get key = some att → att.observed = true →
    ∃ call ∈ calls, call.attestation.claim = att.claim

theorem orderInvariant_empty : OrderInvariant ([] : List (Observation ε)) Oracle.empty := by
  constructor <;> simp [Oracle.empty]

/-- An observed attestation is at or below the last observed nonce. -/
theorem OrderInvariant.behind {calls : List (Observation ε)} {oracle : Oracle}
    (invariant : OrderInvariant calls oracle) {key : StoreKey} {att : Attestation}
    (found : oracle.attestations.get key = some att) (marked : att.observed = true) :
    att.claim.getEventNonce ≤ oracle.lastObservedEventNonce := by
  obtain ⟨call, seen, claims⟩ := invariant.observed key att found marked
  have inRange : call.claim.getEventNonce ∈ List.range' 1 oracle.lastObservedEventNonce :=
    invariant.nonces ▸ List.mem_map_of_mem seen
  rw [invariant.handed call seen, EthereumClaim.getEventNonce_sortMembers, claims,
    List.mem_range'_1] at inRange
  omega

/-- Two observed attestations of one nonce have the same claim. -/
theorem OrderInvariant.claim_unique {calls : List (Observation ε)} {oracle : Oracle}
    (invariant : OrderInvariant calls oracle) {key key' : StoreKey} {att att' : Attestation}
    (found : oracle.attestations.get key = some att) (marked : att.observed = true)
    (found' : oracle.attestations.get key' = some att') (marked' : att'.observed = true)
    (same : att.claim.getEventNonce = att'.claim.getEventNonce) : att.claim = att'.claim := by
  obtain ⟨call, seen, claims⟩ := invariant.observed key att found marked
  obtain ⟨call', seen', claims'⟩ := invariant.observed key' att' found' marked'
  have distinct : (calls.map fun call => call.claim.getEventNonce).Nodup :=
    invariant.nonces ▸ List.nodup_range'
  have equal : call = call' := by
    refine List.inj_on_of_nodup_map distinct seen seen' ?_
    rw [invariant.handed call seen, invariant.handed call' seen',
      EthereumClaim.getEventNonce_sortMembers, EthereumClaim.getEventNonce_sortMembers, claims,
      claims', same]
  rw [← claims, ← claims', equal]

/-- Attestations may go and votes may come; the calls stay in order as long as no mark appears and
the last observed nonce stays. -/
theorem OrderInvariant.transfer {calls : List (Observation ε)} {before after : Oracle}
    (invariant : OrderInvariant calls before)
    (lastObserved : after.lastObservedEventNonce = before.lastObservedEventNonce)
    (back : ∀ key att, after.attestations.get key = some att → att.observed = true →
      ∃ earlier, before.attestations.get key = some earlier ∧ earlier.observed = true ∧
        earlier.claim = att.claim) : OrderInvariant calls after := by
  refine ⟨lastObserved ▸ invariant.nonces, invariant.handed, fun key att found marked => ?_⟩
  obtain ⟨earlier, look, markedEarlier, claims⟩ := back key att found marked
  exact claims ▸ invariant.observed key earlier look markedEarlier

/-- Everything known of an oracle after a history of outputs. -/
structure OracleInvariant (sdk : Sdk) (outputs : List (OracleOutput ε)) (oracle : Oracle) :
    Prop where
  ballots : BallotInvariant sdk (votesCast outputs) oracle
  order : OrderInvariant (handlerCalls outputs) oracle

/-- A tally after such a history is a chain of observations, and only the handler can panic. -/
theorem OracleInvariant.tally_meets {outputs : List (OracleOutput ε)} {oracle : Oracle}
    (invariant : OracleInvariant sdk outputs oracle) (staking : StakingPowers)
    (handle : Attestation → EthereumClaim → σ → Outcome ε π σ) (blockHeight : Nat) (app : σ) :
    (attestationTally sdk staking handle blockHeight oracle app).Meets
      (Relation.ReflTransGen (ObserveStep sdk staking handle blockHeight oracle) ⟨oracle, app, []⟩)
      (HandlerPanic sdk staking handle blockHeight oracle ⟨oracle, app, []⟩) := by
  refine attestationTally_meets fun att member marked => ?_
  obtain ⟨key, found⟩ := (Store.mem_values_iff _ _).mp member
  exact invariant.order.behind found marked

theorem OracleInvariant.keeps {outputs : List (OracleOutput ε)} {oracle : Oracle} {app : σ}
    {ctx : Ctx σ ε} (invariant : OracleInvariant sdk outputs oracle)
    (counted : attestationTally sdk staking handle blockHeight oracle app = .ok ctx) :
    TallyKeeps oracle ctx :=
  TallyKeeps.chain invariant.ballots.keyed ((invariant.tally_meets _ _ _ _).ok counted)

theorem OracleInvariant.tally {outputs : List (OracleOutput ε)} {oracle : Oracle} {app : σ}
    {ctx : Ctx σ ε} (invariant : OracleInvariant sdk outputs oracle)
    (counted : attestationTally sdk staking handle blockHeight oracle app = .ok ctx) :
    OracleInvariant sdk (outputs ++ ctx.observations.map .handled) ctx.oracle := by
  have keeps := invariant.keeps counted
  have higher : oracle.lastObservedEventNonce ≤ ctx.oracle.lastObservedEventNonce := by
    rw [keeps.lastObserved]
    omega
  constructor
  · rw [votesCast_append, votesCast_handled, List.append_nil]
    refine invariant.ballots.transfer higher (fun validator nonce member => ?_)
      (fun key att found => exists_of_ballot_eq (keeps.ballots key) found)
      (fun key att found _ => exists_of_ballot_eq (keeps.ballots key).symm found)
    exact (invariant.ballots.counter validator nonce member).trans
      (getLastEventNonceByValidator_mono keeps.counters higher validator)
  · rw [handlerCalls_append, handlerCalls_handled]
    refine ⟨?_, fun call seen => ?_, fun key att found marked => ?_⟩
    · rw [List.map_append, invariant.order.nonces, keeps.nonces, keeps.lastObserved,
        Nat.add_comm oracle.lastObservedEventNonce 1, List.range'_append_1]
    · rcases List.mem_append.mp seen with earlier | now
      · exact invariant.order.handed call earlier
      · exact keeps.calls call now
    · rcases keeps.observed key att found marked with earlier | ⟨observation, seen, claims⟩
      · obtain ⟨call, seen, claims⟩ := invariant.order.observed key att earlier marked
        exact ⟨call, List.mem_append_left _ seen, claims⟩
      · exact ⟨observation, List.mem_append_right _ seen, claims⟩

/-- **Every step keeps the invariant.** -/
theorem OracleInvariant.step {past outputs : List (OracleOutput ε)} {before after : Oracle × σ}
    (invariant : OracleInvariant sdk past before.1)
    (step : OracleStep (π := π) sdk before after outputs) :
    OracleInvariant sdk (past ++ outputs) after.1 := by
  cases step with
  | vote validator blockHeight claim next =>
      constructor
      · rw [votesCast_append, votesCast_vote]
        exact invariant.ballots.vote validator blockHeight claim next
      · rw [handlerCalls_append, handlerCalls_vote, List.append_nil]
        refine invariant.order.transfer rfl fun key att found marked => ?_
        rw [Oracle.get_recordVote] at found
        split_ifs at found with same
        · obtain rfl := Option.some.inj found
          -- a new attestation is not observed, so the vote went to a stored one
          simp only [Oracle.attestationFor, Oracle.getAttestation, Attestation.addVote]
            at marked ⊢
          rw [same, attestationKey]
          cases look : before.1.attestations.get
              (getAttestationKey claim.getEventNonce (claim.claimHash sdk)) with
          | none => simp [look] at marked
          | some earlier =>
              rw [look] at marked
              exact ⟨earlier, rfl, marked, rfl⟩
        · exact ⟨att, found, marked, rfl⟩
  | tally staking handle blockHeight ctx counted => exact invariant.tally counted
  | prune =>
      rw [List.append_nil]
      have pruned := pruneAttestations_pruned invariant.ballots.keyed
      exact ⟨invariant.ballots.prune, invariant.order.transfer pruned.lastObserved
        fun key att found marked => ⟨att, pruned.stored key att found, marked, rfl⟩⟩
  | restart attestations app exported =>
      rw [List.append_nil]
      obtain ⟨gets, lastObserved, _, _⟩ := initGenesisOracle_spec invariant.ballots.keyed exported
      exact ⟨invariant.ballots.restart exported, invariant.order.transfer lastObserved
        fun key att found marked => ⟨att, gets key ▸ found, marked, rfl⟩⟩
  | other app => rwa [List.append_nil]

/-- **Every run from a fresh store keeps the invariant.** -/
theorem oracleInvariant_run {app : σ} {inputs : List (OracleInput σ ε π)} {final : Oracle × σ}
    {outputs : List (OracleOutput ε)}
    (runs : run (oracleStep sdk) (Oracle.empty, app) inputs = some (final, outputs)) :
    OracleInvariant sdk outputs final.1 := by
  have initially : OracleInvariant sdk ([] : List (OracleOutput ε)) (Oracle.empty, app).1 :=
    ⟨ballotInvariant_empty, orderInvariant_empty⟩
  exact run_invariant (fun _ => True) (fun past state => OracleInvariant sdk past state.1)
    (fun _ _ _ _ _ _ invariant step => invariant.step (oracleStep_cases step))
    (fun _ _ => trivial) initially runs

end Order

/-! ### The results -/

section Results

variable {σ ε π : Type} {sdk : Sdk}

/-- The votes of all stored attestations of one nonce are pairwise distinct. -/
theorem BallotInvariant.nodup_votesAt {cast : List (ValAddress × Nat)} {oracle : Oracle}
    (invariant : BallotInvariant sdk cast oracle) (nonce : Nat) :
    ((oracle.attestationsAt nonce).flatMap Attestation.votes).Nodup := by
  refine List.nodup_flatMap.mpr ⟨fun att member => ?_, ?_⟩
  · obtain ⟨key, found⟩ := (Store.mem_values_iff _ _).mp (List.mem_of_mem_filter member)
    exact invariant.votesNodup key att found
  · rw [Oracle.attestationsAt, Store.values, List.filter_map, List.pairwise_map]
    have apart := oracle.attestations.sorted.filter
      ((fun att : Attestation => decide (att.claim.getEventNonce = nonce)) ∘ Prod.snd)
    refine apart.imp_of_mem fun {first second} inFirst inSecond below voter voted voted' => ?_
    obtain ⟨stored, nonceIs⟩ := List.mem_filter.mp inFirst
    obtain ⟨stored', nonceIs'⟩ := List.mem_filter.mp inSecond
    have found := (Store.mem_entries_iff _ first.1 first.2).mp stored
    have found' := (Store.mem_entries_iff _ second.1 second.2).mp stored'
    have same : first.2.claim.getEventNonce = second.2.claim.getEventNonce :=
      (of_decide_eq_true nonceIs).trans (of_decide_eq_true nonceIs').symm
    exact below.ne (invariant.votesDisjoint _ _ _ _ found found' same voter voted voted')

/-- **No double vote.** Over any run of votes, tallies, prunings and restarts from a fresh store, no
validator casts two votes for one event nonce, and none occurs twice among the votes of all stored
attestations of a nonce; two conflicting attestations of a nonce share no voter. -/
theorem no_double_vote {app : σ} {inputs : List (OracleInput σ ε π)} {final : Oracle × σ}
    {outputs : List (OracleOutput ε)}
    (runs : run (oracleStep sdk) (Oracle.empty, app) inputs = some (final, outputs)) :
    (votesCast outputs).Nodup ∧
    (∀ nonce, ((final.1.attestationsAt nonce).flatMap Attestation.votes).Nodup) ∧
    (∀ key att, final.1.attestations.get key = some att → ∀ validator ∈ att.votes,
      (validator, att.claim.getEventNonce) ∈ votesCast outputs) ∧
    ∀ key att key' att', final.1.attestations.get key = some att →
      final.1.attestations.get key' = some att' → key ≠ key' →
      att.claim.getEventNonce = att'.claim.getEventNonce → att.votes.Disjoint att'.votes := by
  have invariant := (oracleInvariant_run runs).ballots
  refine ⟨invariant.castNodup, invariant.nodup_votesAt, invariant.stored, ?_⟩
  intro key att key' att' found found' different same validator voted voted'
  exact different (invariant.votesDisjoint key att key' att' found found' same validator voted voted')

/-- A deposit of five units, as reported by the orchestrator with the given address. -/
def exampleDeposit (eventNonce : Nat) (orchestrator : String) : EthereumClaim :=
  .sendToCosmos {
    eventNonce := eventNonce
    blockHeight := 10
    tokenContract := ascii "0x429881672B9AE42b8EbA0E26cD9C73711b891Ca5"
    amount := some 5
    ethereumSender := ascii "0xd041c41EA1bf0F006ADBb6d2c9ef9D425dE5eaD7"
    cosmosReceiver := ascii "cosmos1qyqszqgpqyqszqgpqyqszqgpqyqszqgpjnp7du"
    orchestrator := ascii orchestrator }

/-- Two validators vote for one event, the first of them twice; it is tallied; the chain restarts;
a newcomer votes for the same event. -/
def exampleVotes : List (OracleInput Unit Unit Unit) :=
  [.attest some 7 (exampleDeposit 1 "cosmos1qyqszqgpqyqszqgpqyqszqgpqyqszqgpjnp7du"),
    .attest some 7 (exampleDeposit 1 "cosmos1qyqszqgpqyqszqgpqyqszqgpqyqszqgpjnp7du"),
    .attest some 7 (exampleDeposit 1 "cosmos1qgpqyqszqgpqyqszqgpqyqszqgpqyqszrh8mx2"),
    .attestationTally ⟨100, fun _ => 50⟩ (fun _ _ app => .ok app) 8, .pruneAttestations,
    .restart [⟨true, [List.replicate 20 1, List.replicate 20 2], 7,
      exampleDeposit 1 "cosmos1qyqszqgpqyqszqgpqyqszqgpqyqszqgpjnp7du"⟩] (),
    .attest some 9 (exampleDeposit 1 "cosmos1qvpsxqcrqvpsxqcrqvpsxqcrqvpsxqcrz8x6vt")]

theorem exampleVotes_runs :
    (run (oracleStep exampleSdk) (Oracle.empty, ()) exampleVotes).map
      (fun result => (result.1.1.lastObservedEventNonce, (votesCast result.2).length)) =
      some (1, 3) := by decide +kernel

theorem no_double_vote_exampleVotes : ∃ final outputs,
    run (oracleStep exampleSdk) (Oracle.empty, ()) exampleVotes = some (final, outputs) ∧
      (votesCast outputs).length = 3 ∧ (votesCast outputs).Nodup := by
  obtain ⟨⟨final, outputs⟩, runs, counts⟩ := Option.map_eq_some_iff.mp exampleVotes_runs
  exact ⟨final, outputs, runs, (Prod.mk.inj counts).2, (no_double_vote runs).1⟩

/-- One step calls the handler for the nonces right after the last observed one, and deletes no
attestation above it. -/
theorem OracleInvariant.advance {past outputs : List (OracleOutput ε)} {before after : Oracle × σ}
    (invariant : OracleInvariant sdk past before.1)
    (step : OracleStep (π := π) sdk before after outputs) :
    after.1.lastObservedEventNonce =
        before.1.lastObservedEventNonce + (handlerCalls outputs).length ∧
    ((handlerCalls outputs).map fun call => call.claim.getEventNonce) =
        List.range' (before.1.lastObservedEventNonce + 1) (handlerCalls outputs).length ∧
    ∀ key att, before.1.attestations.get key = some att →
      before.1.lastObservedEventNonce < att.claim.getEventNonce →
      ∃ later, after.1.attestations.get key = some later ∧ later.claim = att.claim := by
  cases step with
  | vote validator blockHeight claim next =>
      refine ⟨rfl, rfl, fun key att found _ => ?_⟩
      rw [Oracle.get_recordVote]
      split_ifs with same
      · refine ⟨_, rfl, ?_⟩
        rw [same, attestationKey] at found
        simp only [Oracle.attestationFor, Oracle.getAttestation, found, Attestation.addVote,
          Option.getD_some]
      · exact ⟨att, found, rfl⟩
  | tally staking handle blockHeight ctx counted =>
      have keeps := invariant.keeps counted
      rw [handlerCalls_handled]
      refine ⟨keeps.lastObserved, keeps.nonces, fun key att found _ => ?_⟩
      obtain ⟨later, look, _, claims⟩ := exists_of_ballot_eq (keeps.ballots key).symm found
      exact ⟨later, look, claims⟩
  | prune =>
      have pruned := pruneAttestations_pruned invariant.ballots.keyed
      exact ⟨pruned.lastObserved, rfl, fun key att found above =>
        ⟨att, pruned.recent key att found (by omega), rfl⟩⟩
  | restart attestations app exported =>
      obtain ⟨gets, lastObserved, _, _⟩ := initGenesisOracle_spec invariant.ballots.keyed exported
      exact ⟨lastObserved, rfl, fun key att found _ => ⟨att, (gets key).trans found, rfl⟩⟩
  | other app => exact ⟨rfl, rfl, fun key att found _ => ⟨att, found, rfl⟩⟩

/-- A count leaves the last observed nonce or raises it by one. -/
theorem tryAttestation_lastObserved {staking : StakingPowers}
    {handle : Attestation → EthereumClaim → σ → Outcome ε π σ} {blockHeight : Nat}
    {before after : Ctx σ ε} {att : Attestation}
    (counted : tryAttestation sdk staking handle blockHeight before att = .ok after) :
    after.oracle.lastObservedEventNonce = before.oracle.lastObservedEventNonce ∨
      after.oracle.lastObservedEventNonce = before.oracle.lastObservedEventNonce + 1 := by
  unfold tryAttestation at counted
  split_ifs at counted with observed reaches skipped
  · simp only at counted
    split at counted
    · obtain rfl := Outcome.ok.inj counted
      exact Or.inr (not_not.mp skipped)
    · rename_i reason _
      exact reason.elim
    · cases counted
  · obtain rfl := Outcome.ok.inj counted
    exact Or.inl rfl

/-- **Events are applied in order, exactly once.** After any run from a fresh store: the handler was
called for the nonces `1, …, lastObservedEventNonce` in this order, whether or not it failed; each
attestation marked observed is the one it was called with, so there is at most one per nonce, at or
below the last observed nonce; the tally cannot reach either panic of `TryAttestation`; one count
moves the last observed nonce by at most one, one step by the number of its handler calls, and no
step deletes an attestation above the last observed nonce. -/
theorem events_applied_in_order {app : σ} {inputs : List (OracleInput σ ε π)} {final : Oracle × σ}
    {outputs : List (OracleOutput ε)}
    (runs : run (oracleStep sdk) (Oracle.empty, app) inputs = some (final, outputs)) :
    ((handlerCalls outputs).map fun call => call.claim.getEventNonce) =
      List.range' 1 final.1.lastObservedEventNonce ∧
    (∀ key att, final.1.attestations.get key = some att → att.observed = true →
      att.claim.getEventNonce ≤ final.1.lastObservedEventNonce ∧
      (∃ call ∈ handlerCalls outputs, call.attestation.claim = att.claim) ∧
      ∀ key' att', final.1.attestations.get key' = some att' → att'.observed = true →
        att.claim.getEventNonce = att'.claim.getEventNonce → key = key') ∧
    (∀ staking (handle : Attestation → EthereumClaim → σ → Outcome ε π σ) blockHeight,
      attestationTally sdk staking handle blockHeight final.1 final.2 ≠ .panic .outOfOrder ∧
      attestationTally sdk staking handle blockHeight final.1 final.2 ≠
        .panic .observedAttestation) ∧
    (∀ staking (handle : Attestation → EthereumClaim → σ → Outcome ε π σ) blockHeight
      (before after : Ctx σ ε) att,
      tryAttestation sdk staking handle blockHeight before att = .ok after →
      after.oracle.lastObservedEventNonce = before.oracle.lastObservedEventNonce ∨
        after.oracle.lastObservedEventNonce = before.oracle.lastObservedEventNonce + 1) ∧
    ∀ (input : OracleInput σ ε π) next outputs', oracleStep sdk final input = some (next, outputs') →
      next.1.lastObservedEventNonce =
        final.1.lastObservedEventNonce + (handlerCalls outputs').length ∧
      ((handlerCalls outputs').map fun call => call.claim.getEventNonce) =
        List.range' (final.1.lastObservedEventNonce + 1) (handlerCalls outputs').length ∧
      ∀ key att, final.1.attestations.get key = some att →
        final.1.lastObservedEventNonce < att.claim.getEventNonce →
        ∃ later, next.1.attestations.get key = some later ∧ later.claim = att.claim := by
  have invariant := oracleInvariant_run runs
  refine ⟨invariant.order.nonces, fun key att found marked => ⟨?_, ?_, ?_⟩,
    fun staking handle blockHeight => ?_, fun _ _ _ _ _ _ => tryAttestation_lastObserved,
    fun input next outputs' step => invariant.advance (oracleStep_cases step)⟩
  · exact invariant.order.behind found marked
  · exact invariant.order.observed key att found marked
  · intro key' att' found' marked' same
    have claims := invariant.order.claim_unique found marked found' marked' same
    rw [invariant.ballots.keyed key att found, invariant.ballots.keyed key' att' found', claims]
  · have meets := invariant.tally_meets staking handle blockHeight final.2
    constructor
    · intro panics
      obtain ⟨_, _, _, _, _, _, _, equal⟩ := meets.panic panics
      cases equal
    · intro panics
      obtain ⟨_, _, _, _, _, _, _, equal⟩ := meets.panic panics
      cases equal

theorem events_applied_in_order_exampleVotes : ∃ final outputs,
    run (oracleStep exampleSdk) (Oracle.empty, ()) exampleVotes = some (final, outputs) ∧
      final.1.lastObservedEventNonce = 1 ∧
      ((handlerCalls outputs).map fun call => call.claim.getEventNonce) = List.range' 1 1 := by
  obtain ⟨⟨final, outputs⟩, runs, counts⟩ := Option.map_eq_some_iff.mp exampleVotes_runs
  have one : final.1.lastObservedEventNonce = 1 := (Prod.mk.inj counts).1
  have nonces := (events_applied_in_order runs).1
  exact ⟨final, outputs, runs, one, one ▸ nonces⟩

end Results

end NabBridge
