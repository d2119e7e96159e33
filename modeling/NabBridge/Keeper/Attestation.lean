/-
**The oracle: attestations, the tally, pruning, and restarts.**

Validators vote on events through `attest`; the end blocker counts the votes in `attestationTally`,
applies each event that passes the threshold, and drops old attestations in `pruneAttestations`. A
chain restart rebuilds the oracle from the exported attestations (`initGenesisOracle`).

The oracle does not read what the attestation handler changes, so the rest of the module is a state
`σ` here, and the handler a function on it. What the tally hands to the handler is put out as a list
of `Observation`s.

* `tryAttestation_meets`: what one count does, and its two panics;
* `attestationTally_meets`: a tally is a chain of single observations (`ObserveStep`), and its
  panics are the handler's own when no attestation above the last observed nonce is observed.
-/

import NabBridge.Lib.Outcome
import NabBridge.Lib.Store
import NabBridge.Types.Claims
import Mathlib.Logic.Relation
import Mathlib.Data.List.Dedup

namespace NabBridge

/-- `Attestation`: the claim of the first voter, and who voted for its hash. -/
structure Attestation where
  observed : Bool
  votes : List ValAddress
  height : Nat
  claim : EthereumClaim
  deriving DecidableEq, Repr

/-- `LastObservedEthereumBlockHeight` -/
structure LastObservedEthereumBlockHeight where
  cosmosBlockHeight : Nat
  ethereumBlockHeight : Nat
  deriving DecidableEq, Repr

/-- The oracle's part of the store. A missing nonce or height reads as zero. -/
structure Oracle where
  attestations : Store StoreKey Attestation
  lastEventNonceByValidator : Store StoreKey Nat
  lastObservedEventNonce : Nat
  lastObservedEthereumBlockHeight : LastObservedEthereumBlockHeight
  deriving DecidableEq

/-- The oracle of a fresh store. -/
def Oracle.empty : Oracle := ⟨Store.empty, Store.empty, 0, ⟨0, 0⟩⟩

/-- What the tally reads from the staking module. -/
structure StakingPowers where
  /-- `GetLastTotalPower` -/
  lastTotalPower : Int
  /-- `GetLastValidatorPower` -/
  lastValidatorPower : ValAddress → Int

/-- The errors of `Attest`. -/
inductive AttestError where
  /-- `ErrNonContiguousEventNonce` -/
  | nonContiguousEventNonce
  deriving DecidableEq, Repr

/-- The panics of the oracle. A panic of the handler passes through; with it are the claims the tally
had handed over by then, the last of which caused it. -/
inductive OraclePanic (π : Type) where
  /-- `failed ValidateBasic! Should have been handled earlier` -/
  | getClaimer
  /-- `Could not find ValAddr for delegate key, should be checked by now` -/
  | unknownDelegateKey
  /-- `attempting to apply events to state out of order` -/
  | outOfOrder
  /-- `attempting to process observed attestation` -/
  | observedAttestation
  | handler (claims : List EthereumClaim) (reason : π)
  deriving DecidableEq, Repr

/-- The key a claim's attestation is stored under. -/
def attestationKey (sdk : Sdk) (claim : EthereumClaim) : StoreKey :=
  getAttestationKey claim.getEventNonce (claim.claimHash sdk)

namespace Oracle

/-- `GetAttestation` -/
def getAttestation (oracle : Oracle) (eventNonce : Nat) (claimHash : Bytes) : Option Attestation :=
  oracle.attestations.get (getAttestationKey eventNonce claimHash)

/-- `SetAttestation` -/
def setAttestation (oracle : Oracle) (eventNonce : Nat) (claimHash : Bytes) (att : Attestation) :
    Oracle :=
  { oracle with attestations := oracle.attestations.set (getAttestationKey eventNonce claimHash) att }

/-- `DeleteAttestation` -/
def deleteAttestation (sdk : Sdk) (oracle : Oracle) (att : Attestation) : Oracle :=
  { oracle with attestations := oracle.attestations.delete (attestationKey sdk att.claim) }

/-- `GetLastEventNonceByValidator`: a validator that has not voted yet starts right before the last
observed event. -/
def getLastEventNonceByValidator (oracle : Oracle) (validator : ValAddress) : Nat :=
  match oracle.lastEventNonceByValidator.get (getLastEventNonceByValidatorKey validator) with
  | some nonce => nonce
  | none =>
      if oracle.lastObservedEventNonce ≥ 1 then oracle.lastObservedEventNonce - 1 else 0

/-- `setLastEventNonceByValidator` -/
def setLastEventNonceByValidator (oracle : Oracle) (validator : ValAddress) (nonce : Nat) :
    Oracle :=
  { oracle with
    lastEventNonceByValidator :=
      oracle.lastEventNonceByValidator.set (getLastEventNonceByValidatorKey validator) nonce }

/-- The nonces of `GetAttestationMapping`, sorted. -/
def eventNonces (oracle : Oracle) : List Nat :=
  ((oracle.attestations.values.map fun att => att.claim.getEventNonce).dedup).insertionSort (· ≤ ·)

/-- The attestations `GetAttestationMapping` holds for one nonce. -/
def attestationsAt (oracle : Oracle) (nonce : Nat) : List Attestation :=
  oracle.attestations.values.filter fun att => att.claim.getEventNonce = nonce

end Oracle

/-! ### Voting -/

/-- The validator a claim's vote counts for. `orchestratorValidator` is `GetOrchestratorValidator`
in the state of the call. -/
def claimVoter (sdk : Sdk) (orchestratorValidator : AccAddress → Option ValAddress)
    (claim : EthereumClaim) : Option ValAddress :=
  (claim.getClaimer sdk).bind orchestratorValidator

/-- The attestation a vote goes to: the stored one of the same nonce and hash, or a new one with the
voter's claim. -/
def Oracle.attestationFor (oracle : Oracle) (sdk : Sdk) (blockHeight : Nat)
    (claim : EthereumClaim) : Attestation :=
  (oracle.getAttestation claim.getEventNonce (claim.claimHash sdk)).getD
    { observed := false, votes := [], height := blockHeight, claim := claim }

/-- A vote is appended. -/
def Attestation.addVote (att : Attestation) (validator : ValAddress) : Attestation :=
  { att with votes := att.votes ++ [validator] }

/-- The two writes of `Attest`. -/
def Oracle.recordVote (oracle : Oracle) (sdk : Sdk) (claim : EthereumClaim) (att : Attestation)
    (validator : ValAddress) : Oracle :=
  (oracle.setAttestation claim.getEventNonce (claim.claimHash sdk) att).setLastEventNonceByValidator
    validator claim.getEventNonce

/-- `Attest`: one vote of the validator behind the claim's orchestrator. -/
def attest {π : Type} (sdk : Sdk) (orchestratorValidator : AccAddress → Option ValAddress)
    (blockHeight : Nat) (claim : EthereumClaim) (oracle : Oracle) :
    Outcome AttestError (OraclePanic π) (Oracle × Attestation) :=
  match claim.getClaimer sdk with
  | none => .panic .getClaimer
  | some claimer =>
      match orchestratorValidator claimer with
      | none => .panic .unknownDelegateKey
      | some valAddr =>
          if claim.getEventNonce ≠ oracle.getLastEventNonceByValidator valAddr + 1 then
            .error .nonContiguousEventNonce
          else
            let att := (oracle.attestationFor sdk blockHeight claim).addVote valAddr
            .ok (oracle.recordVote sdk claim att valAddr, att)

/-- **What a vote does**: it is one above the voter's counter, is appended to the attestation of its
nonce and hash, and becomes the counter. -/
theorem attest_eq_ok {π : Type} {sdk : Sdk}
    {orchestratorValidator : AccAddress → Option ValAddress} {blockHeight : Nat}
    {claim : EthereumClaim} {oracle after : Oracle} {att : Attestation}
    (voted : attest (π := π) sdk orchestratorValidator blockHeight claim oracle = .ok (after, att)) :
    ∃ validator, claimVoter sdk orchestratorValidator claim = some validator ∧
      claim.getEventNonce = oracle.getLastEventNonceByValidator validator + 1 ∧
      att = (oracle.attestationFor sdk blockHeight claim).addVote validator ∧
      after = oracle.recordVote sdk claim att validator := by
  unfold attest at voted
  split at voted
  · cases voted
  · rename_i claimer claimerIs
    split at voted
    · cases voted
    · rename_i validator validatorIs
      split_ifs at voted with contiguous
      · obtain ⟨rfl, rfl⟩ := Prod.mk.inj (Outcome.ok.inj voted)
        refine ⟨validator, ?_, not_not.mp contiguous, rfl, rfl⟩
        rw [claimVoter, claimerIs, Option.bind_some, validatorIs]

theorem Oracle.get_recordVote (oracle : Oracle) (sdk : Sdk) (claim : EthereumClaim)
    (att : Attestation) (validator : ValAddress) (key : StoreKey) :
    (oracle.recordVote sdk claim att validator).attestations.get key =
      if key = attestationKey sdk claim then some att else oracle.attestations.get key :=
  Store.get_set _ _ _ _

theorem Oracle.getLastEventNonceByValidator_set (oracle : Oracle) (validator other : ValAddress)
    (nonce : Nat) :
    (oracle.setLastEventNonceByValidator validator nonce).getLastEventNonceByValidator other =
      if other = validator then nonce else oracle.getLastEventNonceByValidator other := by
  unfold Oracle.getLastEventNonceByValidator Oracle.setLastEventNonceByValidator
  simp only [Store.get_set, getLastEventNonceByValidatorKey_inj]
  by_cases same : other = validator
  · simp [same]
  · simp [same]

/-! ### The tally -/

/-- One call of `AttestationHandler.Handle`: the attestation as stored, the claim as handed over,
and the error the handler returned, which is logged. -/
structure Observation (ε : Type) where
  attestation : Attestation
  claim : EthereumClaim
  failure : Option ε
  deriving DecidableEq, Repr

/-- The state of an end blocker: the oracle, the rest of the module, the observations so far. -/
structure Ctx (σ ε : Type) where
  oracle : Oracle
  app : σ
  observations : List (Observation ε)
  deriving DecidableEq

/-- `AttestationVotesPowerThreshold` -/
def attestationVotesPowerThreshold : Int := 66

/-- `requiredPower` of `TryAttestation`; `sdk.Int.Quo` truncates. -/
def StakingPowers.requiredPower (staking : StakingPowers) : Int :=
  (attestationVotesPowerThreshold * staking.lastTotalPower).tdiv 100

/-- The loop of `TryAttestation` over the votes: whether the power summed so far reaches the
requirement at some vote. -/
def reachesPower (power : ValAddress → Int) (required : Int) : Int → List ValAddress → Bool
  | _, [] => false
  | attestationPower, validator :: rest =>
      if attestationPower + power validator ≥ required then true
      else reachesPower power required (attestationPower + power validator) rest

section Tally

variable {σ ε π : Type} (sdk : Sdk) (staking : StakingPowers)
  (handle : Attestation → EthereumClaim → σ → Outcome ε π σ) (blockHeight : Nat)

/-- `processAttestation`: the handler runs on a branch of the state, which an error discards. -/
def processAttestation (att : Attestation) (claim : EthereumClaim) (app : σ) :
    Outcome Empty π (σ × Option ε) :=
  match handle att claim app with
  | .ok after => .ok (after, none)
  | .error cause => .ok (app, some cause)
  | .panic reason => .panic reason

/-- The oracle after an attestation was applied. -/
def Oracle.observe (oracle : Oracle) (att : Attestation) : Oracle :=
  let oracle := { oracle with
    lastObservedEventNonce := att.claim.getEventNonce
    lastObservedEthereumBlockHeight := ⟨blockHeight, att.claim.getBlockHeight⟩ }
  oracle.setAttestation att.claim.getEventNonce (att.claim.claimHash sdk)
    { att with observed := true }

/-- `TryAttestation`. The claim reaches the handler after `ClaimHash` has sorted its members. -/
def tryAttestation (ctx : Ctx σ ε) (att : Attestation) : Outcome Empty (OraclePanic π) (Ctx σ ε) :=
  if att.observed then .panic .observedAttestation
  else if reachesPower staking.lastValidatorPower staking.requiredPower 0 att.votes then
    if att.claim.getEventNonce ≠ ctx.oracle.lastObservedEventNonce + 1 then .panic .outOfOrder
    else
      let oracle := ctx.oracle.observe sdk blockHeight att
      let claim := att.claim.sortMembers
      match processAttestation handle { att with observed := true } claim ctx.app with
      | .ok (app, failure) =>
          .ok ⟨oracle, app, ctx.observations ++ [⟨{ att with observed := true }, claim, failure⟩]⟩
      | .error reason => reason.elim
      | .panic reason => .panic (.handler (ctx.observations.map Observation.claim ++ [claim]) reason)
  else pure ctx

/-- One round of the inner loop of `attestationTally`. -/
def tallyAttestation (nonce : Nat) (ctx : Ctx σ ε) (att : Attestation) :
    Outcome Empty (OraclePanic π) (Ctx σ ε) :=
  if nonce = ctx.oracle.lastObservedEventNonce + 1 then
    tryAttestation sdk staking handle blockHeight ctx att
  else pure ctx

/-- `attestationTally`: the mapping is loaded once, then walked in nonce order. -/
def attestationTally (oracle : Oracle) (app : σ) : Outcome Empty (OraclePanic π) (Ctx σ ε) :=
  oracle.eventNonces.foldlM
    (fun ctx nonce =>
      (oracle.attestationsAt nonce).foldlM (tallyAttestation sdk staking handle blockHeight nonce) ctx)
    ⟨oracle, app, []⟩

end Tally

/-! ### What a tally can do -/

section TallySpec

variable {σ ε π : Type} (sdk : Sdk) (staking : StakingPowers)
  (handle : Attestation → EthereumClaim → σ → Outcome ε π σ) (blockHeight : Nat)

/-- **One observation**: an attestation of the loaded mapping, not observed yet, with enough power
behind it and the next nonce, is applied. -/
def ObserveStep (snapshot : Oracle) (before after : Ctx σ ε) : Prop :=
  ∃ att ∈ snapshot.attestations.values, att.observed = false ∧
    reachesPower staking.lastValidatorPower staking.requiredPower 0 att.votes = true ∧
    att.claim.getEventNonce = before.oracle.lastObservedEventNonce + 1 ∧
    ∃ app failure,
      processAttestation handle { att with observed := true } att.claim.sortMembers before.app =
        .ok (app, failure) ∧
      after = ⟨before.oracle.observe sdk blockHeight att, app, before.observations ++
        [⟨{ att with observed := true }, att.claim.sortMembers, failure⟩]⟩

/-- **A panic of the handler**: after some observations, on an attestation that would be the next. -/
def HandlerPanic (snapshot : Oracle) (start : Ctx σ ε) (reason : OraclePanic π) : Prop :=
  ∃ ctx cause, Relation.ReflTransGen (ObserveStep sdk staking handle blockHeight snapshot) start ctx ∧
    ∃ att ∈ snapshot.attestations.values,
      att.claim.getEventNonce = ctx.oracle.lastObservedEventNonce + 1 ∧
      handle { att with observed := true } att.claim.sortMembers ctx.app = .panic cause ∧
      reason = .handler (ctx.observations.map Observation.claim ++ [att.claim.sortMembers]) cause

variable {sdk staking handle blockHeight}

/-- **What one count can do.** On an attestation that is not observed and has the next nonce it
changes nothing or makes one observation, and neither of its own panics is reached. -/
theorem tryAttestation_meets {snapshot : Oracle} {start ctx : Ctx σ ε} {att : Attestation}
    (member : att ∈ snapshot.attestations.values) (fresh : att.observed = false)
    (next : att.claim.getEventNonce = ctx.oracle.lastObservedEventNonce + 1)
    (chain : Relation.ReflTransGen (ObserveStep sdk staking handle blockHeight snapshot) start ctx) :
    (tryAttestation sdk staking handle blockHeight ctx att).Meets
      (fun after => after = ctx ∨ ObserveStep sdk staking handle blockHeight snapshot ctx after)
      (HandlerPanic sdk staking handle blockHeight snapshot start) := by
  unfold tryAttestation
  rw [fresh, if_neg Bool.false_ne_true]
  split_ifs with reaches skipped
  · exact absurd next skipped
  · cases processed : processAttestation handle { att with observed := true } att.claim.sortMembers
      ctx.app with
    | ok result =>
        simp only [processed]
        exact Or.inr ⟨att, member, fresh, reaches, next, result.1, result.2, processed, rfl⟩
    | error reason => exact reason.elim
    | panic reason =>
        simp only [processed]
        refine ⟨ctx, reason, chain, att, member, next, ?_, rfl⟩
        unfold processAttestation at processed
        split at processed
        · cases processed
        · cases processed
        · rename_i cause panics
          rw [panics, Outcome.panic.inj processed]
  · exact Or.inl rfl

/-- An observation moves the last observed nonce up by one. -/
theorem ObserveStep.lastObservedEventNonce {snapshot : Oracle} {before after : Ctx σ ε}
    (step : ObserveStep sdk staking handle blockHeight snapshot before after) :
    after.oracle.lastObservedEventNonce = before.oracle.lastObservedEventNonce + 1 := by
  obtain ⟨att, _, _, _, next, app, failure, _, rfl⟩ := step
  exact next

theorem lastObservedEventNonce_le_of_chain {snapshot : Oracle} {before after : Ctx σ ε}
    (chain : Relation.ReflTransGen (ObserveStep sdk staking handle blockHeight snapshot)
      before after) :
    before.oracle.lastObservedEventNonce ≤ after.oracle.lastObservedEventNonce := by
  induction chain with
  | refl => exact Nat.le_refl _
  | tail _ step ih => rw [step.lastObservedEventNonce]; exact Nat.le_succ_of_le ih

/-- **A tally is a chain of single observations.** When no attestation above the last observed nonce
is observed, only the handler can panic. -/
theorem attestationTally_meets {oracle : Oracle} {app : σ}
    (behind : ∀ att ∈ oracle.attestations.values, att.observed = true →
      att.claim.getEventNonce ≤ oracle.lastObservedEventNonce) :
    (attestationTally sdk staking handle blockHeight oracle app).Meets
      (Relation.ReflTransGen (ObserveStep sdk staking handle blockHeight oracle) ⟨oracle, app, []⟩)
      (HandlerPanic sdk staking handle blockHeight oracle ⟨oracle, app, []⟩) := by
  refine Outcome.Meets.foldlM (fun ctx nonce _ chain => ?_) Relation.ReflTransGen.refl
  refine Outcome.Meets.foldlM (fun ctx att inNonce chain => ?_) chain
  obtain ⟨member, same⟩ := List.mem_filter.mp inNonce
  have nonceIs : att.claim.getEventNonce = nonce := of_decide_eq_true same
  unfold tallyAttestation
  split_ifs with next
  · have fresh : att.observed = false := by
      by_contra observed
      have low := behind att member (by simpa using observed)
      have start := lastObservedEventNonce_le_of_chain chain
      simp only at start
      omega
    refine (tryAttestation_meets member fresh (nonceIs.trans next) chain).imp
      (fun after result => ?_) fun _ => id
    rcases result with rfl | step
    · exact chain
    · exact chain.tail step
  · exact chain

end TallySpec

/-! ### Pruning -/

/-- `eventsToKeep` -/
def eventsToKeep : Nat := 1000

/-- `pruneAttestations`: drop what is more than `eventsToKeep` nonces below the last observed. -/
def pruneAttestations (sdk : Sdk) (oracle : Oracle) : Oracle :=
  if oracle.lastObservedEventNonce ≤ eventsToKeep then oracle
  else
    let cutoff := oracle.lastObservedEventNonce - eventsToKeep
    oracle.eventNonces.foldl
      (fun current nonce =>
        (oracle.attestationsAt nonce).foldl
          (fun current att => if nonce < cutoff then current.deleteAttestation sdk att else current)
          current)
      oracle

/-- Every attestation is stored under the key of its own claim. -/
def Oracle.Keyed (sdk : Sdk) (oracle : Oracle) : Prop :=
  ∀ key att, oracle.attestations.get key = some att → key = attestationKey sdk att.claim

/-- **What pruning does**: it only deletes attestations, and none within `eventsToKeep` of the last
observed nonce. -/
structure Pruned (before after : Oracle) : Prop where
  counters : after.lastEventNonceByValidator = before.lastEventNonceByValidator
  lastObserved : after.lastObservedEventNonce = before.lastObservedEventNonce
  height : after.lastObservedEthereumBlockHeight = before.lastObservedEthereumBlockHeight
  stored : ∀ key att, after.attestations.get key = some att → before.attestations.get key = some att
  recent : ∀ key att, before.attestations.get key = some att →
    before.lastObservedEventNonce ≤ att.claim.getEventNonce + eventsToKeep →
    after.attestations.get key = some att

theorem Pruned.refl (oracle : Oracle) : Pruned oracle oracle :=
  ⟨rfl, rfl, rfl, fun _ _ => id, fun _ _ found _ => found⟩

theorem Pruned.delete {sdk : Sdk} {before current : Oracle} {att : Attestation}
    (keyed : before.Keyed sdk) (pruned : Pruned before current)
    (old : att.claim.getEventNonce + eventsToKeep < before.lastObservedEventNonce) :
    Pruned before (current.deleteAttestation sdk att) := by
  refine ⟨pruned.counters, pruned.lastObserved, pruned.height, fun key other found => ?_,
    fun key other found bound => ?_⟩
  · simp only [Oracle.deleteAttestation, Store.get_delete] at found
    split_ifs at found with deleted
    · exact pruned.stored key other found
  · have different : key ≠ attestationKey sdk att.claim := by
      rintro rfl
      have nonces := (getAttestationKey_inj.mp (keyed _ other found)).1
      omega
    simp only [Oracle.deleteAttestation]
    rw [Store.get_delete_of_ne _ different]
    exact pruned.recent key other found bound

theorem pruneAttestations_pruned {sdk : Sdk} {oracle : Oracle} (keyed : oracle.Keyed sdk) :
    Pruned oracle (pruneAttestations sdk oracle) := by
  unfold pruneAttestations
  split_ifs with early
  · exact Pruned.refl oracle
  · refine List.foldlRecOn _ _ (Pruned.refl oracle) fun current pruned nonce _ => ?_
    refine List.foldlRecOn _ _ pruned fun current pruned att inNonce => ?_
    have nonceIs : att.claim.getEventNonce = nonce := of_decide_eq_true (List.mem_filter.mp inNonce).2
    split_ifs with low
    · exact pruned.delete keyed (by omega)
    · exact pruned

/-! ### Restart -/

/-- One vote of the second loop of `InitGenesis`. -/
def restoreVote (nonce : Nat) (oracle : Oracle) (validator : ValAddress) : Oracle :=
  if nonce > oracle.getLastEventNonceByValidator validator then
    oracle.setLastEventNonceByValidator validator nonce
  else oracle

/-- The oracle part of `InitGenesis`: the attestations in the order of the genesis file, the last
observed nonce, then the voters' counters. The observed Ethereum height is not part of a genesis. -/
def initGenesisOracle (sdk : Sdk) (attestations : List Attestation) (lastObservedNonce : Nat) :
    Oracle :=
  let stored := attestations.foldl
    (fun oracle att => oracle.setAttestation att.claim.getEventNonce (att.claim.claimHash sdk) att)
    Oracle.empty
  attestations.foldl
    (fun oracle att => att.votes.foldl (restoreVote att.claim.getEventNonce) oracle)
    { stored with lastObservedEventNonce := lastObservedNonce }

/-- No counter that is set is below the last observed nonce. -/
def Oracle.CountersAbove (oracle : Oracle) : Prop :=
  ∀ validator nonce,
    oracle.lastEventNonceByValidator.get (getLastEventNonceByValidatorKey validator) = some nonce →
    oracle.lastObservedEventNonce ≤ nonce

/-- What restoring votes keeps: the attestations and the last observed nonce; the counters only
grow, and stay above the last observed nonce. -/
structure Restores (before after : Oracle) : Prop where
  attestations : after.attestations = before.attestations
  lastObserved : after.lastObservedEventNonce = before.lastObservedEventNonce
  grows : ∀ validator,
    before.getLastEventNonceByValidator validator ≤ after.getLastEventNonceByValidator validator
  above : before.CountersAbove → after.CountersAbove

theorem Restores.refl (oracle : Oracle) : Restores oracle oracle :=
  ⟨rfl, rfl, fun _ => Nat.le_refl _, id⟩

theorem Restores.trans {first second third : Oracle} (left : Restores first second)
    (right : Restores second third) : Restores first third :=
  ⟨right.attestations.trans left.attestations, right.lastObserved.trans left.lastObserved,
    fun validator => (left.grows validator).trans (right.grows validator),
    fun above => right.above (left.above above)⟩

theorem Oracle.getLastEventNonceByValidator_of_some {oracle : Oracle} {validator : ValAddress}
    {nonce : Nat} (found : oracle.lastEventNonceByValidator.get
      (getLastEventNonceByValidatorKey validator) = some nonce) :
    oracle.getLastEventNonceByValidator validator = nonce := by
  unfold Oracle.getLastEventNonceByValidator
  rw [found]

/-- A counter that was never set reads as one below the last observed nonce. -/
theorem Oracle.getLastEventNonceByValidator_of_none {oracle : Oracle} {validator : ValAddress}
    (newcomer : oracle.lastEventNonceByValidator.get (getLastEventNonceByValidatorKey validator) =
      none) :
    oracle.getLastEventNonceByValidator validator = oracle.lastObservedEventNonce - 1 := by
  unfold Oracle.getLastEventNonceByValidator
  rw [newcomer]
  simp only
  split_ifs <;> omega

/-- **Restoring one vote** brings the voter's counter to the vote's nonce at least. -/
theorem restoreVote_restores (nonce : Nat) (oracle : Oracle) (validator : ValAddress) :
    Restores oracle (restoreVote nonce oracle validator) ∧
      nonce ≤ (restoreVote nonce oracle validator).getLastEventNonceByValidator validator := by
  unfold restoreVote
  split_ifs with higher
  · refine ⟨⟨rfl, rfl, fun other => ?_, fun above other value found => ?_⟩, ?_⟩
    · rw [Oracle.getLastEventNonceByValidator_set]
      split_ifs with same
      · exact same ▸ Nat.le_of_lt higher
      · exact Nat.le_refl _
    · simp only [Oracle.setLastEventNonceByValidator, Store.get_set,
        getLastEventNonceByValidatorKey_inj] at found ⊢
      split_ifs at found with same
      · obtain rfl := Option.some.inj found
        cases earlier : oracle.lastEventNonceByValidator.get
            (getLastEventNonceByValidatorKey validator) with
        | none =>
            rw [Oracle.getLastEventNonceByValidator_of_none earlier] at higher
            omega
        | some counter =>
            rw [Oracle.getLastEventNonceByValidator_of_some earlier] at higher
            exact (above validator counter earlier).trans (Nat.le_of_lt higher)
      · exact above other value found
    · rw [Oracle.getLastEventNonceByValidator_set, if_pos rfl]
  · exact ⟨Restores.refl oracle, Nat.le_of_not_lt higher⟩

theorem restoreVotes_restores (nonce : Nat) (votes : List ValAddress) (oracle : Oracle) :
    Restores oracle (votes.foldl (restoreVote nonce) oracle) ∧
      ∀ validator ∈ votes,
        nonce ≤ (votes.foldl (restoreVote nonce) oracle).getLastEventNonceByValidator validator := by
  induction votes generalizing oracle with
  | nil => exact ⟨Restores.refl oracle, fun _ member => absurd member List.not_mem_nil⟩
  | cons first rest ih =>
      obtain ⟨head, reached⟩ := restoreVote_restores nonce oracle first
      obtain ⟨tail, later⟩ := ih (restoreVote nonce oracle first)
      refine ⟨head.trans tail, fun validator member => ?_⟩
      rcases List.mem_cons.mp member with rfl | there
      · exact reached.trans (tail.grows _)
      · exact later validator there

theorem restoreAttestations_restores (attestations : List Attestation) (oracle : Oracle) :
    Restores oracle (attestations.foldl
      (fun oracle att => att.votes.foldl (restoreVote att.claim.getEventNonce) oracle) oracle) ∧
      ∀ att ∈ attestations, ∀ validator ∈ att.votes,
        att.claim.getEventNonce ≤ (attestations.foldl
          (fun oracle att => att.votes.foldl (restoreVote att.claim.getEventNonce) oracle)
          oracle).getLastEventNonceByValidator validator := by
  induction attestations generalizing oracle with
  | nil => exact ⟨Restores.refl oracle, fun _ member => absurd member List.not_mem_nil⟩
  | cons first rest ih =>
      obtain ⟨head, reached⟩ := restoreVotes_restores first.claim.getEventNonce first.votes oracle
      obtain ⟨tail, later⟩ := ih (first.votes.foldl (restoreVote first.claim.getEventNonce) oracle)
      refine ⟨head.trans tail, fun att member validator voted => ?_⟩
      rcases List.mem_cons.mp member with rfl | there
      · exact (reached validator voted).trans (tail.grows _)
      · exact later att there validator voted

/-- The attestations of a genesis file as store entries. -/
def genesisEntries (sdk : Sdk) (attestations : List Attestation) : List (StoreKey × Attestation) :=
  attestations.map fun att => (attestationKey sdk att.claim, att)

/-- Writing the attestations of a genesis file is writing a list of entries. -/
theorem foldl_setAttestation (sdk : Sdk) (attestations : List Attestation) (oracle : Oracle) :
    attestations.foldl
        (fun oracle att =>
          oracle.setAttestation att.claim.getEventNonce (att.claim.claimHash sdk) att) oracle =
      ⟨(genesisEntries sdk attestations).foldl (fun store pair => store.set pair.1 pair.2)
          oracle.attestations, oracle.lastEventNonceByValidator, oracle.lastObservedEventNonce,
        oracle.lastObservedEthereumBlockHeight⟩ := by
  induction attestations generalizing oracle with
  | nil => rfl
  | cons first rest ih => rw [List.foldl_cons, ih]; rfl

/-- The entries of an exported genesis are the entries of the store it was exported from. -/
theorem genesisEntries_perm {sdk : Sdk} {oracle : Oracle} (keyed : oracle.Keyed sdk)
    {attestations : List Attestation} (exported : attestations.Perm oracle.attestations.values) :
    (genesisEntries sdk attestations).Perm oracle.attestations.entries := by
  have same : genesisEntries sdk oracle.attestations.values = oracle.attestations.entries := by
    rw [genesisEntries, Store.values, List.map_map]
    refine (List.map_congr_left fun entry member => ?_).trans (List.map_id _)
    have key := keyed entry.1 entry.2 ((Store.mem_entries_iff _ _ _).mp member)
    rw [Function.comp_apply, ← key, id]
  exact same ▸ exported.map _

/-- **What a restart restores**: every attestation under its key, whatever the order of the file,
and for every voter a counter at least at its votes. -/
theorem initGenesisOracle_spec {sdk : Sdk} {oracle : Oracle} (keyed : oracle.Keyed sdk)
    {attestations : List Attestation} (exported : attestations.Perm oracle.attestations.values) :
    (∀ key, (initGenesisOracle sdk attestations
      oracle.lastObservedEventNonce).attestations.get key = oracle.attestations.get key) ∧
    (initGenesisOracle sdk attestations oracle.lastObservedEventNonce).lastObservedEventNonce =
      oracle.lastObservedEventNonce ∧
    (initGenesisOracle sdk attestations oracle.lastObservedEventNonce).CountersAbove ∧
    ∀ key att, oracle.attestations.get key = some att → ∀ validator ∈ att.votes,
      att.claim.getEventNonce ≤ (initGenesisOracle sdk attestations
        oracle.lastObservedEventNonce).getLastEventNonceByValidator validator := by
  have keys := genesisEntries_perm keyed exported
  have distinct := (keys.map Prod.fst).nodup_iff.mpr oracle.attestations.keys_nodup
  rw [initGenesisOracle, foldl_setAttestation]
  generalize startIs : Oracle.mk ((genesisEntries sdk attestations).foldl
    (fun store pair => store.set pair.1 pair.2) Oracle.empty.attestations)
    Oracle.empty.lastEventNonceByValidator oracle.lastObservedEventNonce
    Oracle.empty.lastObservedEthereumBlockHeight = start
  obtain ⟨restores, reached⟩ := restoreAttestations_restores attestations start
  refine ⟨fun key => ?_, ?_, ?_, fun key att found validator voted => ?_⟩
  · rw [restores.attestations, ← startIs]
    cases found : oracle.attestations.get key with
    | none =>
        have absent : key ∉ (genesisEntries sdk attestations).map Prod.fst := by
          intro member
          obtain ⟨entry, inKeys, rfl⟩ := List.mem_map.mp member
          exact (Store.get_eq_none_iff _ _).mp found entry.2 (keys.mem_iff.mp inKeys)
        exact Store.get_foldl_set_of_not_mem _ _ absent
    | some att =>
        have member := (Store.mem_entries_iff _ _ _).mpr found
        exact Store.get_foldl_set_of_mem _ distinct (keys.mem_iff.mpr member)
  · rw [restores.lastObserved, ← startIs]
  · refine restores.above ?_
    rw [← startIs]
    intro validator nonce found
    simp [Oracle.empty] at found
  · have member := exported.mem_iff.mpr ((Store.mem_values_iff _ _).mpr ⟨key, found⟩)
    exact reached att member validator voted

end NabBridge
