/-
**The observation threshold.**

An event is meant to be applied once more than 66 % of the power has voted for it. `requiredPower`
rounds 66 % of the total down and the loop over the votes compares with `≥`, so the votes of exactly the
rounded power are enough too: one third of a total of three, nothing of a total of one.

* `observes_iff`: which attestations are applied;
* `majority_iff`: the documented majority is missing exactly where the voters have the rounded power. Two
  disjoint sets of voters can both be enough exactly for the totals 1, 2, 3, 4 and 6.
-/

import NabBridge.Proof.OracleIntegrity
import Mathlib.Algebra.Order.BigOperators.Group.Finset
import Mathlib.Algebra.Order.BigOperators.Group.List
import Mathlib.Tactic.IntervalCases

namespace NabBridge

section Threshold

variable {power : ValAddress → Int} {required : Int} {votes : List ValAddress}

/-- **The threshold is met** by the votes together, where no power is negative. -/
theorem reachesPower_iff (nonneg : ∀ validator, 0 ≤ power validator) (start : Int) :
    reachesPower power required start votes = true ↔
      votes ≠ [] ∧ required ≤ start + (votes.map power).sum := by
  induction votes generalizing start with
  | nil => simp [reachesPower]
  | cons validator rest ih =>
      have later : 0 ≤ (rest.map power).sum :=
        List.sum_nonneg fun value member => by
          obtain ⟨other, _, rfl⟩ := List.mem_map.mp member
          exact nonneg other
      rw [reachesPower, List.map_cons, List.sum_cons]
      split_ifs with enough
      · exact ⟨fun _ => ⟨List.cons_ne_nil _ _, by omega⟩, fun _ => rfl⟩
      · rw [ih]
        constructor
        · rintro ⟨_, reaches⟩
          exact ⟨List.cons_ne_nil _ _, by omega⟩
        · rintro ⟨_, reaches⟩
          refine ⟨?_, by omega⟩
          rintro rfl
          simp at reaches
          omega

/-- The power behind votes. -/
def StakingPowers.votePower (staking : StakingPowers) (votes : List ValAddress) : Int :=
  (votes.map staking.lastValidatorPower).sum

/-- The votes are enough for `TryAttestation`. -/
def StakingPowers.Enough (staking : StakingPowers) (votes : List ValAddress) : Prop :=
  reachesPower staking.lastValidatorPower staking.requiredPower 0 votes = true

instance (staking : StakingPowers) (votes : List ValAddress) : Decidable (staking.Enough votes) :=
  inferInstanceAs (Decidable (_ = true))

/-- **The powers of a block**: distinct validators share the total, and nobody has less than none. -/
structure StakingPowers.Assigned (staking : StakingPowers) (validators : List ValAddress) : Prop where
  distinct : validators.Nodup
  nonneg : ∀ validator, 0 ≤ staking.lastValidatorPower validator
  others : ∀ validator, validator ∉ validators → staking.lastValidatorPower validator = 0
  total : staking.votePower validators = staking.lastTotalPower

variable {staking : StakingPowers} {validators : List ValAddress}

/-- Different voters share at most the total. -/
theorem StakingPowers.Assigned.votePower_le (assigned : staking.Assigned validators)
    (distinct : votes.Nodup) : staking.votePower votes ≤ staking.lastTotalPower := by
  rw [← assigned.total]
  unfold StakingPowers.votePower
  rw [← List.sum_toFinset _ distinct, ← List.sum_toFinset _ assigned.distinct]
  have outside : ∀ validator ∈ votes.toFinset ∪ validators.toFinset,
      validator ∉ validators.toFinset → staking.lastValidatorPower validator = 0 :=
    fun validator _ other => assigned.others validator fun member =>
      other (List.mem_toFinset.mpr member)
  rw [Finset.sum_subset Finset.subset_union_right outside]
  exact Finset.sum_le_sum_of_subset_of_nonneg Finset.subset_union_left
    fun validator _ _ => assigned.nonneg validator

/-- **Enough votes** have 66 % of the total, rounded down. -/
theorem StakingPowers.Assigned.enough_iff (assigned : staking.Assigned validators) :
    staking.Enough votes ↔
      votes ≠ [] ∧ 66 * staking.lastTotalPower / 100 ≤ staking.votePower votes := by
  have total : 0 ≤ staking.lastTotalPower := by
    have nobody := assigned.votePower_le List.nodup_nil
    simpa [StakingPowers.votePower] using nobody
  unfold StakingPowers.Enough
  rw [reachesPower_iff assigned.nonneg, StakingPowers.requiredPower, attestationVotesPowerThreshold,
    Int.tdiv_eq_ediv_of_nonneg (by omega), Int.zero_add, StakingPowers.votePower]

end Threshold

/-! ### What is applied -/

section Observes

variable {σ ε π : Type} (sdk : Sdk) (staking : StakingPowers)
  (handle : Attestation → EthereumClaim → σ → Outcome ε π σ) (blockHeight : Nat)

/-- `TryAttestation` applies the attestation. -/
def Observes (ctx : Ctx σ ε) (att : Attestation) : Prop :=
  ∃ after, tryAttestation sdk staking handle blockHeight ctx att = .ok after ∧
    after.oracle.lastObservedEventNonce = ctx.oracle.lastObservedEventNonce + 1

/-- The attestation is not applied yet, has the next nonce, and the handler does not panic on it. -/
def Applicable (ctx : Ctx σ ε) (att : Attestation) : Prop :=
  att.observed = false ∧ att.claim.getEventNonce = ctx.oracle.lastObservedEventNonce + 1 ∧
    ∀ reason, handle { att with observed := true } att.claim.sortMembers ctx.app ≠ .panic reason

variable {sdk staking handle blockHeight}

/-- **What is applied**: an applicable attestation with enough votes. -/
theorem observes_iff {ctx : Ctx σ ε} {att : Attestation} :
    Observes sdk staking handle blockHeight ctx att ↔
      Applicable handle ctx att ∧ staking.Enough att.votes := by
  unfold Observes Applicable StakingPowers.Enough tryAttestation processAttestation
  constructor
  · rintro ⟨after, counted, next⟩
    split_ifs at counted with observed enough skipped
    · simp only [not_not] at skipped
      refine ⟨⟨by simpa using observed, skipped, fun reason panics => ?_⟩, enough⟩
      simp [panics] at counted
    · obtain rfl := Outcome.ok.inj counted
      omega
  · rintro ⟨⟨observed, nonce, handled⟩, enough⟩
    rw [observed, if_neg Bool.false_ne_true, if_pos enough, if_neg (not_not.mpr nonce)]
    cases result : handle { att with observed := true } att.claim.sortMembers ctx.app with
    | ok app =>
        simp only [result]
        exact ⟨_, rfl, nonce⟩
    | error cause =>
        simp only [result]
        exact ⟨_, rfl, nonce⟩
    | panic reason => exact absurd result (handled reason)

end Observes

/-! ### The majority -/

section Majority

variable {staking : StakingPowers} {validators : List ValAddress}

/-- Two validators with the rounded power each, and a third with the rest of the total. -/
def splitPowers (total : Int) : StakingPowers :=
  ⟨total, fun validator =>
    if validator = [1] ∨ validator = [2] then 66 * total / 100
    else if validator = [3] then total - 2 * (66 * total / 100) else 0⟩

theorem splitPowers_assigned {total : Int} (positive : 1 ≤ total)
    (room : 2 * (66 * total / 100) ≤ total) : (splitPowers total).Assigned [[1], [2], [3]] where
  distinct := by decide
  nonneg validator := by
    simp only [splitPowers]
    split_ifs <;> omega
  others validator outside := by
    simp only [List.mem_cons, List.not_mem_nil, or_false, not_or] at outside
    simp [splitPowers, outside]
  total := by
    simp [StakingPowers.votePower, splitPowers]
    omega

theorem splitPowers_enough {total : Int} (positive : 1 ≤ total)
    (room : 2 * (66 * total / 100) ≤ total) :
    (splitPowers total).Enough [[1]] ∧ (splitPowers total).Enough [[2]] := by
  rw [(splitPowers_assigned positive room).enough_iff, (splitPowers_assigned positive room).enough_iff]
  simp [StakingPowers.votePower, splitPowers]

/-- Different voters of two votes share at most the total. -/
theorem StakingPowers.Assigned.votePower_add_le (assigned : staking.Assigned validators)
    {votes votes' : List ValAddress} (apart : (votes ++ votes').Nodup) :
    staking.votePower votes + staking.votePower votes' ≤ staking.lastTotalPower := by
  have together := assigned.votePower_le apart
  simpa [StakingPowers.votePower] using together

/-- **Two disjoint sets of voters can be enough** where twice the rounded power fits into the total. -/
theorem disjoint_enough_iff {total : Int} (positive : 1 ≤ total) :
    (∀ (staking : StakingPowers) (validators : List ValAddress), staking.Assigned validators →
      staking.lastTotalPower = total → ∀ votes votes' : List ValAddress, (votes ++ votes').Nodup →
        ¬ (staking.Enough votes ∧ staking.Enough votes')) ↔ total = 5 ∨ 7 ≤ total := by
  have large : total = 5 ∨ 7 ≤ total ↔ total < 2 * (66 * total / 100) := by
    by_cases small : total ≤ 6
    · interval_cases total <;> decide
    · omega
  rw [large]
  constructor
  · intro never
    by_contra small
    have room : 2 * (66 * total / 100) ≤ total := by omega
    exact never (splitPowers total) _ (splitPowers_assigned positive room) rfl [[1]] [[2]] (by decide)
      (splitPowers_enough positive room)
  · intro crowded staking validators assigned same votes votes' apart both
    rw [assigned.enough_iff, assigned.enough_iff, same] at both
    have shared := assigned.votePower_add_le apart
    omega

/-- **Where the majority holds.** Of a positive total, an applied attestation has more than 66 % behind
it exactly where it is not applied with the rounded power. Where neither of two disjoint votes has just
the rounded power, they are not both enough; and whatever the powers, they are never both enough, exactly
where the total is 5 or at least 7. -/
theorem majority_iff {σ ε π : Type} {sdk : Sdk}
    {handle : Attestation → EthereumClaim → σ → Outcome ε π σ} {blockHeight : Nat} {ctx : Ctx σ ε}
    {att : Attestation} (assigned : staking.Assigned validators)
    (positive : 1 ≤ staking.lastTotalPower) :
    ((Observes sdk staking handle blockHeight ctx att →
        66 * staking.lastTotalPower < 100 * staking.votePower att.votes) ↔
      ¬ (Applicable handle ctx att ∧ att.votes ≠ [] ∧
        staking.votePower att.votes = 66 * staking.lastTotalPower / 100)) ∧
    (∀ votes votes' : List ValAddress, (votes ++ votes').Nodup →
      staking.votePower votes ≠ 66 * staking.lastTotalPower / 100 →
      staking.votePower votes' ≠ 66 * staking.lastTotalPower / 100 →
      ¬ (staking.Enough votes ∧ staking.Enough votes')) ∧
    ((∀ (other : StakingPowers) (members : List ValAddress), other.Assigned members →
      other.lastTotalPower = staking.lastTotalPower → ∀ votes votes' : List ValAddress,
        (votes ++ votes').Nodup → ¬ (other.Enough votes ∧ other.Enough votes')) ↔
      staking.lastTotalPower = 5 ∨ 7 ≤ staking.lastTotalPower) := by
  refine ⟨?_, fun votes votes' apart inexact inexact' both => ?_, disjoint_enough_iff positive⟩
  · rw [observes_iff, assigned.enough_iff]
    constructor
    · rintro majority ⟨applicable, some, exact⟩
      have more := majority ⟨applicable, some, by omega⟩
      omega
    · rintro inexact ⟨applicable, some, enough⟩
      have different : staking.votePower att.votes ≠ 66 * staking.lastTotalPower / 100 :=
        fun exact => inexact ⟨applicable, some, exact⟩
      omega
  · rw [assigned.enough_iff, assigned.enough_iff] at both
    have shared := assigned.votePower_add_le apart
    omega

end Majority

/-! ### Three validators of equal power -/

section Examples

/-- Three validators of power one. -/
def exampleEqualPowers : StakingPowers := splitPowers 3

/-- An attestation with one vote. -/
def exampleSingleVote (validator : ValAddress) : Attestation where
  observed := false
  votes := [validator]
  height := 7
  claim := exampleBatchExecuted 10 ""

/-- An end blocker that applies everything. -/
def exampleApply (_ : Attestation) (_ : EthereumClaim) (app : Unit) : Outcome Empty Empty Unit := .ok app

/-- **One vote of three is enough**: an attestation is applied with a third of the power behind it, and
another one, with another voter, would be too. -/
theorem third_is_enough :
    exampleEqualPowers.Assigned [[1], [2], [3]] ∧ exampleEqualPowers.lastTotalPower = 3 ∧
    (∀ validator ∈ [[1], [2]], Observes exampleSdk exampleEqualPowers exampleApply 8
        ⟨Oracle.empty, (), []⟩ (exampleSingleVote validator) ∧
      ¬ 66 * exampleEqualPowers.lastTotalPower <
        100 * exampleEqualPowers.votePower (exampleSingleVote validator).votes) := by
  refine ⟨splitPowers_assigned (by decide) (by decide), rfl, fun validator member => ⟨?_, ?_⟩⟩
  · rw [observes_iff]
    refine ⟨⟨rfl, rfl, fun _ panics => by cases panics⟩, ?_⟩
    rcases List.mem_cons.mp member with rfl | second
    · exact (splitPowers_enough (by decide) (by decide)).1
    · obtain rfl := List.mem_singleton.mp second
      exact (splitPowers_enough (by decide) (by decide)).2
  · rcases List.mem_cons.mp member with rfl | second
    · decide
    · obtain rfl := List.mem_singleton.mp second
      decide

/-- Two of the three validators are more than 66 %, and what they apply has the majority. -/
theorem majority_two_of_three :
    let att := { exampleSingleVote [1] with votes := [[1], [2]] }
    Observes exampleSdk exampleEqualPowers exampleApply 8 ⟨Oracle.empty, (), []⟩ att ∧
      66 * exampleEqualPowers.lastTotalPower < 100 * exampleEqualPowers.votePower att.votes := by
  have assigned : exampleEqualPowers.Assigned [[1], [2], [3]] :=
    splitPowers_assigned (by decide) (by decide)
  have observed : Observes exampleSdk exampleEqualPowers exampleApply 8 ⟨Oracle.empty, (), []⟩
      { exampleSingleVote [1] with votes := [[1], [2]] } :=
    observes_iff.mpr ⟨⟨rfl, rfl, fun _ panics => by cases panics⟩, by decide⟩
  exact ⟨observed, (majority_iff assigned (by decide)).1.mpr (fun bad => absurd bad.2.2 (by decide))
    observed⟩

end Examples

end NabBridge
