/-
**The bridge is solvent.**

Value lies in six places on the two chains: in the supply of vouchers or the module account, in the pool, in
the stored batches, in what the contract holds, and in the events the module has not observed yet. No
place is compared with another step by step. Each side keeps its books against the history alone: the module
against the transfers that were sent and refunded and the claims it observed (`Books.backing`), the contract
against its own events and the calls it accepted (`Books.holding`). The rest is counting: what was sent is
waiting, refunded or executed (`PoolInvariant.records`), what was paid is executed or still stored
(`worthOf_paid_le`), and what was observed are the first events of the contract (`Books.observed`).

* `eth_originated_solvent`: vouchers are backed by what the contract holds;
* `cosmos_originated_solvent`: what circulates on Ethereum is backed by the module account.
-/

import NabBridge.Contract.Holdings
import NabBridge.Proof.Backing
import NabBridge.Proof.DoubleSpend
import Mathlib.Algebra.BigOperators.Group.List.Basic
import Mathlib.Algebra.Order.BigOperators.Group.List

namespace NabBridge

/-! ### The history -/

/-- The claims the module has observed. -/
def observedClaims (trace : List BridgeOutput) : List EthereumClaim :=
  trace.flatMap fun
    | .observed claim => [claim]
    | _ => []

/-- The calls the contract has accepted. -/
def acceptedCalls (trace : List BridgeOutput) : List GravityCall :=
  trace.flatMap fun
    | .accepted _ call => [call]
    | _ => []

/-- What claims report as deposited of a contract. -/
def claimedDeposits (contract : Bytes) (claims : List EthereumClaim) : Nat :=
  (claims.map (EthereumClaim.depositOf contract)).sum

/-- What claims report as rewards in a contract. -/
def claimedRewards (contract : Bytes) (claims : List EthereumClaim) : Nat :=
  (claims.map (EthereumClaim.rewardOf contract)).sum

/-- What the accepted calls were approved to pay of a token. -/
def approvedPayments (token : EthAddress) (calls : List GravityCall) : Nat :=
  (calls.map (GravityCall.paysOf token)).sum

/-- What a logic call moves of a token. -/
def GravityCall.logicPaysOf (token : EthAddress) : GravityCall → Nat
  | submitLogicCall _ _ args => args.paysOf token
  | _ => 0

/-- What the accepted logic calls were approved to move of a token. -/
def logicPayments (token : EthAddress) (calls : List GravityCall) : Nat :=
  (calls.map (GravityCall.logicPaysOf token)).sum

/-- The rewards of the accepted calls. -/
def approvedRewards (token : EthAddress) (calls : List GravityCall) : Nat :=
  (calls.map (GravityCall.rewardOf token)).sum

section History

variable (contract : Bytes) (token : EthAddress)

@[simp] theorem observedClaims_append (first second : List BridgeOutput) :
    observedClaims (first ++ second) = observedClaims first ++ observedClaims second :=
  List.flatMap_append

@[simp] theorem acceptedCalls_append (first second : List BridgeOutput) :
    acceptedCalls (first ++ second) = acceptedCalls first ++ acceptedCalls second :=
  List.flatMap_append

@[simp] theorem claimedDeposits_append (first second : List EthereumClaim) :
    claimedDeposits contract (first ++ second) =
      claimedDeposits contract first + claimedDeposits contract second := by
  simp [claimedDeposits]

@[simp] theorem claimedRewards_append (first second : List EthereumClaim) :
    claimedRewards contract (first ++ second) =
      claimedRewards contract first + claimedRewards contract second := by
  simp [claimedRewards]

@[simp] theorem approvedPayments_append (first second : List GravityCall) :
    approvedPayments token (first ++ second) =
      approvedPayments token first + approvedPayments token second := by
  simp [approvedPayments]

@[simp] theorem approvedRewards_append (first second : List GravityCall) :
    approvedRewards token (first ++ second) =
      approvedRewards token first + approvedRewards token second := by
  simp [approvedRewards]

@[simp] theorem worthOf_append (first second : List OutgoingTransferTx) :
    worthOf contract (first ++ second) = worthOf contract first + worthOf contract second := by
  simp [worthOf]

theorem worthOf_singleton (tx : OutgoingTransferTx) :
    worthOf contract [tx] = if tx.erc20Token.contract = contract then tx.worth else 0 := by
  unfold worthOf
  by_cases same : tx.erc20Token.contract = contract <;> simp [same]

theorem worthOf_perm {first second : List OutgoingTransferTx} (perm : first.Perm second) :
    worthOf contract first = worthOf contract second :=
  ((perm.filter _).map _).sum_nat

@[simp] theorem logicPayments_append (first second : List GravityCall) :
    logicPayments token (first ++ second) = logicPayments token first + logicPayments token second := by
  simp [logicPayments]

/-- Batches, rewards and logic calls are all that is paid. -/
theorem approvedPayments_eq (trace : List BridgeOutput) :
    approvedPayments token (acceptedCalls trace) =
      ((paidArgs trace).map (BatchArgs.paysOf token)).sum +
        approvedRewards token (acceptedCalls trace) + logicPayments token (acceptedCalls trace) := by
  induction trace with
  | nil => rfl
  | cons output later ih =>
      have split : output :: later = [output] ++ later := rfl
      rw [split, acceptedCalls_append, approvedPayments_append, approvedRewards_append,
        logicPayments_append, paidArgs_append, List.map_append, List.sum_append, ih]
      have first : approvedPayments token (acceptedCalls [output]) =
          ((paidArgs [output]).map (BatchArgs.paysOf token)).sum +
            approvedRewards token (acceptedCalls [output]) +
            logicPayments token (acceptedCalls [output]) := by
        cases output with
        | accepted sender call =>
            cases call <;> simp [acceptedCalls, approvedPayments, approvedRewards, logicPayments,
              paidArgs, GravityCall.paysOf, GravityCall.rewardOf, GravityCall.logicPaysOf]
        | _ => rfl
      omega

theorem worthOf_flatMap (batches : List OutgoingTxBatch) :
    worthOf contract (batches.flatMap OutgoingTxBatch.transactions) =
      (batches.map fun batch => worthOf contract batch.transactions).sum := by
  induction batches with
  | nil => rfl
  | cons batch batches ih => rw [List.flatMap_cons, worthOf_append, List.map_cons, List.sum_cons, ih]

/-- A batch whose records are all of one contract is worth what they are, or nothing. -/
theorem worthOf_uniform {txs : List OutgoingTransferTx} {other : Bytes}
    (uniform : ∀ tx ∈ txs, tx.erc20Token.contract = other) :
    worthOf contract txs =
      if other = contract then (txs.map OutgoingTransferTx.worth).sum else 0 := by
  unfold worthOf
  by_cases same : other = contract
  · rw [if_pos same, List.filter_eq_self.mpr fun tx member => decide_eq_true ((uniform tx member).trans same)]
  · rw [if_neg same, List.filter_eq_nil_iff.mpr fun tx member => ?_]
    · rfl
    · simpa [uniform tx member] using same

end History

/-! ### Reports -/

/-- The claims report the first logs, one after the other. -/
structure Spelling.ReportsFirst (spelling : Spelling) (logs : List (GravityEvent × Nat))
    (claims : List EthereumClaim) (count : Nat) : Prop where
  within : count ≤ logs.length
  each : List.Forall₂ (fun claim log => claim.SameEvent (spelling.claimOf log)) claims (logs.take count)

section Reports

variable {spelling : Spelling} {logs : List (GravityEvent × Nat)} {claims : List EthereumClaim}
  {count : Nat}

/-- A claim says of a token what its event says. -/
theorem Spelling.depositOf_claimOf (spelling : Spelling) (token : EthAddress) {claim : EthereumClaim}
    {log : GravityEvent × Nat} (same : claim.SameEvent (spelling.claimOf log)) :
    claim.depositOf (spelling.address token) = log.1.depositOf token ∧
      claim.rewardOf (spelling.address token) = log.1.rewardOf token := by
  have address_iff : ∀ other, spelling.address other = spelling.address token ↔ other = token :=
    fun other => ⟨fun equal => by rw [← spelling.reads other, equal, spelling.reads], fun equal => equal ▸ rfl⟩
  obtain ⟨event, block⟩ := log
  cases event with
  | sendToCosmos tokenContract sender destination amount eventNonce =>
      cases claim with
      | sendToCosmos msg =>
          have contract : msg.tokenContract = spelling.address tokenContract :=
            congrArg MsgSendToCosmosClaim.tokenContract same
          have amount : msg.amount = some (amount : Int) := congrArg MsgSendToCosmosClaim.amount same
          simp [EthereumClaim.depositOf, EthereumClaim.rewardOf, GravityEvent.depositOf,
            GravityEvent.rewardOf, contract, amount, address_iff]
      | _ => exact same.elim
  | valsetUpdated newValsetNonce eventNonce rewardAmount rewardToken validators powers =>
      cases claim with
      | valsetUpdated msg =>
          have contract : msg.rewardToken = spelling.address rewardToken :=
            congrArg MsgValsetUpdatedClaim.rewardToken same.1
          have amount : msg.rewardAmount = some (rewardAmount : Int) :=
            congrArg MsgValsetUpdatedClaim.rewardAmount same.1
          simp [EthereumClaim.depositOf, EthereumClaim.rewardOf, GravityEvent.depositOf,
            GravityEvent.rewardOf, contract, amount, address_iff]
      | _ => exact same.elim
  | transactionBatchExecuted =>
      cases claim with
      | batchSendToEth => exact ⟨rfl, rfl⟩
      | _ => exact same.elim
  | erc20Deployed =>
      cases claim with
      | erc20Deployed => exact ⟨rfl, rfl⟩
      | _ => exact same.elim
  | logicCall =>
      cases claim with
      | logicCallExecuted => exact ⟨rfl, rfl⟩
      | _ => exact same.elim

theorem Spelling.ReportsFirst.sums (reported : spelling.ReportsFirst logs claims count)
    (token : EthAddress) :
    claimedDeposits (spelling.address token) claims = depositsOf token (logs.take count) ∧
      claimedRewards (spelling.address token) claims = rewardsOf token (logs.take count) := by
  have deposits : claims.map (EthereumClaim.depositOf (spelling.address token)) =
      (logs.take count).map fun log => log.1.depositOf token := by
    refine List.forall₂_eq_eq_eq ▸ List.forall₂_map_left_iff.mpr (List.forall₂_map_right_iff.mpr ?_)
    exact reported.each.imp fun claim log same => (spelling.depositOf_claimOf token same).1
  have rewards : claims.map (EthereumClaim.rewardOf (spelling.address token)) =
      (logs.take count).map fun log => log.1.rewardOf token := by
    refine List.forall₂_eq_eq_eq ▸ List.forall₂_map_left_iff.mpr (List.forall₂_map_right_iff.mpr ?_)
    exact reported.each.imp fun claim log same => (spelling.depositOf_claimOf token same).2
  exact ⟨congrArg List.sum deposits, congrArg List.sum rewards⟩

/-- The next claim reports the next log. -/
theorem Spelling.ReportsFirst.next {τ : Type} {eth : Ethereum τ} (well : eth.WellLogged)
    (reported : spelling.ReportsFirst eth.logs claims count) {claim : EthereumClaim}
    (reports : spelling.Reports eth.logs claim) (nonce : claim.getEventNonce = count + 1) :
    spelling.ReportsFirst eth.logs (claims ++ [claim]) (count + 1) := by
  obtain ⟨log, member, same⟩ := reports
  have found : eth.logs[count]? = some log := well.getElem?_of_nonce member (by
    rw [← spelling.getEventNonce_claimOf, ← EthereumClaim.getEventNonce_of_sameEvent same, nonce])
  obtain ⟨bound, _⟩ := List.getElem?_eq_some_iff.mp found
  refine ⟨bound, ?_⟩
  rw [List.take_add_one, found]
  exact List.rel_append reported.each (List.Forall₂.cons same List.Forall₂.nil)

/-- More logs. -/
theorem Spelling.ReportsFirst.append (reported : spelling.ReportsFirst logs claims count)
    (new : List (GravityEvent × Nat)) : spelling.ReportsFirst (logs ++ new) claims count := by
  refine ⟨reported.within.trans (by simp), ?_⟩
  rw [List.take_append_of_le_length reported.within]
  exact reported.each

end Reports

/-! ### The module's books in a tally -/

section Tally

variable {β τ : Type} {sdk : Sdk} {bank : BankKeeper β} {view : BankView β} {params : Params}
  {origin : Option Bytes} {contract : Bytes} {spelling : Spelling} {eth : Ethereum τ}

/-- A claim registers at most a denom that is new. -/
theorem handle_index {att : Attestation} {claim : EthereumClaim} {before after : ModuleState β}
    (done : handle sdk bank params att claim before = .ok after) (paired : before.index.Paired) :
    after.index.Paired ∧ before.index.Extends after.index := by
  have same : after.index = before.index → after.index.Paired ∧ before.index.Extends after.index := by
    intro equal
    rw [equal]
    exact ⟨paired, DenomIndex.Extends.refl _⟩
  cases claim with
  | erc20Deployed msg =>
      obtain ⟨unset, rfl⟩ := handleERC20Deployed_effect done
      exact ⟨paired.set unset, DenomIndex.Extends.set unset⟩
  | sendToCosmos msg => exact same (handle_effect done).2
  | batchSendToEth msg => exact same (handle_effect done).2
  | logicCallExecuted msg => exact same (handle_effect done).2
  | valsetUpdated msg => exact same (handle_effect done).2

/-- The claim of a validator set is applied, or halts the chain. -/
theorem handleValsetUpdated_ne_error {claim : MsgValsetUpdatedClaim} {state : ModuleState β}
    {reason : HandleError} : handleValsetUpdated sdk bank claim state ≠ .error reason := by
  intro failed
  unfold handleValsetUpdated at failed
  simp only at failed
  split at failed
  · cases failed
  · split_ifs at failed
    split at failed
    · rename_i amount _ _ _ denom _
      cases made : newCoin sdk denom (some amount) with
      | ok coin =>
          rw [made] at failed
          simp only [handleCoin, Outcome.ok_bind] at failed
          split at failed <;> cases failed
      | error reason => exact reason.elim
      | panic reason => rw [made] at failed; cases failed
    · cases failed

/-- A claim that fails pays no reward. -/
theorem rewardOf_of_error {att : Attestation} {claim : EthereumClaim} {state : ModuleState β}
    {reason : HandleError} (failed : handle sdk bank params att claim state = .error reason)
    (contract : Bytes) : claim.rewardOf contract = 0 := by
  cases claim with
  | valsetUpdated msg => exact absurd failed handleValsetUpdated_ne_error
  | _ => rfl

/-- The books after some observations of a tally that started with `app`, after the claims `past`. -/
structure TallyBooks (view : BankView β) (origin : Option Bytes) (contract : Bytes) (spelling : Spelling)
    (logs : List (GravityEvent × Nat)) (past : List EthereumClaim) (app : ModuleState β)
    (ctx : Ctx (ModuleState β) HandleError) : Prop where
  paired : ctx.app.index.Paired
  extended : app.index.Extends ctx.app.index
  reported : spelling.ReportsFirst logs (past ++ ctx.observations.map Observation.claim)
    ctx.oracle.lastObservedEventNonce
  backing : ctx.app.index.Ties origin contract →
    view.backing origin contract app.bank +
        claimedRewards contract (ctx.observations.map Observation.claim) ≤
      view.backing origin contract ctx.app.bank +
        claimedDeposits contract (ctx.observations.map Observation.claim)

/-- **One observation** is booked. -/
theorem TallyBooks.observe (laws : BankLaws sdk bank view)
    (plain : PlainBooks bank params origin contract) (well : eth.WellLogged) {staking : StakingPowers}
    {blockHeight : Nat} {snapshot : Oracle} {past : List EthereumClaim} {app : ModuleState β}
    {before after : Ctx (ModuleState β) HandleError}
    (holds : TallyBooks view origin contract spelling eth.logs past app before)
    (step : ObserveStep sdk staking (handle sdk bank params) blockHeight snapshot before after)
    (honest : ∀ observation ∈ after.observations, spelling.Reports eth.logs observation.claim) :
    TallyBooks view origin contract spelling eth.logs past app after := by
  obtain ⟨att, _, _, _, nonce, next, failure, processed, rfl⟩ := step
  have reports : spelling.Reports eth.logs att.claim.sortMembers :=
    honest _ (List.mem_append_right _ (List.mem_singleton_self _))
  have reported := holds.reported.next well reports (by
    rw [EthereumClaim.getEventNonce_sortMembers]
    exact nonce)
  have claims : (before.observations ++ [(⟨{ att with observed := true }, att.claim.sortMembers,
      failure⟩ : Observation HandleError)]).map Observation.claim =
        before.observations.map Observation.claim ++ [att.claim.sortMembers] := by
    rw [List.map_append, List.map_singleton]
  have last : (before.oracle.observe sdk blockHeight att).lastObservedEventNonce =
      before.oracle.lastObservedEventNonce + 1 := nonce
  -- an applied claim is booked as it reports, and a failed one pays no reward
  have booked : next.index.Paired ∧ before.app.index.Extends next.index ∧
      (before.app.index.Ties origin contract →
        view.backing origin contract before.app.bank + att.claim.sortMembers.rewardOf contract ≤
          view.backing origin contract next.bank + att.claim.sortMembers.depositOf contract) := by
    unfold processAttestation at processed
    split at processed
    · rename_i handled
      obtain ⟨rfl, rfl⟩ := Prod.mk.inj (Outcome.ok.inj processed)
      obtain ⟨paired, extended⟩ := handle_index handled holds.paired
      exact ⟨paired, extended, fun ties => laws.handle_backing plain holds.paired ties handled⟩
    · rename_i failed
      obtain ⟨rfl, rfl⟩ := Prod.mk.inj (Outcome.ok.inj processed)
      refine ⟨holds.paired, DenomIndex.Extends.refl _, fun _ => ?_⟩
      rw [rewardOf_of_error failed]
      omega
    · cases processed
  obtain ⟨paired, extended, backing⟩ := booked
  refine ⟨paired, holds.extended.trans extended, ?_, fun ties => ?_⟩
  · rw [claims, ← List.append_assoc, last]
    exact reported
  · have earlier := ties.of_extends extended
    have soFar := holds.backing earlier
    have now := backing earlier
    rw [claims, claimedRewards_append, claimedDeposits_append]
    simp only [claimedRewards, claimedDeposits, List.map_cons, List.map_nil, List.sum_cons,
      List.sum_nil] at soFar ⊢
    omega

theorem TallyBooks.chain (laws : BankLaws sdk bank view)
    (plain : PlainBooks bank params origin contract) (well : eth.WellLogged) {staking : StakingPowers}
    {blockHeight : Nat} {snapshot oracle : Oracle} {past : List EthereumClaim} {app : ModuleState β}
    {ctx : Ctx (ModuleState β) HandleError} (paired : app.index.Paired)
    (reported : spelling.ReportsFirst eth.logs past oracle.lastObservedEventNonce)
    (chain : Relation.ReflTransGen (ObserveStep sdk staking (handle sdk bank params) blockHeight
      snapshot) ⟨oracle, app, []⟩ ctx)
    (honest : ∀ observation ∈ ctx.observations, spelling.Reports eth.logs observation.claim) :
    TallyBooks view origin contract spelling eth.logs past app ctx := by
  induction chain with
  | refl =>
      refine ⟨paired, DenomIndex.Extends.refl _, ?_, fun _ => le_rfl⟩
      rw [List.map_nil, List.append_nil]
      exact reported
  | tail _ step ih =>
      refine (ih fun observation member => honest observation ?_).observe laws plain well step honest
      obtain ⟨_, _, _, _, _, _, _, _, rfl⟩ := step
      exact List.mem_append_left _ member

end Tally

/-! ### The books in a run -/

/-- What the rest of the two chains leaves alone: the module account signs nothing; nobody else mints
vouchers of the contract or takes coins of its denom from the module account; and nobody else takes what the
bridge holds of the token. -/
def BridgeInput.Custodial {β τ : Type} (view : BankView β) (held : τ → Int) (origin : Option Bytes)
    (contract : Bytes) : BridgeInput β τ → Prop
  | .sendToEth sender _ _ _ => sender ≠ view.moduleAccount
  | .accounts change => ∀ balances,
      view.supply (change balances) (gravityDenom contract) ≤
        view.supply balances (gravityDenom contract) ∧
      ∀ denom, origin = some denom → view.balance balances view.moduleAccount denom ≤
        view.balance (change balances) view.moduleAccount denom
  | .ethereum change _ => ∀ contracts, held contracts ≤ held (change contracts)
  | _ => True

/-- **The books of a token** after a history: the module's, kept against the transfers and the observed
claims, and the contract's, kept against its logs and the accepted calls. -/
structure Books {β τ : Type} (sdk : Sdk) (view : BankView β) (held : τ → Int) (spelling : Spelling)
    (origin : Option Bytes) (token : EthAddress) (start : Bridge β τ) (past : List BridgeOutput)
    (state : Bridge β τ) : Prop where
  base : BridgeInvariant sdk spelling start.eth.logs past state
  paired : state.chain.app.index.Paired
  uniform : ∀ batch ∈ storedBatches past, ∀ tx ∈ batch.transactions,
    tx.erc20Token.contract = batch.tokenContract
  observed : spelling.ReportsFirst state.eth.logs (observedClaims past)
    state.chain.oracle.lastObservedEventNonce
  backing : state.chain.app.index.Ties origin (spelling.address token) →
    view.backing origin (spelling.address token) start.chain.app.bank +
        worthOf (spelling.address token) (addedTxs (poolHistory past)) +
        claimedRewards (spelling.address token) (observedClaims past) ≤
      view.backing origin (spelling.address token) state.chain.app.bank +
        worthOf (spelling.address token) (refundedTxs (poolHistory past)) +
        claimedDeposits (spelling.address token) (observedClaims past)
  holding : held start.eth.contracts + depositsOf token state.eth.logs ≤
    held state.eth.contracts + approvedPayments token (acceptedCalls past) +
      depositsOf token start.eth.logs
  rewards : rewardsOf token state.eth.logs =
    rewardsOf token start.eth.logs + approvedRewards token (acceptedCalls past)

section Steps

variable {β τ : Type} {sdk : Sdk} {bank : BankKeeper β} {geth : Geth} {params : Params} {evm : Evm}
  {others : Contracts τ} {view : BankView β} {held : τ → Int} {spelling : Spelling}
  {origin : Option Bytes} {token : EthAddress} {start state : Bridge β τ} {past : List BridgeOutput}

/-- **A step keeps the books** when it is booked on both sides. -/
theorem Books.extend (books : Books sdk view held spelling origin token start past state)
    {next : Bridge β τ} {outputs : List BridgeOutput}
    (base : BridgeInvariant sdk spelling start.eth.logs (past ++ outputs) next)
    (index : next.chain.app.index.Paired ∧ state.chain.app.index.Extends next.chain.app.index)
    (uniform : ∀ batch ∈ storedBatches outputs, ∀ tx ∈ batch.transactions,
      tx.erc20Token.contract = batch.tokenContract)
    (observed : spelling.ReportsFirst next.eth.logs (observedClaims past ++ observedClaims outputs)
      next.chain.oracle.lastObservedEventNonce)
    (backing : next.chain.app.index.Ties origin (spelling.address token) →
      view.backing origin (spelling.address token) state.chain.app.bank +
          worthOf (spelling.address token) (addedTxs (poolHistory outputs)) +
          claimedRewards (spelling.address token) (observedClaims outputs) ≤
        view.backing origin (spelling.address token) next.chain.app.bank +
          worthOf (spelling.address token) (refundedTxs (poolHistory outputs)) +
          claimedDeposits (spelling.address token) (observedClaims outputs))
    (holding : held state.eth.contracts + depositsOf token next.eth.logs ≤
      held next.eth.contracts + approvedPayments token (acceptedCalls outputs) +
        depositsOf token state.eth.logs)
    (rewards : rewardsOf token next.eth.logs =
      rewardsOf token state.eth.logs + approvedRewards token (acceptedCalls outputs)) :
    Books sdk view held spelling origin token start (past ++ outputs) next := by
  refine ⟨base, index.1, fun batch member => ?_, ?_, fun ties => ?_, ?_, ?_⟩
  · rw [storedBatches_append] at member
    exact (List.mem_append.mp member).elim (books.uniform batch) (uniform batch)
  · rw [observedClaims_append]
    exact observed
  · have soFar := books.backing (ties.of_extends index.2)
    have now := backing ties
    rw [poolHistory_append, addedTxs, refundedTxs, List.flatMap_append, List.flatMap_append, ← addedTxs,
      ← addedTxs, ← refundedTxs, ← refundedTxs, worthOf_append, worthOf_append, observedClaims_append,
      claimedDeposits_append, claimedRewards_append]
    push_cast
    omega
  · have soFar := books.holding
    rw [acceptedCalls_append, approvedPayments_append]
    push_cast
    omega
  · rw [rewards, books.rewards, acceptedCalls_append, approvedRewards_append]
    omega

/-- An action of the module that observes nothing. -/
theorem Books.module (books : Books sdk view held spelling origin token start past state)
    {app : ModuleState β} {outputs : List BridgeOutput}
    (base : BridgeInvariant sdk spelling start.eth.logs (past ++ outputs) (state.withApp app))
    (index : app.index = state.chain.app.index)
    (uniform : ∀ batch ∈ storedBatches outputs, ∀ tx ∈ batch.transactions,
      tx.erc20Token.contract = batch.tokenContract)
    (noClaims : observedClaims outputs = []) (noCalls : acceptedCalls outputs = [])
    (backing : state.chain.app.index.Ties origin (spelling.address token) →
      view.backing origin (spelling.address token) state.chain.app.bank +
          worthOf (spelling.address token) (addedTxs (poolHistory outputs)) ≤
        view.backing origin (spelling.address token) app.bank +
          worthOf (spelling.address token) (refundedTxs (poolHistory outputs))) :
    Books sdk view held spelling origin token start (past ++ outputs) (state.withApp app) := by
  refine books.extend base ?_ uniform ?_ (fun ties => ?_) ?_ ?_
  · show app.index.Paired ∧ state.chain.app.index.Extends app.index
    rw [index]
    exact ⟨books.paired, DenomIndex.Extends.refl _⟩
  · rw [noClaims, List.append_nil]
    exact books.observed
  · have now := backing (index ▸ ties)
    simpa [noClaims, claimedRewards, claimedDeposits, Bridge.withApp] using now
  · rw [noCalls]
    simp [approvedPayments, Bridge.withApp]
  · rw [noCalls]
    simp [approvedRewards, Bridge.withApp]

/-- An action of Ethereum. -/
theorem Books.ethereum (books : Books sdk view held spelling origin token start past state)
    {eth : Ethereum τ} {outputs : List BridgeOutput} {new : List (GravityEvent × Nat)}
    (base : BridgeInvariant sdk spelling start.eth.logs (past ++ outputs) { state with eth := eth })
    (logs : eth.logs = state.eth.logs ++ new) (noBatches : storedBatches outputs = [])
    (noTransfers : poolHistory outputs = []) (noClaims : observedClaims outputs = [])
    (holding : held state.eth.contracts + depositsOf token new ≤
      held eth.contracts + approvedPayments token (acceptedCalls outputs))
    (rewards : rewardsOf token new = approvedRewards token (acceptedCalls outputs)) :
    Books sdk view held spelling origin token start (past ++ outputs) { state with eth := eth } := by
  refine books.extend base ⟨books.paired, DenomIndex.Extends.refl _⟩ ?_ ?_ (fun _ => ?_) ?_ ?_
  · rw [noBatches]
    exact fun _ member => absurd member List.not_mem_nil
  · show spelling.ReportsFirst eth.logs _ _
    rw [noClaims, List.append_nil, logs]
    exact books.observed.append new
  · simp [noTransfers, noClaims, addedTxs, refundedTxs, worthOf, claimedRewards, claimedDeposits]
  · show held state.eth.contracts + depositsOf token eth.logs ≤ _
    rw [logs, depositsOf_append]
    push_cast
    omega
  · show rewardsOf token eth.logs = _
    rw [logs, rewardsOf_append, rewards]

/-- Nothing the books see has changed. -/
theorem Books.keep (books : Books sdk view held spelling origin token start past state)
    {next : Bridge β τ} {outputs : List BridgeOutput}
    (base : BridgeInvariant sdk spelling start.eth.logs (past ++ outputs) next)
    (index : next.chain.app.index = state.chain.app.index)
    (bank : next.chain.app.bank = state.chain.app.bank)
    (last : next.chain.oracle.lastObservedEventNonce = state.chain.oracle.lastObservedEventNonce)
    (eth : next.eth = state.eth)
    (silent : storedBatches outputs = [] ∧ poolHistory outputs = [] ∧ observedClaims outputs = [] ∧
      acceptedCalls outputs = []) :
    Books sdk view held spelling origin token start (past ++ outputs) next := by
  obtain ⟨noBatches, noTransfers, noClaims, noCalls⟩ := silent
  refine books.extend base ?_ ?_ ?_ (fun _ => ?_) ?_ ?_
  · rw [index]
    exact ⟨books.paired, DenomIndex.Extends.refl _⟩
  · rw [noBatches]
    exact fun _ member => absurd member List.not_mem_nil
  · rw [noClaims, List.append_nil, eth, last]
    exact books.observed
  · simp [noTransfers, noClaims, bank, addedTxs, refundedTxs, worthOf, claimedRewards, claimedDeposits]
  · simp [eth, noCalls, approvedPayments]
  · simp [eth, noCalls, approvedRewards]

/-- A send. -/
theorem Books.send (laws : BankLaws sdk bank view)
    (books : Books sdk view held spelling origin token start past state) {sender : AccAddress}
    {receiver : Bytes} {amount fee : Coin} {id : Nat} {app : ModuleState β}
    (user : sender ≠ view.moduleAccount)
    (sent : addToOutgoingPool sdk bank sender receiver amount fee state.chain.app = .ok (id, app))
    (base : BridgeInvariant sdk spelling start.eth.logs
      (past ++ sentTx sdk state.chain.app id sender receiver amount fee) (state.withApp app)) :
    Books sdk view held spelling origin token start
      (past ++ sentTx sdk state.chain.app id sender receiver amount fee) (state.withApp app) := by
  obtain ⟨⟨_, _, amountValid, feeValid, _⟩, isCosmosOriginated, contract, balances, lookup, taken, _,
    rfl⟩ := addToOutgoingPool_eq_ok sent
  have output : sentTx sdk state.chain.app id sender receiver amount fee = [.sent
      (newOutgoingTransferTx sdk id sender receiver contract amount.amount fee.amount)] := by
    rw [sentTx, lookup]
  rw [output] at base ⊢
  refine books.module base rfl (fun _ member => absurd member List.not_mem_nil) rfl rfl fun ties => ?_
  have added := laws.takeCoins_backing ties lookup user taken
  have amountNonneg : 0 ≤ amount.amount := of_decide_eq_true (Bool.and_eq_true_iff.mp amountValid).2
  have feeNonneg : 0 ≤ fee.amount := of_decide_eq_true (Bool.and_eq_true_iff.mp feeValid).2
  have worth : worthOf (spelling.address token) (addedTxs (poolHistory [.sent
      (newOutgoingTransferTx sdk id sender receiver contract amount.amount fee.amount)])) =
        if contract = spelling.address token then (amount.amount + fee.amount).toNat else 0 := by
    refine (worthOf_singleton _ _).trans ?_
    rw [Int.toNat_add amountNonneg feeNonneg]
    rfl
  have none : worthOf (spelling.address token) (refundedTxs (poolHistory [.sent
      (newOutgoingTransferTx sdk id sender receiver contract amount.amount fee.amount)])) = 0 := rfl
  rw [worth, none]
  dsimp only
  omega

/-- A refund. -/
theorem Books.cancel (laws : BankLaws sdk bank view)
    (books : Books sdk view held spelling origin token start past state) {txId : Nat}
    {sender : AccAddress} {app : ModuleState β}
    (removed : removeFromOutgoingPoolAndRefund sdk bank txId sender state.chain.app = .ok app)
    (base : BridgeInvariant sdk spelling start.eth.logs
      (past ++ ((state.chain.app.outgoing.getUnbatchedTxById txId).map
        BridgeOutput.refunded).toList) (state.withApp app)) :
    Books sdk view held spelling origin token start
      (past ++ ((state.chain.app.outgoing.getUnbatchedTxById txId).map BridgeOutput.refunded).toList)
      (state.withApp app) := by
  obtain ⟨tx, outgoing, coins, balances, found, _, _, _, made, given, rfl⟩ :=
    removeFromOutgoingPoolAndRefund_eq_ok removed
  have output : ((state.chain.app.outgoing.getUnbatchedTxById txId).map
      BridgeOutput.refunded).toList = [.refunded tx] := by
    rw [found]
    rfl
  rw [output] at base ⊢
  -- the record was sent, in the spelling of the reports
  have valid : validateEthAddress tx.erc20Token.contract = .ok () := by
    obtain ⟨_, key, stored⟩ := Outgoing.getUnbatchedTxById_eq_some found
    have waiting : tx ∈ state.chain.app.outgoing.records :=
      List.mem_append_left _ ((Store.mem_values_iff _ _).mpr ⟨key, stored⟩)
    have added : tx ∈ addedTxs (poolHistory past) :=
      books.base.pool.records.mem_iff.mp (List.mem_append_left _ waiting)
    rw [← books.base.spelled tx added]
    exact spelling.valid _
  refine books.module base rfl (fun _ member => absurd member List.not_mem_nil) rfl rfl fun ties => ?_
  have refunded := laws.giveCoins_backing ties valid made given
  have worth : worthOf (spelling.address token) (refundedTxs (poolHistory [.refunded tx])) =
      if tx.erc20Token.contract = spelling.address token then tx.worth else 0 := worthOf_singleton _ _
  have added : worthOf (spelling.address token) (addedTxs (poolHistory [.refunded tx])) = 0 := rfl
  rw [worth, added]
  unfold OutgoingTransferTx.worth
  dsimp only
  split_ifs at refunded ⊢ <;> omega

/-- A new batch. -/
theorem Books.store (books : Books sdk view held spelling origin token start past state)
    {batch : OutgoingTxBatch} {outgoing : Outgoing}
    (built : Outgoing.Built state.chain.app.outgoing batch outgoing)
    (base : BridgeInvariant sdk spelling start.eth.logs (past ++ [.batchStored batch])
      (state.withApp { state.chain.app with outgoing := outgoing })) :
    Books sdk view held spelling origin token start (past ++ [.batchStored batch])
      (state.withApp { state.chain.app with outgoing := outgoing }) := by
  refine books.module base rfl (fun other member => ?_) rfl rfl fun _ => le_of_eq ?_
  · obtain rfl := List.mem_singleton.mp member
    have stored : outgoing.batches.get other.key = some other := by
      rw [built.batches, Store.get_set_self]
    exact built.sound.batchToken _ _ stored
  · rfl

/-- What a block that ends adds to the books: the claims it observed. -/
theorem endBlockOutputs_books (before after : Outgoing) (report : EndBlockReport) :
    storedBatches (endBlockOutputs before after report) = [] ∧
      acceptedCalls (endBlockOutputs before after report) = [] ∧
      addedTxs (poolHistory (endBlockOutputs before after report)) = [] ∧
      refundedTxs (poolHistory (endBlockOutputs before after report)) = [] ∧
      observedClaims (endBlockOutputs before after report) =
        report.observations.map Observation.claim := by
  have transfers : poolHistory (endBlockOutputs before after report) = (executedBatches before
      (report.observations.map Observation.claim)).map .executed := by
    rw [poolHistory, flatMap_endBlockOutputs _ _ _ _ (fun _ => rfl) (fun _ => rfl) fun _ => rfl]
    exact List.map_eq_flatMap.symm
  refine ⟨?_, ?_, ?_, ?_, ?_⟩
  · rw [storedBatches, flatMap_endBlockOutputs _ _ _ _ (fun _ => rfl) (fun _ => rfl) fun _ => rfl]
    exact flatMap_none _
  · rw [acceptedCalls, flatMap_endBlockOutputs _ _ _ _ (fun _ => rfl) (fun _ => rfl) fun _ => rfl]
    exact flatMap_none _
  · rw [transfers, addedTxs, List.flatMap_map]
    exact flatMap_none _
  · rw [transfers, refundedTxs, List.flatMap_map]
    exact flatMap_none _
  · have noValset : observedClaims (report.valset.map BridgeOutput.valsetStored).toList = [] := by
      cases report.valset <;> rfl
    have noExecuted : ∀ batches : List OutgoingTxBatch,
        observedClaims (batches.map BridgeOutput.executed) = [] := fun batches =>
      (flatMap_map_eq batches fun _ => rfl).trans (flatMap_none batches)
    have noCancelled : ∀ batches : List OutgoingTxBatch,
        observedClaims (batches.map BridgeOutput.cancelled) = [] := fun batches =>
      (flatMap_map_eq batches fun _ => rfl).trans (flatMap_none batches)
    rw [endBlockOutputs, observedClaims_append, observedClaims_append, observedClaims_append, noValset,
      noExecuted, noCancelled, List.append_nil, List.append_nil, List.append_nil, observedClaims,
      flatMap_map_eq _ fun _ => rfl]
    exact List.flatMap_singleton' _

/-- A block that ends: the claims of the tally are booked, and the rest moves no coins. -/
theorem Books.endBlock (laws : BankLaws sdk bank view)
    (plain : PlainBooks bank params origin (spelling.address token))
    (books : Books sdk view held spelling origin token start past state) {env : EndBlockEnv}
    {chain : Chain β} {report : EndBlockReport}
    (ended : endBlocker sdk bank geth params env state.chain = .ok (chain, report))
    (honest : Justified (BridgeOutput.Honest spelling start.eth.logs) past
      (endBlockOutputs state.chain.app.outgoing chain.app.outgoing report))
    (base : BridgeInvariant sdk spelling start.eth.logs
      (past ++ endBlockOutputs state.chain.app.outgoing chain.app.outgoing report)
      { state with chain := chain }) :
    Books sdk view held spelling origin token start
      (past ++ endBlockOutputs state.chain.app.outgoing chain.app.outgoing report)
      { state with chain := chain } := by
  obtain ⟨ctx, outgoing, made, store, counted, _, _, rfl, rfl⟩ := endBlocker_eq_ok ended
  obtain ⟨outputs, oracle⟩ := books.base.oracle
  have counting := (oracle.tally_meets env.staking (handle sdk bank params) env.blockHeight
    state.chain.app).ok counted
  have pruned := pruneAttestations_pruned (oracle.tally counted).ballots.keyed
  have noLogs : loggedEvents (endBlockOutputs state.chain.app.outgoing (outgoing.recordValset made)
      ⟨ctx.observations, made.map Prod.fst⟩) = [] := by
    rw [loggedEvents, flatMap_endBlockOutputs _ _ _ _ (fun _ => rfl) (fun _ => rfl) fun _ => rfl]
    exact flatMap_none _
  have reports : ∀ observation ∈ ctx.observations,
      spelling.Reports state.eth.logs observation.claim := by
    intro observation member
    refine books.base.reports_of_observed honest noLogs (List.mem_append_left _ ?_)
    exact List.mem_map_of_mem (List.mem_map_of_mem member)
  have tally : TallyBooks view origin (spelling.address token) spelling state.eth.logs
      (observedClaims past) state.chain.app ctx :=
    TallyBooks.chain laws plain books.base.wellLogged books.paired books.observed counting reports
  obtain ⟨noStored, noCalls, noAdded, noRefunded, claims⟩ := endBlockOutputs_books
    state.chain.app.outgoing (outgoing.recordValset made) ⟨ctx.observations, made.map Prod.fst⟩
  refine books.extend base ⟨tally.paired, tally.extended⟩ ?_ ?_ (fun ties => ?_) ?_ ?_
  · rw [noStored]
    exact fun _ member => absurd member List.not_mem_nil
  · rw [claims]
    show spelling.ReportsFirst state.eth.logs _ (pruneAttestations sdk ctx.oracle).lastObservedEventNonce
    rw [pruned.lastObserved]
    exact tally.reported
  · have backing := tally.backing ties
    rw [noAdded, noRefunded, claims]
    simp only [worthOf, List.filter_nil, List.map_nil, List.sum_nil]
    exact_mod_cast (by omega)
  · rw [noCalls]
    simp [approvedPayments]
  · rw [noCalls]
    simp [approvedRewards]

/-- A call. -/
theorem Books.call (tokens : HoldingLaws evm others held token)
    (books : Books sdk view held spelling origin token start past state) {sender : EthAddress}
    {call : GravityCall} {eth : Ethereum τ} (done : state.eth.call evm others sender call = .ok eth)
    (base : BridgeInvariant sdk spelling start.eth.logs (past ++ callOutputs sender call state.eth eth)
      { state with eth := eth }) :
    Books sdk view held spelling origin token start (past ++ callOutputs sender call state.eth eth)
      { state with eth := eth } := by
  obtain ⟨new, logs, rewards, holding⟩ := tokens.callAt done
  have calls : acceptedCalls (callOutputs sender call state.eth eth) = [call] := by
    rw [acceptedCalls, flatMap_callOutputs, flatMap_none, List.append_nil]
  refine books.ethereum base logs ?_ ?_ ?_ ?_ ?_
  · rw [storedBatches, flatMap_callOutputs]
    exact flatMap_none _
  · rw [poolHistory, flatMap_callOutputs]
    exact flatMap_none _
  · rw [observedClaims, flatMap_callOutputs]
    exact flatMap_none _
  · rw [calls, approvedPayments, List.map_singleton, List.sum_singleton]
    exact holding
  · rw [calls, approvedRewards, List.map_singleton, List.sum_singleton]
    exact rewards

/-- **Every step keeps the books.** -/
theorem Books.step (laws : BankLaws sdk bank view) (tokens : HoldingLaws evm others held token)
    (plain : PlainBooks bank params origin (spelling.address token))
    (books : Books sdk view held spelling origin token start past state) {input : BridgeInput β τ}
    {next : Bridge β τ} {outputs : List BridgeOutput}
    (custodial : input.Custodial view held origin (spelling.address token))
    (step : bridgeStep sdk bank geth params evm others state input = some (next, outputs))
    (honest : Justified (BridgeOutput.Honest spelling start.eth.logs) past outputs) :
    Books sdk view held spelling origin token start (past ++ outputs) next := by
  have base := books.base.step step honest
  have unchanged : some (state, []) = some (next, outputs) →
      Books sdk view held spelling origin token start (past ++ outputs) next := by
    intro equal
    obtain ⟨rfl, rfl⟩ := Prod.mk.inj (Option.some.inj equal)
    rwa [List.append_nil]
  cases input with
  | sendToEth sender receiver amount fee =>
      simp only [bridgeStep] at step
      split_ifs at step
      split at step
      · rename_i id app sent
        obtain ⟨rfl, rfl⟩ := Prod.mk.inj (Option.some.inj step)
        exact books.send laws custodial sent base
      · exact unchanged step
  | cancelSendToEth txId sender =>
      simp only [bridgeStep] at step
      split_ifs at step
      split at step
      · rename_i app removed
        obtain ⟨rfl, rfl⟩ := Prod.mk.inj (Option.some.inj step)
        exact books.cancel laws removed base
      · exact unchanged step
  | requestBatch denom maxElements blockHeight =>
      simp only [bridgeStep] at step
      split_ifs at step
      split at step
      · rename_i batch outgoing built
        unfold NabBridge.requestBatch at built
        split at built
        · cases built
        · rename_i isCosmosOriginated contract lookup
          have result := (books.base.pool.sound.buildOutgoingTXBatch_meets geth params
            state.chain.oracle.lastObservedEthereumBlockHeight blockHeight maxElements
            (books.base.pool.addresses.lookup lookup)).ok built
          cases batch with
          | none =>
              obtain rfl : outgoing = state.chain.app.outgoing := result
              exact unchanged step
          | some batch =>
              obtain ⟨rfl, rfl⟩ := Prod.mk.inj (Option.some.inj step)
              exact books.store result.1 base
      · exact unchanged step
  | claim orchestratorValidator blockHeight claim =>
      simp only [bridgeStep] at step
      split_ifs at step
      split at step
      · rename_i oracle att voted
        obtain ⟨rfl, rfl⟩ := Prod.mk.inj (Option.some.inj step)
        obtain ⟨_, _, _, _, rfl⟩ := attest_eq_ok voted
        exact books.keep base rfl rfl rfl rfl ⟨rfl, rfl, rfl, rfl⟩
      · exact unchanged step
  | endBlock env =>
      simp only [bridgeStep] at step
      split_ifs at step
      split at step
      · rename_i chain report ended
        obtain ⟨rfl, rfl⟩ := Prod.mk.inj (Option.some.inj step)
        exact books.endBlock laws plain ended honest base
      · rename_i reason _
        exact reason.elim
      · rename_i reason panics
        obtain ⟨rfl, rfl⟩ := Prod.mk.inj (Option.some.inj step)
        exact books.keep base rfl rfl rfl rfl ⟨rfl, rfl, rfl, rfl⟩
  | accounts change =>
      obtain ⟨rfl, rfl⟩ := Prod.mk.inj (Option.some.inj step)
      refine books.module base rfl (fun _ member => absurd member List.not_mem_nil) rfl rfl fun _ => ?_
      obtain ⟨vouchers, locked⟩ := custodial state.chain.app.bank
      have kept : view.backing origin (spelling.address token) state.chain.app.bank ≤
          view.backing origin (spelling.address token) (change state.chain.app.bank) := by
        unfold BankView.backing
        cases own : origin with
        | none =>
            simp only [Option.elim_none]
            omega
        | some denom =>
            have kept := locked denom own
            simp only [Option.elim_some]
            omega
      exact Int.add_le_add_right kept 0
  | call sender call =>
      simp only [bridgeStep] at step
      split at step
      · rename_i eth done
        obtain ⟨rfl, rfl⟩ := Prod.mk.inj (Option.some.inj step)
        exact books.call tokens done base
      · exact unchanged step
  | ethereum change newBlocks =>
      obtain ⟨rfl, rfl⟩ := Prod.mk.inj (Option.some.inj step)
      refine books.ethereum base (List.append_nil _).symm rfl rfl rfl ?_ rfl
      exact Int.add_le_add_right (custodial state.eth.contracts) 0

/-- **The books are balanced at the start.** -/
theorem books_fresh {gravityId : Bytes} {powerThreshold : Nat} {validators : List EthAddress}
    {powers : List Nat} {wNomAddress : EthAddress} {contracts : τ} {blockNumber : Nat} {balances : β}
    {eth : Ethereum τ}
    (deployed : deployGravity evm gravityId powerThreshold validators powers wNomAddress contracts
      blockNumber = .ok eth) :
    Books sdk view held spelling origin token ⟨Chain.fresh balances, eth, false⟩ []
      ⟨Chain.fresh balances, eth, false⟩ := by
  refine ⟨bridgeInvariant_fresh deployed, DenomIndex.paired_empty,
    fun _ member => absurd member List.not_mem_nil, ⟨Nat.zero_le _, List.Forall₂.nil⟩, fun _ => le_rfl,
    le_of_eq ?_, rfl⟩
  simp [acceptedCalls, approvedPayments]

/-- **Every run keeps the books.** -/
theorem books_run (laws : BankLaws sdk bank view) (tokens : HoldingLaws evm others held token)
    (plain : PlainBooks bank params origin (spelling.address token)) {gravityId : Bytes}
    {powerThreshold : Nat} {validators : List EthAddress} {powers : List Nat} {wNomAddress : EthAddress}
    {contracts : τ} {blockNumber : Nat} {balances : β} {eth : Ethereum τ}
    {inputs : List (BridgeInput β τ)}
    (deployed : deployGravity evm gravityId powerThreshold validators powers wNomAddress contracts
      blockNumber = .ok eth)
    (custodial : ∀ input ∈ inputs, input.Custodial view held origin (spelling.address token))
    (runs : run (bridgeStep sdk bank geth params evm others) ⟨Chain.fresh balances, eth, false⟩ inputs =
      some (state, past))
    (honest : Justified (BridgeOutput.Honest spelling eth.logs) [] past) :
    Books sdk view held spelling origin token ⟨Chain.fresh balances, eth, false⟩ past state :=
  run_invariant_of_justified (BridgeInput.Custodial view held origin (spelling.address token))
    (BridgeOutput.Honest spelling eth.logs)
    (Books sdk view held spelling origin token ⟨Chain.fresh balances, eth, false⟩)
    (fun _ _ _ _ _ custodial books step honest => books.step laws tokens plain custodial step honest)
    custodial (books_fresh deployed) runs honest

end Steps

/-! ### Solvency -/

/-- The stored batches the contract has not paid. -/
def unpaidBatches (trace : List BridgeOutput) (outgoing : Outgoing) : List OutgoingTxBatch :=
  outgoing.batches.values.filter fun batch => batch.args ∉ paidArgs trace

section Results

variable {β τ : Type} {sdk : Sdk} {view : BankView β} {held : τ → Int} {spelling : Spelling}
  {origin : Option Bytes} {token : EthAddress} {start state : Bridge β τ} {trace : List BridgeOutput}

/-- What the contract was approved to pay for a batch is what its records are worth. -/
theorem Books.paysOf_args (books : Books sdk view held spelling origin token start trace state)
    {protocol : Settlement OutgoingTxBatch EthAddress}
    (follows : Follows spelling (storedBatches trace) (settledBatches trace) (paidArgs trace) state.eth
      state.chain.oracle state.chain.app.outgoing protocol) {batch : OutgoingTxBatch}
    (stored : batch ∈ protocol.stored) :
    batch.args.paysOf token = worthOf (spelling.address token) batch.transactions := by
  have known := (follows.stored batch).mp stored
  have spelled : hexToAddress batch.tokenContract = token ↔
      batch.tokenContract = spelling.address token := by
    refine ⟨fun same => ?_, fun same => by rw [same, spelling.reads]⟩
    rw [← follows.canonical batch known, same]
  have sums : batch.args.amounts.sum + batch.args.fees.sum =
      (batch.transactions.map OutgoingTransferTx.worth).sum := List.sum_map_add.symm
  rw [worthOf_uniform _ (books.uniform batch known), BatchArgs.paysOf, sums]
  exact if_congr spelled rfl rfl

/-- **What was paid is executed or still stored.** -/
theorem Books.paid_le (books : Books sdk view held spelling origin token start trace state) :
    ((paidArgs trace).map (BatchArgs.paysOf token)).sum +
        worthOf (spelling.address token) ((unpaidBatches trace state.chain.app.outgoing).flatMap
          OutgoingTxBatch.transactions) ≤
      worthOf (spelling.address token) state.chain.app.outgoing.batched +
        worthOf (spelling.address token) (executedTxs (poolHistory trace)) := by
  obtain ⟨protocol, follows, _⟩ := books.base.protocol
  have paid : (paidArgs trace).map (BatchArgs.paysOf token) =
      protocol.accepted.map fun batch => worthOf (spelling.address token) batch.transactions := by
    rw [← follows.paid, List.map_map]
    exact List.map_congr_left fun batch member =>
      books.paysOf_args follows (follows.safe.accepted_stored batch member)
  -- an accepted batch is executed, or stored and paid
  have inside : protocol.accepted ⊆ settledBatches trace ++
      state.chain.app.outgoing.batches.values.filter fun batch => batch.args ∈ paidArgs trace := by
    intro batch member
    rcases follows.safe.settled_or_opened member with settled | opened
    · exact List.mem_append_left _ ((follows.settled batch).mp settled)
    · refine List.mem_append_right _ (List.mem_filter.mpr ⟨?_, decide_eq_true ?_⟩)
      · exact (Store.mem_values_iff _ _).mpr ⟨_, (follows.opened batch).mp opened⟩
      · rw [← follows.paid]
        exact List.mem_map_of_mem member
  obtain ⟨batches, perm, sublist⟩ := List.subperm_of_subset follows.safe.once inside
  have bound : (protocol.accepted.map fun batch =>
      worthOf (spelling.address token) batch.transactions).sum ≤
        ((settledBatches trace ++ state.chain.app.outgoing.batches.values.filter fun batch =>
          batch.args ∈ paidArgs trace).map fun batch =>
            worthOf (spelling.address token) batch.transactions).sum := by
    rw [← (perm.map _).sum_nat]
    exact List.Sublist.sum_le_sum (sublist.map _) fun _ _ => Nat.zero_le _
  have split := worthOf_perm (spelling.address token) ((List.filter_append_perm
    (fun batch => decide (batch.args ∈ paidArgs trace))
    state.chain.app.outgoing.batches.values).flatMap_right OutgoingTxBatch.transactions)
  have unpaid : unpaidBatches trace state.chain.app.outgoing =
      state.chain.app.outgoing.batches.values.filter
        fun batch => !decide (batch.args ∈ paidArgs trace) :=
    List.filter_congr fun batch _ => by simp
  rw [List.flatMap_append, worthOf_append, ← unpaid] at split
  rw [List.map_append, List.sum_append, ← worthOf_flatMap, ← worthOf_flatMap, ← worthOf_flatMap] at bound
  rw [paid, ← worthOf_flatMap, executedTxs_poolHistory, Outgoing.batched, ← split]
  omega

/-- **The balance of the books**: what is owed is covered by what the module backs and the contract
holds. -/
theorem Books.solvent (books : Books sdk view held spelling origin token start trace state)
    (ties : state.chain.app.index.Ties origin (spelling.address token))
    (fresh : depositsOf token start.eth.logs = 0 ∧ rewardsOf token start.eth.logs = 0) :
    view.backing origin (spelling.address token) start.chain.app.bank + held start.eth.contracts +
        worthOf (spelling.address token) state.chain.app.outgoing.pool.values +
        worthOf (spelling.address token) ((unpaidBatches trace state.chain.app.outgoing).flatMap
          OutgoingTxBatch.transactions) +
        depositsOf token (state.eth.logs.drop state.chain.oracle.lastObservedEventNonce) ≤
      view.backing origin (spelling.address token) state.chain.app.bank + held state.eth.contracts +
        rewardsOf token (state.eth.logs.drop state.chain.oracle.lastObservedEventNonce) +
        logicPayments token (acceptedCalls trace) := by
  have module := books.backing ties
  have contract := books.holding
  have rewards := books.rewards
  have paid := books.paid_le
  obtain ⟨deposits, observedRewards⟩ := books.observed.sums token
  have transfers := worthOf_perm (spelling.address token) books.base.pool.records
  have logs := List.take_append_drop state.chain.oracle.lastObservedEventNonce state.eth.logs
  rw [worthOf_append, worthOf_append, Outgoing.records, worthOf_append] at transfers
  rw [approvedPayments_eq] at contract
  rw [← logs, depositsOf_append] at contract
  rw [← logs, rewardsOf_append] at rewards
  rw [deposits, observedRewards] at module
  omega

end Results

section Solvent

variable {β τ : Type} {sdk : Sdk} {bank : BankKeeper β} {geth : Geth} {params : Params} {evm : Evm}
  {others : Contracts τ} {view : BankView β} {spelling : Spelling} {token : EthAddress}
  {state : Bridge β τ} {trace : List BridgeOutput}

/-- A new contract has logged nothing but its first validator set, without a reward. -/
theorem deployGravity_logs {gravityId : Bytes} {powerThreshold : Nat} {validators : List EthAddress}
    {powers : List Nat} {wNomAddress : EthAddress} {contracts : τ} {blockNumber : Nat} {eth : Ethereum τ}
    (deployed : deployGravity evm gravityId powerThreshold validators powers wNomAddress contracts
      blockNumber = .ok eth) (token : EthAddress) :
    eth.contracts = contracts ∧ depositsOf token eth.logs = 0 ∧ rewardsOf token eth.logs = 0 := by
  obtain ⟨_, _, _, rfl⟩ := deployGravity_eq_ok deployed
  simp [depositsOf, rewardsOf, GravityEvent.depositOf, GravityEvent.rewardOf]

/-- **A denom of Cosmos is backed.** `outside` is what of the token is in other hands than the bridge's. In
every run of the two chains from their deployment, with honest reports, the module account holds what is
outside, the transfers that wait in the pool or in a batch the contract has not paid, and the deposits the
module has not observed; only rewards the module has not observed and logic calls have put more outside. -/
theorem cosmos_originated_solvent {outside : τ → Nat} {denom : Bytes} (laws : BankLaws sdk bank view)
    (tokens : HoldingLaws evm others (fun contracts => -(outside contracts : Int)) token)
    (plain : PlainBooks bank params (some denom) (spelling.address token)) {gravityId : Bytes}
    {powerThreshold : Nat} {validators : List EthAddress} {powers : List Nat} {wNomAddress : EthAddress}
    {contracts : τ} {blockNumber : Nat} {balances : β} {eth : Ethereum τ}
    {inputs : List (BridgeInput β τ)} (nothingOutside : outside contracts = 0)
    (noVouchers : view.supply balances (gravityDenom (spelling.address token)) = 0)
    (deployed : deployGravity evm gravityId powerThreshold validators powers wNomAddress contracts
      blockNumber = .ok eth)
    (custodial : ∀ input ∈ inputs, input.Custodial view (fun contracts => -(outside contracts : Int))
      (some denom) (spelling.address token))
    (runs : run (bridgeStep sdk bank geth params evm others) ⟨Chain.fresh balances, eth, false⟩ inputs =
      some (state, trace))
    (honest : Justified (BridgeOutput.Honest spelling eth.logs) [] trace)
    (ties : state.chain.app.index.Ties (some denom) (spelling.address token)) :
    outside state.eth.contracts +
        worthOf (spelling.address token) state.chain.app.outgoing.pool.values +
        worthOf (spelling.address token) ((unpaidBatches trace state.chain.app.outgoing).flatMap
          OutgoingTxBatch.transactions) +
        depositsOf token (state.eth.logs.drop state.chain.oracle.lastObservedEventNonce) ≤
      view.balance state.chain.app.bank view.moduleAccount denom +
        rewardsOf token (state.eth.logs.drop state.chain.oracle.lastObservedEventNonce) +
        logicPayments token (acceptedCalls trace) := by
  have books := books_run laws tokens plain deployed custodial runs honest
  obtain ⟨untouched, fresh⟩ := deployGravity_logs deployed token
  have balanced := books.solvent ties fresh
  simp only [BankView.backing, Option.elim_some, Chain.fresh, noVouchers, untouched, nothingOutside]
    at balanced
  omega

end Solvent

/-! ### Two runs -/

/-- A token that is one number: what a transfer and a deposit make of it. -/
def countedContracts (token : EthAddress) (pay take : Nat → Nat → Option Nat) : Contracts Nat where
  safeTransfer other _ amount eth :=
    if other = token then ((pay amount eth.contracts).map (Callee.returns [])).getD .reverts
    else .returns [] eth.contracts
  safeTransferFrom other _ amount eth :=
    if other = token then ((take amount eth.contracts).map (Callee.returns [])).getD .reverts
    else .returns [] eth.contracts
  burn _ eth := .returns [] eth.contracts
  functionCall _ _ eth := .returns [] eth.contracts
  newCosmosERC20 _ count := (token, count)

theorem external_counted {τ : Type} {entry : Entry τ} {eth after : Ethereum τ}
    {callee : Ethereum τ → Callee τ} (moved : Option τ)
    (returns : callee eth = (moved.map (Callee.returns [])).getD .reverts)
    (done : eth.external entry callee = .ok after) : moved = some after.contracts := by
  unfold Ethereum.external at done
  cases moved with
  | none => simp [returns, Callee.run] at done
  | some contracts =>
      rw [returns] at done
      obtain rfl := Except.ok.inj done
      rfl

/-- Such a token is plain when a transfer and a deposit move what is held by the amount. -/
theorem countedContracts_laws {evm : Evm} {token : EthAddress} {pay take : Nat → Nat → Option Nat}
    {held : Nat → Int}
    (pays : ∀ amount count next, pay amount count = some next → held count ≤ held next + amount)
    (takes : ∀ amount count next, take amount count = some next → held count + amount ≤ held next) :
    HoldingLaws evm (countedContracts token pay take) held token where
  pays depth recipient amount eth after _ done :=
    pays amount _ _ (external_counted (pay amount eth.contracts) (if_pos rfl) done)
  receives depth sender amount eth after _ done :=
    takes amount _ _ (external_counted (take amount eth.contracts) (if_pos rfl) done)
  otherPays depth other recipient amount eth after _ different done := by
    have same := external_counted (some eth.contracts) (if_neg different) done
    exact le_of_eq (congrArg held (Option.some.inj same))
  otherReceives depth other sender amount eth after _ different done := by
    have same := external_counted (some eth.contracts) (if_neg different) done
    exact le_of_eq (congrArg held (Option.some.inj same))
  burns depth amount eth after _ done := by
    have same := external_counted (some eth.contracts) rfl done
    exact le_of_eq (congrArg held (Option.some.inj same))
  runs depth address payload eth result _ done := by
    obtain rfl := Except.ok.inj done
    exact le_rfl
  deploys args contracts := le_rfl

/-- The bridge's balance of a token of Ethereum. -/
def exampleVault : Contracts Nat :=
  countedContracts (hexToAddress exampleContract)
    (fun amount held => if amount ≤ held then some (held - amount) else none)
    fun amount held => some (held + amount)

/-- What is outside of a token of Cosmos. -/
def exampleWrapper : Contracts Nat :=
  countedContracts 7 (fun amount outside => some (outside + amount))
    fun amount outside => if amount ≤ outside then some (outside - amount) else none

theorem exampleVault_laws : HoldingLaws exampleEvm exampleVault (fun held => (held : Int))
    (hexToAddress exampleContract) := by
  refine countedContracts_laws (fun amount count next moved => ?_) fun amount count next moved => ?_
  · split_ifs at moved
    obtain rfl := Option.some.inj moved
    omega
  · obtain rfl := Option.some.inj moved
    omega

theorem exampleWrapper_laws : HoldingLaws exampleEvm exampleWrapper (fun outside => -(outside : Int)) 7 := by
  refine countedContracts_laws (fun amount count next moved => ?_) fun amount count next moved => ?_
  · obtain rfl := Option.some.inj moved
    omega
  · split_ifs at moved
    obtain rfl := Option.some.inj moved
    omega

/-- The contract of `exampleCurrentValset`, among contracts that have nothing yet. -/
def exampleBridge : Except GravityRevert (Ethereum Nat) :=
  deployGravity exampleEvm (rightPad 32 (ascii "onomy-gravity")) 2863311530 exampleCurrentValset.validators
    exampleCurrentValset.powers 0 0 100

/-- One account has a thousand coins of a denom. -/
def exampleHome : Ledger where
  balance account denom := if account = List.replicate 20 1 ∧ denom = ascii "unom" then 1000 else 0
  supply denom := if denom = ascii "unom" then 1000 else 0
  metadata _ := ⟨[], ascii "unom", ascii "NOM", [(ascii "NOM", 18)]⟩

/-- A claim of the one validator's orchestrator. -/
def exampleReport (blockHeight : Nat) (claim : EthereumClaim) : BridgeInput Ledger Nat :=
  .claim (fun _ => some (List.replicate 20 1)) blockHeight claim

/-- The deployment is observed. -/
def exampleStart : List (BridgeInput Ledger Nat) :=
  [exampleReport 5 (.valsetUpdated ⟨1, 0, 100,
      [⟨maxUint32, ascii "0xd041c41ea1bf0f006adbb6d2c9ef9d425de5ead7"⟩], some 0, zeroAddress,
      ascii "cosmos1qyqszqgpqyqszqgpqyqszqgpqyqszqgpjnp7du"⟩),
    .endBlock (exampleEnv 5)]

/-- A deposit to the account. -/
def exampleDepositOf (token : EthAddress) (amount : Nat) : BridgeInput Ledger Nat :=
  .call 9 (.sendToCosmos token (List.replicate 12 0 ++ List.replicate 20 1) amount)

/-- A transfer of the account in a denom. -/
def exampleSendOf (denom : Bytes) (amount fee : Int) : BridgeInput Ledger Nat :=
  .sendToEth (List.replicate 20 1) (ascii "0x2222222222222222222222222222222222222222") ⟨denom, amount⟩
    ⟨denom, fee⟩

/-- The contract pays a batch of one transfer. -/
def examplePayment (token : EthAddress) (amount fee : Nat) : BridgeInput Ledger Nat :=
  .call 9 (.submitBatch exampleCurrentValset ⟨[27], [List.replicate 32 0], [List.replicate 32 0]⟩
    ⟨[amount], [hexToAddress (ascii "0x2222222222222222222222222222222222222222")], [fee], 1, token, 2980⟩)

/-- A deposit of 100 is observed; of two transfers of it one is batched and paid; a deposit of 50 and the
batch are not observed. -/
def exampleVouchers : List (BridgeInput Ledger Nat) :=
  exampleStart ++ [exampleDepositOf (hexToAddress exampleContract) 100,
    exampleReport 6 (.sendToCosmos ⟨2, 100, exampleContract, some 100, hexOfAddress 9,
      exampleSdk.accAddressString (List.replicate 20 1),
      ascii "cosmos1qyqszqgpqyqszqgpqyqszqgpqyqszqgpjnp7du"⟩), .endBlock (exampleEnv 6),
    exampleSendOf (gravityDenom exampleContract) 10 1, exampleSendOf (gravityDenom exampleContract) 5 0,
    .requestBatch (gravityDenom exampleContract) 1 6, exampleDepositOf (hexToAddress exampleContract) 50,
    examplePayment (hexToAddress exampleContract) 10 1]

/-- The token of a denom is deployed; of two transfers one is batched and paid; a part of it comes back. -/
def exampleWrapped : List (BridgeInput Ledger Nat) :=
  exampleStart ++ [.call 9 (.deployERC20 ⟨ascii "unom", ascii "NOM", ascii "NOM", 18⟩),
    exampleReport 6 (.erc20Deployed ⟨2, 100, ascii "unom", hexOfAddress 7, ascii "NOM", ascii "NOM", 18,
      ascii "cosmos1qyqszqgpqyqszqgpqyqszqgpqyqszqgpjnp7du"⟩), .endBlock (exampleEnv 6),
    exampleSendOf (ascii "unom") 10 1, exampleSendOf (ascii "unom") 5 0,
    .requestBatch (ascii "unom") 1 6, examplePayment 7 10 1, exampleDepositOf 7 4]

/-- No account has anything. -/
def exampleEmptyLedger : Ledger := ⟨fun _ _ => 0, fun _ => 0, fun _ => ⟨[], [], [], []⟩⟩

theorem exampleVouchers_run :
    (exampleBridge.toOption.bind fun eth =>
      (run (bridgeStep exampleSdk (ledgerBank exampleModuleAccount) exampleGeth exampleParams exampleEvm
        exampleVault) ⟨Chain.fresh exampleEmptyLedger, eth, false⟩ exampleVouchers).map fun result =>
          (decide (Justified (BridgeOutput.Honest exampleSpelling eth.logs) [] result.2),
            (decide (result.1.chain.app.index = DenomIndex.empty),
              (result.1.chain.app.bank.supply (gravityDenom exampleContract),
                result.1.eth.contracts)))) = some (true, (true, (84, 139))) := by
  decide +kernel

theorem exampleWrapped_run :
    (exampleBridge.toOption.bind fun eth =>
      (run (bridgeStep exampleSdk (ledgerBank exampleModuleAccount) exampleGeth exampleParams exampleEvm
        exampleWrapper) ⟨Chain.fresh exampleHome, eth, false⟩ exampleWrapped).map fun result =>
          (decide (Justified (BridgeOutput.Honest exampleSpelling eth.logs) [] result.2),
            (decide (result.1.chain.app.index = DenomIndex.empty.setCosmosOriginatedDenomToERC20
              (ascii "unom") (hexOfAddress 7)),
              (result.1.eth.contracts,
                result.1.chain.app.bank.balance exampleModuleAccount (ascii "unom"))))) =
      some (true, (true, (7, 16))) := by
  decide +kernel

/-- The books of a ledger, where there is no permanent swap. -/
theorem examplePlain {origin : Option Bytes} (contract : Bytes) (nonzero : contract ≠ zeroAddress) :
    PlainBooks (ledgerBank exampleModuleAccount) exampleParams origin contract where
  nonzero := nonzero
  swap swapped := by
    have empty : gravityDenomPrefix = [] := (List.append_eq_nil_iff.mp swapped.symm).1
    exact absurd empty (by decide)
  mints _ coins balances reason valid failed := by
    unfold ledgerBank Ledger.mint at failed
    dsimp only at failed
    rw [if_neg (not_not.mpr valid)] at failed
    split_ifs at failed

theorem ties_empty (contract : Bytes) : DenomIndex.empty.Ties none contract where
  forward _ found := by cases found
  only _ _ own := by cases own
  plain _ _ own := by cases own
  voucher := rfl

theorem ties_single {denom contract : Bytes} (plain : (gravityDenomToERC20 denom).toOption = none)
    (voucher : gravityDenom contract ≠ denom) :
    (DenomIndex.empty.setCosmosOriginatedDenomToERC20 denom contract).Ties (some denom) contract where
  forward other found := by
    rw [DenomIndex.getCosmosOriginatedERC20_set] at found
    split_ifs at found with same
    · exact congrArg some same.symm
    · cases found
  only other address own found := by
    obtain rfl := Option.some.inj own
    rw [DenomIndex.getCosmosOriginatedERC20_set, if_pos rfl] at found
    exact (Option.some.inj found).symm
  plain other address own read := by
    obtain rfl := Option.some.inj own
    rw [read] at plain
    cases plain
  voucher := by
    rw [DenomIndex.getCosmosOriginatedERC20_set, if_neg voucher]
    rfl

theorem cosmos_originated_solvent_returned : ∃ eth state trace,
    exampleBridge = .ok eth ∧
    run (bridgeStep exampleSdk (ledgerBank exampleModuleAccount) exampleGeth exampleParams exampleEvm
      exampleWrapper) ⟨Chain.fresh exampleHome, eth, false⟩ exampleWrapped = some (state, trace) ∧
    state.eth.contracts = 7 ∧
    state.chain.app.bank.balance exampleModuleAccount (ascii "unom") = 16 ∧
    7 + worthOf (hexOfAddress 7) state.chain.app.outgoing.pool.values +
        worthOf (hexOfAddress 7) ((unpaidBatches trace state.chain.app.outgoing).flatMap
          OutgoingTxBatch.transactions) +
        depositsOf 7 (state.eth.logs.drop state.chain.oracle.lastObservedEventNonce) ≤
      16 + rewardsOf 7 (state.eth.logs.drop state.chain.oracle.lastObservedEventNonce) +
        logicPayments 7 (acceptedCalls trace) := by
  obtain ⟨eth, deployed, runs⟩ := Option.bind_eq_some_iff.mp exampleWrapped_run
  obtain ⟨⟨state, trace⟩, runs, equal⟩ := Option.map_eq_some_iff.mp runs
  have deployed : exampleBridge = .ok eth := except_eq_ok_of_toOption deployed
  obtain ⟨honest, equal⟩ := Prod.mk.inj equal
  obtain ⟨index, equal⟩ := Prod.mk.inj equal
  obtain ⟨outside, locked⟩ := Prod.mk.inj equal
  have plain : PlainBooks (ledgerBank exampleModuleAccount) exampleParams (some (ascii "unom"))
      (exampleSpelling.address 7) := examplePlain _ (by decide +kernel)
  have custodial : ∀ input ∈ exampleWrapped, input.Custodial (ledgerView exampleModuleAccount)
      (fun outside : Nat => -(outside : Int)) (some (ascii "unom")) (exampleSpelling.address 7) := by
    simp [exampleWrapped, exampleStart, exampleReport, exampleDepositOf, exampleSendOf, examplePayment,
      BridgeInput.Custodial, ledgerView, exampleModuleAccount]
  have ties : state.chain.app.index.Ties (some (ascii "unom")) (exampleSpelling.address 7) := by
    rw [of_decide_eq_true index]
    exact ties_single (by decide +kernel) (by decide +kernel)
  have solvent := cosmos_originated_solvent (ledgerBank_laws exampleSdk exampleModuleAccount)
    exampleWrapper_laws plain rfl (by decide +kernel) deployed custodial runs (of_decide_eq_true honest)
    ties
  refine ⟨eth, state, trace, deployed, runs, outside, locked, ?_⟩
  dsimp only at outside locked solvent
  rw [← locked, ← outside]
  exact solvent

end NabBridge
