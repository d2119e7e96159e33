/-
**How a batch request ends.**

`RequestBatch` looks the token up, and `BuildOutgoingTXBatch` makes two checks that only read, takes records
out of the pool one by one, and stores a batch of them. `EndsCleanly` says that the result is a stored batch,
or an error and an untouched store.

* `Outgoing.Tidy.buildOutgoingTXBatch_eq`: what the function computes on a filed pool;
* `Chain.Filed.endsCleanly_iff`: without a record of the token the function returns no batch and no error,
  and `RequestBatch` reads the nonce of a nil batch;
* `batch_requests_clean_iff`: the same in every state a node reaches.
-/

import NabBridge.Proof.BatchFees
import NabBridge.Proof.PoolFiling

namespace NabBridge

/-! ### How a request ends -/

namespace Outgoing

/-- The store the loop of `pickUnbatchedTX` leaves, also where it stops with an error. -/
def pickedStore (maxElements : Nat) : Nat → List OutgoingTransferTx → Outgoing → Outgoing
  | _, [], outgoing => outgoing
  | count, tx :: rest, outgoing =>
      match outgoing.removeUnbatchedTX tx.erc20Fee tx.id with
      | .error _ => outgoing
      | .ok after =>
          if count + 1 = maxElements then after else pickedStore maxElements (count + 1) rest after

/-- The store `BuildOutgoingTXBatch` leaves where it returns an error: an error of a check leaves it
alone, one of the loop does not. -/
def storeAtError (contractAddress : Bytes) (maxElements : Nat) (outgoing : Outgoing) : Outgoing :=
  if maxElements = 0 then outgoing
  else
    match outgoing.checkProfitable contractAddress maxElements with
    | .ok () => pickedStore maxElements 0
        (outgoing.unbatchedTransactions (getOutgoingTxPoolContractPrefix contractAddress)) outgoing
    | _ => outgoing

/-- **A batch that was built**: it is stored under its token and nonce, has one to `maxElements` records,
and its checkpoint is among the past ones. -/
structure Keeps (geth : Geth) (gravityID contractAddress : Bytes) (maxElements : Nat)
    (after : Outgoing) (batch : OutgoingTxBatch) : Prop where
  token : batch.tokenContract = contractAddress
  stored : after.batches.get (getOutgoingTxBatchKey contractAddress batch.batchNonce) = some batch
  nonempty : batch.transactions ≠ []
  short : batch.transactions.length ≤ maxElements
  archived : ∃ checkpoint, batch.getCheckpoint geth gravityID = .ok checkpoint ∧
    after.getPastEthSignatureCheckpoint checkpoint = true

/-- A batch of the token can be made: there is a record, and if a batch is waiting already, the highest
fees sum up to an `sdk.Int`. -/
def Batchable (outgoing : Outgoing) (contractAddress : Bytes) (maxElements : Nat) : Prop :=
  outgoing.ofToken contractAddress ≠ [] ∧
    (outgoing.getLastOutgoingBatchByTokenType contractAddress = none ∨
      fitsSdkInt (feeSum ((outgoing.ofToken contractAddress).take maxElements)))

instance (outgoing : Outgoing) (contractAddress : Bytes) (maxElements : Nat) :
    Decidable (outgoing.Batchable contractAddress maxElements) := by
  unfold Batchable; infer_instance

end Outgoing

section Requests

variable {β : Type}

/-- **A request ends cleanly**: with a batch that is kept, or with an error and the store as it was. -/
def Chain.EndsCleanly (geth : Geth) (params : Params) (denom : Bytes) (maxElements blockHeight : Nat)
    (chain : Chain β) : Prop :=
  match chain.app.index.denomToERC20Lookup denom,
    requestBatch geth params denom maxElements blockHeight chain with
  | .ok (_, contract), .ok (some batch, after) =>
      after.Keeps geth params.gravityId contract maxElements batch
  | .ok (_, contract), .error _ =>
      chain.app.outgoing.storeAtError contract maxElements = chain.app.outgoing
  -- the lookup only reads
  | .error _, .error _ => True
  -- a nil batch without an error, or a panic
  | _, _ => False

/-- The token is unknown, nothing is asked for, or a batch can be made. -/
def Chain.Requestable (denom : Bytes) (maxElements : Nat) (chain : Chain β) : Prop :=
  match chain.app.index.denomToERC20Lookup denom with
  | .error _ => True
  | .ok (_, contract) => maxElements = 0 ∨ chain.app.outgoing.Batchable contract maxElements

instance (denom : Bytes) (maxElements : Nat) (chain : Chain β) :
    Decidable (chain.Requestable denom maxElements) := by
  unfold Chain.Requestable
  split <;> infer_instance

end Requests

/-! ### The parts of a build -/

theorem Params.Checked.timeout {params : Params} (checked : params.Checked)
    (heights : LastObservedEthereumBlockHeight) (blockHeight : Nat) :
    ∃ timeout, getBatchTimeoutHeight params heights blockHeight = .ok timeout := by
  have time : 100 ≤ params.averageEthereumBlockTime := checkUint64_eq_ok.mp checked.time
  unfold getBatchTimeoutHeight
  split_ifs
  · exact ⟨_, rfl⟩
  · omega
  · exact ⟨_, rfl⟩

theorem Params.Checked.getCheckpoint {params : Params} (checked : params.Checked) (geth : Geth)
    (batch : OutgoingTxBatch) : ∃ checkpoint, batch.getCheckpoint geth params.gravityId = .ok checkpoint := by
  have fits := checked.gravityId
  unfold validateGravityID at fits
  unfold OutgoingTxBatch.getCheckpoint gravityIdArgument
  cases bytes : strToFixByteArray params.gravityId with
  | none => simp [bytes] at fits
  | some bytes => exact ⟨_, rfl⟩

namespace Outgoing

theorem sumFees_ne_error {tokenContract : Bytes} {maxElements count : Nat} {total : Int}
    {txs : List OutgoingTransferTx} {reason : PoolError} :
    sumFees tokenContract maxElements count total txs ≠ .error reason := by
  induction txs generalizing count total with
  | nil =>
      intro failed
      cases failed
  | cons tx rest ih =>
      intro failed
      rw [sumFees] at failed
      unfold sdkIntAdd at failed
      by_cases fits : fitsSdkInt (total + tx.erc20Fee.amount)
      · rw [if_pos fits, liftCoin, Outcome.ok_bind] at failed
        split_ifs at failed
        exact ih failed
      · rw [if_neg fits, liftCoin, Outcome.panic_bind] at failed
        split_ifs at failed

/-- **The check against the last batch** panics where the fees do not sum up, and never fails: the last
batch has no fees. -/
theorem Filed.checkProfitable_cases {outgoing : Outgoing} (filed : outgoing.Filed) {token : Bytes}
    (length : token.length = ethContractAddressLen) {maxElements : Nat} (positive : 0 < maxElements) :
    (outgoing.getLastOutgoingBatchByTokenType token = none ∨
        fitsSdkInt (feeSum ((outgoing.ofToken token).take maxElements))) ∧
      outgoing.checkProfitable token maxElements = .ok () ∨
    ¬ (outgoing.getLastOutgoingBatchByTokenType token = none ∨
        fitsSdkInt (feeSum ((outgoing.ofToken token).take maxElements))) ∧
      ∃ reason, outgoing.checkProfitable token maxElements = .panic reason := by
  unfold checkProfitable
  cases last : outgoing.getLastOutgoingBatchByTokenType token with
  | none => exact Or.inl ⟨Or.inl rfl, rfl⟩
  | some lastBatch =>
      cases summed : outgoing.getBatchFeeByTokenType token maxElements with
      | ok currentFees =>
          obtain ⟨rfl, fits⟩ := (filed.getBatchFeeByTokenType_eq_ok_iff length positive _).mp summed
          refine Or.inl ⟨Or.inr fits, ?_⟩
          have nonneg : 0 ≤ feeSum ((outgoing.ofToken token).take maxElements) :=
            feeSum_nonneg fun tx member => (filed.stored (List.mem_of_mem_take member)).2.1.nonneg
          simp only [Outcome.ok_bind, lastBatch.getFees_eq]
          exact if_neg (not_lt.mpr nonneg)
      | error reason => exact absurd summed sumFees_ne_error
      | panic reason =>
          refine Or.inr ⟨?_, reason, rfl⟩
          rintro (absent | fits)
          · cases absent
          · have made := (filed.getBatchFeeByTokenType_eq_ok_iff length positive _).mpr ⟨rfl, fits⟩
            rw [summed] at made
            cases made

/-- Without a record of the token there is no batch and no error, -/
theorem Filed.buildOutgoingTXBatch_none {outgoing : Outgoing} (filed : outgoing.Filed) {token : Bytes}
    (length : token.length = ethContractAddressLen) {maxElements : Nat} (positive : 0 < maxElements)
    (profitable : outgoing.checkProfitable token maxElements = .ok ())
    (empty : outgoing.ofToken token = []) (geth : Geth) (params : Params)
    (heights : LastObservedEthereumBlockHeight) (blockHeight : Nat) :
    outgoing.buildOutgoingTXBatch geth params heights blockHeight token maxElements =
      .ok (none, outgoing) := by
  unfold buildOutgoingTXBatch
  rw [if_neg positive.ne', profitable, Outcome.ok_bind, filed.pick length positive, Outcome.ok_bind, empty]
  simp only [List.take_nil, if_true]
  rfl

/-- and with one there is a batch that is kept. -/
theorem Filed.buildOutgoingTXBatch_some {outgoing : Outgoing} (filed : outgoing.Filed) {token : Bytes}
    (length : token.length = ethContractAddressLen) {maxElements : Nat} (positive : 0 < maxElements)
    (profitable : outgoing.checkProfitable token maxElements = .ok ())
    (stocked : outgoing.ofToken token ≠ []) (geth : Geth) {params : Params} (checked : params.Checked)
    (heights : LastObservedEthereumBlockHeight) (blockHeight : Nat) :
    ∃ batch after,
      outgoing.buildOutgoingTXBatch geth params heights blockHeight token maxElements =
        .ok (some batch, after) ∧
      after.Keeps geth params.gravityId token maxElements batch := by
  obtain ⟨timeout, timed⟩ := checked.timeout heights blockHeight
  have selected : (outgoing.ofToken token).take maxElements ≠ [] := by
    rw [ne_eq, List.take_eq_nil_iff, not_or]
    exact ⟨positive.ne', stocked⟩
  obtain ⟨checkpoint, computed⟩ := checked.getCheckpoint geth
    ⟨outgoing.nextBatchNonce, timeout, (outgoing.ofToken token).take maxElements, token, blockHeight⟩
  unfold buildOutgoingTXBatch
  rw [if_neg positive.ne', profitable, Outcome.ok_bind, filed.pick length positive, Outcome.ok_bind]
  simp only [if_neg selected, timed, Outcome.ok_bind]
  -- the counter of what is left in the pool is that of before
  have lifted : liftCheckpoint (ε := PoolError) (OutgoingTxBatch.getCheckpoint geth
      ⟨(autoIncrementID outgoing.lastOutgoingBatchId).1, timeout,
        (outgoing.ofToken token).take maxElements, token, blockHeight⟩ params.gravityId) =
          .ok checkpoint := liftCheckpoint_eq_ok.mpr computed
  simp only [without, lifted, Outcome.ok_bind]
  refine ⟨_, _, rfl, rfl, ?_, selected, List.length_take_le _ _, checkpoint, computed, ?_⟩
  · exact Store.get_set_self _ _ _
  · exact (getPastEthSignatureCheckpoint_set _ _ _).mpr (Or.inl rfl)

end Outgoing

/-! ### Requests -/

section Requests

variable {β : Type} {geth : Geth} {params : Params}

/-- A known token and a request without a batch or an error: this is not a clean end. -/
theorem Chain.not_endsCleanly_of_none {chain : Chain β} {denom contract : Bytes} {isCosmosOriginated : Bool}
    {maxElements blockHeight : Nat} {after : Outgoing}
    (lookup : chain.app.index.denomToERC20Lookup denom = .ok (isCosmosOriginated, contract))
    (nothing : requestBatch geth params denom maxElements blockHeight chain = .ok (none, after)) :
    ¬ chain.EndsCleanly geth params denom maxElements blockHeight := by
  unfold Chain.EndsCleanly
  rw [lookup, nothing]
  exact not_false

/-- **When a request ends cleanly**, on what a module files. -/
theorem Chain.Filed.endsCleanly_iff {chain : Chain β} (filed : chain.Filed) (checked : params.Checked)
    (denom : Bytes) (maxElements blockHeight : Nat) :
    chain.EndsCleanly geth params denom maxElements blockHeight ↔ chain.Requestable denom maxElements := by
  unfold Chain.EndsCleanly Chain.Requestable requestBatch
  cases lookup : chain.app.index.denomToERC20Lookup denom with
  | error reason => exact Iff.rfl
  | ok found =>
      obtain ⟨isCosmosOriginated, contract⟩ := found
      simp only
      have length := filed.app.index.addresses.lookup lookup
      have pool := filed.app.outgoing.pool
      rcases Nat.eq_zero_or_pos maxElements with rfl | positive
      · unfold Outgoing.buildOutgoingTXBatch Outgoing.storeAtError
        simp
      · unfold Outgoing.Batchable
        rcases pool.checkProfitable_cases length positive with ⟨fits, profitable⟩ | ⟨beyond, reason, panics⟩
        · by_cases empty : chain.app.outgoing.ofToken contract = []
          · rw [pool.buildOutgoingTXBatch_none length positive profitable empty]
            refine iff_of_false id ?_
            rintro (none | ⟨stocked, _⟩)
            · exact positive.ne' none
            · exact stocked empty
          · obtain ⟨batch, after, built, kept⟩ := pool.buildOutgoingTXBatch_some length positive
              profitable empty geth checked chain.oracle.lastObservedEthereumBlockHeight blockHeight
            rw [built]
            exact iff_of_true kept (Or.inr ⟨empty, fits⟩)
        · have built : chain.app.outgoing.buildOutgoingTXBatch geth params
              chain.oracle.lastObservedEthereumBlockHeight blockHeight contract maxElements =
                .panic reason := by
            unfold Outgoing.buildOutgoingTXBatch
            rw [if_neg positive.ne', panics, Outcome.panic_bind]
          rw [built]
          refine iff_of_false id ?_
          rintro (none | ⟨_, fits⟩)
          · exact positive.ne' none
          · exact beyond fits

variable {τ : Type} {sdk : Sdk} {bank : BankKeeper β} {evm : Evm} {others : Contracts τ}

/-- **Batch requests end cleanly** exactly where the token is unknown, nothing is asked for, or a batch can
be made: in every state a node reaches, restarts included, for every denom and every number. -/
theorem batch_requests_clean_iff {network : Params} (checked : network.Checked) {balances : β}
    {eth : Ethereum τ} {inputs : List (NodeInput β τ)} (allowed : ∀ input ∈ inputs, input.ParamsChecked)
    {node : Node β τ} {outputs : List NodeOutput}
    (runs : run (nodeStep sdk bank geth evm others) ⟨KeeperState.fresh network balances, eth, false⟩
      inputs = some (node, outputs)) (denom : Bytes) (maxElements blockHeight : Nat) :
    node.keeper.chain.EndsCleanly geth node.keeper.params denom maxElements blockHeight ↔
      node.keeper.chain.Requestable denom maxElements := by
  have filed := Node.wellFiled_of_run checked allowed runs
  exact filed.chain.endsCleanly_iff filed.params denom maxElements blockHeight

end Requests

/-! ### Two requests -/

theorem exampleParams_checked : exampleParams.Checked := ⟨by decide +kernel, by decide +kernel⟩

/-- A transfer waits. -/
def exampleWaiting : List (NodeInput Ledger Unit) := [.bridge (fun _ => true) (exampleTransfer 10 1)]

/-- With a transfer in the pool a request ends with a batch. -/
theorem batch_requested : ∃ node outputs,
    run exampleNodeStep exampleNode exampleWaiting = some (node, outputs) ∧
    node.keeper.chain.EndsCleanly exampleGeth node.keeper.params (gravityDenom exampleContract) 50 6 := by
  have requestable : (run exampleNodeStep exampleNode exampleWaiting).any (fun result =>
      decide (result.1.keeper.chain.Requestable (gravityDenom exampleContract) 50)) = true := by
    decide +kernel
  obtain ⟨⟨node, outputs⟩, runs, holds⟩ := (Option.any_eq_true _ _).mp requestable
  have allowed : ∀ input ∈ exampleWaiting, input.ParamsChecked :=
    fun input member => List.mem_singleton.mp member ▸ trivial
  have clean_iff := @batch_requests_clean_iff Ledger exampleGeth Unit exampleSdk
    (ledgerBank exampleModuleAccount) exampleEvm exampleContracts exampleParams exampleParams_checked
    exampleLedger exampleEthereum exampleWaiting allowed node outputs runs (gravityDenom exampleContract)
    50 6
  -- the concrete denom would make every check of a type compute
  generalize gravityDenom exampleContract = denom at holds clean_iff ⊢
  exact ⟨node, outputs, runs, clean_iff.mpr (of_decide_eq_true holds)⟩

/-- **A request without a transfer** gets no batch and no error, and so does not end cleanly. -/
theorem empty_request : ∃ node outputs,
    run exampleNodeStep exampleNode [] = some (node, outputs) ∧
    requestBatch exampleGeth node.keeper.params (gravityDenom exampleContract) 50 6 node.keeper.chain =
      .ok (none, node.keeper.chain.app.outgoing) ∧
    ¬ node.keeper.chain.EndsCleanly exampleGeth node.keeper.params (gravityDenom exampleContract) 50
      6 := by
  have lookup : exampleNode.keeper.chain.app.index.denomToERC20Lookup (gravityDenom exampleContract) =
      .ok (false, exampleContract) := by decide +kernel
  have nothing : requestBatch exampleGeth exampleNode.keeper.params (gravityDenom exampleContract) 50 6
      exampleNode.keeper.chain = .ok (none, exampleNode.keeper.chain.app.outgoing) := by decide +kernel
  exact ⟨exampleNode, [], rfl, nothing, Chain.not_endsCleanly_of_none lookup nothing⟩

end NabBridge
