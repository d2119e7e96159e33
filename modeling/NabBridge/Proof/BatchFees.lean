/-
**Fees of successive batches.**

A new batch is meant to pay more than the one of its token that still waits. The check compares the
estimate of `getBatchFeeByTokenType` with `getFees` of the waiting batch, and `getFees` is always zero:
the loop drops its sums. So nothing is ever refused that costs no fee.

The estimate is right (`estimate_eq_totalFees`: it is what the new batch pays), so the fees rise exactly
where the estimate is above the fees of the waiting batch.

* `batch_fees_iff`: in every reachable state a new batch pays more than the last one of its token exactly
  where the estimate does; in runs in which it does at every request, the stored batches of a token pay
  more the later they were built.
-/

import NabBridge.Proof.Conservation
import NabBridge.Proof.Effects
import Mathlib.Data.Finset.Max

namespace NabBridge

/-! ### The three sums -/

/-- The fees of a batch together. -/
def OutgoingTxBatch.totalFees (batch : OutgoingTxBatch) : Int :=
  (batch.transactions.map fun tx => tx.erc20Fee.amount).sum

/-- `GetFees` is always zero. -/
theorem OutgoingTxBatch.getFees_eq (batch : OutgoingTxBatch) : batch.getFees = 0 := by
  unfold OutgoingTxBatch.getFees
  induction batch.transactions with
  | nil => rfl
  | cons tx rest ih => exact ih

namespace Outgoing

/-- **The estimate** is the sum of the fees of the first records. -/
theorem sumFees_eq_ok {tokenContract : Bytes} {maxElements count : Nat} {total estimate : Int}
    {txs : List OutgoingTransferTx} (room : count < maxElements)
    (summed : sumFees tokenContract maxElements count total txs = .ok estimate) :
    estimate =
      total + ((txs.take (maxElements - count)).map fun tx => tx.erc20Fee.amount).sum := by
  induction txs generalizing count total with
  | nil =>
      obtain rfl := Outcome.ok.inj summed
      simp
  | cons tx rest ih =>
      rw [sumFees] at summed
      obtain ⟨more, left⟩ := Nat.exists_eq_succ_of_ne_zero (Nat.sub_ne_zero_of_lt room)
      rw [left, List.take_succ_cons, List.map_cons, List.sum_cons, ← Int.add_assoc]
      split_ifs at summed with other full
      · obtain ⟨next, added, summed⟩ := Outcome.bind_eq_ok.mp summed
        obtain ⟨rfl, _⟩ := sdkIntAdd_eq_ok (liftCoin_eq_ok.mp added)
        obtain rfl := Outcome.ok.inj summed
        have none : more = 0 := by omega
        simp [none]
      · obtain ⟨next, added, summed⟩ := Outcome.bind_eq_ok.mp summed
        obtain ⟨rfl, _⟩ := sdkIntAdd_eq_ok (liftCoin_eq_ok.mp added)
        have later := ih (by omega) summed
        rwa [show maxElements - (count + 1) = more by omega] at later

/-- The stored batch of a token with the highest nonce. -/
structure IsLast (outgoing : Outgoing) (tokenContract : Bytes) (batch : OutgoingTxBatch) : Prop where
  stored : outgoing.batches.get batch.key = some batch
  token : batch.tokenContract = tokenContract
  highest : ∀ key other, outgoing.batches.get key = some other →
    other.tokenContract = tokenContract → other.batchNonce ≤ batch.batchNonce

/-- The loop of `GetLastOutgoingBatchByTokenType` finds something where a batch of the token with a
positive nonce is stored. -/
theorem getLast_isSome {outgoing : Outgoing} {token : Bytes} {batch : OutgoingTxBatch} {key : StoreKey}
    (stored : outgoing.batches.get key = some batch) (same : batch.tokenContract = token)
    (positive : 1 ≤ batch.batchNonce) :
    (outgoing.getLastOutgoingBatchByTokenType token).isSome = true := by
  have member : batch ∈ outgoing.getOutgoingTxBatches :=
    List.mem_reverse.mpr ((outgoing.batches.mem_values_iff batch).mpr ⟨key, stored⟩)
  unfold getLastOutgoingBatchByTokenType
  -- what has been found is at least as high as every batch of the token before
  have found : ∀ (txs : List OutgoingTxBatch) (last : Option OutgoingTxBatch × Nat),
      (0 < last.2 → last.1.isSome = true) → (batch ∈ txs ∨ 0 < last.2) →
      (txs.foldl (fun (last : Option OutgoingTxBatch × Nat) other =>
        if other.tokenContract = token ∧ other.batchNonce > last.2 then (some other, other.batchNonce)
        else last) last).1.isSome = true := by
    intro txs
    induction txs with
    | nil =>
        rintro last known (inside | high)
        · exact absurd inside List.not_mem_nil
        · exact known high
    | cons first rest ih =>
        intro last known either
        rw [List.foldl_cons]
        split_ifs with higher
        · exact ih _ (fun _ => rfl) (Or.inr (by simp only; omega))
        · refine ih _ known ?_
          rcases either with inside | high
          · rcases List.mem_cons.mp inside with rfl | later
            · exact Or.inr (by simp only [same, true_and, gt_iff_lt, not_lt] at higher; omega)
            · exact Or.inl later
          · exact Or.inr high
  exact found _ _ (fun high => absurd high (lt_irrefl _)) (Or.inl member)

/-- **The estimate is what the batch pays.** -/
theorem estimate_eq_totalFees {outgoing after : Outgoing} {params : Params}
    {heights : LastObservedEthereumBlockHeight} {blockHeight maxElements : Nat} {contract : Bytes}
    {batch : OutgoingTxBatch} {estimate : Int} (positive : 0 < maxElements)
    (result : BuildResult params heights blockHeight contract maxElements outgoing (some batch, after))
    (estimated : outgoing.getBatchFeeByTokenType contract maxElements = .ok estimate) :
    estimate = batch.totalFees := by
  rw [sumFees_eq_ok positive estimated, OutgoingTxBatch.totalFees, result.2.2.2.2, Nat.sub_zero,
    Int.zero_add]

theorem IsLast.unique {outgoing : Outgoing} {token : Bytes} {first second : OutgoingTxBatch}
    (isFirst : outgoing.IsLast token first) (isSecond : outgoing.IsLast token second) :
    first = second := by
  have nonces : first.batchNonce = second.batchNonce :=
    Nat.le_antisymm (isSecond.highest _ first isFirst.stored isFirst.token)
      (isFirst.highest _ second isSecond.stored isSecond.token)
  have keys : first.key = second.key := by
    rw [OutgoingTxBatch.key, OutgoingTxBatch.key, nonces, isFirst.token, isSecond.token]
  have stored := isFirst.stored
  rw [keys, isSecond.stored] at stored
  exact (Option.some.inj stored).symm

/-- Where a batch is built after another one, the estimate was made. -/
theorem exists_estimate {geth : Geth} {params : Params} {heights : LastObservedEthereumBlockHeight}
    {blockHeight maxElements : Nat} {contract : Bytes} {outgoing : Outgoing}
    {result : Option OutgoingTxBatch × Outgoing}
    (built : outgoing.buildOutgoingTXBatch geth params heights blockHeight contract maxElements =
      .ok result)
    (waiting : (outgoing.getLastOutgoingBatchByTokenType contract).isSome = true) :
    ∃ estimate, outgoing.getBatchFeeByTokenType contract maxElements = .ok estimate := by
  unfold buildOutgoingTXBatch at built
  split_ifs at built
  obtain ⟨_, checked, _⟩ := Outcome.bind_eq_ok.mp built
  obtain ⟨last, lastIs⟩ := Option.isSome_iff_exists.mp waiting
  rw [checkProfitable, lastIs] at checked
  obtain ⟨estimate, estimated, _⟩ := Outcome.bind_eq_ok.mp checked
  exact ⟨estimate, estimated⟩

/-- The condition on a request: there is nothing to pick, or the estimate is above the fees of the last
batch. -/
def MoreProfitable (outgoing : Outgoing) (contract : Bytes) (maxElements : Nat) : Prop :=
  outgoing.unbatchedTransactions (getOutgoingTxPoolContractPrefix contract) = [] ∨
    ∀ last, outgoing.IsLast contract last → ∃ estimate,
      outgoing.getBatchFeeByTokenType contract maxElements = .ok estimate ∧ last.totalFees < estimate

theorem maxElements_pos {geth : Geth} {params : Params} {heights : LastObservedEthereumBlockHeight}
    {blockHeight maxElements : Nat} {contract : Bytes} {outgoing : Outgoing}
    {result : Option OutgoingTxBatch × Outgoing}
    (built : outgoing.buildOutgoingTXBatch geth params heights blockHeight contract maxElements =
      .ok result) : 0 < maxElements := by
  rcases Nat.eq_zero_or_pos maxElements with rfl | positive
  · cases built
  · exact positive

/-- A batch that is built where the condition holds pays more than the last one. -/
theorem BuildResult.totalFees_lt {geth : Geth} {outgoing after : Outgoing} {params : Params}
    {heights : LastObservedEthereumBlockHeight} {blockHeight maxElements : Nat} {contract : Bytes}
    {batch last : OutgoingTxBatch}
    (result : BuildResult params heights blockHeight contract maxElements outgoing (some batch, after))
    (built : outgoing.buildOutgoingTXBatch geth params heights blockHeight contract maxElements =
      .ok (some batch, after))
    (isLast : outgoing.IsLast contract last) (more : outgoing.MoreProfitable contract maxElements) :
    last.totalFees < batch.totalFees := by
  rcases more with nothing | raises
  · refine absurd ?_ result.1.nonempty
    rw [result.2.2.2.2, nothing, List.take_nil]
  · obtain ⟨estimate, estimated, above⟩ := raises last isLast
    exact estimate_eq_totalFees (maxElements_pos built) result estimated ▸ above

/-- Of the stored batches of one token, the later ones pay more. -/
def Ascending (outgoing : Outgoing) : Prop :=
  ∀ key key' batch later, outgoing.batches.get key = some batch →
    outgoing.batches.get key' = some later → batch.tokenContract = later.tokenContract →
    batch.batchNonce < later.batchNonce → batch.totalFees < later.totalFees

/-- Where a batch of the token is stored there is a last one. -/
theorem Sound.exists_isLast {outgoing : Outgoing} (sound : outgoing.Sound) {key : StoreKey}
    {batch : OutgoingTxBatch} {token : Bytes} (stored : outgoing.batches.get key = some batch)
    (same : batch.tokenContract = token) : ∃ last, outgoing.IsLast token last := by
  have listed : ∀ other, other ∈ (outgoing.batches.values.filter fun other =>
      other.tokenContract = token).toFinset ↔
      (∃ key, outgoing.batches.get key = some other) ∧ other.tokenContract = token := by
    intro other
    rw [List.mem_toFinset, List.mem_filter, Store.mem_values_iff, decide_eq_true_eq]
  obtain ⟨last, inside, highest⟩ := Finset.exists_max_image _ OutgoingTxBatch.batchNonce
    ⟨batch, (listed batch).mpr ⟨⟨key, stored⟩, same⟩⟩
  obtain ⟨⟨lastKey, found⟩, token⟩ := (listed last).mp inside
  refine ⟨last, ?_, token, fun otherKey other there sameToken => ?_⟩
  · rwa [← sound.batchKeyed lastKey last found]
  · exact highest other ((listed other).mpr ⟨⟨otherKey, there⟩, sameToken⟩)

theorem ascending_empty : Outgoing.empty.Ascending := by
  intro key key' batch later found
  cases found

/-- Where batches are only taken away, those left still ascend. -/
theorem Ascending.within {before after : Outgoing} (ascending : before.Ascending)
    (within : ∀ key batch, after.batches.get key = some batch →
      before.batches.get key = some batch) : after.Ascending :=
  fun key key' batch later found found' =>
    ascending key key' batch later (within key batch found) (within key' later found')

/-- **A batch that pays more than the last one of its token.** -/
theorem Ascending.build {before after : Outgoing} {batch : OutgoingTxBatch} (sound : before.Sound)
    (ascending : before.Ascending) (built : Built before batch after)
    (more : ∀ last, before.IsLast batch.tokenContract last → last.totalFees < batch.totalFees) :
    after.Ascending := by
  intro key key' first second found found' sameToken lower
  rw [built.batches, Store.get_set] at found found'
  split_ifs at found found' with same same' same'
  · rw [← Option.some.inj found, ← Option.some.inj found'] at lower
    exact absurd lower (lt_irrefl _)
  · obtain rfl := Option.some.inj found
    have issued := sound.noncesIssued _ _ found'
    have nonce := built.nonce
    omega
  · -- the new batch is above the last of its token, which is the first batch or above it
    obtain rfl := Option.some.inj found'
    obtain ⟨last, isLast⟩ := sound.exists_isLast found sameToken
    have above := more last isLast
    rcases (isLast.highest key first found sameToken).lt_or_eq with below | equal
    · have pays := ascending key last.key first last found isLast.stored
        (sameToken.trans isLast.token.symm) below
      omega
    · have keys : key = last.key := by
        rw [sound.batchKeyed key first found, OutgoingTxBatch.key, OutgoingTxBatch.key, equal, sameToken,
          isLast.token]
      rw [keys, isLast.stored] at found
      rwa [← Option.some.inj found]
  · exact ascending key key' first second found found' sameToken lower

end Outgoing

/-! ### Runs -/

section Machine

variable {β : Type} {sdk : Sdk} {bank : BankKeeper β} {geth : Geth}

/-- A request meets the condition on its fees. -/
def ModuleState.RaisesFees (state : ModuleState β) : PoolInput β → Prop
  | .buildOutgoingTXBatch _ _ _ contractAddress maxElements =>
      state.outgoing.MoreProfitable contractAddress maxElements
  | _ => True

/-- No stored batch is cancelled or executed. -/
def ModuleState.KeepsBatches (state : ModuleState β) : PoolInput β → Prop
  | .cancelOutgoingTXBatch _ _ => False
  | .outgoingTxBatchExecuted _ _ => False
  | .cleanupTimedOutBatches ethereumHeight =>
      ∀ key batch, state.outgoing.batches.get key = some batch → ethereumHeight ≤ batch.batchTimeout
  | _ => True

/-- **What an operation does to the batches**: it stores one under the next nonce, or stores none. -/
theorem poolStep_batches {past outputs : List PoolOutput} {state next : ModuleState β}
    {input : PoolInput β} (invariant : PoolInvariant past state) (allowed : input.Allowed)
    (step : poolStep sdk bank geth state input = some (next, outputs)) :
    (builtNonces outputs = [] ∧ next.outgoing.nextBatchNonce = state.outgoing.nextBatchNonce ∧
      (∀ key batch, next.outgoing.batches.get key = some batch →
        state.outgoing.batches.get key = some batch) ∧
      (state.KeepsBatches input → ∀ key batch, state.outgoing.batches.get key = some batch →
        next.outgoing.batches.get key = some batch)) ∨
    ∃ params heights blockHeight contract maxElements batch,
      input = .buildOutgoingTXBatch params heights blockHeight contract maxElements ∧
      builtNonces outputs = [batch.batchNonce] ∧
      state.outgoing.buildOutgoingTXBatch geth params heights blockHeight contract maxElements =
        .ok (some batch, next.outgoing) := by
  have unchanged : some (state, []) = some (next, outputs) → builtNonces outputs = [] ∧
      next.outgoing.nextBatchNonce = state.outgoing.nextBatchNonce ∧
      (∀ key batch, next.outgoing.batches.get key = some batch →
        state.outgoing.batches.get key = some batch) ∧
      (state.KeepsBatches input → ∀ key batch, state.outgoing.batches.get key = some batch →
        next.outgoing.batches.get key = some batch) := by
    intro equal
    obtain ⟨rfl, rfl⟩ := Prod.mk.inj (Option.some.inj equal)
    exact ⟨rfl, rfl, fun _ _ => id, fun _ _ _ => id⟩
  cases input with
  | addToOutgoingPool sender receiver amount fee =>
      simp only [poolStep] at step
      split at step
      · rename_i id after sent
        obtain ⟨_, isCosmosOriginated, contract, balances, lookup, _, rfl, rfl⟩ :=
          addToOutgoingPool_eq_ok sent
        obtain ⟨rfl, rfl⟩ := Prod.mk.inj (Option.some.inj step)
        have sends := Outgoing.issue_sends state.outgoing (fun id => newOutgoingTransferTx sdk id sender
          receiver contract amount.amount fee.amount) fun _ => rfl
        refine Or.inl ⟨?_, congrArg (Option.getD · 1) sends.lastOutgoingBatchId,
          fun key batch found => ?_, fun _ key batch found => ?_⟩
        · rw [requestedTx, lookup]
          rfl
        · rwa [sends.batches] at found
        · rwa [sends.batches]
      · exact Or.inl (unchanged step)
  | removeFromOutgoingPoolAndRefund txId sender =>
      simp only [poolStep] at step
      split at step
      · rename_i after removed
        obtain ⟨tx, outgoing, coins, balances, found, _, _, gone, _, _, rfl⟩ :=
          removeFromOutgoingPoolAndRefund_eq_ok removed
        obtain ⟨_, rfl⟩ := Outgoing.removeUnbatchedTX_eq_ok gone
        obtain ⟨rfl, rfl⟩ := Prod.mk.inj (Option.some.inj step)
        rw [found]
        exact Or.inl ⟨rfl, rfl, fun _ _ => id, fun _ _ _ => id⟩
      · exact Or.inl (unchanged step)
  | buildOutgoingTXBatch params heights blockHeight contractAddress maxElements =>
      simp only [poolStep] at step
      split at step
      · rename_i made outgoing built
        obtain ⟨rfl, rfl⟩ := Prod.mk.inj (Option.some.inj step)
        cases made with
        | none =>
            have result := (invariant.sound.buildOutgoingTXBatch_meets geth params heights blockHeight
              maxElements allowed).ok built
            obtain rfl : outgoing = state.outgoing := result
            exact Or.inl ⟨rfl, rfl, fun _ _ => id, fun _ _ _ => id⟩
        | some batch => exact Or.inr ⟨_, _, _, _, _, batch, rfl, rfl, built⟩
      · exact Or.inl (unchanged step)
  | cancelOutgoingTXBatch tokenContract nonce =>
      simp only [poolStep] at step
      split at step
      · rename_i outgoing cancelled
        have shuffled := (Outgoing.cancelOutgoingTXBatch_meets _ _ _).ok cancelled
        obtain ⟨rfl, rfl⟩ := Prod.mk.inj (Option.some.inj step)
        exact Or.inl ⟨rfl, congrArg (Option.getD · 1) shuffled.lastOutgoingBatchId, shuffled.batches,
          False.elim⟩
      · exact Or.inl (unchanged step)
      · cases step
  | outgoingTxBatchExecuted tokenContract nonce =>
      simp only [poolStep] at step
      split at step
      · rename_i outgoing executed
        have shuffled := (Outgoing.outgoingTxBatchExecuted_meets _ _ _).ok executed
        obtain ⟨rfl, rfl⟩ := Prod.mk.inj (Option.some.inj step)
        refine Or.inl ⟨?_, congrArg (Option.getD · 1) shuffled.lastOutgoingBatchId, shuffled.batches,
          False.elim⟩
        cases state.outgoing.getOutgoingTXBatch tokenContract nonce <;> rfl
      · rename_i reason _
        exact reason.elim
      · cases step
  | cleanupTimedOutBatches ethereumHeight =>
      simp only [poolStep] at step
      obtain ⟨after, cleaned, swept⟩ := invariant.sound.cleanupTimedOutBatches_swept ethereumHeight
      have shuffled := (Outgoing.cleanupTimedOutBatches_meets _ _).ok cleaned
      rw [cleaned] at step
      obtain ⟨rfl, rfl⟩ := Prod.mk.inj (Option.some.inj step)
      refine Or.inl ⟨rfl, congrArg (Option.getD · 1) shuffled.lastOutgoingBatchId, shuffled.batches,
        fun inTime key batch found => (swept.batches key batch).mpr ⟨found, fun late => ?_⟩⟩
      exact absurd (inTime _ _ late.1) (Nat.not_le.mpr late.2)
  | environment balances index =>
      obtain ⟨rfl, rfl⟩ := Prod.mk.inj (Option.some.inj step)
      exact Or.inl ⟨rfl, rfl, fun _ _ => id, fun _ _ _ => id⟩

theorem builtNonces_append (first second : List PoolOutput) :
    builtNonces (first ++ second) = builtNonces first ++ builtNonces second :=
  List.flatMap_append

/-- The nonces of batches start at one and rise. -/
structure NoncesRise (past : List PoolOutput) (outgoing : Outgoing) : Prop where
  next : 1 ≤ outgoing.nextBatchNonce
  stored : ∀ key batch, outgoing.batches.get key = some batch → 1 ≤ batch.batchNonce
  rising : (builtNonces past).Pairwise (· < ·)

theorem NoncesRise.step {past outputs : List PoolOutput} {state next : ModuleState β}
    {input : PoolInput β} (invariant : PoolInvariant past state)
    (numbered : NoncesRise past state.outgoing) (allowed : input.Allowed)
    (step : poolStep sdk bank geth state input = some (next, outputs)) :
    NoncesRise (past ++ outputs) next.outgoing := by
  rcases poolStep_batches invariant allowed step with ⟨none, counter, within, _⟩ |
      ⟨params, heights, blockHeight, contract, maxElements, batch, rfl, one, built⟩
  · refine ⟨counter ▸ numbered.next, fun key batch found => ?_, ?_⟩
    · exact numbered.stored key batch (within key batch found)
    · rw [builtNonces_append, none, List.append_nil]
      exact numbered.rising
  · obtain ⟨made, _⟩ := (invariant.sound.buildOutgoingTXBatch_meets geth params heights blockHeight
      maxElements allowed).ok built
    refine ⟨?_, fun key other found => ?_, ?_⟩
    · rw [made.nextBatchNonce]
      exact Nat.le_add_left _ _
    · rw [made.batches] at found
      rcases Store.of_get_set found with ⟨_, rfl⟩ | earlier
      · rw [made.nonce]
        exact numbered.next
      · exact numbered.stored key other earlier
    · rw [builtNonces_append, one, List.pairwise_append]
      refine ⟨numbered.rising, List.pairwise_singleton _ _, fun nonce earlier last member => ?_⟩
      rw [List.mem_singleton.mp member, made.nonce]
      exact invariant.noncesIssued nonce earlier

/-- A step that meets the condition keeps the order of the fees. -/
theorem Outgoing.Ascending.step {past outputs : List PoolOutput} {state next : ModuleState β}
    {input : PoolInput β} (ascending : state.outgoing.Ascending) (invariant : PoolInvariant past state)
    (allowed : input.Allowed) (raises : state.RaisesFees input)
    (step : poolStep sdk bank geth state input = some (next, outputs)) : next.outgoing.Ascending := by
  rcases poolStep_batches invariant allowed step with ⟨_, _, within, _⟩ |
      ⟨params, heights, blockHeight, contract, maxElements, batch, rfl, _, built⟩
  · exact ascending.within within
  · have result := (invariant.sound.buildOutgoingTXBatch_meets geth params heights blockHeight
      maxElements allowed).ok built
    have token : batch.tokenContract = contract := result.2.1
    refine ascending.build invariant.sound result.1 fun last isLast => ?_
    exact result.totalFees_lt built (token ▸ isLast) raises

/-- Every batch that was built is stored. -/
def BuiltStored (past : List PoolOutput) (outgoing : Outgoing) : Prop :=
  ∀ nonce ∈ builtNonces past, ∃ key batch,
    outgoing.batches.get key = some batch ∧ batch.batchNonce = nonce

/-- A step that neither cancels nor executes keeps all batches. -/
theorem BuiltStored.step {past outputs : List PoolOutput} {state next : ModuleState β}
    {input : PoolInput β} (stored : BuiltStored past state.outgoing)
    (invariant : PoolInvariant past state) (allowed : input.Allowed) (keeps : state.KeepsBatches input)
    (step : poolStep sdk bank geth state input = some (next, outputs)) :
    BuiltStored (past ++ outputs) next.outgoing := by
  intro nonce member
  rw [builtNonces_append] at member
  rcases poolStep_batches invariant allowed step with ⟨none, _, _, kept⟩ |
      ⟨params, heights, blockHeight, contract, maxElements, batch, rfl, one, built⟩
  · rw [none, List.append_nil] at member
    obtain ⟨key, batch, found, same⟩ := stored nonce member
    exact ⟨key, batch, kept keeps key batch found, same⟩
  · obtain ⟨made, _⟩ := (invariant.sound.buildOutgoingTXBatch_meets geth params heights blockHeight
      maxElements allowed).ok built
    rw [one] at member
    rw [made.batches]
    rcases List.mem_append.mp member with earlier | now
    · obtain ⟨key, other, found, same⟩ := stored nonce earlier
      have different : key ≠ batch.key := by
        rintro rfl
        have sameNonce := (getOutgoingTxBatchKey_inj.mp (invariant.sound.batchKeyed _ _ found)).2
        have issued := invariant.noncesIssued nonce earlier
        have fresh := made.nonce
        omega
      exact ⟨key, other, by rwa [Store.get_set_of_ne _ _ different], same⟩
    · exact ⟨batch.key, batch, Store.get_set_self _ _ _, (List.mem_singleton.mp now).symm⟩

/-- **Fees of successive batches.** In every reachable state a new batch pays more than the stored batch
of its token with the highest nonce exactly where the estimate is above the fees of that one. Where this
is so at every request, of the stored batches of a token the later ones pay more. Nonces rise, and without
a cancellation or an execution every batch that was built is still stored. -/
theorem batch_fees_iff {balances : β} {index : DenomIndex} {inputs : List (PoolInput β)}
    {state : ModuleState β} {outputs : List PoolOutput} (addresses : index.Addresses)
    (allowed : ∀ input ∈ inputs, input.Allowed)
    (runs : run (poolStep sdk bank geth) ⟨balances, index, Outgoing.empty, none⟩ inputs =
      some (state, outputs)) :
    (∀ params heights blockHeight contract maxElements batch outgoing last,
      contract.length = ethContractAddressLen →
      state.outgoing.buildOutgoingTXBatch geth params heights blockHeight contract maxElements =
        .ok (some batch, outgoing) → state.outgoing.IsLast contract last →
      (last.totalFees < batch.totalFees ↔ state.outgoing.MoreProfitable contract maxElements)) ∧
    (StepsMeet (poolStep sdk bank geth) ModuleState.RaisesFees ⟨balances, index, Outgoing.empty, none⟩
      inputs → state.outgoing.Ascending) ∧
    (builtNonces outputs).Pairwise (· < ·) ∧
    (StepsMeet (poolStep sdk bank geth) ModuleState.KeepsBatches
      ⟨balances, index, Outgoing.empty, none⟩ inputs → BuiltStored outputs state.outgoing) := by
  have initially := poolInvariant_fresh addresses balances
  have unnumbered : NoncesRise [] Outgoing.empty :=
    ⟨le_refl _, fun _ _ found => (by cases found), List.Pairwise.nil⟩
  obtain ⟨invariant, numbered⟩ := run_invariant PoolInput.Allowed
    (fun past state => PoolInvariant past state ∧ NoncesRise past state.outgoing)
    (fun _ _ _ _ _ allowed both step =>
      ⟨both.1.step allowed step, both.2.step both.1 allowed step⟩)
    allowed ⟨initially, unnumbered⟩ runs
  refine ⟨fun params heights blockHeight contract maxElements batch outgoing last length built isLast =>
    ?_, fun raises => ?_, numbered.rising, fun keeps => ?_⟩
  · have result := (invariant.sound.buildOutgoingTXBatch_meets geth params heights blockHeight
      maxElements length).ok built
    refine ⟨fun more => Or.inr fun other otherLast => ?_, result.totalFees_lt built isLast⟩
    obtain ⟨estimate, estimated⟩ := Outgoing.exists_estimate built
      (Outgoing.getLast_isSome isLast.stored isLast.token (numbered.stored _ _ isLast.stored))
    refine ⟨estimate, estimated, ?_⟩
    rwa [otherLast.unique isLast,
      Outgoing.estimate_eq_totalFees (Outgoing.maxElements_pos built) result estimated]
  · exact (run_invariant_of_meets
      (fun state input => PoolInput.Allowed input ∧ ModuleState.RaisesFees state input)
      (fun past state => PoolInvariant past state ∧ state.outgoing.Ascending)
      (fun _ _ _ _ _ condition both step => ⟨both.1.step condition.1 step,
        both.2.step both.1 condition.1 condition.2 step⟩)
      (raises.and_inputs allowed) ⟨initially, Outgoing.ascending_empty⟩ runs).2
  · exact (run_invariant_of_meets
      (fun state input => PoolInput.Allowed input ∧ ModuleState.KeepsBatches state input)
      (fun past state => PoolInvariant past state ∧ BuiltStored past state.outgoing)
      (fun _ _ _ _ _ condition both step => ⟨both.1.step condition.1 step,
        both.2.step both.1 condition.1 condition.2 step⟩)
      (keeps.and_inputs allowed)
      ⟨initially, fun _ member => absurd member List.not_mem_nil⟩ runs).2

end Machine

/-! ### A second batch -/

section Examples

/-- A transfer with a fee of five is batched, then there is a transfer with another fee. -/
def exampleSecondFee (fee : Int) : List (PoolInput Ledger) :=
  [exampleSend 10 5, .buildOutgoingTXBatch exampleParams ⟨2, 100⟩ 5 exampleContract 2,
    exampleSend 20 fee]

theorem exampleSecondFee_allowed (fee : Int) : ∀ input ∈ exampleSecondFee fee, input.Allowed := by
  simp [exampleSecondFee, PoolInput.Allowed, exampleSend, exampleContract, ethContractAddressLen, ascii]

/-- The batch that is built next. -/
def exampleNextBatch (outgoing : Outgoing) : Outcome PoolError PoolPanic (Option OutgoingTxBatch × Outgoing) :=
  outgoing.buildOutgoingTXBatch exampleGeth exampleParams ⟨2, 100⟩ 6 exampleContract 2

/-- The stored batches with their fees, the fees of the next batch, and the estimate. -/
def exampleFees (outgoing : Outgoing) : List (Bytes × Int) × Option Int × Option Int :=
  (outgoing.batches.values.map fun batch => (batch.tokenContract, batch.totalFees),
    (exampleNextBatch outgoing).value?.bind fun made => made.1.map OutgoingTxBatch.totalFees,
    (outgoing.getBatchFeeByTokenType exampleContract 2).value?)

theorem exampleSecondFee_run (fee : Int) (small : fee = 1 ∨ fee = 7) :
    (run (poolStep exampleSdk (ledgerBank exampleModuleAccount) exampleGeth)
      ⟨exampleLedger, DenomIndex.empty, Outgoing.empty, none⟩ (exampleSecondFee fee)).map
      (fun result => exampleFees result.1.outgoing) =
      some ([(exampleContract, 5)], some fee, some fee) := by
  rcases small with rfl | rfl
  · decide +kernel
  · decide +kernel

/-- A single stored batch is the last of its token. -/
theorem Outgoing.Sound.isLast_of_values {outgoing : Outgoing} (sound : outgoing.Sound)
    {batch : OutgoingTxBatch} (single : outgoing.batches.values = [batch]) :
    outgoing.IsLast batch.tokenContract batch := by
  obtain ⟨key, found⟩ := (outgoing.batches.mem_values_iff batch).mp
    (single ▸ List.mem_singleton_self batch)
  refine ⟨sound.batchKeyed key batch found ▸ found, rfl, fun otherKey other stored _ => ?_⟩
  have member : other ∈ [batch] := single ▸ (outgoing.batches.mem_values_iff other).mpr ⟨_, stored⟩
  rw [List.mem_singleton.mp member]

theorem exampleSecondFee_spec (fee : Int) (small : fee = 1 ∨ fee = 7) :
    ∃ state outputs last batch after,
      run (poolStep exampleSdk (ledgerBank exampleModuleAccount) exampleGeth)
        ⟨exampleLedger, DenomIndex.empty, Outgoing.empty, none⟩ (exampleSecondFee fee) =
        some (state, outputs) ∧
      state.outgoing.IsLast exampleContract last ∧ last.totalFees = 5 ∧
      exampleNextBatch state.outgoing = .ok (some batch, after) ∧ batch.totalFees = fee ∧
      state.outgoing.getBatchFeeByTokenType exampleContract 2 = .ok fee := by
  obtain ⟨⟨state, outputs⟩, runs, equal⟩ := Option.map_eq_some_iff.mp (exampleSecondFee_run fee small)
  obtain ⟨stored, equal⟩ := Prod.mk.inj equal
  obtain ⟨next, estimated⟩ := Prod.mk.inj equal
  obtain ⟨⟨made, after⟩, built, fees⟩ := Option.bind_eq_some_iff.mp next
  obtain ⟨batch, rfl, batchFees⟩ := Option.map_eq_some_iff.mp fees
  obtain ⟨last, values, lastIs⟩ := List.map_eq_singleton_iff.mp stored
  obtain ⟨token, lastFees⟩ := Prod.mk.inj lastIs
  have sound := (poolInvariant_run (fun _ _ found => by cases found) (exampleSecondFee_allowed fee)
    runs).sound
  exact ⟨state, outputs, last, batch, after, runs, token ▸ sound.isLast_of_values values, lastFees,
    Outcome.value?_eq_some.mp built, batchFees, Outcome.value?_eq_some.mp estimated⟩

/-- **A cheaper batch is built**: the fee of the batch that waits is five, that of the next one is one. -/
theorem cheaper_batch_built : ∃ state outputs last batch after,
    run (poolStep exampleSdk (ledgerBank exampleModuleAccount) exampleGeth)
      ⟨exampleLedger, DenomIndex.empty, Outgoing.empty, none⟩ (exampleSecondFee 1) =
      some (state, outputs) ∧
    state.outgoing.IsLast exampleContract last ∧
    exampleNextBatch state.outgoing = .ok (some batch, after) ∧
    last.totalFees = 5 ∧ batch.totalFees = 1 ∧ ¬ last.totalFees < batch.totalFees := by
  obtain ⟨state, outputs, last, batch, after, runs, isLast, lastFees, built, fees, _⟩ :=
    exampleSecondFee_spec 1 (Or.inl rfl)
  exact ⟨state, outputs, last, batch, after, runs, isLast, built, lastFees, fees, by omega⟩

/-- With a fee of seven the next batch pays more. -/
theorem batch_fees_seven : ∃ state outputs last batch after,
    run (poolStep exampleSdk (ledgerBank exampleModuleAccount) exampleGeth)
      ⟨exampleLedger, DenomIndex.empty, Outgoing.empty, none⟩ (exampleSecondFee 7) =
      some (state, outputs) ∧
    state.outgoing.IsLast exampleContract last ∧
    exampleNextBatch state.outgoing = .ok (some batch, after) ∧ last.totalFees < batch.totalFees := by
  obtain ⟨state, outputs, last, batch, after, runs, isLast, lastFees, built, _, estimated⟩ :=
    exampleSecondFee_spec 7 (Or.inr rfl)
  refine ⟨state, outputs, last, batch, after, runs, isLast, built, ?_⟩
  refine ((batch_fees_iff (fun _ _ found => by cases found) (exampleSecondFee_allowed 7) runs).1 _ _ _ _
    _ _ _ _ (by decide) built isLast).mpr (Or.inr fun other otherLast => ⟨7, estimated, ?_⟩)
  rw [otherLast.unique isLast, lastFees]
  decide

end Examples

end NabBridge
