/-
**The timeout of a batch.**

`getBatchTimeoutHeight` multiplies the blocks since the last observation by the average block time,
turns the product into Ethereum blocks and adds the target timeout to it, all in `uint64`. The
parameters have lower bounds only, so that product and the total can both wrap around.

* `uint64_timeout_iff`: the chain of operations is exact if and only if neither of them does;
* `batchTimeout_exact_iff`: the same for the timeout of a batch.
-/

import NabBridge.Keeper.Params

namespace NabBridge

theorem uint64_natCast (value : Nat) : uint64 value = value % 2 ^ 64 := by
  unfold uint64
  omega

theorem uint64_sub {current last : Nat} (recorded : last ≤ current) :
    uint64 ((current : Int) - last) = (current - last) % 2 ^ 64 := by
  rw [← Int.ofNat_sub recorded, uint64_natCast]

/-- **When the operations are exact**: a product that wraps around makes the result too small, since the
divisor is no larger than what is lost. -/
theorem uint64_timeout_iff {product divisor height added : Nat} (positive : 0 < divisor)
    (small : divisor < 2 ^ 64) :
    ((product % 2 ^ 64 / divisor + height) % 2 ^ 64 + added) % 2 ^ 64 =
        product / divisor + height + added ↔
      product < 2 ^ 64 ∧ product / divisor + height + added < 2 ^ 64 := by
  rw [Nat.mod_add_mod]
  constructor
  · intro exact'
    have total : product / divisor + height + added < 2 ^ 64 :=
      exact' ▸ Nat.mod_lt _ (by decide)
    refine ⟨?_, total⟩
    by_contra large
    -- at least one whole divisor is lost
    have lost : product % 2 ^ 64 + divisor ≤ product := by
      have remainder : product % 2 ^ 64 + 2 ^ 64 ≤ product := by
        have split := Nat.mod_add_div product (2 ^ 64)
        have quotient : 1 ≤ product / 2 ^ 64 := Nat.div_pos (not_lt.mp large) (by decide)
        omega
      omega
    have less : product % 2 ^ 64 / divisor + 1 ≤ product / divisor := by
      rw [← Nat.add_div_right _ positive]
      exact Nat.div_le_div_right lost
    have reduced := Nat.mod_le (product % 2 ^ 64 / divisor + height + added) (2 ^ 64)
    omega
  · rintro ⟨fits, total⟩
    rw [Nat.mod_eq_of_lt fits, Nat.mod_eq_of_lt total]

/-- The timeout as a natural number. -/
def exactBatchTimeout (params : Params) (heights : LastObservedEthereumBlockHeight)
    (blockHeight : Nat) : Nat :=
  (blockHeight - heights.cosmosBlockHeight) * params.averageBlockTime / params.averageEthereumBlockTime +
    heights.ethereumBlockHeight + params.targetBatchTimeout / params.averageEthereumBlockTime

/-- What is computed, without the conversions. -/
theorem getBatchTimeoutHeight_eq {params : Params} {heights : LastObservedEthereumBlockHeight}
    {blockHeight : Nat} (positive : 0 < params.averageEthereumBlockTime)
    (known : heights.cosmosBlockHeight ≠ 0 ∧ heights.ethereumBlockHeight ≠ 0)
    (recorded : heights.cosmosBlockHeight ≤ blockHeight) :
    getBatchTimeoutHeight params heights blockHeight =
      .ok ((((blockHeight - heights.cosmosBlockHeight) * params.averageBlockTime % 2 ^ 64 /
          params.averageEthereumBlockTime + heights.ethereumBlockHeight) % 2 ^ 64 +
        params.targetBatchTimeout / params.averageEthereumBlockTime) % 2 ^ 64) := by
  have observed : ¬ (heights.cosmosBlockHeight = 0 ∨ heights.ethereumBlockHeight = 0) :=
    not_or.mpr known
  rw [getBatchTimeoutHeight, if_neg observed, if_neg positive.ne']
  simp only [uint64_sub recorded, ← Nat.cast_mul, ← Nat.cast_add, ← Int.natCast_ediv, uint64_natCast,
    Nat.mod_mul_mod]

/-- **When the timeout of a batch is exact**: the time since the last observation fits a `uint64`, and
so does the timeout. It is never below the observed height then. -/
theorem batchTimeout_exact_iff {p : ModuleParams} (valid : p.validateBasic = .ok ()) (range : p.InRange)
    {heights : LastObservedEthereumBlockHeight} {blockHeight : Nat}
    (known : heights.cosmosBlockHeight ≠ 0 ∧ heights.ethereumBlockHeight ≠ 0)
    (recorded : heights.cosmosBlockHeight ≤ blockHeight) :
    (∃ timeout, getBatchTimeoutHeight p.toParams heights blockHeight = .ok timeout ∧
        timeout = exactBatchTimeout p.toParams heights blockHeight ∧
        heights.ethereumBlockHeight ≤ timeout) ↔
      (blockHeight - heights.cosmosBlockHeight) * p.averageBlockTime < 2 ^ 64 ∧
        exactBatchTimeout p.toParams heights blockHeight < 2 ^ 64 := by
  have positive : 0 < p.averageEthereumBlockTime :=
    lt_of_lt_of_le (by decide) (ModuleParams.validateBasic_times valid).2.2
  rw [getBatchTimeoutHeight_eq positive known recorded]
  rw [exactBatchTimeout, ← uint64_timeout_iff positive range.averageEthereumBlockTime]
  constructor
  · rintro ⟨timeout, computed, exact', -⟩
    rw [← exact', ← Outcome.ok.inj computed]
  · intro exact'
    refine ⟨_, rfl, exact', ?_⟩
    rw [exact']
    exact (Nat.le_add_left _ _).trans (Nat.le_add_right _ _)

/-- The default parameters, ten blocks after an observation. -/
theorem batchTimeout_exact_default :
    ∃ timeout, getBatchTimeoutHeight defaultParams.toParams ⟨100, 5000⟩ 110 = .ok timeout ∧
      timeout = exactBatchTimeout defaultParams.toParams ⟨100, 5000⟩ 110 ∧ 5000 ≤ timeout :=
  (batchTimeout_exact_iff (by decide +kernel)
    ⟨by decide, by decide, by decide, by decide, by decide, by decide, by decide, by decide⟩
    (by decide) (by decide)).mpr (by decide)

/-- **A timeout that is not projected**: with a block time of `2 ^ 63` milliseconds two blocks count as
none. -/
theorem batchTimeout_wraps :
    { defaultParams with averageBlockTime := 2 ^ 63 }.validateBasic = .ok () ∧
    getBatchTimeoutHeight { defaultParams with averageBlockTime := 2 ^ 63 }.toParams ⟨100, 5000⟩ 102 =
      .ok 7880 ∧
    exactBatchTimeout { defaultParams with averageBlockTime := 2 ^ 63 }.toParams ⟨100, 5000⟩ 102 ≠
      7880 :=
  ⟨by decide +kernel, by decide, by decide⟩

end NabBridge
