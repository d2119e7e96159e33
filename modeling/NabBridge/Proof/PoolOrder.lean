/-
**The order of the pool.**

A pool key is the contract, the fee in 32 bytes and the id in 8, so the records of one token are walked in
descending order of fee and id. That needs what `Outgoing.Filed` says of the pool: every record is under
its own key, its contract has the length of an address, and its fee is an `sdk.Int` that is not negative.

* `Filed.unbatchedTransactions_contract`, `Filed.ofToken_descending`: what an iterator over one token walks,
  and in which order;
* `Filed.pickUnbatchedTX_eq`: the selection loop takes the first records of the walk, and only them, out of
  the pool;
* `sumFees_eq_ok_iff`: the estimate is made exactly where the sum is an `sdk.Int`.
-/

import NabBridge.Keeper.Batch

namespace NabBridge

/-! ### Records -/

/-- What every record of the pool satisfies. -/
structure OutgoingTransferTx.Fileable (tx : OutgoingTransferTx) : Prop where
  contract : tx.erc20Fee.contract.length = ethContractAddressLen
  nonneg : 0 ≤ tx.erc20Fee.amount
  fits : fitsSdkInt tx.erc20Fee.amount

/-- A record pays less, or the same and was sent earlier. -/
def OutgoingTransferTx.Below (first second : OutgoingTransferTx) : Prop :=
  first.erc20Fee.amount < second.erc20Fee.amount ∨
    first.erc20Fee.amount = second.erc20Fee.amount ∧ first.id < second.id

instance (first second : OutgoingTransferTx) : Decidable (first.Below second) := by
  unfold OutgoingTransferTx.Below; infer_instance

theorem OutgoingTransferTx.Below.not_self (tx : OutgoingTransferTx) : ¬ tx.Below tx := by
  rintro (less | ⟨_, less⟩) <;> exact lt_irrefl _ less

/-- **Keys of one token are ordered as fees and ids are.** -/
theorem OutgoingTransferTx.Below.key_lt {first second : OutgoingTransferTx}
    (same : first.erc20Fee.contract = second.erc20Fee.contract) (nonneg : 0 ≤ first.erc20Fee.amount)
    (nonneg' : 0 ≤ second.erc20Fee.amount) (below : first.Below second) : first.key < second.key := by
  refine List.cons_lt_cons_iff.mpr (Or.inr ⟨rfl, ?_⟩)
  rw [same]
  refine List.append_left_lt ?_
  rcases below with cheaper | ⟨sameFee, earlier⟩
  · have amounts : first.erc20Fee.amount.natAbs < second.erc20Fee.amount.natAbs := by omega
    exact append_lt_append (by simp) (beDigits_strictMono (by decide) amounts) _ _
  · rw [sameFee]
    exact List.append_left_lt (uint64Bytes_strictMono earlier)

theorem OutgoingTransferTx.below_of_key_lt {first second : OutgoingTransferTx}
    (same : first.erc20Fee.contract = second.erc20Fee.contract) (nonneg : 0 ≤ first.erc20Fee.amount)
    (nonneg' : 0 ≤ second.erc20Fee.amount) (less : first.key < second.key) : first.Below second := by
  by_contra not_below
  unfold OutgoingTransferTx.Below at not_below
  by_cases equal : first.erc20Fee.amount = second.erc20Fee.amount ∧ first.id = second.id
  · have keys : first.key = second.key := by
      unfold OutgoingTransferTx.key poolKey
      rw [same, equal.1, equal.2]
    exact less.ne keys
  · have above : second.Below first := by
      unfold OutgoingTransferTx.Below
      omega
    exact lt_asymm less (above.key_lt same.symm nonneg' nonneg)

/-- The fees of a list of records. -/
def feeSum (txs : List OutgoingTransferTx) : Int := (txs.map fun tx => tx.erc20Fee.amount).sum

@[simp] theorem feeSum_nil : feeSum [] = 0 := rfl

@[simp] theorem feeSum_cons (tx : OutgoingTransferTx) (txs : List OutgoingTransferTx) :
    feeSum (tx :: txs) = tx.erc20Fee.amount + feeSum txs := rfl

@[simp] theorem feeSum_append (first second : List OutgoingTransferTx) :
    feeSum (first ++ second) = feeSum first + feeSum second := by
  unfold feeSum
  rw [List.map_append, List.sum_append]

theorem feeSum_nonneg {txs : List OutgoingTransferTx} (nonneg : ∀ tx ∈ txs, 0 ≤ tx.erc20Fee.amount) :
    0 ≤ feeSum txs := by
  induction txs with
  | nil => exact le_refl 0
  | cons tx rest ih =>
      have first := nonneg tx List.mem_cons_self
      have others := ih fun other member => nonneg other (List.mem_cons_of_mem _ member)
      rw [feeSum_cons]
      omega

/-- Between zero and an `sdk.Int` is an `sdk.Int`. -/
theorem fitsSdkInt_of_le {value bound : Int} (nonneg : 0 ≤ value) (le : value ≤ bound)
    (fits : fitsSdkInt bound) : fitsSdkInt value := by
  unfold fitsSdkInt at fits ⊢
  omega

namespace Outgoing

/-! ### The pool -/

/-- **Every record is under its own key** and can be there. -/
def Filed (outgoing : Outgoing) : Prop :=
  ∀ key tx, outgoing.pool.get key = some tx → key = tx.key ∧ tx.Fileable

/-- The records of a token, from the highest fee on. -/
def ofToken (outgoing : Outgoing) (token : Bytes) : List OutgoingTransferTx :=
  (outgoing.pool.values.filter fun tx => tx.erc20Fee.contract = token).reverse

section Walk

variable {outgoing : Outgoing}

theorem mem_ofToken {token : Bytes} {tx : OutgoingTransferTx} :
    tx ∈ outgoing.ofToken token ↔
      (∃ key, outgoing.pool.get key = some tx) ∧ tx.erc20Fee.contract = token := by
  rw [ofToken, List.mem_reverse, List.mem_filter, outgoing.pool.mem_values_iff, decide_eq_true_iff]

theorem Filed.stored (filed : outgoing.Filed) {token : Bytes} {tx : OutgoingTransferTx}
    (member : tx ∈ outgoing.ofToken token) :
    outgoing.pool.get tx.key = some tx ∧ tx.Fileable ∧ tx.erc20Fee.contract = token := by
  obtain ⟨⟨key, found⟩, contract⟩ := mem_ofToken.mp member
  obtain ⟨rfl, fileable⟩ := filed key tx found
  exact ⟨found, fileable, contract⟩

/-- The records are stored in the order of their keys. -/
theorem Filed.values_sorted (filed : outgoing.Filed) :
    outgoing.pool.values.Pairwise fun first second => first.key < second.key := by
  refine List.pairwise_map.mpr (outgoing.pool.sorted.imp_of_mem fun {first second} member member' less => ?_)
  have keys := filed first.1 first.2 ((outgoing.pool.mem_entries_iff _ _).mp member)
  have keys' := filed second.1 second.2 ((outgoing.pool.mem_entries_iff _ _).mp member')
  rw [← keys.1, ← keys'.1]
  exact less

/-- **The records of a token are in descending order** of fee and id. -/
theorem Filed.ofToken_descending (filed : outgoing.Filed) (token : Bytes) :
    (outgoing.ofToken token).Pairwise fun first second => second.Below first := by
  rw [ofToken, List.pairwise_reverse]
  refine (filed.values_sorted.filter _).imp_of_mem fun {first second} member member' less => ?_
  obtain ⟨_, fileable, contract⟩ := filed.stored (List.mem_reverse.mpr member)
  obtain ⟨_, fileable', contract'⟩ := filed.stored (List.mem_reverse.mpr member')
  exact OutgoingTransferTx.below_of_key_lt (contract.trans contract'.symm) fileable.nonneg
    fileable'.nonneg less

theorem Filed.keys_nodup (filed : outgoing.Filed) (token : Bytes) :
    ((outgoing.ofToken token).map OutgoingTransferTx.key).Nodup := by
  rw [ofToken, List.map_reverse, List.nodup_reverse]
  exact List.pairwise_map.mpr ((filed.values_sorted.filter _).imp ne_of_lt)

/-- A walked record is of the token it was walked for. -/
theorem contract_of_prefix {contract : Bytes} {tx : OutgoingTransferTx}
    (same : contract.length = tx.erc20Fee.contract.length)
    (starts : getOutgoingTxPoolContractPrefix contract <+: tx.key) :
    tx.erc20Fee.contract = contract := by
  have tails : keyBytes contract <+: keyBytes tx.erc20Fee.contract ++
      (beDigits 32 tx.erc20Fee.amount.natAbs ++ uint64Bytes tx.id) :=
    (List.cons_prefix_cons.mp starts).2
  have inside : keyBytes contract <+: keyBytes tx.erc20Fee.contract :=
    List.prefix_of_prefix_length_le tails (List.prefix_append _ _) (by simp [same])
  exact (keyBytes_injective (inside.eq_of_length (by simp [same]))).symm

/-- **What an iterator over a token walks.** -/
theorem Filed.unbatchedTransactions_contract (filed : outgoing.Filed) {token : Bytes}
    (length : token.length = ethContractAddressLen) :
    outgoing.unbatchedTransactions (getOutgoingTxPoolContractPrefix token) = outgoing.ofToken token := by
  rw [unbatchedTransactions, ofToken, Store.values, List.filter_map]
  refine congrArg List.reverse (congrArg (List.map Prod.snd) (List.filter_congr fun entry member => ?_))
  obtain ⟨keyIs, fileable⟩ := filed entry.1 entry.2 ((outgoing.pool.mem_entries_iff _ _).mp member)
  rw [Bool.eq_iff_iff, List.isPrefixOf_iff_prefix, Function.comp, decide_eq_true_iff, keyIs]
  constructor
  · exact contract_of_prefix (length.trans fileable.contract.symm)
  · rintro rfl
    exact List.cons_prefix_cons.mpr ⟨rfl, List.prefix_append _ _⟩

/-- What an iterator over the whole pool walks. -/
theorem Filed.unbatchedTransactions_all (filed : outgoing.Filed) :
    outgoing.unbatchedTransactions outgoingTXPoolKey = outgoing.pool.values.reverse := by
  rw [unbatchedTransactions, Store.values, List.filter_eq_self.mpr]
  intro entry member
  obtain ⟨keyIs, _⟩ := filed entry.1 entry.2 ((outgoing.pool.mem_entries_iff _ _).mp member)
  rw [keyIs, List.isPrefixOf_iff_prefix]
  exact List.cons_prefix_cons.mpr ⟨rfl, List.nil_prefix⟩

end Walk

/-! ### The selection -/

/-- The pool without some records. -/
def without (outgoing : Outgoing) (txs : List OutgoingTransferTx) : Outgoing :=
  { outgoing with pool := (txs.map OutgoingTransferTx.key).foldl Store.delete outgoing.pool }

/-- **The selection loop** takes the first records of the walk out of the pool, up to the limit. -/
theorem pickUnbatchedTX_eq {maxElements : Nat} (rest : List OutgoingTransferTx) {outgoing : Outgoing}
    (selected : List OutgoingTransferTx)
    (stored : ∀ tx ∈ rest, outgoing.pool.get tx.key = some tx)
    (distinct : (rest.map OutgoingTransferTx.key).Nodup) (room : selected.length < maxElements) :
    pickUnbatchedTX maxElements selected rest outgoing =
      .ok (selected ++ rest.take (maxElements - selected.length),
        outgoing.without (rest.take (maxElements - selected.length))) := by
  induction rest generalizing selected outgoing with
  | nil => simp [pickUnbatchedTX, without]
  | cons tx rest ih =>
      obtain ⟨new, distinct⟩ := List.nodup_cons.mp distinct
      have present : outgoing.pool.has (poolKey tx.erc20Fee tx.id) = true :=
        (outgoing.pool.has_eq_true_iff _).mpr ⟨tx, stored tx List.mem_cons_self⟩
      have removed : outgoing.removeUnbatchedTX tx.erc20Fee tx.id =
          .ok { outgoing with pool := outgoing.pool.delete tx.key } := by
        unfold removeUnbatchedTX
        rw [if_neg (by simp [present])]
        rfl
      have gone : (getUnbatchedTxByFeeAndId { outgoing with pool := outgoing.pool.delete tx.key }
          tx.erc20Fee tx.id).isSome = false := by
        show ((outgoing.pool.delete tx.key).get tx.key).isSome = false
        rw [Store.get_delete_self]
        rfl
      have still : ∀ other ∈ rest, (outgoing.pool.delete tx.key).get other.key = some other := by
        intro other member
        have different : other.key ≠ tx.key := fun equal => new (equal ▸ List.mem_map_of_mem member)
        rw [Store.get_delete_of_ne _ different]
        exact stored other (List.mem_cons_of_mem _ member)
      obtain ⟨more, count⟩ := Nat.exists_eq_succ_of_ne_zero (Nat.sub_ne_zero_of_lt room)
      have longer : (selected ++ [tx]).length = selected.length + 1 := by simp
      rw [pickUnbatchedTX, removed, count, List.take_succ_cons]
      simp only [gone, Bool.false_eq_true, if_false]
      split_ifs with full
      · have none : more = 0 := by omega
        rw [none, List.take_zero]
        rfl
      · have roomLeft : (selected ++ [tx]).length < maxElements := by omega
        rw [ih (selected ++ [tx]) still distinct roomLeft, longer,
          show maxElements - (selected.length + 1) = more by omega, List.append_assoc,
          List.singleton_append]
        rfl

/-- What is left after a selection. -/
theorem get_without {outgoing : Outgoing} {txs : List OutgoingTransferTx} {key : StoreKey}
    {tx : OutgoingTransferTx} :
    (outgoing.without txs).pool.get key = some tx ↔
      outgoing.pool.get key = some tx ∧ key ∉ txs.map OutgoingTransferTx.key :=
  Store.get_foldl_delete

/-- **The selection of a token.** -/
theorem Filed.pick {outgoing : Outgoing} (filed : outgoing.Filed) {token : Bytes}
    (length : token.length = ethContractAddressLen) {maxElements : Nat} (positive : 0 < maxElements) :
    pickUnbatchedTX maxElements []
        (outgoing.unbatchedTransactions (getOutgoingTxPoolContractPrefix token)) outgoing =
      .ok ((outgoing.ofToken token).take maxElements,
        outgoing.without ((outgoing.ofToken token).take maxElements)) := by
  rw [filed.unbatchedTransactions_contract length]
  exact pickUnbatchedTX_eq _ [] (fun tx member => (filed.stored member).1) (filed.keys_nodup token)
    positive

/-! ### The estimate -/

/-- **The estimate is made** exactly where the sum of the first fees is an `sdk.Int`. -/
theorem sumFees_eq_ok_iff {tokenContract : Bytes} {maxElements count : Nat} {total estimate : Int}
    {txs : List OutgoingTransferTx}
    (records : ∀ tx ∈ txs, 0 ≤ tx.erc20Fee.amount ∧ tx.erc20Fee.contract = tokenContract)
    (nonneg : 0 ≤ total) (fits : fitsSdkInt total) (room : count < maxElements) :
    sumFees tokenContract maxElements count total txs = .ok estimate ↔
      estimate = total + feeSum (txs.take (maxElements - count)) ∧ fitsSdkInt estimate := by
  induction txs generalizing count total with
  | nil =>
      rw [sumFees, Outcome.ok.injEq, List.take_nil, feeSum_nil, Int.add_zero, eq_comm]
      exact ⟨fun same => ⟨same, same ▸ fits⟩, fun both => both.1⟩
  | cons tx rest ih =>
      obtain ⟨feeNonneg, contract⟩ := records tx List.mem_cons_self
      have others : ∀ other ∈ rest, 0 ≤ other.erc20Fee.amount ∧
          other.erc20Fee.contract = tokenContract :=
        fun other member => records other (List.mem_cons_of_mem _ member)
      obtain ⟨more, left⟩ := Nat.exists_eq_succ_of_ne_zero (Nat.sub_ne_zero_of_lt room)
      rw [sumFees, if_neg (not_not.mpr contract), left, List.take_succ_cons, feeSum_cons,
        ← Int.add_assoc]
      unfold sdkIntAdd
      by_cases sumFits : fitsSdkInt (total + tx.erc20Fee.amount)
      · rw [if_pos sumFits, liftCoin, Outcome.ok_bind]
        split_ifs with full
        · have none : more = 0 := by omega
          rw [none, List.take_zero, feeSum_nil, Int.add_zero, Outcome.pure_eq, Outcome.ok.injEq, eq_comm]
          exact ⟨fun same => ⟨same, same ▸ sumFits⟩, fun both => both.1⟩
        · rw [ih others (by omega) sumFits (by omega), show maxElements - (count + 1) = more by omega]
      · rw [if_neg sumFits, liftCoin, Outcome.panic_bind]
        refine iff_of_false (fun bad => by cases bad) ?_
        rintro ⟨rfl, whole⟩
        exact sumFits (fitsSdkInt_of_le (by omega)
          (Int.le_add_of_nonneg_right (feeSum_nonneg fun other member =>
            (others other (List.mem_of_mem_take member)).1)) whole)

/-- **The estimate of a token.** -/
theorem Filed.getBatchFeeByTokenType_eq_ok_iff {outgoing : Outgoing} (filed : outgoing.Filed)
    {token : Bytes} (length : token.length = ethContractAddressLen) {maxElements : Nat}
    (positive : 0 < maxElements) (estimate : Int) :
    outgoing.getBatchFeeByTokenType token maxElements = .ok estimate ↔
      estimate = feeSum ((outgoing.ofToken token).take maxElements) ∧ fitsSdkInt estimate := by
  have records : ∀ tx ∈ outgoing.ofToken token,
      0 ≤ tx.erc20Fee.amount ∧ tx.erc20Fee.contract = token :=
    fun tx member => ⟨(filed.stored member).2.1.nonneg, (filed.stored member).2.2⟩
  have summed := @sumFees_eq_ok_iff token maxElements 0 0 estimate _ records le_rfl (by decide) positive
  rw [Nat.sub_zero, Int.zero_add] at summed
  rw [getBatchFeeByTokenType, filed.unbatchedTransactions_contract length]
  exact summed

end Outgoing

end NabBridge
