/-
**Selecting the transactions of a batch.**

The selection takes the records with the highest fees, and two queries say beforehand what they pay. The
selection and `GetBatchFeeByTokenType` stop at the limit, `GetAllBatchFees` counts on: it compares the number
of records of a token with the limit as an `int`, which from 2^63 on is negative. Where a sum of fees is no
`sdk.Int`, the queries panic.

* `Filed.pick_best`: the selection is the best there is;
* `Filed.createBatchFees_eq_ok_iff`: what the loop over the whole pool leaves, and when it gets there;
* `selection_predicted_iff`: the queries predict the selection exactly where the limit is an `int`, or the
  pool is empty, and the highest fees of every token together are an `sdk.Int`.
-/

import NabBridge.Keeper.BatchFees
import NabBridge.Proof.Conservation

namespace NabBridge

namespace Outgoing

/-! ### The selection -/

/-- **The best selection of a token**: as many records as there are, up to the limit, in descending order,
with every record that is left below every selected one; these and no others are taken out of the pool. -/
structure BestSelection (before : Outgoing) (token : Bytes) (maxElements : Nat)
    (selected : List OutgoingTransferTx) (after : Outgoing) : Prop where
  count : selected.length =
    min maxElements (before.pool.values.countP fun tx => tx.erc20Fee.contract = token)
  member : ∀ tx ∈ selected, before.pool.get tx.key = some tx ∧ tx.erc20Fee.contract = token
  distinct : selected.Nodup
  descending : selected.Pairwise fun first second => second.Below first
  best : ∀ key tx, after.pool.get key = some tx → tx.erc20Fee.contract = token →
    ∀ picked ∈ selected, tx.Below picked
  removed : ∀ key tx, after.pool.get key = some tx ↔
    before.pool.get key = some tx ∧ tx ∉ selected
  others : after = { before with pool := after.pool }

/-- **The first records of the walk are the best selection.** -/
theorem Filed.pick_best {outgoing : Outgoing} (filed : outgoing.Filed) (token : Bytes)
    (maxElements : Nat) :
    outgoing.BestSelection token maxElements ((outgoing.ofToken token).take maxElements)
      (outgoing.without ((outgoing.ofToken token).take maxElements)) := by
  have descending := filed.ofToken_descending token
  have selected : ∀ tx ∈ (outgoing.ofToken token).take maxElements, tx ∈ outgoing.ofToken token :=
    fun tx member => List.mem_of_mem_take member
  have keys : ∀ key tx, outgoing.pool.get key = some tx →
      (key ∈ ((outgoing.ofToken token).take maxElements).map OutgoingTransferTx.key ↔
        tx ∈ (outgoing.ofToken token).take maxElements) := by
    intro key tx found
    obtain ⟨rfl, _⟩ := filed key tx found
    constructor
    · intro inside
      obtain ⟨other, member, same⟩ := List.mem_map.mp inside
      obtain ⟨stored, _⟩ := filed.stored (selected other member)
      rw [same, found] at stored
      exact Option.some.inj stored ▸ member
    · exact List.mem_map_of_mem
  refine ⟨?_, fun tx member => ?_, ?_, descending.sublist (List.take_sublist _ _),
    fun key tx left contract picked member => ?_, fun key tx => ?_, rfl⟩
  · rw [List.length_take, ofToken, List.length_reverse, List.countP_eq_length_filter]
  · obtain ⟨stored, _, contract⟩ := filed.stored (selected tx member)
    exact ⟨stored, contract⟩
  · refine (descending.imp fun below same => ?_).sublist (List.take_sublist _ _)
    exact OutgoingTransferTx.Below.not_self _ (same ▸ below)
  · -- what is left comes after the limit
    obtain ⟨stored, gone⟩ := get_without.mp left
    have inside : tx ∈ outgoing.ofToken token := mem_ofToken.mpr ⟨⟨key, stored⟩, contract⟩
    have dropped : tx ∈ (outgoing.ofToken token).drop maxElements := by
      rw [← List.take_append_drop maxElements (outgoing.ofToken token)] at inside
      exact (List.mem_append.mp inside).resolve_left (mt (keys key tx stored).mpr gone)
    rw [← List.take_append_drop maxElements (outgoing.ofToken token), List.pairwise_append] at descending
    exact descending.2.2 picked member tx dropped
  · rw [get_without]
    exact ⟨fun both => ⟨both.1, mt (keys key tx both.1).mpr both.2⟩,
      fun both => ⟨both.1, mt (keys key tx both.1).mp both.2⟩⟩

end Outgoing

/-! ### The loop over the whole pool -/

section Tally

/-- The records of a token among those seen. -/
def ownRecords (token : Bytes) (seen : List OutgoingTransferTx) : List OutgoingTransferTx :=
  seen.filter fun tx => tx.erc20Fee.contract = token

theorem ownRecords_snoc_self (seen : List OutgoingTransferTx) (tx : OutgoingTransferTx) :
    ownRecords tx.erc20Fee.contract (seen ++ [tx]) = ownRecords tx.erc20Fee.contract seen ++ [tx] := by
  simp [ownRecords]

theorem ownRecords_snoc_of_ne {token : Bytes} {tx : OutgoingTransferTx}
    (other : token ≠ tx.erc20Fee.contract) (seen : List OutgoingTransferTx) :
    ownRecords token (seen ++ [tx]) = ownRecords token seen := by
  simp [ownRecords, other.symm]

/-- More records have at least the fees of fewer. -/
theorem feeSum_take_le {first second : List OutgoingTransferTx} (maxElements : Nat)
    (nonneg : ∀ tx ∈ second, 0 ≤ tx.erc20Fee.amount) :
    feeSum (first.take maxElements) ≤ feeSum ((first ++ second).take maxElements) := by
  rw [List.take_append, feeSum_append]
  exact Int.le_add_of_nonneg_right (feeSum_nonneg fun tx member => nonneg tx (List.mem_of_mem_take member))

/-- **What the maps say** after the records seen so far. -/
structure Tallied (maxElements : Nat) (seen : List OutgoingTransferTx) (maps : BatchFeesMaps) :
    Prop where
  count : ∀ token, maps.txCount token = min maxElements (ownRecords token seen).length
  total : ∀ token, maps.batchFeesMap.get (keyBytes token) =
    if ownRecords token seen = [] then none
    else some ⟨token, feeSum ((ownRecords token seen).take maxElements)⟩
  keys : ∀ key fees, maps.batchFeesMap.get key = some fees → key = keyBytes fees.token
  fits : ∀ token, fitsSdkInt (feeSum ((ownRecords token seen).take maxElements))

theorem tallied_nil (maxElements : Nat) : Tallied maxElements [] ⟨Store.empty, Store.empty⟩ where
  count token := by simp [BatchFeesMaps.txCount, ownRecords]
  total token := by simp [ownRecords]
  keys key fees found := by cases found
  fits token := by
    rw [ownRecords, List.filter_nil, List.take_nil, feeSum_nil]
    decide

/-- The maps after one more record of a token: other tokens keep their entries. -/
theorem Tallied.put {maxElements : Nat} {seen : List OutgoingTransferTx} {maps : BatchFeesMaps}
    (tallied : Tallied maxElements seen maps) {tx : OutgoingTransferTx} {count : Nat} {total : Int}
    (countIs : count = min maxElements (ownRecords tx.erc20Fee.contract (seen ++ [tx])).length)
    (totalIs : total = feeSum ((ownRecords tx.erc20Fee.contract (seen ++ [tx])).take maxElements))
    (fits : fitsSdkInt total) :
    Tallied maxElements (seen ++ [tx])
      ⟨maps.batchFeesMap.set (keyBytes tx.erc20Fee.contract) ⟨tx.erc20Fee.contract, total⟩,
        maps.txCountMap.set (keyBytes tx.erc20Fee.contract) count⟩ := by
  have apart : ∀ {token : Bytes}, token ≠ tx.erc20Fee.contract →
      keyBytes token ≠ keyBytes tx.erc20Fee.contract :=
    fun differ same => differ (keyBytes_injective same)
  refine ⟨fun token => ?_, fun token => ?_, fun key fees found => ?_, fun token => ?_⟩
  · by_cases same : token = tx.erc20Fee.contract
    · rw [same, BatchFeesMaps.txCount, Store.get_set_self, Option.getD_some, countIs]
    · rw [BatchFeesMaps.txCount, Store.get_set_of_ne _ _ (apart same), ownRecords_snoc_of_ne same]
      exact tallied.count token
  · by_cases same : token = tx.erc20Fee.contract
    · rw [same, Store.get_set_self, totalIs, if_neg (by simp [ownRecords_snoc_self])]
    · rw [Store.get_set_of_ne _ _ (apart same), ownRecords_snoc_of_ne same]
      exact tallied.total token
  · rcases Store.of_get_set found with ⟨rfl, rfl⟩ | earlier
    · rfl
    · exact tallied.keys key fees earlier
  · by_cases same : token = tx.erc20Fee.contract
    · rw [same, ← totalIs]
      exact fits
    · rw [ownRecords_snoc_of_ne same]
      exact tallied.fits token

/-- **One round of the loop**: it goes on exactly where the fees of the token still fit. -/
theorem Tallied.countFee {maxElements : Nat} (int : maxElements < 2 ^ 63)
    (positive : 0 < maxElements) {seen : List OutgoingTransferTx} {maps : BatchFeesMaps}
    (tallied : Tallied maxElements seen maps) {tx : OutgoingTransferTx}
    (fits : fitsSdkInt tx.erc20Fee.amount) :
    if fitsSdkInt (feeSum ((ownRecords tx.erc20Fee.contract (seen ++ [tx])).take maxElements)) then
      ∃ next, NabBridge.countFee maxElements maps tx = .ok next ∧ Tallied maxElements (seen ++ [tx]) next
    else ∃ reason, NabBridge.countFee maxElements maps tx = .panic reason := by
  have limit : int64 (maxElements : Int) = maxElements := int64_of_small (by omega) (by omega)
  have counted := tallied.count tx.erc20Fee.contract
  by_cases more : maps.txCount tx.erc20Fee.contract < maxElements
  · have counts : NabBridge.countFee maxElements maps tx = addFeeToMap tx.erc20Fee maps := by
      unfold NabBridge.countFee
      rw [limit, if_pos (Int.ofNat_lt.mpr more)]
    have room : (ownRecords tx.erc20Fee.contract seen).length < maxElements := by omega
    have all : (ownRecords tx.erc20Fee.contract (seen ++ [tx])).take maxElements =
        ownRecords tx.erc20Fee.contract seen ++ [tx] := by
      rw [ownRecords_snoc_self, List.take_of_length_le]
      rw [List.length_append, List.length_singleton]
      exact room
    have sum : feeSum ((ownRecords tx.erc20Fee.contract (seen ++ [tx])).take maxElements) =
        feeSum ((ownRecords tx.erc20Fee.contract seen).take maxElements) + tx.erc20Fee.amount := by
      rw [all, feeSum_append, List.take_of_length_le room.le, feeSum_cons, feeSum_nil, Int.add_zero]
    have count : maps.txCount tx.erc20Fee.contract + 1 =
        min maxElements (ownRecords tx.erc20Fee.contract (seen ++ [tx])).length := by
      rw [ownRecords_snoc_self, List.length_append, List.length_singleton]
      omega
    rw [counts, addFeeToMap, tallied.total]
    by_cases first : ownRecords tx.erc20Fee.contract seen = []
    · have single : feeSum ((ownRecords tx.erc20Fee.contract (seen ++ [tx])).take maxElements) =
          tx.erc20Fee.amount := by
        rw [sum, first, List.take_nil, feeSum_nil, Int.zero_add]
      rw [if_pos first, if_pos (single ▸ fits)]
      exact ⟨_, rfl, tallied.put count single.symm fits⟩
    · rw [if_neg first]
      simp only [sdkIntAdd, ← sum]
      split_ifs with whole
      · exact ⟨_, rfl, tallied.put count rfl whole⟩
      · exact ⟨_, rfl⟩
  · -- the token has reached the limit
    have counts : NabBridge.countFee maxElements maps tx = pure maps := by
      unfold NabBridge.countFee
      rw [limit, if_neg (mt Int.ofNat_lt.mp more)]
    have full : maxElements ≤ (ownRecords tx.erc20Fee.contract seen).length := by omega
    have same : (ownRecords tx.erc20Fee.contract (seen ++ [tx])).take maxElements =
        (ownRecords tx.erc20Fee.contract seen).take maxElements := by
      rw [ownRecords_snoc_self, List.take_append_of_le_length full]
    have some : ownRecords tx.erc20Fee.contract seen ≠ [] := fun none => by
      rw [none, List.length_nil] at full
      omega
    rw [counts, if_pos (same ▸ tallied.fits _)]
    refine ⟨maps, rfl, fun token => ?_, fun token => ?_, tallied.keys, fun token => ?_⟩
    · by_cases own : token = tx.erc20Fee.contract
      · rw [own, ownRecords_snoc_self, List.length_append, tallied.count]
        omega
      · rw [ownRecords_snoc_of_ne own]
        exact tallied.count token
    · by_cases own : token = tx.erc20Fee.contract
      · rw [own, same, if_neg (by simp [ownRecords_snoc_self]), tallied.total, if_neg some]
      · rw [ownRecords_snoc_of_ne own]
        exact tallied.total token
    · by_cases own : token = tx.erc20Fee.contract
      · rw [own, same]
        exact tallied.fits _
      · rw [ownRecords_snoc_of_ne own]
        exact tallied.fits token

/-- **The loop** gets to its end exactly where the first fees of every token fit, and leaves their sums. -/
theorem Tallied.foldlM {maxElements : Nat} (int : maxElements < 2 ^ 63) (positive : 0 < maxElements)
    {seen rest : List OutgoingTransferTx} {maps : BatchFeesMaps}
    (tallied : Tallied maxElements seen maps)
    (records : ∀ tx ∈ seen ++ rest, 0 ≤ tx.erc20Fee.amount ∧ fitsSdkInt tx.erc20Fee.amount) :
    (∀ final, rest.foldlM (NabBridge.countFee maxElements) maps = .ok final →
      Tallied maxElements (seen ++ rest) final) ∧
    ((∃ final, rest.foldlM (NabBridge.countFee maxElements) maps = .ok final) ↔
      ∀ token, fitsSdkInt (feeSum ((ownRecords token (seen ++ rest)).take maxElements))) := by
  induction rest generalizing seen maps with
  | nil =>
      rw [List.append_nil]
      refine ⟨fun final done => ?_, iff_of_true ⟨maps, rfl⟩ tallied.fits⟩
      obtain rfl := Outcome.ok.inj done
      exact tallied
  | cons tx rest ih =>
      have together : seen ++ tx :: rest = (seen ++ [tx]) ++ rest := by simp
      have here := records tx (List.mem_append_right _ List.mem_cons_self)
      have round := tallied.countFee int positive here.2
      rw [together] at records ⊢
      rw [List.foldlM_cons]
      split_ifs at round with whole
      · obtain ⟨next, counted, tallied⟩ := round
        rw [counted, Outcome.ok_bind]
        exact ih tallied records
      · obtain ⟨reason, counted⟩ := round
        rw [counted, Outcome.panic_bind]
        refine ⟨fun final done => (by cases done), iff_of_false (fun reached => ?_) ?_⟩
        · obtain ⟨_, done⟩ := reached
          cases done
        -- the sum that did not fit is part of the sum over the whole list
        intro all
        have own : ∀ list, list <+: (seen ++ [tx]) ++ rest →
            ∀ other ∈ ownRecords tx.erc20Fee.contract list, 0 ≤ other.erc20Fee.amount :=
          fun list starts other member => (records other (starts.subset (List.mem_filter.mp member).1)).1
        have split : ownRecords tx.erc20Fee.contract ((seen ++ [tx]) ++ rest) =
            ownRecords tx.erc20Fee.contract (seen ++ [tx]) ++ ownRecords tx.erc20Fee.contract rest :=
          List.filter_append _ _
        have later : ∀ other ∈ ownRecords tx.erc20Fee.contract rest, 0 ≤ other.erc20Fee.amount :=
          fun other member => (records other (List.mem_append_right _ (List.mem_filter.mp member).1)).1
        refine whole (fitsSdkInt_of_le (feeSum_nonneg fun other member => ?_) ?_ (all tx.erc20Fee.contract))
        · exact own _ (List.prefix_append _ _) other (List.mem_of_mem_take member)
        · rw [split]
          exact feeSum_take_le maxElements later

end Tally

/-! ### The queries -/

namespace Outgoing

theorem ownRecords_reverse_values (outgoing : Outgoing) (token : Bytes) :
    ownRecords token outgoing.pool.values.reverse = outgoing.ofToken token := by
  rw [ownRecords, ofToken, List.filter_reverse]

/-- **What `GetAllBatchFees` lists**: each token of the pool once, in increasing order. -/
structure ListsTokens (outgoing : Outgoing) (fees : List BatchFees) : Prop where
  increasing : fees.Pairwise fun first second => keyBytes first.token < keyBytes second.token
  listed : ∀ token, (∃ total, ⟨token, total⟩ ∈ fees) ↔
    ∃ key tx, outgoing.pool.get key = some tx ∧ tx.erc20Fee.contract = token

theorem ofToken_eq_nil_iff {outgoing : Outgoing} {token : Bytes} :
    outgoing.ofToken token = [] ↔
      ¬ ∃ key tx, outgoing.pool.get key = some tx ∧ tx.erc20Fee.contract = token := by
  rw [List.eq_nil_iff_forall_not_mem]
  constructor
  · rintro none ⟨key, tx, found, contract⟩
    exact none tx (mem_ofToken.mpr ⟨⟨key, found⟩, contract⟩)
  · rintro none tx member
    obtain ⟨⟨key, found⟩, contract⟩ := mem_ofToken.mp member
    exact none ⟨key, tx, found, contract⟩

section Fees

variable {outgoing : Outgoing} {maxElements : Nat}

/-- A limit that is an `int`: the loop over the whole pool. -/
theorem Filed.createBatchFees_eq_ok_iff (filed : outgoing.Filed) (int : maxElements < 2 ^ 63)
    (positive : 0 < maxElements) :
    (∀ maps, outgoing.createBatchFees maxElements = .ok maps →
      Tallied maxElements outgoing.pool.values.reverse maps) ∧
    ((∃ maps, outgoing.createBatchFees maxElements = .ok maps) ↔
      ∀ token, fitsSdkInt (feeSum ((outgoing.ofToken token).take maxElements))) := by
  have records : ∀ tx ∈ [] ++ outgoing.pool.values.reverse,
      0 ≤ tx.erc20Fee.amount ∧ fitsSdkInt tx.erc20Fee.amount := by
    intro tx member
    rw [List.nil_append, List.mem_reverse] at member
    obtain ⟨key, found⟩ := (outgoing.pool.mem_values_iff tx).mp member
    exact ⟨(filed key tx found).2.nonneg, (filed key tx found).2.fits⟩
  have loop := (tallied_nil maxElements).foldlM int positive records
  rw [List.nil_append] at loop
  simp only [ownRecords_reverse_values] at loop
  unfold createBatchFees
  rw [filed.unbatchedTransactions_all]
  exact loop

/-- The entries of the maps are the list. -/
theorem Filed.getAllBatchFees_spec (filed : outgoing.Filed) (int : maxElements < 2 ^ 63)
    (positive : 0 < maxElements) :
    (∀ fees, outgoing.getAllBatchFees maxElements = .ok fees → outgoing.ListsTokens fees ∧
      ∀ token total, ⟨token, total⟩ ∈ fees → total = feeSum ((outgoing.ofToken token).take maxElements)) ∧
    ((∃ fees, outgoing.getAllBatchFees maxElements = .ok fees) ↔
      ∀ token, fitsSdkInt (feeSum ((outgoing.ofToken token).take maxElements))) := by
  obtain ⟨tallies, exists_iff⟩ := filed.createBatchFees_eq_ok_iff int positive
  unfold getAllBatchFees
  refine ⟨fun fees done => ?_, ?_⟩
  · obtain ⟨maps, created, done⟩ := Outcome.bind_eq_ok.mp done
    obtain rfl := Outcome.ok.inj done
    have tallied := tallies maps created
    have sorted : maps.batchFeesMap.values.Pairwise fun first second =>
        keyBytes first.token < keyBytes second.token := by
      refine List.pairwise_map.mpr (maps.batchFeesMap.sorted.imp_of_mem
        fun {first second} member member' less => ?_)
      rw [← tallied.keys first.1 first.2 ((Store.mem_entries_iff _ _ _).mp member),
        ← tallied.keys second.1 second.2 ((Store.mem_entries_iff _ _ _).mp member')]
      exact less
    have found : ∀ token total, ⟨token, total⟩ ∈ maps.batchFeesMap.values ↔
        outgoing.ofToken token ≠ [] ∧ total = feeSum ((outgoing.ofToken token).take maxElements) := by
      intro token total
      have entry := tallied.total token
      rw [ownRecords_reverse_values] at entry
      rw [Store.mem_values_iff]
      constructor
      · rintro ⟨key, stored⟩
        rw [tallied.keys key _ stored, entry] at stored
        split_ifs at stored with none
        exact ⟨none, ((BatchFees.mk.inj (Option.some.inj stored)).2).symm⟩
      · rintro ⟨some, rfl⟩
        exact ⟨keyBytes token, by rw [entry, if_neg some]⟩
    rw [List.Pairwise.insertionSort_eq (sorted.imp le_of_lt)]
    refine ⟨⟨sorted, fun token => ?_⟩, fun token total member => ((found token total).mp member).2⟩
    rw [← not_iff_not, ← ofToken_eq_nil_iff]
    constructor
    · intro none
      by_contra some
      exact none ⟨_, (found token _).mpr ⟨some, rfl⟩⟩
    · rintro none ⟨total, member⟩
      exact ((found token total).mp member).1 none
  · rw [← exists_iff]
    constructor
    · rintro ⟨fees, done⟩
      obtain ⟨maps, created, _⟩ := Outcome.bind_eq_ok.mp done
      exact ⟨maps, created⟩
    · rintro ⟨maps, created⟩
      rw [created]
      exact ⟨_, rfl⟩

/-- A limit that is no `int` is negative: nothing is counted. -/
theorem getAllBatchFees_of_overflow (outgoing : Outgoing) (overflow : 2 ^ 63 ≤ maxElements)
    (uint : maxElements < 2 ^ 64) : outgoing.getAllBatchFees maxElements = .ok [] := by
  have limit : int64 (maxElements : Int) < 0 := by
    have shifted : int64 (maxElements : Int) = maxElements - 2 ^ 64 := by
      have small : int64 ((maxElements : Int) - 2 ^ 64) = maxElements - 2 ^ 64 :=
        int64_of_small (by omega) (by omega)
      rw [← small]
      exact (Int.sub_bmod_right _ _).symm
    omega
  have nothing : ∀ (txs : List OutgoingTransferTx) (maps : BatchFeesMaps),
      txs.foldlM (countFee maxElements) maps = .ok maps := by
    intro txs
    induction txs with
    | nil => exact fun maps => rfl
    | cons tx rest ih =>
        intro maps
        have skipped : countFee maxElements maps tx = .ok maps :=
          if_neg fun less => absurd (lt_trans less limit) (by omega)
        rw [List.foldlM_cons, skipped, Outcome.ok_bind, ih]
  rw [getAllBatchFees, createBatchFees, nothing]
  rfl

/-! ### Together -/

/-- **The queries predict the best selection.** -/
def SelectionPredicted (outgoing : Outgoing) (token : Bytes) (maxElements : Nat) : Prop :=
  ∃ selected after fees,
    pickUnbatchedTX maxElements [] (outgoing.unbatchedTransactions
      (getOutgoingTxPoolContractPrefix token)) outgoing = .ok (selected, after) ∧
    outgoing.BestSelection token maxElements selected after ∧
    outgoing.getBatchFeeByTokenType token maxElements = .ok (feeSum selected) ∧
    outgoing.getAllBatchFees maxElements = .ok fees ∧ outgoing.ListsTokens fees ∧
    ∀ total, ⟨token, total⟩ ∈ fees → total = feeSum selected

end Fees

/-! ### A pool of four records -/

/-- A record of the example's pool. -/
def examplePoolRecord (contract : Bytes) (id : Nat) (fee : Int) : OutgoingTransferTx where
  id := id
  sender := []
  destAddress := []
  erc20Token := ⟨10, contract⟩
  erc20Fee := ⟨fee, contract⟩

/-- Three records of one token and one of another. -/
def examplePool : Outgoing :=
  { Outgoing.empty with
    pool := [examplePoolRecord exampleContract 1 5, examplePoolRecord exampleContract 2 7,
        examplePoolRecord exampleContract 3 5,
        examplePoolRecord (ascii "0x2222222222222222222222222222222222222222") 4 9].foldl
      (fun pool tx => pool.set tx.key tx) Store.empty }

theorem filed_of_entries {outgoing : Outgoing}
    (entries : ∀ entry ∈ outgoing.pool.entries, entry.1 = entry.2.key ∧
      entry.2.erc20Fee.contract.length = ethContractAddressLen ∧ 0 ≤ entry.2.erc20Fee.amount ∧
        fitsSdkInt entry.2.erc20Fee.amount) : outgoing.Filed := by
  intro key tx found
  obtain ⟨keyIs, contract, nonneg, fits⟩ :=
    entries (key, tx) ((outgoing.pool.mem_entries_iff key tx).mpr found)
  exact ⟨keyIs, contract, nonneg, fits⟩

theorem examplePool_filed : examplePool.Filed := filed_of_entries (by decide +kernel)

/-- Only tokens of the pool have fees. -/
theorem fits_of_values {outgoing : Outgoing} {maxElements : Nat}
    (fits : ∀ tx ∈ outgoing.pool.values,
      fitsSdkInt (feeSum ((outgoing.ofToken tx.erc20Fee.contract).take maxElements))) (token : Bytes) :
    fitsSdkInt (feeSum ((outgoing.ofToken token).take maxElements)) := by
  by_cases none : outgoing.ofToken token = []
  · rw [none, List.take_nil, feeSum_nil]
    decide
  · obtain ⟨tx, member⟩ := List.exists_mem_of_ne_nil _ none
    obtain ⟨⟨key, found⟩, rfl⟩ := mem_ofToken.mp member
    exact fits tx ((outgoing.pool.mem_values_iff tx).mpr ⟨key, found⟩)

end Outgoing

end NabBridge
