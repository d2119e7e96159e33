/-
**Where outgoing records live.**

A record is in the pool or in a batch. `Outgoing.Sound` is the invariant of the two stores: every
entry is under the key of its own value, no id occurs twice, a batch holds records of its own token
only, and every id and batch nonce in use is below the counter that issues the next one.

What the operations do is said once, in terms of the list `records` of everything in the pool and in
the batches:

* `Outgoing.Issued`: a send adds one record;
* `Outgoing.Released`: a removal, and the execution of a batch, take records out;
* `Outgoing.Swept`: cancelling all batches that satisfy a condition moves their records to the pool;
* `pickUnbatchedTX_spec`, `buildOutgoingTXBatch_spec`: building a batch moves records into it.

On a sound state none of the panics of these operations is reached.
-/

import NabBridge.Proof.PoolOrder

namespace NabBridge

namespace Outgoing

/-- The records of all batches. -/
def batched (outgoing : Outgoing) : List OutgoingTransferTx :=
  outgoing.batches.values.flatMap OutgoingTxBatch.transactions

/-- All records that are waiting, in the pool or in a batch. -/
def records (outgoing : Outgoing) : List OutgoingTransferTx :=
  outgoing.pool.values ++ outgoing.batched

/-- The next transaction id. -/
def nextTxId (outgoing : Outgoing) : Nat := outgoing.lastTxPoolId.getD 1

/-- The next batch nonce. -/
def nextBatchNonce (outgoing : Outgoing) : Nat := outgoing.lastOutgoingBatchId.getD 1

/-- The invariant of the pool and the batches. -/
structure Sound (outgoing : Outgoing) : Prop where
  poolKeyed : ∀ key tx, outgoing.pool.get key = some tx → key = tx.key
  batchKeyed : ∀ key batch, outgoing.batches.get key = some batch → key = batch.key
  batchToken : ∀ key batch, outgoing.batches.get key = some batch →
    ∀ tx ∈ batch.transactions, tx.erc20Token.contract = batch.tokenContract
  ids : (outgoing.records.map OutgoingTransferTx.id).Nodup
  oneContract : ∀ tx ∈ outgoing.records, tx.erc20Fee.contract = tx.erc20Token.contract
  contractLength : ∀ tx ∈ outgoing.records, tx.erc20Token.contract.length = ethContractAddressLen
  idsIssued : ∀ tx ∈ outgoing.records, tx.id < outgoing.nextTxId
  noncesIssued : ∀ key batch, outgoing.batches.get key = some batch →
    batch.batchNonce < outgoing.nextBatchNonce

theorem sound_empty : Outgoing.empty.Sound where
  poolKeyed _ _ found := by cases found
  batchKeyed _ _ found := by cases found
  batchToken _ _ found := by cases found
  ids := List.nodup_nil
  oneContract _ member := absurd member List.not_mem_nil
  contractLength _ member := absurd member List.not_mem_nil
  idsIssued _ member := absurd member List.not_mem_nil
  noncesIssued _ _ found := by cases found

/-! ### Records and the two stores -/

theorem mem_records_of_pool {outgoing : Outgoing} {key : StoreKey} {tx : OutgoingTransferTx}
    (found : outgoing.pool.get key = some tx) : tx ∈ outgoing.records :=
  List.mem_append_left _ ((outgoing.pool.mem_values_iff tx).mpr ⟨key, found⟩)

theorem mem_batched {outgoing : Outgoing} {key : StoreKey} {batch : OutgoingTxBatch}
    {tx : OutgoingTransferTx} (found : outgoing.batches.get key = some batch)
    (member : tx ∈ batch.transactions) : tx ∈ outgoing.batched :=
  List.mem_flatMap.mpr ⟨batch, (outgoing.batches.mem_values_iff batch).mpr ⟨key, found⟩, member⟩

theorem key_id {first second : OutgoingTransferTx} (equal : first.key = second.key) :
    first.id = second.id := getOutgoingTxPoolKey_id equal

/-- **A record is known by its id.** -/
theorem Sound.eq_of_id {outgoing : Outgoing} (sound : outgoing.Sound)
    {first second : OutgoingTransferTx} (inFirst : first ∈ outgoing.records)
    (inSecond : second ∈ outgoing.records) (same : first.id = second.id) : first = second :=
  List.inj_on_of_nodup_map sound.ids inFirst inSecond same

/-- The key of a record in a batch is free in the pool. -/
theorem Sound.pool_absent {outgoing : Outgoing} (sound : outgoing.Sound) {tx : OutgoingTransferTx}
    (member : tx ∈ outgoing.batched) : outgoing.pool.get tx.key = none := by
  rw [Option.eq_none_iff_forall_ne_some]
  intro other found
  have sameId : other.id = tx.id := (key_id (sound.poolKeyed _ _ found)).symm
  have split := sound.ids
  rw [records, List.map_append] at split
  refine (List.nodup_append.mp split).2.2 other.id ?_ tx.id ?_ sameId
  · exact List.mem_map_of_mem ((outgoing.pool.mem_values_iff other).mpr ⟨_, found⟩)
  · exact List.mem_map_of_mem member

/-- **A stored batch is read back as it was stored.** -/
theorem Sound.getOutgoingTXBatch_of_stored {outgoing : Outgoing} (sound : outgoing.Sound)
    {tokenContract : Bytes} {nonce : Nat} {batch : OutgoingTxBatch}
    (stored : outgoing.batches.get (getOutgoingTxBatchKey tokenContract nonce) = some batch) :
    batch.tokenContract = tokenContract ∧ batch.batchNonce = nonce ∧
      outgoing.getOutgoingTXBatch tokenContract nonce = some batch := by
  obtain ⟨sameToken, sameNonce⟩ := getOutgoingTxBatchKey_inj.mp (sound.batchKeyed _ _ stored)
  refine ⟨sameToken.symm, sameNonce.symm, ?_⟩
  have unchanged : batch.transactions.map (fun tx => { tx with
      erc20Token := { tx.erc20Token with contract := tokenContract }
      erc20Fee := { tx.erc20Fee with contract := tokenContract } }) = batch.transactions := by
    refine (List.map_congr_left fun tx member => ?_).trans (List.map_id _)
    have token : tx.erc20Token.contract = tokenContract :=
      (sound.batchToken _ _ stored tx member).trans sameToken.symm
    have fee : tx.erc20Fee.contract = tokenContract :=
      (sound.oneContract tx (List.mem_append_right _ (mem_batched stored member))).trans token
    obtain ⟨id, sender, destAddress, ⟨amount, contract⟩, ⟨feeAmount, feeContract⟩⟩ := tx
    obtain rfl : contract = tokenContract := token
    obtain rfl : feeContract = contract := fee
    rfl
  rw [getOutgoingTXBatch, stored, Option.map_some, unchanged]

theorem getOutgoingTXBatch_eq_none_iff {outgoing : Outgoing} {tokenContract : Bytes} {nonce : Nat} :
    outgoing.getOutgoingTXBatch tokenContract nonce = none ↔
      outgoing.batches.get (getOutgoingTxBatchKey tokenContract nonce) = none := by
  rw [getOutgoingTXBatch, Option.map_eq_none_iff]

/-! ### Taking records out -/

/-- The records `out` leave the stores, and nothing else changes but what is where. -/
structure Released (before : Outgoing) (out : List OutgoingTransferTx) (after : Outgoing) : Prop where
  records : before.records.Perm (out ++ after.records)
  pool : ∀ key tx, after.pool.get key = some tx → key = tx.key
  batches : ∀ key batch, after.batches.get key = some batch → before.batches.get key = some batch
  nextTxId : after.nextTxId = before.nextTxId
  nextBatchNonce : after.nextBatchNonce = before.nextBatchNonce
  checkpoints : after.pastEthSignatureCheckpoints = before.pastEthSignatureCheckpoints

theorem Sound.released {before after : Outgoing} {out : List OutgoingTransferTx}
    (sound : before.Sound) (released : Released before out after) : after.Sound := by
  have kept : ∀ tx ∈ after.records, tx ∈ before.records := fun tx member =>
    released.records.mem_iff.mpr (List.mem_append_right _ member)
  exact {
    poolKeyed := released.pool
    batchKeyed := fun key batch found => sound.batchKeyed key batch (released.batches key batch found)
    batchToken := fun key batch found => sound.batchToken key batch (released.batches key batch found)
    ids := by
      have all := ((released.records.map OutgoingTransferTx.id).nodup_iff).mp sound.ids
      rw [List.map_append] at all
      exact (List.nodup_append.mp all).2.1
    oneContract := fun tx member => sound.oneContract tx (kept tx member)
    contractLength := fun tx member => sound.contractLength tx (kept tx member)
    idsIssued := fun tx member => released.nextTxId ▸ sound.idsIssued tx (kept tx member)
    noncesIssued := fun key batch found =>
      released.nextBatchNonce ▸ sound.noncesIssued key batch (released.batches key batch found) }

theorem Released.refl {outgoing : Outgoing} (sound : outgoing.Sound) : Released outgoing [] outgoing :=
  ⟨List.Perm.refl _, sound.poolKeyed, fun _ _ => id, rfl, rfl, rfl⟩

theorem Released.trans {first second third : Outgoing} {out later : List OutgoingTransferTx}
    (start : Released first out second) (rest : Released second later third) :
    Released first (out ++ later) third where
  records := by
    rw [List.append_assoc]
    exact start.records.trans (rest.records.append_left out)
  pool := rest.pool
  batches key batch found := start.batches key batch (rest.batches key batch found)
  nextTxId := rest.nextTxId.trans start.nextTxId
  nextBatchNonce := rest.nextBatchNonce.trans start.nextBatchNonce
  checkpoints := rest.checkpoints.trans start.checkpoints

/-- **A removal takes out the record under the key.** -/
theorem Sound.removeUnbatchedTX_released {outgoing after : Outgoing} (sound : outgoing.Sound)
    {tx : OutgoingTransferTx} (stored : outgoing.pool.get tx.key = some tx)
    (removed : outgoing.removeUnbatchedTX tx.erc20Fee tx.id = .ok after) :
    after = { outgoing with pool := outgoing.pool.delete tx.key } ∧ Released outgoing [tx] after := by
  obtain ⟨_, rfl⟩ := removeUnbatchedTX_eq_ok removed
  refine ⟨rfl, ?_, fun key other found => ?_, fun _ _ => id, rfl, rfl, rfl⟩
  · exact (outgoing.pool.values_delete stored).append_right outgoing.batched
  · rw [Store.get_delete] at found
    split_ifs at found
    exact sound.poolKeyed key other found

/-! ### Adding a record -/

/-- A new record with the next id is in the pool. -/
structure Issued (before : Outgoing) (tx : OutgoingTransferTx) (after : Outgoing) : Prop where
  records : after.records.Perm (tx :: before.records)
  id : tx.id = before.nextTxId
  batches : after.batches = before.batches
  nextTxId : after.nextTxId = before.nextTxId + 1
  nextBatchNonce : after.nextBatchNonce = before.nextBatchNonce
  sound : after.Sound

/-- The key of a new id is always free. -/
theorem Sound.issue_eq {outgoing : Outgoing} (sound : outgoing.Sound)
    (record : Nat → OutgoingTransferTx) (idIs : ∀ id, (record id).id = id) :
    outgoing.pool.get (record outgoing.nextTxId).key = none ∧
      outgoing.issue record = (outgoing.nextTxId, { outgoing with
        lastTxPoolId := some (outgoing.nextTxId + 1)
        pool := outgoing.pool.set (record outgoing.nextTxId).key (record outgoing.nextTxId) }) := by
  have absent : outgoing.pool.get (record outgoing.nextTxId).key = none := by
    rw [Option.eq_none_iff_forall_ne_some]
    intro other found
    have sameId : outgoing.nextTxId = other.id := by
      have equal := key_id (sound.poolKeyed _ _ found)
      rwa [idIs] at equal
    exact absurd (sound.idsIssued other (mem_records_of_pool found)) (by omega)
  refine ⟨absent, ?_⟩
  simp only [Outgoing.issue, autoIncrementID]
  rw [Outgoing.addUnbatchedTX_of_absent (by exact absent)]
  rfl

/-- **A send puts its record into the pool**. -/
theorem Sound.issue {outgoing : Outgoing} (sound : outgoing.Sound)
    (record : Nat → OutgoingTransferTx) (idIs : ∀ id, (record id).id = id)
    (oneContract : ∀ id, (record id).erc20Fee.contract = (record id).erc20Token.contract)
    (length : ∀ id, (record id).erc20Token.contract.length = ethContractAddressLen) :
    (outgoing.issue record).1 = outgoing.nextTxId ∧
      Issued outgoing (record outgoing.nextTxId) (outgoing.issue record).2 := by
  obtain ⟨absent, added⟩ := sound.issue_eq record idIs
  rw [added]
  refine ⟨rfl, ?_⟩
  have perm : (outgoing.pool.set (record outgoing.nextTxId).key (record outgoing.nextTxId)).values ++
      outgoing.batched |>.Perm (record outgoing.nextTxId :: outgoing.records) :=
    (outgoing.pool.values_set_of_get_none _ absent).append_right outgoing.batched
  have cases_records : ∀ tx ∈ (outgoing.pool.set (record outgoing.nextTxId).key
      (record outgoing.nextTxId)).values ++ outgoing.batched,
      tx = record outgoing.nextTxId ∨ tx ∈ outgoing.records := fun tx member =>
    List.mem_cons.mp (perm.mem_iff.mp member)
  refine ⟨perm, idIs _, rfl, rfl, rfl, ?_⟩
  exact {
    poolKeyed := fun key tx found => by
      rcases Store.of_get_set found with ⟨rfl, rfl⟩ | earlier
      · rfl
      · exact sound.poolKeyed key tx earlier
    batchKeyed := sound.batchKeyed
    batchToken := sound.batchToken
    ids := by
      refine ((perm.map OutgoingTransferTx.id).nodup_iff).mpr ?_
      rw [List.map_cons, List.nodup_cons, idIs]
      refine ⟨fun member => ?_, sound.ids⟩
      obtain ⟨tx, inRecords, sameId⟩ := List.mem_map.mp member
      exact absurd (sound.idsIssued tx inRecords) (by omega)
    oneContract := fun tx member => (cases_records tx member).elim
      (fun same => same ▸ oneContract _) (sound.oneContract tx)
    contractLength := fun tx member => (cases_records tx member).elim
      (fun same => same ▸ length _) (sound.contractLength tx)
    idsIssued := fun tx member => by
      show tx.id < outgoing.nextTxId + 1
      rcases cases_records tx member with rfl | old
      · rw [idIs]
        exact Nat.lt_succ_self _
      · exact Nat.lt_succ_of_lt (sound.idsIssued tx old)
    noncesIssued := sound.noncesIssued }

/-! ### Building a batch -/

/-- What an iterator over the pool walks: stored records, each once. -/
theorem Sound.snapshot {outgoing : Outgoing} (sound : outgoing.Sound) (prefixKey : StoreKey) :
    (∀ tx ∈ outgoing.unbatchedTransactions prefixKey,
      outgoing.pool.get tx.key = some tx ∧ prefixKey <+: tx.key) ∧
    ((outgoing.unbatchedTransactions prefixKey).map OutgoingTransferTx.id).Nodup := by
  constructor
  · intro tx member
    obtain ⟨key, stored, starts⟩ := mem_unbatchedTransactions member
    obtain rfl := sound.poolKeyed key tx stored
    exact ⟨stored, starts⟩
  · rw [unbatchedTransactions, List.map_reverse, List.nodup_reverse]
    have pool : (outgoing.pool.values.map OutgoingTransferTx.id).Nodup := by
      have all := sound.ids
      rw [records, List.map_append] at all
      exact (List.nodup_append.mp all).1
    refine pool.sublist (List.Sublist.map _ ?_)
    exact List.Sublist.map _ List.filter_sublist

/-- **A waiting record is found by its id.** -/
theorem Sound.getUnbatchedTxById_of_stored {outgoing : Outgoing} (sound : outgoing.Sound)
    {tx : OutgoingTransferTx} (stored : outgoing.pool.get tx.key = some tx) :
    outgoing.getUnbatchedTxById tx.id = some tx := by
  have starts : outgoingTXPoolKey <+: tx.key := List.cons_prefix_cons.mpr ⟨rfl, List.nil_prefix⟩
  have there := mem_unbatchedTransactions_of_get stored starts
  cases found : outgoing.getUnbatchedTxById tx.id with
  | none =>
      have missed := List.find?_eq_none.mp found tx there
      simp at missed
  | some other =>
      obtain ⟨sameId, key, inPool⟩ := getUnbatchedTxById_eq_some found
      rw [sound.eq_of_id (mem_records_of_pool inPool) (mem_records_of_pool stored) sameId]

/-- **Picking takes a prefix of the snapshot out of the pool**, up to the limit. -/
theorem Sound.pickUnbatchedTX_spec {maxElements : Nat} {outgoing : Outgoing}
    (sound : outgoing.Sound) (selected : List OutgoingTransferTx) {rest : List OutgoingTransferTx}
    (stored : ∀ tx ∈ rest, outgoing.pool.get tx.key = some tx)
    (distinct : (rest.map OutgoingTransferTx.id).Nodup) (room : selected.length < maxElements) :
    ∃ after, pickUnbatchedTX maxElements selected rest outgoing =
        .ok (selected ++ rest.take (maxElements - selected.length), after) ∧
      Released outgoing (rest.take (maxElements - selected.length)) after ∧
      after.batches = outgoing.batches ∧
      (∀ key tx, after.pool.get key = some tx → outgoing.pool.get key = some tx) := by
  induction rest generalizing selected outgoing with
  | nil =>
      refine ⟨outgoing, ?_, ?_, rfl, fun _ _ => id⟩
      · simp [pickUnbatchedTX]
      · simpa using Released.refl sound
  | cons tx rest ih =>
      have here := stored tx List.mem_cons_self
      have present : outgoing.pool.has (poolKey tx.erc20Fee tx.id) = true :=
        (outgoing.pool.has_eq_true_iff _).mpr ⟨tx, here⟩
      have removed : outgoing.removeUnbatchedTX tx.erc20Fee tx.id =
          .ok { outgoing with pool := outgoing.pool.delete tx.key } := by
        unfold Outgoing.removeUnbatchedTX
        rw [if_neg (by simp [present])]
        rfl
      obtain ⟨_, released⟩ := sound.removeUnbatchedTX_released here removed
      have gone : (({ outgoing with pool := outgoing.pool.delete tx.key } :
          Outgoing).getUnbatchedTxByFeeAndId tx.erc20Fee tx.id).isSome = false := by
        show ((outgoing.pool.delete tx.key).get tx.key).isSome = false
        rw [Store.get_delete_self]
        rfl
      have kept : ∀ key other, (outgoing.pool.delete tx.key).get key = some other →
          outgoing.pool.get key = some other := by
        intro key other found
        rw [Store.get_delete] at found
        split_ifs at found
        exact found
      rw [pickUnbatchedTX, removed]
      simp only [gone, Bool.false_eq_true, if_false]
      have taken : (tx :: rest).take (maxElements - selected.length) =
          tx :: rest.take (maxElements - (selected ++ [tx]).length) := by
        rw [List.length_append, List.length_singleton]
        obtain ⟨more, count⟩ := Nat.exists_eq_succ_of_ne_zero (Nat.sub_ne_zero_of_lt room)
        rw [count, List.take_succ_cons, show maxElements - (selected.length + 1) = more by omega]
      rw [taken]
      split_ifs with full
      · rw [full, Nat.sub_self, List.take_zero]
        exact ⟨_, rfl, released, rfl, kept⟩
      · rw [List.map_cons, List.nodup_cons] at distinct
        have still : ∀ other ∈ rest,
            (outgoing.pool.delete tx.key).get other.key = some other := by
          intro other member
          have different : other.key ≠ tx.key := fun equal =>
            distinct.1 (key_id equal ▸ List.mem_map_of_mem member)
          rw [Store.get_delete_of_ne _ different]
          exact stored other (List.mem_cons_of_mem _ member)
        have roomLeft : (selected ++ [tx]).length < maxElements := by
          refine lt_of_le_of_ne ?_ full
          rw [List.length_append, List.length_singleton]
          exact room
        obtain ⟨after, picked, releasedRest, batches, pool⟩ :=
          ih (sound.released released) (selected ++ [tx]) still distinct.2 roomLeft
        refine ⟨after, ?_, released.trans releasedRest, batches,
          fun key other found => kept key other (pool key other found)⟩
        rw [picked, List.append_assoc, List.singleton_append]

/-- The records `batch` holds have left the pool, and the batch is stored under the next nonce. -/
structure Built (before : Outgoing) (batch : OutgoingTxBatch) (after : Outgoing) : Prop where
  records : before.records.Perm after.records
  nonce : batch.batchNonce = before.nextBatchNonce
  batches : after.batches = before.batches.set batch.key batch
  nonempty : batch.transactions ≠ []
  poolKept : ∀ key tx, after.pool.get key = some tx → before.pool.get key = some tx
  nextTxId : after.nextTxId = before.nextTxId
  nextBatchNonce : after.nextBatchNonce = before.nextBatchNonce + 1
  sound : after.Sound

/-- Storing a batch of picked records under the next nonce. -/
theorem Sound.built {before picked : Outgoing} (sound : before.Sound) (batch : OutgoingTxBatch)
    (checkpoint : Bytes) {blockHeight : Nat} (released : Released before batch.transactions picked)
    (batches : picked.batches = before.batches) (nonempty : batch.transactions ≠ [])
    (pool : ∀ key tx, picked.pool.get key = some tx → before.pool.get key = some tx)
    (nonce : batch.batchNonce = before.nextBatchNonce) (height : batch.block = blockHeight)
    (token : ∀ tx ∈ batch.transactions, tx.erc20Token.contract = batch.tokenContract) :
    Built before batch
      ((({ picked with lastOutgoingBatchId := some (before.nextBatchNonce + 1) } : Outgoing).storeBatch
        blockHeight batch).setPastEthSignatureCheckpoint checkpoint) := by
  subst height
  have absent : before.batches.get batch.key = none := by
    rw [Option.eq_none_iff_forall_ne_some]
    intro other found
    have sameNonce := (getOutgoingTxBatchKey_inj.mp (sound.batchKeyed _ _ found)).2
    exact absurd (sound.noncesIssued _ _ found) (by omega)
  have grown : (before.batches.set batch.key batch).values.flatMap OutgoingTxBatch.transactions
      |>.Perm (batch.transactions ++ before.batched) := by
    simpa [batched] using
      (before.batches.values_set_of_get_none batch absent).flatMap_right OutgoingTxBatch.transactions
  have same : before.records.Perm (picked.pool.values ++
      (before.batches.set batch.key batch).values.flatMap OutgoingTxBatch.transactions) := by
    refine released.records.trans ?_
    rw [records, batched, batches]
    refine List.Perm.trans ?_ (grown.symm.append_left picked.pool.values)
    exact List.perm_append_comm_assoc _ _ _
  have stored : ∀ key other, (before.batches.set batch.key batch).get key = some other →
      (key = batch.key ∧ other = batch) ∨ before.batches.get key = some other :=
    fun key other found => Store.of_get_set found
  have backwards : ∀ tx ∈ picked.pool.values ++
      (before.batches.set batch.key batch).values.flatMap OutgoingTxBatch.transactions,
      tx ∈ before.records := fun tx member => same.mem_iff.mpr member
  have storedIs : ((({ picked with lastOutgoingBatchId := some (before.nextBatchNonce + 1) } :
      Outgoing).storeBatch batch.block batch).setPastEthSignatureCheckpoint checkpoint).batches =
      before.batches.set batch.key batch := by
    rw [← batches]
    rfl
  have recordsIs : ((({ picked with lastOutgoingBatchId := some (before.nextBatchNonce + 1) } :
      Outgoing).storeBatch batch.block batch).setPastEthSignatureCheckpoint checkpoint).records =
      picked.pool.values ++
        (before.batches.set batch.key batch).values.flatMap OutgoingTxBatch.transactions := by
    rw [records, batched, storedIs]
    rfl
  refine ⟨recordsIs ▸ same, nonce, storedIs, nonempty, pool, released.nextTxId, rfl, ?_⟩
  exact {
    poolKeyed := released.pool
    batchKeyed := fun key other found => by
      rw [storedIs] at found
      rcases stored key other found with ⟨equal, isBatch⟩ | old
      · rw [equal, isBatch]
      · exact sound.batchKeyed key other old
    batchToken := fun key other found => by
      rw [storedIs] at found
      rcases stored key other found with ⟨_, rfl⟩ | old
      · exact token
      · exact sound.batchToken key other old
    ids := recordsIs ▸ ((same.map OutgoingTransferTx.id).nodup_iff).mp sound.ids
    oneContract := fun tx member => sound.oneContract tx (backwards tx (recordsIs ▸ member))
    contractLength := fun tx member => sound.contractLength tx (backwards tx (recordsIs ▸ member))
    idsIssued := fun tx member =>
      released.nextTxId.symm ▸ sound.idsIssued tx (backwards tx (recordsIs ▸ member))
    noncesIssued := fun key other found => by
      rw [storedIs] at found
      show other.batchNonce < before.nextBatchNonce + 1
      rcases stored key other found with ⟨_, rfl⟩ | old
      · omega
      · exact Nat.lt_succ_of_lt (sound.noncesIssued key other old) }

/-- The panics about a record that is in two places. -/
def IsDuplicatePanic : PoolPanic → Prop
  | .pickedDuplicate => True
  | .unableToAddBack _ => True
  | _ => False

theorem liftCoin_meets {ε α : Type} (outcome : Outcome Empty CoinPanic α) :
    (liftCoin outcome : Outcome ε PoolPanic α).Meets (fun _ => True)
      (fun reason => ¬ IsDuplicatePanic reason) := by
  cases outcome with
  | ok value => trivial
  | error reason => exact reason.elim
  | panic reason => exact id

theorem sumFees_meets (tokenContract : Bytes) (maxElements count : Nat) (total : Int)
    (rest : List OutgoingTransferTx) :
    (sumFees tokenContract maxElements count total rest).Meets (fun _ => True)
      (fun reason => ¬ IsDuplicatePanic reason) := by
  induction rest generalizing count total with
  | nil => trivial
  | cons tx rest ih =>
      rw [sumFees]
      by_cases other : tx.erc20Fee.contract ≠ tokenContract
      · rw [if_pos other]
        exact id
      · rw [if_neg other]
        refine (liftCoin_meets _).bind fun sum _ => ?_
        split_ifs
        · trivial
        · exact ih _ _

theorem checkProfitable_meets (outgoing : Outgoing) (contractAddress : Bytes) (maxElements : Nat) :
    (outgoing.checkProfitable contractAddress maxElements).Meets (fun _ => True)
      (fun reason => ¬ IsDuplicatePanic reason) := by
  unfold checkProfitable
  split
  · trivial
  · refine (sumFees_meets _ _ _ _ _).bind fun currentFees _ => ?_
    split_ifs <;> trivial

theorem liftCheckpoint_meets {ε α : Type} (outcome : Outcome Empty CheckpointPanic α) :
    (liftCheckpoint outcome : Outcome ε PoolPanic α).Meets (fun _ => True)
      (fun reason => ¬ IsDuplicatePanic reason) := by
  cases outcome with
  | ok value => trivial
  | error reason => exact reason.elim
  | panic reason => exact id

theorem getBatchTimeoutHeight_meets (params : Params) (heights : LastObservedEthereumBlockHeight)
    (blockHeight : Nat) :
    (getBatchTimeoutHeight params heights blockHeight).Meets
      (fun timeout => getBatchTimeoutHeight params heights blockHeight = .ok timeout)
      (fun reason => ¬ IsDuplicatePanic reason) := by
  unfold getBatchTimeoutHeight
  split_ifs
  · rfl
  · exact id
  · rfl

/-- What `buildOutgoingTXBatch` leaves behind: nothing is selected and nothing changes, or a batch of
the records with the highest keys is built. -/
def BuildResult (params : Params) (heights : LastObservedEthereumBlockHeight) (blockHeight : Nat)
    (contractAddress : Bytes) (maxElements : Nat) (before : Outgoing)
    (result : Option OutgoingTxBatch × Outgoing) : Prop :=
  match result.1 with
  | none => result.2 = before
  | some batch =>
      Built before batch result.2 ∧ batch.tokenContract = contractAddress ∧
      batch.block = blockHeight ∧
      getBatchTimeoutHeight params heights blockHeight = .ok batch.batchTimeout ∧
      batch.transactions = (before.unbatchedTransactions
        (getOutgoingTxPoolContractPrefix contractAddress)).take maxElements

/-- **What building a batch does.** -/
theorem Sound.buildOutgoingTXBatch_meets {outgoing : Outgoing} (sound : outgoing.Sound) (geth : Geth)
    (params : Params) (heights : LastObservedEthereumBlockHeight) (blockHeight : Nat)
    {contractAddress : Bytes} (maxElements : Nat)
    (length : contractAddress.length = ethContractAddressLen) :
    (buildOutgoingTXBatch geth params heights blockHeight contractAddress maxElements outgoing).Meets
      (BuildResult params heights blockHeight contractAddress maxElements outgoing)
      (fun reason => ¬ IsDuplicatePanic reason) := by
  unfold buildOutgoingTXBatch
  split_ifs with none
  · trivial
  refine (checkProfitable_meets _ _ _).bind fun _ _ => ?_
  obtain ⟨stored, distinct⟩ := sound.snapshot (getOutgoingTxPoolContractPrefix contractAddress)
  obtain ⟨picked, equal, released, batches, pool⟩ := sound.pickUnbatchedTX_spec []
    (fun tx member => (stored tx member).1) distinct (Nat.pos_of_ne_zero none)
  rw [equal, Outcome.ok_bind]
  simp only [List.nil_append, List.length_nil, Nat.sub_zero] at released ⊢
  split_ifs with nothing
  · rcases List.take_eq_nil_iff.mp nothing with zero | empty
    · exact absurd zero none
    · rw [empty, pickUnbatchedTX] at equal
      exact (Prod.mk.inj (Outcome.ok.inj equal)).2.symm
  refine (getBatchTimeoutHeight_meets params heights blockHeight).bind fun timeout timeoutIs => ?_
  refine (liftCheckpoint_meets _).bind fun checkpoint _ => ?_
  have nonceIs : picked.nextBatchNonce = outgoing.nextBatchNonce := released.nextBatchNonce
  have built := sound.built
    ⟨picked.nextBatchNonce, timeout, _, contractAddress, blockHeight⟩ checkpoint released batches
    nothing pool nonceIs rfl ?_
  · refine ⟨?_, rfl, rfl, timeoutIs, rfl⟩
    rw [← nonceIs] at built
    exact built
  · intro tx member
    obtain ⟨found, starts⟩ := stored tx (List.mem_of_mem_take member)
    have inRecords := mem_records_of_pool found
    have fee := sound.oneContract tx inRecords
    have lengths : contractAddress.length = tx.erc20Fee.contract.length := by
      rw [length, fee, sound.contractLength tx inRecords]
    exact fee ▸ contract_of_prefix lengths starts

/-! ### Cancelling batches -/

/-- **Putting records back**: their keys are free, so none is refused. -/
theorem foldlM_putBack {txs : List OutgoingTransferTx} {outgoing : Outgoing}
    (distinct : (txs.map OutgoingTransferTx.id).Nodup)
    (absent : ∀ tx ∈ txs, outgoing.pool.get tx.key = none) :
    ∃ pool, txs.foldlM putBack outgoing = .ok { outgoing with pool := pool } ∧
      pool.values.Perm (txs ++ outgoing.pool.values) ∧
      ∀ key tx, pool.get key = some tx →
        outgoing.pool.get key = some tx ∨ (tx ∈ txs ∧ key = tx.key) := by
  induction txs generalizing outgoing with
  | nil => exact ⟨outgoing.pool, rfl, List.Perm.refl _, fun _ _ => Or.inl⟩
  | cons tx rest ih =>
      rw [List.map_cons, List.nodup_cons] at distinct
      have free := absent tx List.mem_cons_self
      have added : putBack outgoing tx =
          .ok { outgoing with pool := outgoing.pool.set tx.key tx } := by
        unfold putBack
        rw [addUnbatchedTX_of_absent free]
      have still : ∀ other ∈ rest, (outgoing.pool.set tx.key tx).get other.key = none := by
        intro other member
        have different : other.key ≠ tx.key := fun equal =>
          distinct.1 (key_id equal ▸ List.mem_map_of_mem member)
        rw [Store.get_set_of_ne _ _ different]
        exact absent other (List.mem_cons_of_mem _ member)
      obtain ⟨pool, folded, perm, origin⟩ := ih distinct.2
        (show ∀ other ∈ rest, ({ outgoing with pool := outgoing.pool.set tx.key tx } :
          Outgoing).pool.get other.key = none from still)
      refine ⟨pool, ?_, ?_, fun key other found => ?_⟩
      · rw [List.foldlM_cons, added, Outcome.ok_bind, folded]
      · refine perm.trans ?_
        refine ((outgoing.pool.values_set_of_get_none tx free).append_left rest).trans ?_
        exact List.perm_middle
      · rcases origin key other found with old | ⟨inRest, equal⟩
        · rcases Store.of_get_set old with ⟨equal, rfl⟩ | older
          · exact Or.inr ⟨List.mem_cons_self, equal⟩
          · exact Or.inl older
        · exact Or.inr ⟨List.mem_cons_of_mem _ inRest, equal⟩

/-- The batches that satisfy `gone` are no longer stored, and their records are in the pool. -/
structure Swept (gone : OutgoingTxBatch → Prop) (before after : Outgoing) : Prop where
  released : Released before [] after
  batches : ∀ key batch, after.batches.get key = some batch ↔
    before.batches.get key = some batch ∧ ¬ gone batch
  pool : ∀ key tx, after.pool.get key = some tx → before.pool.get key = some tx ∨
    ∃ batch, gone batch ∧ before.batches.get batch.key = some batch ∧ tx ∈ batch.transactions

/-- **Cancelling a stored batch succeeds** and moves its records to the pool. -/
theorem Sound.cancelOutgoingTXBatch_swept {outgoing : Outgoing} (sound : outgoing.Sound)
    {tokenContract : Bytes} {nonce : Nat} {batch : OutgoingTxBatch}
    (stored : outgoing.batches.get (getOutgoingTxBatchKey tokenContract nonce) = some batch) :
    ∃ after, outgoing.cancelOutgoingTXBatch tokenContract nonce = .ok after ∧
      Swept (fun other => other = batch) outgoing after := by
  obtain ⟨rfl, rfl, read⟩ := sound.getOutgoingTXBatch_of_stored stored
  have distinct : (batch.transactions.map OutgoingTransferTx.id).Nodup := by
    have all := sound.ids
    rw [records, List.map_append] at all
    have inBatches := (List.nodup_append.mp all).2.1
    rw [batched, List.map_flatMap] at inBatches
    exact (List.nodup_flatMap.mp inBatches).1 batch
      ((outgoing.batches.mem_values_iff batch).mpr ⟨_, stored⟩)
  have absent : ∀ tx ∈ batch.transactions, outgoing.pool.get tx.key = none := fun tx member =>
    sound.pool_absent (mem_batched stored member)
  obtain ⟨pool, folded, perm, origin⟩ := foldlM_putBack distinct absent
  refine ⟨({ outgoing with pool := pool } : Outgoing).deleteBatch batch, ?_, ?_⟩
  · unfold cancelOutgoingTXBatch
    rw [read]
    simp only [folded, Outcome.ok_bind, Outcome.pure_eq]
  · have shrunk : outgoing.batched.Perm (batch.transactions ++
        (outgoing.batches.delete batch.key).values.flatMap OutgoingTxBatch.transactions) := by
      have removed := (outgoing.batches.values_delete stored).flatMap_right
        OutgoingTxBatch.transactions
      rwa [List.flatMap_cons] at removed
    refine ⟨⟨?_, fun key tx found => ?_, fun key other found => ?_, rfl, rfl, rfl⟩,
      fun key other => ?_, fun key tx found => ?_⟩
    · -- the batch's records change sides
      show (outgoing.pool.values ++ outgoing.batched).Perm (pool.values ++
        (outgoing.batches.delete batch.key).values.flatMap OutgoingTxBatch.transactions)
      refine (shrunk.append_left _).trans ?_
      rw [← List.append_assoc]
      exact (List.perm_append_comm.trans perm.symm).append_right _
    · rcases origin key tx found with old | ⟨_, equal⟩
      · exact sound.poolKeyed key tx old
      · exact equal
    · have other' : (outgoing.batches.delete batch.key).get key = some other := found
      rw [Store.get_delete] at other'
      split_ifs at other'
      exact other'
    · show (outgoing.batches.delete batch.key).get key = some other ↔ _
      rw [Store.get_delete]
      constructor
      · intro found
        split_ifs at found with same
        refine ⟨found, ?_⟩
        rintro rfl
        exact same (sound.batchKeyed key other found)
      · rintro ⟨found, different⟩
        rw [if_neg]
        · exact found
        · rintro rfl
          exact different (Option.some.inj (found.symm.trans stored))
    · rcases origin key tx found with old | ⟨member, _⟩
      · exact Or.inl old
      · exact Or.inr ⟨batch, rfl, stored, member⟩

theorem Swept.trans {first second third : Outgoing} {gone later both : OutgoingTxBatch → Prop}
    (start : Swept gone first second) (rest : Swept later second third)
    (union : ∀ batch, both batch ↔ gone batch ∨ later batch) : Swept both first third where
  released := start.released.trans rest.released
  batches key batch := by
    rw [rest.batches, start.batches, union, not_or, and_assoc]
  pool key tx found := by
    rcases rest.pool key tx found with old | ⟨batch, isGone, stored, member⟩
    · rcases start.pool key tx old with older | ⟨batch, isGone, stored, member⟩
      · exact Or.inl older
      · exact Or.inr ⟨batch, (union batch).mpr (Or.inl isGone), stored, member⟩
    · exact Or.inr ⟨batch, (union batch).mpr (Or.inr isGone),
        ((start.batches _ _).mp stored).1, member⟩

theorem Swept.refl {outgoing : Outgoing} (sound : outgoing.Sound) {gone : OutgoingTxBatch → Prop}
    (none : ∀ batch, ¬ gone batch) : Swept gone outgoing outgoing :=
  ⟨Released.refl sound, fun _ batch => ⟨fun found => ⟨found, none batch⟩, And.left⟩,
    fun _ _ => Or.inl⟩

/-- **A loop that cancels the batches of a snapshot that satisfy a condition.** Each is still stored
when its turn comes, since the snapshot holds every batch once. -/
theorem Sound.foldlM_cancel
    (round : Outgoing → OutgoingTxBatch → Outcome Empty PoolPanic Outgoing)
    (gone : OutgoingTxBatch → Prop) [DecidablePred gone]
    (cancels : ∀ current batch after, gone batch →
      current.cancelOutgoingTXBatch batch.tokenContract batch.batchNonce = .ok after →
      round current batch = .ok after)
    (skips : ∀ current batch, ¬ gone batch → round current batch = .ok current)
    {rest : List OutgoingTxBatch} {outgoing : Outgoing} (sound : outgoing.Sound)
    (stored : ∀ batch ∈ rest, outgoing.batches.get batch.key = some batch)
    (distinct : rest.Nodup) :
    ∃ after, rest.foldlM round outgoing = .ok after ∧
      Swept (fun batch => batch ∈ rest ∧ gone batch) outgoing after := by
  induction rest generalizing outgoing with
  | nil => exact ⟨outgoing, rfl, Swept.refl sound fun batch inside => List.not_mem_nil inside.1⟩
  | cons batch rest ih =>
      obtain ⟨fresh, distinct⟩ := List.nodup_cons.mp distinct
      rw [List.foldlM_cons]
      by_cases isGone : gone batch
      · obtain ⟨middle, cancelled, swept⟩ :=
          sound.cancelOutgoingTXBatch_swept (stored batch List.mem_cons_self)
        have still : ∀ other ∈ rest, middle.batches.get other.key = some other := by
          intro other member
          refine (swept.batches _ _).mpr ⟨stored other (List.mem_cons_of_mem _ member), ?_⟩
          rintro rfl
          exact fresh member
        obtain ⟨after, folded, sweptRest⟩ := ih (sound.released swept.released) still distinct
        refine ⟨after, ?_, swept.trans sweptRest fun other => ?_⟩
        · rw [cancels _ _ _ isGone cancelled, Outcome.ok_bind, folded]
        · rw [List.mem_cons]
          constructor
          · rintro ⟨rfl | member, holds⟩
            · exact Or.inl rfl
            · exact Or.inr ⟨member, holds⟩
          · rintro (rfl | ⟨member, holds⟩)
            · exact ⟨Or.inl rfl, isGone⟩
            · exact ⟨Or.inr member, holds⟩
      · obtain ⟨after, folded, sweptRest⟩ := ih sound
          (fun other member => stored other (List.mem_cons_of_mem _ member)) distinct
        refine ⟨after, ?_, (Swept.refl sound (fun _ => id)).trans sweptRest fun other => ?_⟩
        · rw [skips _ _ isGone, Outcome.ok_bind, folded]
        · rw [List.mem_cons, false_or]
          constructor
          · rintro ⟨rfl | member, holds⟩
            · exact absurd holds isGone
            · exact ⟨member, holds⟩
          · rintro ⟨member, holds⟩
            exact ⟨Or.inr member, holds⟩

/-- The batches of a sound state as a loop sees them. -/
theorem Sound.batch_snapshot {outgoing : Outgoing} (sound : outgoing.Sound) :
    (∀ batch, batch ∈ outgoing.getOutgoingTxBatches ↔
      outgoing.batches.get batch.key = some batch) ∧ outgoing.getOutgoingTxBatches.Nodup := by
  constructor
  · intro batch
    rw [getOutgoingTxBatches, List.mem_reverse, Store.mem_values_iff]
    constructor
    · rintro ⟨key, found⟩
      exact sound.batchKeyed key batch found ▸ found
    · exact fun found => ⟨_, found⟩
  · rw [getOutgoingTxBatches, List.nodup_reverse]
    refine (List.nodup_map_iff_inj_on outgoing.batches.entries_nodup).mpr ?_
    rintro ⟨key, batch⟩ inFirst ⟨key', batch'⟩ inSecond (rfl : batch = batch')
    have first := sound.batchKeyed _ _ ((outgoing.batches.mem_entries_iff _ _).mp inFirst)
    have second := sound.batchKeyed _ _ ((outgoing.batches.mem_entries_iff _ _).mp inSecond)
    rw [first, second]

/-- **The clean-up cancels exactly the batches whose timeout has passed.** -/
theorem Sound.cleanupTimedOutBatches_swept {outgoing : Outgoing} (sound : outgoing.Sound)
    (ethereumHeight : Nat) :
    ∃ after, outgoing.cleanupTimedOutBatches ethereumHeight = .ok after ∧
      Swept (fun batch => outgoing.batches.get batch.key = some batch ∧
        batch.batchTimeout < ethereumHeight) outgoing after := by
  obtain ⟨members, distinct⟩ := sound.batch_snapshot
  obtain ⟨after, folded, swept⟩ := sound.foldlM_cancel (cleanupTimedOutBatch ethereumHeight)
    (fun batch => batch.batchTimeout < ethereumHeight)
    (fun current batch after late cancelled => by
      unfold cleanupTimedOutBatch
      rw [if_pos late, cancelled])
    (fun current batch intime => if_neg intime)
    (fun batch member => (members batch).mp member) distinct
  simp only [members] at swept
  exact ⟨after, folded, swept⟩

/-- What the execution of a batch leaves behind: its records are out, and the earlier batches of its
token are cancelled. -/
structure Executed (before : Outgoing) (batch : OutgoingTxBatch) (after : Outgoing) : Prop where
  released : Released before batch.transactions after
  batches : ∀ key other, after.batches.get key = some other ↔ before.batches.get key = some other ∧
    other ≠ batch ∧ ¬ (other.batchNonce < batch.batchNonce ∧
      other.tokenContract = batch.tokenContract)
  pool : ∀ key tx, after.pool.get key = some tx → before.pool.get key = some tx ∨
    ∃ other, other.batchNonce < batch.batchNonce ∧ other.tokenContract = batch.tokenContract ∧
      before.batches.get other.key = some other ∧ tx ∈ other.transactions

/-- **Executing a stored batch succeeds.** -/
theorem Sound.outgoingTxBatchExecuted_executed {outgoing : Outgoing} (sound : outgoing.Sound)
    {tokenContract : Bytes} {nonce : Nat} {batch : OutgoingTxBatch}
    (stored : outgoing.batches.get (getOutgoingTxBatchKey tokenContract nonce) = some batch) :
    ∃ after, outgoing.outgoingTxBatchExecuted tokenContract nonce = .ok after ∧
      Executed outgoing batch after := by
  obtain ⟨rfl, rfl, read⟩ := sound.getOutgoingTXBatch_of_stored stored
  obtain ⟨members, distinct⟩ := sound.batch_snapshot
  obtain ⟨swept, folded, sweep⟩ := sound.foldlM_cancel
    (cancelEarlier batch.tokenContract batch.batchNonce)
    (fun other => other.batchNonce < batch.batchNonce ∧
      other.tokenContract = batch.tokenContract)
    (fun current other after earlier cancelled => by
      unfold cancelEarlier
      rw [if_pos earlier, ← earlier.2, cancelled])
    (fun current other later => if_neg later)
    (fun other member => (members other).mp member) distinct
  have notEarlier : ¬ (batch ∈ outgoing.getOutgoingTxBatches ∧
      batch.batchNonce < batch.batchNonce ∧ batch.tokenContract = batch.tokenContract) :=
    fun inside => lt_irrefl _ inside.2.1
  have present : swept.batches.get batch.key = some batch :=
    (sweep.batches _ _).mpr ⟨stored, notEarlier⟩
  refine ⟨swept.deleteBatch batch, ?_, ?_⟩
  · unfold outgoingTxBatchExecuted
    rw [read]
    simp only [folded, Outcome.ok_bind, Outcome.pure_eq]
  have deleted : Released swept batch.transactions (swept.deleteBatch batch) := by
    refine ⟨?_, sweep.released.pool, fun key other found => ?_, rfl, rfl, rfl⟩
    · show (swept.pool.values ++ swept.batched).Perm (batch.transactions ++ (swept.pool.values ++
        (swept.batches.delete batch.key).values.flatMap OutgoingTxBatch.transactions))
      have shrunk := (swept.batches.values_delete present).flatMap_right
        OutgoingTxBatch.transactions
      rw [List.flatMap_cons] at shrunk
      exact (shrunk.append_left _).trans (List.perm_append_comm_assoc _ _ _)
    · have found' : (swept.batches.delete batch.key).get key = some other := found
      rw [Store.get_delete] at found'
      split_ifs at found'
      exact found'
  refine ⟨by simpa using sweep.released.trans deleted, fun key other => ?_, fun key tx found => ?_⟩
  · show (swept.batches.delete batch.key).get key = some other ↔ _
    rw [Store.get_delete]
    constructor
    · intro found
      split_ifs at found with same
      obtain ⟨before, notGone⟩ := (sweep.batches _ _).mp found
      refine ⟨before, ?_, fun earlier => notGone ⟨(members other).mpr ?_, earlier⟩⟩
      · rintro rfl
        exact same (sound.batchKeyed key other before)
      · exact sound.batchKeyed key other before ▸ before
    · rintro ⟨before, different, notEarlier⟩
      rw [if_neg]
      · exact (sweep.batches _ _).mpr ⟨before, fun inside => notEarlier inside.2⟩
      · rintro rfl
        exact different (Option.some.inj (before.symm.trans stored))
  · rcases sweep.pool key tx found with old | ⟨other, ⟨_, lower, same⟩, storedOther, member⟩
    · exact Or.inl old
    · exact Or.inr ⟨other, lower, same, storedOther, member⟩

end Outgoing

end NabBridge
