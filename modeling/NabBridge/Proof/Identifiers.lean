/-
**Numbers across restarts.**

Transfers, batches and validator sets are numbered by counters, and none of the three counters is
exported. An import starts the first two anew; the third is left by the last validator set of the file,
and the file lists them from the highest nonce to the lowest.

* `NodeEffect.ids`: every step but a restart gives out no number, or the next one of one kind;
* `Restarted.nextId_valset`: what is left of the counters;
* `identifiers_across_restarts`: from which states a restart keeps the next numbers above the existing
  ones, from which above all that were given out, and that then none is given out twice.
-/

import NabBridge.Proof.DoubleSpend
import NabBridge.Proof.Restart
import NabBridge.Lib.Nonces

namespace NabBridge

/-! ### Numbers in the stores -/

namespace Outgoing

/-- The nonces of the batches. -/
def batchNonces (outgoing : Outgoing) : List Nat :=
  outgoing.batches.values.map OutgoingTxBatch.batchNonce

example : (Outgoing.empty.storeBatch 1 ⟨7, 0, [], [], 0⟩).batchNonces = [7] := by decide +kernel

theorem mem_batchNonces {outgoing : Outgoing} {nonce : Nat} : nonce ∈ outgoing.batchNonces ↔
    ∃ key batch, outgoing.batches.get key = some batch ∧ batch.batchNonce = nonce := by
  simp only [batchNonces, List.mem_map, Store.mem_values_iff]
  exact ⟨fun ⟨batch, ⟨key, found⟩, same⟩ => ⟨key, batch, found, same⟩,
    fun ⟨key, batch, found, same⟩ => ⟨batch, ⟨key, found⟩, same⟩⟩

theorem Shuffled.batchNonces {before after : Outgoing} (shuffled : Shuffled before after) {nonce : Nat}
    (member : nonce ∈ after.batchNonces) : nonce ∈ before.batchNonces := by
  obtain ⟨key, batch, found, rfl⟩ := mem_batchNonces.mp member
  exact mem_batchNonces.mpr ⟨key, batch, shuffled.batches key batch found, rfl⟩

theorem Sends.txIds {before after : Outgoing} {tx : OutgoingTransferTx} (sends : Sends before tx after)
    {id : Nat} (member : id ∈ after.txIds) : id ∈ before.txIds ∨ id = tx.id := by
  rcases mem_txIds member with ⟨key, other, found, rfl⟩ | ⟨key, batch, found, other, inside, rfl⟩
  · rcases sends.pool key other found with rfl | earlier
    · exact Or.inr rfl
    · exact Or.inl (mem_txIds_of_pool earlier)
  · rw [sends.batches] at found
    exact Or.inl (mem_txIds_of_batch found inside)

theorem Stores.txIds_subset {geth : Geth} {gravityID : Bytes} {before after : Outgoing}
    {batch : OutgoingTxBatch} (stores : Stores geth gravityID before batch after) {id : Nat}
    (member : id ∈ after.txIds) : id ∈ before.txIds := by
  rcases mem_txIds member with ⟨key, other, found, rfl⟩ | ⟨key, other, found, tx, inside, rfl⟩
  · exact stores.pool key other found
  · rw [stores.batches] at found
    rcases Store.of_get_set found with ⟨_, rfl⟩ | earlier
    · exact stores.txIds tx inside
    · exact mem_txIds_of_batch earlier inside

theorem Stores.batchNonces {geth : Geth} {gravityID : Bytes} {before after : Outgoing}
    {batch : OutgoingTxBatch} (stores : Stores geth gravityID before batch after) {nonce : Nat}
    (member : nonce ∈ after.batchNonces) : nonce ∈ before.batchNonces ∨ nonce = batch.batchNonce := by
  obtain ⟨key, other, found, rfl⟩ := mem_batchNonces.mp member
  rw [stores.batches] at found
  rcases Store.of_get_set found with ⟨_, rfl⟩ | earlier
  · exact Or.inr rfl
  · exact Or.inl (mem_batchNonces.mpr ⟨key, other, earlier, rfl⟩)

end Outgoing

namespace ValsetStore

/-- The nonces of the validator sets. -/
def nonces (store : ValsetStore) : List Nat := store.valsets.values.map Valset.nonce

theorem mem_nonces {store : ValsetStore} {nonce : Nat} : nonce ∈ store.nonces ↔
    ∃ key valset, store.valsets.get key = some valset ∧ valset.nonce = nonce := by
  simp only [nonces, List.mem_map, Store.mem_values_iff]
  exact ⟨fun ⟨valset, ⟨key, found⟩, same⟩ => ⟨key, valset, found, same⟩,
    fun ⟨key, valset, found, same⟩ => ⟨valset, ⟨key, found⟩, same⟩⟩

theorem Within.nonces {before after : ValsetStore} (within : Within before after) {nonce : Nat}
    (member : nonce ∈ after.nonces) : nonce ∈ before.nonces := by
  obtain ⟨key, valset, found, rfl⟩ := mem_nonces.mp member
  exact mem_nonces.mpr ⟨key, valset, within.valsets key valset found, rfl⟩

theorem Stores.nonces {geth : Geth} {gravityID : Bytes} {before after : ValsetStore}
    {made : Valset × Bytes} (stores : Stores geth gravityID before made after) {nonce : Nat}
    (member : nonce ∈ after.nonces) : nonce ∈ before.nonces ∨ nonce = made.1.nonce := by
  obtain ⟨key, valset, found, rfl⟩ := mem_nonces.mp member
  rw [stores.store] at found
  rcases Store.of_get_set found with ⟨_, rfl⟩ | earlier
  · exact Or.inr rfl
  · exact Or.inl (mem_nonces.mpr ⟨key, valset, earlier, rfl⟩)

end ValsetStore

/-- The numbers in the state. -/
def Chain.ids {β : Type} (chain : Chain β) : IdKind → List Nat
  | .transfer => chain.app.outgoing.txIds
  | .batch => chain.app.outgoing.batchNonces
  | .valset => chain.valsets.nonces

/-- The next numbers. -/
def Chain.nextId {β : Type} (chain : Chain β) : IdKind → Nat
  | .transfer => chain.app.outgoing.nextTxId
  | .batch => chain.app.outgoing.nextBatchNonce
  | .valset => chain.valsets.latestValsetNonce + 1

/-! ### One step -/

/-- What a step gives out: nothing, or the next number of one kind. -/
inductive IdEffect {β : Type} (before after : Chain β) (issued : List (IdKind × Nat)) : Prop where
  | kept (ids : ∀ kind, ∀ id ∈ after.ids kind, id ∈ before.ids kind)
      (next : after.nextId = before.nextId) (silent : issued = [])
  | issues (kind : IdKind)
      (ids : ∀ other, ∀ id ∈ after.ids other,
        id ∈ before.ids other ∨ other = kind ∧ id = before.nextId kind)
      (next : after.nextId = Function.update before.nextId kind (before.nextId kind + 1))
      (reported : issued = [(kind, before.nextId kind)])

section Step

variable {β τ : Type} {sdk : Sdk} {geth : Geth}

theorem nextId_ext {chain : Chain β} {next : IdKind → Nat}
    (transfer : chain.app.outgoing.nextTxId = next .transfer)
    (batch : chain.app.outgoing.nextBatchNonce = next .batch)
    (valset : chain.valsets.latestValsetNonce + 1 = next .valset) : chain.nextId = next := by
  funext kind
  cases kind with
  | transfer => exact transfer
  | batch => exact batch
  | valset => exact valset

theorem issued_issues (output : BridgeOutput) (found : (NodeOutput.bridge output).issued.isSome) :
    output.Issues := by
  cases output <;> first | exact trivial | cases found

theorem IdEffect.same {before after : Chain β} (same : after = before) : IdEffect before after [] :=
  .kept (fun _ _ member => same ▸ member) (by rw [same]) rfl

/-- **The numbers of a step of the bridge.** -/
theorem BridgeEffect.ids {gravityID : Bytes} {before after : Chain β} {outputs : List BridgeOutput}
    (effect : BridgeEffect geth gravityID before outputs after) :
    IdEffect before after (issuedIds (outputs.map .bridge)) := by
  cases effect with
  | quiet outgoing valsets silent =>
      refine .kept (fun kind id member => ?_) (nextId_ext ?_ ?_ ?_)
        (filterMap_silent issued_issues silent)
      · cases kind with
        | transfer => exact outgoing.txIds member
        | batch => exact outgoing.batchNonces member
        | valset => exact valsets.nonces member
      · rw [Outgoing.nextTxId, outgoing.lastTxPoolId]
        rfl
      · rw [Outgoing.nextBatchNonce, outgoing.lastOutgoingBatchId]
        rfl
      · rw [valsets.latestValsetNonce]
        rfl
  | sent tx outgoing valsets reported =>
      have number : before.nextId .transfer = tx.id := outgoing.id.symm
      refine .issues .transfer (fun kind id member => ?_) (nextId_ext ?_ ?_ ?_) ?_
      · cases kind with
        | transfer => exact (outgoing.txIds member).imp_right fun same => ⟨rfl, same.trans number.symm⟩
        | batch =>
            refine Or.inl ?_
            rwa [Chain.ids, Outgoing.batchNonces, outgoing.batches] at member
        | valset => exact Or.inl (by rwa [Chain.ids, valsets] at member)
      · rw [Function.update_self, number, Outgoing.nextTxId, outgoing.lastTxPoolId]
        rfl
      · rw [Function.update_of_ne (by decide), Outgoing.nextBatchNonce, outgoing.lastOutgoingBatchId]
        rfl
      · rw [Function.update_of_ne (by decide), valsets]
        rfl
      · rw [reported, number]
        rfl
  | batchStored batch outgoing valsets reported =>
      have number : before.nextId .batch = batch.batchNonce := outgoing.nonce.symm
      refine .issues .batch (fun kind id member => ?_) (nextId_ext ?_ ?_ ?_) ?_
      · cases kind with
        | transfer => exact Or.inl (outgoing.txIds_subset member)
        | batch => exact (outgoing.batchNonces member).imp_right fun same => ⟨rfl, same.trans number.symm⟩
        | valset => exact Or.inl (by rwa [Chain.ids, valsets] at member)
      · rw [Function.update_of_ne (by decide), Outgoing.nextTxId, outgoing.lastTxPoolId]
        rfl
      · rw [Function.update_self, number, Outgoing.nextBatchNonce, outgoing.lastOutgoingBatchId]
        rfl
      · rw [Function.update_of_ne (by decide), valsets]
        rfl
      · rw [reported, number]
        rfl
  | valsetStored made shuffled stored earlier outgoing recorded stores valsets silent reported =>
      have number : before.nextId .valset = made.1.nonce := stores.nonce.symm
      refine .issues .valset (fun kind id member => ?_) (nextId_ext ?_ ?_ ?_) ?_
      · cases kind with
        | transfer =>
            rw [Chain.ids, recorded] at member
            exact Or.inl (outgoing.txIds member)
        | batch =>
            rw [Chain.ids, recorded] at member
            exact Or.inl (outgoing.batchNonces member)
        | valset =>
            exact (stores.nonces (valsets.nonces member)).imp_right fun same =>
              ⟨rfl, same.trans number.symm⟩
      · rw [Function.update_of_ne (by decide), recorded]
        exact congrArg (Option.getD · 1) outgoing.lastTxPoolId
      · rw [Function.update_of_ne (by decide), recorded]
        exact congrArg (Option.getD · 1) outgoing.lastOutgoingBatchId
      · rw [Function.update_self, number, valsets.latestValsetNonce, stores.store]
      · rw [reported, List.map_append, issuedIds_append, issuedIds,
          filterMap_silent issued_issues silent, number]
        rfl

/-- **The numbers of a step**, unless it is a restart. -/
theorem NodeEffect.ids {input : NodeInput β τ} {before after : KeeperState β}
    {outputs : List NodeOutput} (effect : NodeEffect sdk geth input before outputs after) :
    IdEffect before.chain after.chain (issuedIds outputs) ∨
      Restarted sdk geth before after ∧ issuedIds outputs = [] ∧
        ∃ valsetReward attestations delegateKeys,
          input = .restart valsetReward attestations delegateKeys := by
  cases effect with
  | bridge made effect calls keys params reported => exact Or.inl (reported ▸ effect.ids)
  | logicCallStored call checkpoint computed outgoing valsets calls keys params reported =>
      subst reported
      refine Or.inl (.kept (fun kind id member => ?_) (nextId_ext ?_ ?_ ?_) rfl)
      · cases kind with
        | transfer => rwa [Chain.ids, outgoing] at member
        | batch => rwa [Chain.ids, outgoing] at member
        | valset => rwa [Chain.ids, valsets] at member
      · rw [outgoing]
        rfl
      · rw [outgoing]
        rfl
      · rw [valsets]
        rfl
  | registered text validator orchestrator ethAddress parsed unset state silent =>
      subst state silent
      exact Or.inl (.same rfl)
  | setParams params set valid state silent =>
      subst state silent
      exact Or.inl (.same rfl)
  | restarted valsetReward attestations delegateKeys restart effect silent =>
      subst silent
      exact Or.inr ⟨effect, rfl, valsetReward, attestations, delegateKeys, restart⟩
  | aside chain calls keys params silent =>
      have nothing : issuedIds outputs = [] := by
        refine List.filterMap_eq_nil_iff.mpr fun output member => ?_
        obtain ⟨punishment, rfl⟩ := silent output member
        rfl
      rw [nothing]
      exact Or.inl (.same chain)

end Step

/-! ### A restart -/

theorem ValsetStore.getValsets_sorted (store : ValsetStore) :
    store.getValsets.Pairwise fun first second => second.nonce ≤ first.nonce := by
  have : Std.Total fun first second : Valset => second.nonce ≤ first.nonce :=
    ⟨fun first second => Nat.le_total second.nonce first.nonce⟩
  have : IsTrans Valset fun first second => second.nonce ≤ first.nonce :=
    ⟨fun _ _ _ left right => Nat.le_trans right left⟩
  exact List.pairwise_insertionSort _ _

theorem le_of_getLast? {valsets : List Valset} {last valset : Valset}
    (sorted : valsets.Pairwise fun first second => second.nonce ≤ first.nonce)
    (ends : valsets.getLast? = some last) (member : valset ∈ valsets) : last.nonce ≤ valset.nonce := by
  obtain ⟨front, rfl⟩ := List.getLast?_eq_some_iff.mp ends
  rcases List.mem_append.mp member with inside | here
  · exact (List.pairwise_append.mp sorted).2.2 valset inside last (List.mem_singleton_self _)
  · rw [List.mem_singleton.mp here]

section Restart

variable {β : Type} {sdk : Sdk} {geth : Geth} {before after : KeeperState β}

theorem Restarted.ids (restarted : Restarted sdk geth before after) (kind : IdKind) (id : Nat)
    (member : id ∈ after.chain.ids kind) : id ∈ before.chain.ids kind := by
  cases kind with
  | transfer =>
      rcases Outgoing.mem_txIds member with ⟨key, tx, found, rfl⟩ |
          ⟨key, batch, found, tx, inside, rfl⟩
      · obtain ⟨key', found⟩ := restarted.pool key tx found
        exact Outgoing.mem_txIds_of_pool found
      · obtain ⟨key', found⟩ := restarted.batches key batch found
        exact Outgoing.mem_txIds_of_batch found inside
  | batch =>
      obtain ⟨key, batch, found, rfl⟩ := Outgoing.mem_batchNonces.mp member
      obtain ⟨key', found⟩ := restarted.batches key batch found
      exact Outgoing.mem_batchNonces.mpr ⟨key', batch, found, rfl⟩
  | valset =>
      obtain ⟨key, valset, found, rfl⟩ := ValsetStore.mem_nonces.mp member
      rw [restarted.valsets] at found
      rcases (genesisValsets_spec _ _).2 key valset found with absent | ⟨imported, _⟩
      · cases absent
      · exact List.mem_map_of_mem ((ValsetStore.getValsets_perm _).mem_iff.mp imported)

theorem Restarted.nextId_transfer (restarted : Restarted sdk geth before after) :
    after.chain.nextId .transfer = 1 := by
  show after.chain.app.outgoing.nextTxId = 1
  rw [Outgoing.nextTxId, restarted.lastTxPoolId]
  rfl

theorem Restarted.nextId_batch (restarted : Restarted sdk geth before after) :
    after.chain.nextId .batch = 1 := by
  show after.chain.app.outgoing.nextBatchNonce = 1
  rw [Outgoing.nextBatchNonce, restarted.lastOutgoingBatchId]
  rfl

theorem Restarted.nextId_pos (restarted : Restarted sdk geth before after) (kind : IdKind) :
    1 ≤ after.chain.nextId kind := by
  cases kind with
  | transfer => exact le_of_eq restarted.nextId_transfer.symm
  | batch => exact le_of_eq restarted.nextId_batch.symm
  | valset => exact Nat.succ_le_succ (Nat.zero_le _)

/-- **The lowest stored nonce counts as the latest.** -/
theorem Restarted.nextId_valset (restarted : Restarted sdk geth before after) :
    before.chain.ids .valset = [] ∧ after.chain.nextId .valset = 1 ∨
      ∃ lowest ∈ before.chain.ids .valset, after.chain.nextId .valset = lowest + 1 ∧
        ∀ id ∈ before.chain.ids .valset, lowest ≤ id := by
  have latest : after.chain.valsets.latestValsetNonce =
      ((before.chain.valsets.getValsets.getLast?).map Valset.nonce).getD 0 := by
    rw [restarted.valsets]
    exact (genesisValsets_spec _ _).1
  have perm := before.chain.valsets.getValsets_perm
  cases ends : before.chain.valsets.getValsets.getLast? with
  | none =>
      rw [ends] at latest
      rw [List.getLast?_eq_none_iff.mp ends] at perm
      refine Or.inl ⟨?_, by rw [Chain.nextId, latest]; rfl⟩
      show before.chain.valsets.nonces = []
      rw [ValsetStore.nonces, perm.nil_eq.symm, List.map_nil]
  | some lowest =>
      rw [ends] at latest
      have member := perm.mem_iff.mp (List.mem_of_getLast? ends)
      refine Or.inr ⟨lowest.nonce, List.mem_map_of_mem member, by rw [Chain.nextId, latest]; rfl,
        fun id inside => ?_⟩
      obtain ⟨valset, stored, rfl⟩ := List.mem_map.mp inside
      exact le_of_getLast? before.chain.valsets.getValsets_sorted ends (perm.mem_iff.mpr stored)

end Restart

/-! ### Every run -/

/-- Numbers begin at one, and a validator set is stored under its own. -/
structure Numbered {β τ : Type} (node : Node β τ) : Prop where
  positive : ∀ kind, ∀ id ∈ node.keeper.chain.ids kind, 1 ≤ id
  next : ∀ kind, 1 ≤ node.keeper.chain.nextId kind
  keyed : ∀ key valset, node.keeper.chain.valsets.valsets.get key = some valset →
    key = getValsetKey valset.nonce

section Runs

variable {β τ : Type} {sdk : Sdk} {bank : BankKeeper β} {geth : Geth} {evm : Evm}
  {others : Contracts τ}

theorem chain_fresh_ids (balances : β) (kind : IdKind) :
    (Chain.fresh balances : Chain β).ids kind = [] ∧ (Chain.fresh balances : Chain β).nextId kind = 1 := by
  cases kind <;> exact ⟨rfl, rfl⟩

theorem numbered_fresh (params : Params) (balances : β) (eth : Ethereum τ) :
    Numbered (⟨KeeperState.fresh params balances, eth, false⟩ : Node β τ) where
  positive kind id member := by
    rw [show (KeeperState.fresh params balances).chain = Chain.fresh balances from rfl,
      (chain_fresh_ids balances kind).1] at member
    exact absurd member List.not_mem_nil
  next kind := le_of_eq (chain_fresh_ids balances kind).2.symm
  keyed _ _ found := by cases found

theorem IdEffect.next_le {before after : Chain β} {issued : List (IdKind × Nat)}
    (effect : IdEffect before after issued) (kind : IdKind) :
    before.nextId kind ≤ after.nextId kind := by
  cases effect with
  | kept ids next silent => rw [next]
  | issues issuing ids next reported =>
      rw [next]
      by_cases same : kind = issuing
      · rw [same, Function.update_self]
        exact Nat.le_succ _
      · rw [Function.update_of_ne same]

theorem Numbered.step {node next : Node β τ} {input : NodeInput β τ} {outputs : List NodeOutput}
    (numbered : Numbered node)
    (step : nodeStep sdk bank geth evm others node input = some (next, outputs)) : Numbered next := by
  have effect := nodeStep_effect step
  have keyed : ∀ key valset, next.keeper.chain.valsets.valsets.get key = some valset →
      key = getValsetKey valset.nonce := fun key valset found =>
    (effect.valset_source found).elim (numbered.keyed key valset) And.left
  rcases effect.ids with moved | ⟨restarted, _, _⟩
  · refine ⟨fun kind id member => ?_, fun kind => (numbered.next kind).trans (moved.next_le kind), keyed⟩
    cases moved with
    | kept ids next silent => exact numbered.positive kind id (ids kind id member)
    | issues issuing ids next reported =>
        rcases ids kind id member with earlier | ⟨_, rfl⟩
        · exact numbered.positive kind id earlier
        · exact numbered.next issuing
  · refine ⟨fun kind id member => numbered.positive kind id (restarted.ids kind id member),
      restarted.nextId_pos, keyed⟩

/-- No nonce is stored twice. -/
theorem Numbered.nonces_nodup {node : Node β τ} (numbered : Numbered node) :
    (node.keeper.chain.ids .valset).Nodup := by
  have byKey : (node.keeper.chain.ids .valset).map getValsetKey =
      node.keeper.chain.valsets.valsets.entries.map Prod.fst := by
    show (node.keeper.chain.valsets.valsets.values.map Valset.nonce).map getValsetKey = _
    rw [Store.values, List.map_map, List.map_map]
    refine List.map_congr_left fun entry member => ?_
    exact (numbered.keyed entry.1 entry.2 ((Store.mem_entries_iff _ entry.1 entry.2).mp member)).symm
  exact List.Nodup.of_map getValsetKey (byKey ▸ Store.keys_nodup _)

/-- Distinct numbers that are all one number are at most one. -/
theorem eq_nil_or_singleton {ids : List Nat} (nodup : ids.Nodup) {number : Nat}
    (same : ∀ id ∈ ids, id = number) : ids = [] ∨ ids = [number] := by
  cases ids with
  | nil => exact Or.inl rfl
  | cons first rest =>
      obtain rfl := same first List.mem_cons_self
      cases rest with
      | nil => exact Or.inr rfl
      | cons second others =>
          have equal := same second (List.mem_cons_of_mem _ List.mem_cons_self)
          exact absurd (equal ▸ List.mem_cons_self) (List.nodup_cons.mp nodup).1

/-- **The next numbers of a restarted chain are above the existing ones** exactly when there are no
transfers, no batches and at most one validator set. -/
theorem Numbered.restart_above_iff {node : Node β τ} (numbered : Numbered node)
    {after : KeeperState β} (restarted : Restarted sdk geth node.keeper after) :
    (∀ kind, ∀ id ∈ node.keeper.chain.ids kind, id < after.chain.nextId kind) ↔
      node.keeper.chain.ids .transfer = [] ∧ node.keeper.chain.ids .batch = [] ∧
        (node.keeper.chain.ids .valset).length ≤ 1 := by
  constructor
  · intro above
    have none : ∀ kind, after.chain.nextId kind = 1 → node.keeper.chain.ids kind = [] := by
      intro kind next
      refine List.eq_nil_iff_forall_not_mem.mpr fun id member => ?_
      have low := above kind id member
      rw [next] at low
      exact absurd (numbered.positive kind id member) (Nat.not_le.mpr low)
    refine ⟨none _ restarted.nextId_transfer, none _ restarted.nextId_batch, ?_⟩
    rcases restarted.nextId_valset with ⟨empty, _⟩ | ⟨lowest, _, next, below⟩
    · rw [empty]
      exact Nat.zero_le _
    · have same : ∀ id ∈ node.keeper.chain.ids .valset, id = lowest := fun id member =>
        Nat.le_antisymm (Nat.le_of_lt_succ (lt_of_lt_of_eq (above .valset id member) next))
          (below id member)
      rcases eq_nil_or_singleton numbered.nonces_nodup same with empty | single
      · rw [empty]
        exact Nat.zero_le _
      · rw [single]
        exact Nat.le_refl _
  · rintro ⟨transfers, batches, valsets⟩ kind id member
    cases kind with
    | transfer =>
        rw [transfers] at member
        exact absurd member List.not_mem_nil
    | batch =>
        rw [batches] at member
        exact absurd member List.not_mem_nil
    | valset =>
        rcases restarted.nextId_valset with ⟨empty, _⟩ | ⟨lowest, inside, next, _⟩
        · rw [empty] at member
          exact absurd member List.not_mem_nil
        · obtain ⟨only, single⟩ := List.length_eq_one_iff.mp
            (Nat.le_antisymm valsets (List.length_pos_of_mem member))
          rw [single, List.mem_singleton] at member inside
          rw [next, member, inside]
          exact Nat.lt_succ_self _

/-! ### Runs whose restarts forget nothing -/

/-- There is nothing for a restart to forget: no transfer and no batch has been numbered, and the one
stored validator set is the latest, or none has been made. -/
def Chain.Unissued (chain : Chain β) : Prop :=
  chain.nextId .transfer = 1 ∧ chain.nextId .batch = 1 ∧
    (chain.ids .valset = [chain.valsets.latestValsetNonce] ∨
      chain.ids .valset = [] ∧ chain.valsets.latestValsetNonce = 0)

instance (chain : Chain β) : Decidable chain.Unissued := by
  unfold Chain.Unissued; infer_instance

/-- A restart happens when there is nothing to forget. -/
def ForgetsNothing (node : Node β τ) : NodeInput β τ → Prop
  | .restart _ _ _ => node.keeper.chain.Unissued
  | _ => True

instance (node : Node β τ) (input : NodeInput β τ) : Decidable (ForgetsNothing node input) := by
  rcases input <;> unfold ForgetsNothing <;> infer_instance

/-- The next numbers are above what was given out and what is stored, and only just. -/
structure Issued (trace : List NodeOutput) (node : Node β τ) : Prop where
  numbered : Numbered node
  rising : Rising (fun kind => node.keeper.chain.nextId kind - 1) (issuedIds trace)
  below : ∀ kind, ∀ id ∈ node.keeper.chain.ids kind, id < node.keeper.chain.nextId kind
  last : ∀ kind, node.keeper.chain.nextId kind = 1 ∨
    (kind, node.keeper.chain.nextId kind - 1) ∈ issuedIds trace

theorem issued_fresh (params : Params) (balances : β) (eth : Ethereum τ) :
    Issued [] (⟨KeeperState.fresh params balances, eth, false⟩ : Node β τ) where
  numbered := numbered_fresh params balances eth
  rising := Rising.empty _
  below kind id member := by
    rw [show (KeeperState.fresh params balances).chain = Chain.fresh balances from rfl,
      (chain_fresh_ids balances kind).1] at member
    exact absurd member List.not_mem_nil
  last kind := Or.inl (chain_fresh_ids balances kind).2

theorem Restarted.nextId_of_unissued {before after : KeeperState β}
    (restarted : Restarted sdk geth before after) (unissued : before.chain.Unissued) :
    after.chain.nextId = before.chain.nextId := by
  obtain ⟨transfer, batch, valset⟩ := unissued
  funext kind
  cases kind with
  | transfer => rw [restarted.nextId_transfer, transfer]
  | batch => rw [restarted.nextId_batch, batch]
  | valset =>
      show _ = before.chain.valsets.latestValsetNonce + 1
      rcases valset with single | ⟨empty, latest⟩
      · rcases restarted.nextId_valset with ⟨empty, _⟩ | ⟨lowest, member, next, _⟩
        · rw [single] at empty
          cases empty
        · rw [single, List.mem_singleton] at member
          rw [next, member]
      · rcases restarted.nextId_valset with ⟨_, next⟩ | ⟨lowest, member, _, _⟩
        · rw [next, latest]
        · rw [empty] at member
          exact absurd member List.not_mem_nil

theorem Issued.keep {past outputs : List NodeOutput} {node next : Node β τ}
    (issued : Issued past node) (numbered : Numbered next)
    (ids : ∀ kind, ∀ id ∈ next.keeper.chain.ids kind, id ∈ node.keeper.chain.ids kind)
    (same : next.keeper.chain.nextId = node.keeper.chain.nextId) (silent : issuedIds outputs = []) :
    Issued (past ++ outputs) next := by
  have trace : issuedIds (past ++ outputs) = issuedIds past := by
    rw [issuedIds_append, silent, List.append_nil]
  refine ⟨numbered, ?_, fun kind id member => ?_, fun kind => ?_⟩
  · rw [trace, same]
    exact issued.rising
  · rw [same]
    exact issued.below kind id (ids kind id member)
  · rw [trace, same]
    exact issued.last kind

/-- **The next number is above all earlier ones.** -/
theorem Issued.issue {past outputs : List NodeOutput} {node next : Node β τ}
    (issued : Issued past node) (numbered : Numbered next) {kind : IdKind}
    (ids : ∀ other, ∀ id ∈ next.keeper.chain.ids other,
      id ∈ node.keeper.chain.ids other ∨ other = kind ∧ id = node.keeper.chain.nextId kind)
    (moved : next.keeper.chain.nextId = Function.update node.keeper.chain.nextId kind
      (node.keeper.chain.nextId kind + 1))
    (reported : issuedIds outputs = [(kind, node.keeper.chain.nextId kind)]) :
    Issued (past ++ outputs) next := by
  have here : next.keeper.chain.nextId kind = node.keeper.chain.nextId kind + 1 := by
    rw [moved, Function.update_self]
  have elsewhere : ∀ other, other ≠ kind →
      next.keeper.chain.nextId other = node.keeper.chain.nextId other := fun other different => by
    rw [moved, Function.update_of_ne different]
  have trace : issuedIds (past ++ outputs) =
      issuedIds past ++ [(kind, node.keeper.chain.nextId kind)] := by
    rw [issuedIds_append, reported]
  refine ⟨numbered, ?_, fun other id member => ?_, fun other => ?_⟩
  · rw [trace]
    refine (issued.rising.issue (Nat.sub_lt (issued.numbered.next kind) Nat.one_pos)).raise
      fun other => ?_
    by_cases same : other = kind
    · rw [same, Function.update_self, here, Nat.add_sub_cancel]
    · rw [Function.update_of_ne same, elsewhere other same]
  · by_cases same : other = kind
    · subst same
      rw [here]
      rcases ids other id member with earlier | ⟨_, rfl⟩
      · exact Nat.lt_succ_of_lt (issued.below other id earlier)
      · exact Nat.lt_succ_self _
    · rw [elsewhere other same]
      exact issued.below other id ((ids other id member).resolve_right fun found => same found.1)
  · rw [trace]
    by_cases same : other = kind
    · rw [same, here, Nat.add_sub_cancel]
      exact Or.inr (List.mem_append_right _ (List.mem_singleton_self _))
    · rw [elsewhere other same]
      exact (issued.last other).imp_right (List.mem_append_left _)

/-- One step, if a restart forgets nothing. -/
theorem Issued.step {past : List NodeOutput} {node next : Node β τ} {input : NodeInput β τ}
    {outputs : List NodeOutput} (forgets : ForgetsNothing node input) (issued : Issued past node)
    (step : nodeStep sdk bank geth evm others node input = some (next, outputs)) :
    Issued (past ++ outputs) next := by
  have numbered := issued.numbered.step step
  rcases (nodeStep_effect step).ids with moved | ⟨restarted, silent, _, _, _, rfl⟩
  · cases moved with
    | kept ids same silent => exact issued.keep numbered ids same silent
    | issues kind ids moved reported => exact issued.issue numbered ids moved reported
  · exact issued.keep numbered restarted.ids (restarted.nextId_of_unissued forgets) silent

/-- **The next numbers of a restarted chain are above all that were given out** exactly when there was
nothing to forget. -/
theorem Issued.restart_above_iff {past : List NodeOutput} {node : Node β τ} (issued : Issued past node)
    {after : KeeperState β} (restarted : Restarted sdk geth node.keeper after) :
    (∀ entry ∈ issuedIds past, entry.2 < after.chain.nextId entry.1) ↔
      node.keeper.chain.Unissued := by
  constructor
  · intro above
    have reached : ∀ kind, node.keeper.chain.nextId kind ≤ after.chain.nextId kind := by
      intro kind
      rcases issued.last kind with first | given
      · rw [first]
        exact restarted.nextId_pos kind
      · exact Nat.le_of_pred_lt (above _ given)
    have first : ∀ kind, after.chain.nextId kind = 1 → node.keeper.chain.nextId kind = 1 :=
      fun kind next => Nat.le_antisymm (next ▸ reached kind) (issued.numbered.next kind)
    refine ⟨first _ restarted.nextId_transfer, first _ restarted.nextId_batch, ?_⟩
    rcases restarted.nextId_valset with ⟨empty, next⟩ | ⟨lowest, member, next, below⟩
    · exact Or.inr ⟨empty, Nat.succ.inj (first .valset next)⟩
    · have latest : node.keeper.chain.valsets.latestValsetNonce ≤ lowest :=
        Nat.le_of_succ_le_succ ((reached .valset).trans_eq next)
      have same : ∀ id ∈ node.keeper.chain.ids .valset,
          id = node.keeper.chain.valsets.latestValsetNonce := fun id stored =>
        Nat.le_antisymm (Nat.le_of_lt_succ (issued.below .valset id stored))
          (latest.trans (below id stored))
      rcases eq_nil_or_singleton issued.numbered.nonces_nodup same with empty | single
      · rw [empty] at member
        exact absurd member List.not_mem_nil
      · exact Or.inl single
  · intro unissued entry member
    rw [restarted.nextId_of_unissued unissued]
    exact Nat.lt_of_le_pred (issued.numbered.next entry.1) (issued.rising.below entry member)

/-- **Numbers across restarts.** For every run from a fresh start:

* a restart of the state it reaches leaves the next numbers above every existing one exactly when there
  are no transfers, no batches and at most one validator set;
* if its restarts all happened with nothing to forget, no number was given out twice, and the next
  numbers are above the existing ones;
* and then a further restart leaves them above every number given out exactly when there is nothing to
  forget again. -/
theorem identifiers_across_restarts (params : Params) (balances : β) (eth : Ethereum τ)
    (inputs : List (NodeInput β τ)) (node : Node β τ) (outputs : List NodeOutput)
    (runs : run (nodeStep sdk bank geth evm others) ⟨KeeperState.fresh params balances, eth, false⟩
      inputs = some (node, outputs)) :
    (∀ valsetReward attestations delegateKeys after,
      node.restart sdk geth valsetReward attestations delegateKeys = some after →
      ((∀ kind, ∀ id ∈ node.keeper.chain.ids kind, id < after.chain.nextId kind) ↔
        node.keeper.chain.ids .transfer = [] ∧ node.keeper.chain.ids .batch = [] ∧
          (node.keeper.chain.ids .valset).length ≤ 1)) ∧
    (StepsMeet (nodeStep sdk bank geth evm others) ForgetsNothing
        ⟨KeeperState.fresh params balances, eth, false⟩ inputs →
      (issuedIds outputs).Nodup ∧
      (∀ kind, ∀ id ∈ node.keeper.chain.ids kind, id < node.keeper.chain.nextId kind) ∧
      ∀ valsetReward attestations delegateKeys after,
        node.restart sdk geth valsetReward attestations delegateKeys = some after →
        ((∀ entry ∈ issuedIds outputs, entry.2 < after.chain.nextId entry.1) ↔
          node.keeper.chain.Unissued)) := by
  have numbered : Numbered node := run_invariant (fun _ => True) (fun _ node => Numbered node)
    (fun _ _ _ _ _ _ holds step => holds.step step) (fun _ _ => trivial)
    (numbered_fresh params balances eth) runs
  refine ⟨fun _ _ _ after restarts => numbered.restart_above_iff (Node.restart_eq_some restarts),
    fun meets => ?_⟩
  have issued : Issued ([] ++ outputs) node := run_invariant_of_meets ForgetsNothing Issued
    (fun _ _ _ _ _ forgets holds step => holds.step forgets step) meets
    (issued_fresh params balances eth) runs
  rw [List.nil_append] at issued
  exact ⟨issued.rising.nodup, issued.below,
    fun _ _ _ after restarts => issued.restart_above_iff (Node.restart_eq_some restarts)⟩

end Runs

/-! ### Two runs -/

/-- The chain is exported and imported again. -/
def exampleRestartInput : NodeInput Ledger Unit := .restart ⟨[], 0⟩ [] exampleDelegateKeys

/-- A restart after the first validator set; then a transfer is sent and batched. -/
def exampleEarlyRestart : List (NodeInput Ledger Unit) :=
  [exampleRegister, exampleBlock 5, exampleRestartInput,
    .bridge (fun _ => true) (exampleTransfer 10 1),
    .bridge (fun _ => true) (.requestBatch (gravityDenom exampleContract) 1 6)]

theorem exampleEarlyRestart_run : (run exampleNodeStep exampleNode exampleEarlyRestart).any
    (fun result => issuedIds result.2 = [(.valset, 1), (.transfer, 1), (.batch, 1)]) = true := by
  decide +kernel

theorem exampleEarlyRestart_meets :
    StepsMeet exampleNodeStep ForgetsNothing exampleNode exampleEarlyRestart := by
  decide +kernel

/-- Its numbers are given out once, and the next ones are above them. -/
theorem identifiers_across_early_restart : ∃ node outputs,
    run exampleNodeStep exampleNode exampleEarlyRestart = some (node, outputs) ∧
    issuedIds outputs = [(.valset, 1), (.transfer, 1), (.batch, 1)] ∧ (issuedIds outputs).Nodup ∧
    ∀ kind, ∀ id ∈ node.keeper.chain.ids kind, id < node.keeper.chain.nextId kind := by
  obtain ⟨⟨node, outputs⟩, runs, issued⟩ := (Option.any_eq_true _ _).mp exampleEarlyRestart_run
  obtain ⟨nodup, below, _⟩ := (identifiers_across_restarts exampleParams exampleLedger exampleEthereum
    exampleEarlyRestart node outputs runs).2 exampleEarlyRestart_meets
  exact ⟨node, outputs, runs, of_decide_eq_true issued, nodup, below⟩

/-- A restart between two transfers. -/
def exampleLateRestart : List (NodeInput Ledger Unit) :=
  [exampleRegister, exampleBlock 5, .bridge (fun _ => true) (exampleTransfer 10 1),
    exampleRestartInput, .bridge (fun _ => true) (exampleTransfer 20 2)]

/-- **A number is given out twice**: after the restart the next transfer gets the number of the one that
is still in the pool. -/
theorem identifiers_reused : ∃ node outputs after,
    run exampleNodeStep exampleNode (exampleLateRestart.take 3) = some (node, outputs) ∧
    node.restart exampleSdk exampleGeth ⟨[], 0⟩ [] exampleDelegateKeys = some after ∧
    (¬ ∀ kind, ∀ id ∈ node.keeper.chain.ids kind, id < after.chain.nextId kind) ∧
    ∃ final all, run exampleNodeStep exampleNode exampleLateRestart = some (final, all) ∧
      ¬ (issuedIds all).Nodup := by
  have evaluated : (run exampleNodeStep exampleNode (exampleLateRestart.take 3)).any (fun result =>
      (result.1.restart exampleSdk exampleGeth ⟨[], 0⟩ [] exampleDelegateKeys).any fun after =>
        1 ∈ result.1.keeper.chain.ids .transfer ∧ after.chain.nextId .transfer = 1) = true := by
    decide +kernel
  have again : (run exampleNodeStep exampleNode exampleLateRestart).any (fun result =>
      ¬ (issuedIds result.2).Nodup) = true := by
    decide +kernel
  obtain ⟨⟨node, outputs⟩, runs, restarted⟩ := (Option.any_eq_true _ _).mp evaluated
  obtain ⟨after, restarts, numbers⟩ := (Option.any_eq_true _ _).mp restarted
  obtain ⟨member, next⟩ := of_decide_eq_true numbers
  obtain ⟨⟨final, all⟩, runsOn, twice⟩ := (Option.any_eq_true _ _).mp again
  refine ⟨node, outputs, after, runs, restarts, fun above => ?_, final, all, runsOn,
    of_decide_eq_true twice⟩
  have low := above .transfer 1 member
  rw [next] at low
  exact Nat.lt_irrefl 1 low

end NabBridge
