/-
**Which validator sets slashing looks at.**

A set is looked at when its nonce lies beyond the cursor and its window has passed, and the sets come in the
order of their nonces, so the cursor ends past all of them. What makes a second look possible is a restart:
it keeps the sets and forgets the cursor.

* `Looked`: the sets that were looked at are different ones, and those that are still stored lie behind the
  cursor;
* `valsets_slashed_once`: it holds of every run in which no restart keeps a set that was looked at;
* `valset_slashed_twice`: one restart is enough for a second punishment.
-/

import NabBridge.Proof.BlockCases
import NabBridge.Proof.Identifiers

namespace NabBridge

/-! ### The stored sets -/

namespace ValsetStore

/-- The stored sets. -/
def stored (store : ValsetStore) : Set Valset := {valset | valset ∈ store.valsets.values}

theorem mem_stored {store : ValsetStore} {valset : Valset} :
    valset ∈ store.stored ↔ ∃ key, store.valsets.get key = some valset :=
  store.valsets.mem_values_iff valset

theorem Within.stored {before after : ValsetStore} (within : Within before after) :
    after.stored ⊆ before.stored := by
  intro valset isStored
  obtain ⟨key, found⟩ := mem_stored.mp isStored
  exact mem_stored.mpr ⟨key, within.valsets key valset found⟩

theorem Within.keyed {before after : ValsetStore} (within : Within before after) (keyed : before.Keyed) :
    after.Keyed :=
  fun key valset found => keyed key valset (within.valsets key valset found)

/-- A set is put under its own nonce. -/
theorem Keyed.set {store : ValsetStore} (keyed : store.Keyed) (valset : Valset) (latest : Nat) :
    Keyed ⟨store.valsets.set (getValsetKey valset.nonce) valset, latest⟩ := by
  intro key other found
  rcases Store.of_get_set found with ⟨rfl, rfl⟩ | earlier
  · rfl
  · exact keyed key other earlier

theorem mem_stored_set {store : ValsetStore} {valset other : Valset} {latest : Nat}
    (isStored : other ∈ stored ⟨store.valsets.set (getValsetKey valset.nonce) valset, latest⟩) :
    other ∈ store.stored ∨ other = valset := by
  obtain ⟨key, found⟩ := mem_stored.mp isStored
  rcases Store.of_get_set found with ⟨_, rfl⟩ | earlier
  · exact Or.inr rfl
  · exact Or.inl (mem_stored.mpr ⟨key, earlier⟩)

end ValsetStore

/-! ### The end of a block -/

section EndOfBlock

variable {β : Type} {sdk : Sdk} {bank : BankKeeper β} {geth : Geth} {network : Params}

/-- **What the end of a block does to the sets**: perhaps the next one, made in this block, then pruning. -/
theorem endBlocker_valsets {env : EndBlockEnv} {chain after : Chain β} {report : EndBlockReport}
    (ends : endBlocker sdk bank geth network env chain = .ok (after, report)) :
    ∃ store, after.valsets = pruneValsets env after.app.lastObservedValset store ∧
      ((report.valset = none ∧ store = chain.valsets ∧
          (chain.valsets.valsets.get (getValsetKey chain.valsets.latestValsetNonce)).isSome) ∨
        ∃ valset, report.valset = some valset ∧ valset.nonce = chain.valsets.latestValsetNonce + 1 ∧
          valset.height = env.blockHeight ∧
          store = ⟨chain.valsets.valsets.set (getValsetKey valset.nonce) valset, valset.nonce⟩) := by
  obtain ⟨ctx, outgoing, made, store, _, _, created, rfl, rfl⟩ := endBlocker_eq_ok ends
  refine ⟨store, rfl, ?_⟩
  rcases createValsets_cases created with ⟨rfl, same, latest⟩ | ⟨pair, rfl, requested⟩
  · exact Or.inl ⟨rfl, same, latest⟩
  · have stores : chain.valsets.Stores geth network.gravityId pair store :=
      setValsetRequest_stores rfl requested
    exact Or.inr ⟨pair.1, rfl, stores.nonce, setValsetRequest_height requested, stores.store⟩

/-- A set that is stored after the block was there, or is new. -/
theorem endBlocker_stored {env : EndBlockEnv} {chain after : Chain β} {report : EndBlockReport}
    (ends : endBlocker sdk bank geth network env chain = .ok (after, report))
    (keyed : chain.valsets.Keyed) :
    after.valsets.Keyed ∧
      ∀ valset ∈ after.valsets.stored, valset ∈ chain.valsets.stored ∨ valset.height = env.blockHeight := by
  obtain ⟨store, pruned, made⟩ := endBlocker_valsets ends
  have within := pruneValsets_within env after.app.lastObservedValset store
  rw [← pruned] at within
  rcases made with ⟨_, rfl, _⟩ | ⟨valset, _, _, height, rfl⟩
  · exact ⟨within.keyed keyed, fun valset isStored => Or.inl (within.stored isStored)⟩
  · refine ⟨within.keyed (keyed.set valset _), fun other isStored => ?_⟩
    rcases ValsetStore.mem_stored_set (within.stored isStored) with earlier | rfl
    · exact Or.inl earlier
    · exact Or.inr height

end EndOfBlock

/-! ### What a block looks at -/

section Due

variable {params : SlashingParams} {blockHeight last : Nat} {store : ValsetStore}

theorem ValsetStore.Keyed.mem_dueValsets (keyed : store.Keyed) {valset : Valset} :
    valset ∈ dueValsets params blockHeight store last ↔
      params.signedValsetsWindow < blockHeight ∧ valset ∈ store.stored ∧ last < valset.nonce ∧
        valset.nonce ≤ store.latestValsetNonce ∧
        (valset.height + params.signedValsetsWindow) % 2 ^ 64 ≤ blockHeight := by
  unfold dueValsets
  split_ifs with early
  · exact ⟨fun member => absurd member List.not_mem_nil,
      fun ⟨late, _⟩ => absurd early (Nat.not_le.mpr late)⟩
  · rw [keyed.mem_getUnSlashedValsets]
    exact ⟨fun due => ⟨Nat.not_le.mp early, due⟩, fun due => due.2⟩

theorem ValsetStore.Keyed.dueValsets_sorted (keyed : store.Keyed) :
    (dueValsets params blockHeight store last).Pairwise
      fun first second => first.nonce < second.nonce := by
  unfold dueValsets
  split_ifs
  · exact List.Pairwise.nil
  · exact keyed.getUnSlashedValsets_sorted last blockHeight params.signedValsetsWindow

end Due

/-! ### Restarts included -/

section Runs

variable {β τ σ : Type} {sdk : Sdk} {bank : BankKeeper β} {geth : Geth} {evm : Evm}
  {others : Contracts τ} {staking : StakingKeeper σ} {params : SlashingParams}

/-- The sets that were looked at. -/
def slashedValsets (trace : List BlockOutput) : List Valset :=
  (slashedOf EthereumSigned.valset? trace).map Prod.snd

@[simp] theorem slashedValsets_append (first second : List BlockOutput) :
    slashedValsets (first ++ second) = slashedValsets first ++ slashedValsets second := by
  rw [slashedValsets, slashedOf_append, List.map_append]
  rfl

theorem slashedValsets_eq_nil {trace : List BlockOutput} (unslashed : slashedObjects trace = []) :
    slashedValsets trace = [] := by
  rw [slashedValsets, slashedOf_eq_nil unslashed, List.map_nil]

theorem Slashed.slashedValsets {blockHeight : Nat} {keeper : KeeperState β}
    {before after : SlashingState σ} {rounds : List SlashingRound}
    (slashed : Slashed params blockHeight keeper before after rounds) (made : List NodeOutput) :
    slashedValsets (rounds.map (.slashed blockHeight) ++ made.map .node) =
      dueValsets params blockHeight keeper.chain.valsets before.lastSlashedValsetNonce := by
  rw [NabBridge.slashedValsets, slashedOf_block, slashed.kinds.1, List.map_map]
  exact List.map_id _

/-- **After some blocks**: nothing was looked at twice, and what was looked at and is still stored lies
behind the cursor. Sets carry heights of earlier blocks, so a new one is not among them. -/
structure Looked (past : List BlockOutput) (state : BlockNode β τ σ) : Prop where
  keyed : state.node.keeper.chain.valsets.Keyed
  once : Once Valset.nonce state.node.keeper.chain.valsets.stored
    state.slashing.lastSlashedValsetNonce (slashedValsets past)
  storedBefore : ∀ valset ∈ state.node.keeper.chain.valsets.stored, valset.height < state.blockHeight
  lookedBefore : ∀ valset ∈ slashedValsets past, valset.height < state.blockHeight

/-- The restart finds no set that was looked at. -/
def RestartsUnslashed (state : BlockNode β τ σ) : BlockInput β τ σ → Prop
  | .node (.restart _ _ _) => ∀ valset ∈ state.node.keeper.chain.valsets.valsets.values,
      state.slashing.lastSlashedValsetNonce < valset.nonce
  | _ => True

instance (state : BlockNode β τ σ) (input : BlockInput β τ σ) :
    Decidable (RestartsUnslashed state input) := by
  rcases input with input | change
  · rcases input <;> unfold RestartsUnslashed <;> infer_instance
  · unfold RestartsUnslashed; infer_instance

theorem looked_fresh (network : Params) (balances : β) (eth : Ethereum τ) (start : σ) :
    Looked [] (BlockNode.fresh network balances eth start) where
  keyed := fun _ _ found => absurd found (by simp [BlockNode.fresh, KeeperState.fresh, Chain.fresh,
    ValsetStore.empty])
  once := Once.initially _ _
  storedBefore := fun _ member => absurd member List.not_mem_nil
  lookedBefore := fun _ member => absurd member List.not_mem_nil

/-- Nothing happens to the sets, and nothing is looked at. -/
theorem Looked.same {past outputs : List BlockOutput} {before after : BlockNode β τ σ}
    (looked : Looked past before)
    (valsets : after.node.keeper.chain.valsets = before.node.keeper.chain.valsets)
    (cursor : after.slashing.lastSlashedValsetNonce = before.slashing.lastSlashedValsetNonce)
    (height : after.blockHeight = before.blockHeight) (unslashed : slashedObjects outputs = []) :
    Looked (past ++ outputs) after := by
  have none := slashedValsets_eq_nil unslashed
  constructor
  · exact valsets ▸ looked.keyed
  · rw [slashedValsets_append, none, List.append_nil, valsets, cursor]
    exact looked.once
  · rw [valsets, height]
    exact looked.storedBefore
  · rw [slashedValsets_append, none, List.append_nil, height]
    exact looked.lookedBefore

/-- **A step keeps it**, if it does not restart with a set that was looked at. -/
theorem Looked.step {past outputs : List BlockOutput} {before after : BlockNode β τ σ}
    {input : BlockInput β τ σ} (unslashed : RestartsUnslashed before input)
    (looked : Looked past before)
    (step : blockStep sdk bank geth evm others staking params before input = some (after, outputs)) :
    Looked (past ++ outputs) after := by
  cases blockStep_cases step with
  | staking change taken node cursors height silent =>
      exact looked.same (by rw [node]) (congrArg Prod.fst cursors) height (by rw [silent]; rfl)
  | within action made taken inside step slashing height reported =>
      exact looked.same (nodeStep_valsets inside step).1 (by rw [slashing]) height
        (by rw [reported, slashedObjects_map_node])
  | halted isValidator env taken running node slashing height reported =>
      refine looked.same (by rw [node]) (by rw [slashing]) height ?_
      rcases reported with ⟨reason, rfl⟩ | ⟨reason, rfl⟩ <;> rfl
  | restarted valsetReward attestations delegateKeys taken restarts slashing height silent =>
      subst taken silent
      have restarted := Node.restart_eq_some restarts
      have imported : ∀ key valset, after.node.keeper.chain.valsets.valsets.get key = some valset →
          valset ∈ before.node.keeper.chain.valsets.stored ∧ key = getValsetKey valset.nonce := by
        intro key valset found
        rw [restarted.valsets] at found
        rcases (genesisValsets_spec _ _).2 key valset found with absent | ⟨member, keyIs⟩
        · cases absent
        · exact ⟨(ValsetStore.getValsets_perm _).mem_iff.mp member, keyIs⟩
      have same : after.node.keeper.chain.valsets.stored ⊆ before.node.keeper.chain.valsets.stored := by
        intro valset isStored
        obtain ⟨key, found⟩ := ValsetStore.mem_stored.mp isStored
        exact (imported key valset found).1
      rw [List.append_nil]
      refine ⟨fun key valset found => (imported key valset found).2, ?_, ?_, ?_⟩
      · exact looked.once.reset unslashed same _
      · exact height ▸ fun valset isStored => looked.storedBefore valset (same isStored)
      · exact height ▸ looked.lookedBefore
  | ended isValidator env chain report rounds taken running fits slashed ends node height reported =>
      have looks : slashedValsets outputs = dueValsets params before.blockHeight
          before.node.keeper.chain.valsets before.slashing.lastSlashedValsetNonce :=
        reported ▸ slashed.slashedValsets _
      obtain ⟨keyed, renewed⟩ := endBlocker_stored ends looked.keyed
      have valsets : after.node.keeper.chain.valsets = chain.valsets := by
        rw [node]
        rfl
      have due : ∀ valset ∈ slashedValsets outputs,
          valset ∈ before.node.keeper.chain.valsets.stored ∧
            before.slashing.lastSlashedValsetNonce < valset.nonce := by
        intro valset member
        rw [looks] at member
        obtain ⟨_, isStored, beyond, _⟩ := looked.keyed.mem_dueValsets.mp member
        exact ⟨isStored, beyond⟩
      have sorted : (slashedValsets outputs).Pairwise fun first second => first.nonce < second.nonce :=
        looks ▸ looked.keyed.dueValsets_sorted
      have cursor : after.slashing.lastSlashedValsetNonce =
          swept Valset.nonce before.slashing.lastSlashedValsetNonce (slashedValsets outputs) :=
        looks ▸ slashed.valsetNonce
      have lookedBefore : ∀ valset ∈ slashedValsets (past ++ outputs),
          valset.height < before.blockHeight := by
        intro valset member
        rw [slashedValsets_append] at member
        rcases List.mem_append.mp member with earlier | now
        · exact looked.lookedBefore valset earlier
        · exact looked.storedBefore valset (due valset now).1
      constructor
      · exact valsets ▸ keyed
      · -- the sweep, then pruning and the new set
        have sweep := looked.once.sweep
          (sorted.imp fun less same => absurd (congrArg Valset.nonce same) (Nat.ne_of_lt less)) due
          (le_swept fun valset member => (due valset member).2)
          (swept_sorted (sorted.imp Nat.le_of_lt))
        rw [← slashedValsets_append, ← cursor] at sweep
        refine valsets ▸ sweep.grow fun valset isStored => ?_
        rcases renewed valset isStored with earlier | new
        · exact Or.inl earlier
        · refine Or.inr fun member => ?_
          have earlier := lookedBefore valset member
          rw [new] at earlier
          exact Nat.lt_irrefl _ earlier
      · rw [valsets, height]
        intro valset isStored
        rcases renewed valset isStored with earlier | new
        · exact Nat.lt_succ_of_lt (looked.storedBefore valset earlier)
        · rw [new]
          exact Nat.lt_succ_self _
      · rw [height]
        exact fun valset member => Nat.lt_succ_of_lt (lookedBefore valset member)

/-- **No set is looked at twice** in a run whose restarts keep no set that was looked at. -/
theorem valsets_slashed_once (network : Params) (balances : β) (eth : Ethereum τ) (start : σ)
    (inputs : List (BlockInput β τ σ)) (final : BlockNode β τ σ) (trace : List BlockOutput)
    (runs : run (blockStep sdk bank geth evm others staking params)
      (BlockNode.fresh network balances eth start) inputs = some (final, trace))
    (meets : StepsMeet (blockStep sdk bank geth evm others staking params) RestartsUnslashed
      (BlockNode.fresh network balances eth start) inputs) :
    (slashedValsets trace).Nodup := by
  have looked : Looked ([] ++ trace) final := run_invariant_of_meets RestartsUnslashed Looked
    (fun _ _ _ _ _ unslashed looked step => looked.step unslashed step) meets
    (looked_fresh network balances eth start) runs
  exact looked.once.nodup

end Runs

/-! ### Two runs with a restart -/

/-- The one validator, in the eyes of the staking module. -/
def exampleRecord (jailed : Bool) : ValidatorRecord where
  toStakingValidator := { exampleStaking with jailed := jailed }
  operator := List.replicate 20 1
  unbonding := false
  unbondingHeight := 0

/-- The state is whether the validator is jailed. -/
def exampleStakingKeeper : StakingKeeper Bool where
  bondedValidatorsByPower := fun jailed => if jailed then [] else [exampleRecord false]
  unbondingQueue := fun _ => []
  getValidator := fun jailed address =>
    if address = List.replicate 20 1 then some (exampleRecord jailed) else none
  startHeight := fun _ _ => some 0
  slash := fun jailed _ _ _ _ => some jailed
  jail := fun _ _ => some true

/-- All windows are one block long. -/
def exampleSlashingParams : SlashingParams where
  signedValsetsWindow := 1
  signedBatchesWindow := 1
  signedLogicCallsWindow := 1
  unbondSlashingValsetsWindow := 1
  slashFractionValset := 1000000000000000
  slashFractionBatch := 1000000000000000
  slashFractionLogicCall := 1000000000000000

/-- A fresh chain of the one validator. -/
def exampleBlockNode : BlockNode Ledger Unit Bool :=
  BlockNode.fresh exampleParams exampleLedger exampleEthereum false

def exampleBlockStep : BlockNode Ledger Unit Bool → BlockInput Ledger Unit Bool →
    Option (BlockNode Ledger Unit Bool × List BlockOutput) :=
  blockStep exampleSdk (ledgerBank exampleModuleAccount) exampleGeth exampleEvm exampleContracts
    exampleStakingKeeper exampleSlashingParams

/-- A restart before the first set is due. -/
def exampleEarlyReset : List (BlockInput Ledger Unit Bool) :=
  [.node exampleRegister, .node (exampleBlock 1), .node exampleRestartInput, .node (exampleBlock 2),
    .node (exampleBlock 3)]

theorem exampleEarlyReset_run : (run exampleBlockStep exampleBlockNode exampleEarlyReset).any
    (fun result => (slashedValsets result.2).map Valset.nonce = [1, 2]) = true := by
  decide +kernel

/-- The two sets are looked at once. -/
theorem valsets_slashed_once_early : ∃ final trace,
    run exampleBlockStep exampleBlockNode exampleEarlyReset = some (final, trace) ∧
    (slashedValsets trace).map Valset.nonce = [1, 2] ∧ (slashedValsets trace).Nodup := by
  obtain ⟨⟨final, trace⟩, runs, nonces⟩ := (Option.any_eq_true _ _).mp exampleEarlyReset_run
  refine ⟨final, trace, runs, of_decide_eq_true nonces, ?_⟩
  exact valsets_slashed_once exampleParams exampleLedger exampleEthereum false exampleEarlyReset final
    trace runs (by decide +kernel)

/-- The first set is looked at in the second block; then the validator is unjailed, and the chain
restarts. -/
def exampleLateReset : List (BlockInput Ledger Unit Bool) :=
  [.node exampleRegister, .node (exampleBlock 1), .node (exampleBlock 2), .staking fun _ => false,
    .node exampleRestartInput, .node (exampleBlock 3)]

/-- Who was punished for which set, in which block. -/
def valsetPunishments (trace : List BlockOutput) : List (Nat × Nat × List ValAddress) :=
  trace.filterMap fun
    | .slashed blockHeight ⟨.valset valset, punishments⟩ =>
        some (blockHeight, valset.nonce, punishments.map Punishment.validator)
    | _ => none

/-- **A second punishment**: the third block looks at the set of the first block again. -/
theorem valset_slashed_twice : ∃ final trace,
    run exampleBlockStep exampleBlockNode exampleLateReset = some (final, trace) ∧
    ¬ (slashedValsets trace).Nodup ∧
    valsetPunishments trace =
      [(2, 1, [List.replicate 20 1]), (3, 1, [List.replicate 20 1])] := by
  have twice : (run exampleBlockStep exampleBlockNode exampleLateReset).any (fun result =>
      decide (¬ (slashedValsets result.2).Nodup ∧ valsetPunishments result.2 =
        [(2, 1, [List.replicate 20 1]), (3, 1, [List.replicate 20 1])])) = true := by
    decide +kernel
  obtain ⟨⟨final, trace⟩, runs, holds⟩ := (Option.any_eq_true _ _).mp twice
  exact ⟨final, trace, runs, of_decide_eq_true holds⟩

end NabBridge
