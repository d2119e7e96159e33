/-
**Slashing for missing signatures.**

At the end of a block every validator set, batch and logic call that has become due is looked at once:
bonded validators, and for validator sets also those that are unbonding, are slashed and jailed if their
confirmation is missing. Three cursors remember how far each kind has been looked at. For validator sets
the cursor is a nonce; for batches it is a block of the index by blocks, and for logic calls a block as
well, but the calls themselves come in the order of their keys.

The three kinds recognise a confirmation differently. A bonded validator has confirmed a validator set if
a confirmation carries the Ethereum address it registered, whoever sent that; everywhere else the
validator is looked up by the orchestrator of the confirmation.

* `slashing_eq_ok`: what a call of `slashing` looks at, and where the cursors are afterwards.
-/

import NabBridge.Keeper.Evidence
import NabBridge.Keeper.Genesis
import NabBridge.Lib.Sweep

namespace NabBridge

/-- What slashing reads of a validator. -/
structure ValidatorRecord extends StakingValidator where
  /-- `GetOperator` -/
  operator : ValAddress
  /-- `IsUnbonding` -/
  unbonding : Bool
  unbondingHeight : Int
  deriving DecidableEq, Repr

/-- The consensus address where the error of `GetConsAddr` is dropped. -/
def ValidatorRecord.consAddr (validator : ValidatorRecord) : Bytes := validator.consAddress.getD []

/-- The staking module and the signing records of the slashing module, over their state. -/
structure StakingKeeper (σ : Type) where
  /-- `GetBondedValidatorsByPower` -/
  bondedValidatorsByPower : σ → List ValidatorRecord
  /-- the addresses under `ValidatorQueueIterator`, up to the end of an unbonding that begins now -/
  unbondingQueue : σ → List Bytes
  getValidator : σ → ValAddress → Option ValidatorRecord
  /-- the `StartHeight` of `GetValidatorSigningInfo` -/
  startHeight : σ → Bytes → Option Int
  /-- `Slash`: consensus address, height, power and fraction; `none` is a panic. -/
  slash : σ → Bytes → Nat → Int → Int → Option σ
  /-- `Jail`; `none` is a panic. -/
  jail : σ → Bytes → Option σ

/-- The parameters of slashing; fractions are in units of the eighteenth decimal. -/
structure SlashingParams where
  signedValsetsWindow : Nat
  signedBatchesWindow : Nat
  signedLogicCallsWindow : Nat
  unbondSlashingValsetsWindow : Nat
  slashFractionValset : Int
  slashFractionBatch : Int
  slashFractionLogicCall : Int
  deriving DecidableEq, Repr

/-- The cursors, and the state of the staking module. -/
structure SlashingState (σ : Type) where
  staking : σ
  lastSlashedValsetNonce : Nat
  lastSlashedBatchBlock : Nat
  lastSlashedLogicCallBlock : Nat
  lastUnBondingBlockHeight : Nat
  deriving DecidableEq

/-- Before anything was looked at. -/
def SlashingState.fresh {σ : Type} (staking : σ) : SlashingState σ := ⟨staking, 0, 0, 0, 0⟩

/-- The panics of slashing. -/
inductive SlashingPanic where
  /-- an entry of the unbonding queue is not an address -/
  | unbondingAddress (text : Bytes)
  /-- the record of an unbonding validator is not there, and its consensus key is read -/
  | unknownValidator (validator : ValAddress)
  | slash (consAddress : Bytes)
  | jail (consAddress : Bytes)
  deriving DecidableEq, Repr

/-- What was looked at, and who was punished for it. -/
structure SlashingRound where
  object : EthereumSigned
  punishments : List Punishment
  deriving DecidableEq, Repr

/-! ### What is due -/

/-- `IterateValsetBySlashedValsetNonce` -/
def ValsetStore.fromSlashedValsetNonce (store : ValsetStore) (lastSlashedValsetNonce : Nat) :
    List Valset :=
  (store.valsets.entries.filter fun entry =>
    getValsetKey lastSlashedValsetNonce ≤ entry.1 ∧
      entry.1 < getValsetKey (store.latestValsetNonce + 1)).map Prod.snd

/-- `GetUnSlashedValsets` -/
def ValsetStore.getUnSlashedValsets (store : ValsetStore) (lastSlashedValsetNonce blockHeight
    signedValsetsWindow : Nat) : List Valset :=
  (store.fromSlashedValsetNonce lastSlashedValsetNonce).filter fun valset =>
    valset.nonce > lastSlashedValsetNonce ∧
      ¬ blockHeight < (valset.height + signedValsetsWindow) % 2 ^ 64

/-- `IterateBatchBySlashedBatchBlock` -/
def Outgoing.fromSlashedBatchBlock (outgoing : Outgoing) (lastSlashedBatchBlock maxHeight : Nat) :
    List OutgoingTxBatch :=
  (outgoing.batchBlocks.entries.filter fun entry =>
    getOutgoingTxBatchBlockKey lastSlashedBatchBlock ≤ entry.1 ∧
      entry.1 < getOutgoingTxBatchBlockKey maxHeight).map Prod.snd

/-- `GetUnSlashedBatches` -/
def Outgoing.getUnSlashedBatches (outgoing : Outgoing) (lastSlashedBatchBlock maxHeight : Nat) :
    List OutgoingTxBatch :=
  (outgoing.fromSlashedBatchBlock lastSlashedBatchBlock maxHeight).filter fun batch =>
    batch.block > lastSlashedBatchBlock

/-- `GetUnSlashedLogicCalls`; the height it is given is not read. -/
def LogicCalls.getUnSlashedLogicCalls (calls : LogicCalls) (lastSlashedLogicCallBlock _maxHeight : Nat) :
    List OutgoingLogicCall :=
  calls.getOutgoingLogicCalls.filter fun call => call.block > lastSlashedLogicCallBlock

section Slashing

variable {β σ : Type} (sdk : Sdk) (staking : StakingKeeper σ) (params : SlashingParams)
  (blockHeight : Nat)

/-! ### Punishing -/

/-- A validator is slashed, and jailed if it is not jailed. The hook that notes an unbonding is called by
hand. -/
def punish (slashFraction : Int) (validator : ValidatorRecord) (state : SlashingState σ) :
    Outcome Empty SlashingPanic (SlashingState σ × Punishment) :=
  match staking.slash state.staking validator.consAddr blockHeight validator.consensusPower
      slashFraction with
  | none => .panic (.slash validator.consAddr)
  | some slashed =>
      let punishment : Punishment :=
        { validator := validator.operator
          consAddress := validator.consAddr
          height := blockHeight
          power := validator.consensusPower
          slashFraction := slashFraction
          jail := ¬ validator.jailed }
      if validator.jailed then .ok ({ state with staking := slashed }, punishment)
      else
        match staking.jail slashed validator.consAddr with
        | none => .panic (.jail validator.consAddr)
        | some jailed =>
            .ok ({ state with staking := jailed, lastUnBondingBlockHeight := blockHeight }, punishment)

/-- A loop over validators. `missed` says whom to punish, in the state of the staking module that the
loop has reached. -/
def checkValidators (slashFraction : Int) (missed : σ → ValidatorRecord → Bool) :
    List ValidatorRecord → SlashingState σ →
      Outcome Empty SlashingPanic (SlashingState σ × List Punishment)
  | [], state => .ok (state, [])
  | validator :: rest, state =>
      if missed state.staking validator then do
        let (state, punishment) ← punish staking blockHeight slashFraction validator state
        let (state, punishments) ← checkValidators slashFraction missed rest state
        pure (state, punishment :: punishments)
      else checkValidators slashFraction missed rest state

/-- The loop over the unbonding queue. -/
def checkUnbonding (slashFraction : Int) (missed : σ → ValidatorRecord → Bool) :
    List Bytes → SlashingState σ →
      Outcome Empty SlashingPanic (SlashingState σ × List Punishment)
  | [], state => .ok (state, [])
  | text :: rest, state =>
      match sdk.valAddressFromBech32 text with
      | none => .panic (.unbondingAddress text)
      | some address =>
          match staking.getValidator state.staking address with
          | none => .panic (.unknownValidator address)
          | some validator => do
              let (state, here) ←
                checkValidators staking blockHeight slashFraction missed [validator] state
              let (state, later) ← checkUnbonding slashFraction missed rest state
              pure (state, here ++ later)

/-- One of the orchestrators belongs to the validator, as `GetOrchestratorValidator` has it. -/
def confirmedBy (keys : DelegateKeys) (state : σ) (validator : ValidatorRecord)
    (orchestrators : List Bytes) : Bool :=
  orchestrators.any fun text =>
    match keys.getOrchestratorValidator (fun address => (staking.getValidator state address).isSome)
        ((sdk.accAddressFromBech32 text).getD []) with
    | none => false
    | some address =>
        (staking.getValidator state address).any fun record => record.operator = validator.operator

/-! ### Validator sets -/

/-- A bonded validator that was there before the set, and whose address no confirmation carries. -/
def missedValset (keys : DelegateKeys) (confirms : List MsgValsetConfirm) (valset : Valset) (state : σ)
    (validator : ValidatorRecord) : Bool :=
  match staking.startHeight state validator.consAddr with
  | none => false
  | some start =>
      uint64OfInt64 start < valset.height ∧
        ¬ confirms.any fun confirm =>
          keys.getEthAddressByValidator validator.operator = some confirm.ethAddress

/-- An unbonding validator that was there before the set, and whose orchestrator did not confirm. -/
def missedUnbonding (keys : DelegateKeys) (confirms : List MsgValsetConfirm) (valset : Valset) (state : σ)
    (validator : ValidatorRecord) : Bool :=
  match staking.startHeight state validator.consAddr with
  | none => false
  | some start =>
      start < int64OfUint64 valset.height ∧ validator.unbonding ∧
        valset.height < (uint64OfInt64 validator.unbondingHeight +
          params.unbondSlashingValsetsWindow) % 2 ^ 64 ∧
        ¬ confirmedBy sdk staking keys state validator (confirms.map MsgValsetConfirm.orchestrator)

/-- One validator set of the loop of `ValsetSlashing`. -/
def valsetRound (keys : DelegateKeys) (confirms : Confirms) (valset : Valset) (state : SlashingState σ) :
    Outcome Empty SlashingPanic (SlashingState σ × List Punishment) := do
  let confirms := confirms.getValsetConfirms valset.nonce
  let (state, bonded) ← checkValidators staking blockHeight params.slashFractionValset
    (missedValset staking keys confirms valset) (staking.bondedValidatorsByPower state.staking) state
  let (state, unbonding) ← checkUnbonding sdk staking blockHeight params.slashFractionValset
    (missedUnbonding sdk staking params keys confirms valset) (staking.unbondingQueue state.staking) state
  pure ({ state with lastSlashedValsetNonce := valset.nonce }, bonded ++ unbonding)

/-! ### Batches and logic calls -/

/-- A bonded validator that did not join after the block, and whose orchestrator did not confirm. -/
def missedObject (keys : DelegateKeys) (orchestrators : List Bytes) (block : Nat) (state : σ)
    (validator : ValidatorRecord) : Bool :=
  (staking.startHeight state validator.consAddr).all (fun start => start ≤ int64OfUint64 block) ∧
    ¬ confirmedBy sdk staking keys state validator orchestrators

/-- The loop over the bonded validators for a batch or a logic call. -/
def objectRound (slashFraction : Int) (keys : DelegateKeys) (orchestrators : List Bytes) (block : Nat)
    (state : SlashingState σ) : Outcome Empty SlashingPanic (SlashingState σ × List Punishment) :=
  checkValidators staking blockHeight slashFraction (missedObject sdk staking keys orchestrators block)
    (staking.bondedValidatorsByPower state.staking) state

/-- One batch of the loop of `BatchSlashing`. -/
def batchRound (keys : DelegateKeys) (confirms : Confirms) (batch : OutgoingTxBatch)
    (state : SlashingState σ) : Outcome Empty SlashingPanic (SlashingState σ × List Punishment) := do
  let confirms := confirms.getBatchConfirmByNonceAndTokenContract batch.batchNonce batch.tokenContract
  let (state, punishments) ← objectRound sdk staking blockHeight params.slashFractionBatch keys
    (confirms.map MsgConfirmBatch.orchestrator) batch.block state
  pure ({ state with lastSlashedBatchBlock := batch.block }, punishments)

/-- One call of the loop of `LogicCallSlashing`. -/
def logicCallRound (keys : DelegateKeys) (confirms : Confirms) (call : OutgoingLogicCall)
    (state : SlashingState σ) : Outcome Empty SlashingPanic (SlashingState σ × List Punishment) := do
  let confirms :=
    confirms.getLogicConfirmByInvalidationIDAndNonce call.invalidationId call.invalidationNonce
  let (state, punishments) ← objectRound sdk staking blockHeight params.slashFractionLogicCall keys
    (confirms.map MsgConfirmLogicCall.orchestrator) call.block state
  pure ({ state with lastSlashedLogicCallBlock := call.block }, punishments)

/-! ### The three loops -/

/-- A loop over what is due. -/
def slashEach {α : Type} (object : α → EthereumSigned)
    (round : α → SlashingState σ → Outcome Empty SlashingPanic (SlashingState σ × List Punishment)) :
    List α → SlashingState σ → Outcome Empty SlashingPanic (SlashingState σ × List SlashingRound)
  | [], state => .ok (state, [])
  | item :: rest, state => do
      let (state, punishments) ← round item state
      let (state, rounds) ← slashEach object round rest state
      pure (state, ⟨object item, punishments⟩ :: rounds)

/-- The validator sets `ValsetSlashing` looks at. -/
def dueValsets (store : ValsetStore) (lastSlashedValsetNonce : Nat) : List Valset :=
  if blockHeight ≤ params.signedValsetsWindow then []
  else store.getUnSlashedValsets lastSlashedValsetNonce blockHeight params.signedValsetsWindow

/-- The batches `BatchSlashing` looks at. -/
def dueBatches (outgoing : Outgoing) (lastSlashedBatchBlock : Nat) : List OutgoingTxBatch :=
  if blockHeight > params.signedBatchesWindow then
    outgoing.getUnSlashedBatches lastSlashedBatchBlock (blockHeight - params.signedBatchesWindow)
  else []

/-- The logic calls `LogicCallSlashing` looks at. -/
def dueLogicCalls (calls : LogicCalls) (lastSlashedLogicCallBlock : Nat) : List OutgoingLogicCall :=
  if blockHeight > params.signedLogicCallsWindow then
    calls.getUnSlashedLogicCalls lastSlashedLogicCallBlock (blockHeight - params.signedLogicCallsWindow)
  else []

/-- `ValsetSlashing` -/
def valsetSlashing (keeper : KeeperState β) (state : SlashingState σ) :
    Outcome Empty SlashingPanic (SlashingState σ × List SlashingRound) :=
  slashEach .valset (valsetRound sdk staking params blockHeight keeper.keys keeper.confirms)
    (dueValsets params blockHeight keeper.chain.valsets state.lastSlashedValsetNonce) state

/-- `BatchSlashing` -/
def batchSlashing (keeper : KeeperState β) (state : SlashingState σ) :
    Outcome Empty SlashingPanic (SlashingState σ × List SlashingRound) :=
  slashEach .batch (batchRound sdk staking params blockHeight keeper.keys keeper.confirms)
    (dueBatches params blockHeight keeper.chain.app.outgoing state.lastSlashedBatchBlock) state

/-- `LogicCallSlashing` -/
def logicCallSlashing (keeper : KeeperState β) (state : SlashingState σ) :
    Outcome Empty SlashingPanic (SlashingState σ × List SlashingRound) :=
  slashEach .logicCall (logicCallRound sdk staking params blockHeight keeper.keys keeper.confirms)
    (dueLogicCalls params blockHeight keeper.logicCalls state.lastSlashedLogicCallBlock) state

/-- `slashing` -/
def slashing (keeper : KeeperState β) (state : SlashingState σ) :
    Outcome Empty SlashingPanic (SlashingState σ × List SlashingRound) := do
  let (state, valsets) ← valsetSlashing sdk staking params blockHeight keeper state
  let (state, batches) ← batchSlashing sdk staking params blockHeight keeper state
  let (state, calls) ← logicCallSlashing sdk staking params blockHeight keeper state
  pure (state, valsets ++ (batches ++ calls))

end Slashing

/-! ### What is due, in a store whose entries are where they belong -/

/-- A stored value is under the key of its place, and keys are ordered as places are. -/
theorem entries_sorted_by_place {α : Type} {store : Store StoreKey α} {key : Nat → StoreKey}
    {place : α → Nat} (ordered : StrictMono key)
    (keyed : ∀ entry ∈ store.entries, entry.1 = key (place entry.2)) :
    (store.entries.map Prod.snd).Pairwise fun first second => place first < place second := by
  refine List.pairwise_map.mpr (store.sorted.imp_of_mem fun first second less => ?_)
  rw [keyed _ first, keyed _ second] at less
  exact ordered.lt_iff_lt.mp less

namespace ValsetStore

/-- Validator sets are stored under their own nonces. -/
def Keyed (store : ValsetStore) : Prop :=
  ∀ key valset, store.valsets.get key = some valset → key = getValsetKey valset.nonce

variable {store : ValsetStore}

theorem Keyed.get_iff (keyed : store.Keyed) (valset : Valset) :
    valset ∈ store.valsets.values ↔ store.valsets.get (getValsetKey valset.nonce) = some valset := by
  rw [Store.mem_values_iff]
  constructor
  · rintro ⟨key, found⟩
    exact keyed key valset found ▸ found
  · exact fun found => ⟨_, found⟩

/-- The validator sets an EndBlocker may look at. -/
theorem Keyed.mem_getUnSlashedValsets (keyed : store.Keyed) {last blockHeight window : Nat}
    {valset : Valset} :
    valset ∈ store.getUnSlashedValsets last blockHeight window ↔
      valset ∈ store.valsets.values ∧ last < valset.nonce ∧ valset.nonce ≤ store.latestValsetNonce ∧
        (valset.height + window) % 2 ^ 64 ≤ blockHeight := by
  unfold getUnSlashedValsets fromSlashedValsetNonce
  rw [List.mem_filter, List.mem_map]
  constructor
  · rintro ⟨⟨entry, inside, rfl⟩, due⟩
    obtain ⟨stored, inRange⟩ := List.mem_filter.mp inside
    have keyIs := keyed entry.1 entry.2 ((store.valsets.mem_entries_iff _ _).mp stored)
    obtain ⟨beyond, past⟩ := of_decide_eq_true due
    have below := (of_decide_eq_true inRange).2
    rw [keyIs, getValsetKey_strictMono.lt_iff_lt] at below
    exact ⟨List.mem_map_of_mem stored, beyond, Nat.lt_succ_iff.mp below, Nat.not_lt.mp past⟩
  · rintro ⟨stored, beyond, below, past⟩
    have found := (keyed.get_iff valset).mp stored
    refine ⟨⟨(getValsetKey valset.nonce, valset), List.mem_filter.mpr
      ⟨(store.valsets.mem_entries_iff _ _).mpr found, decide_eq_true ⟨?_, ?_⟩⟩, rfl⟩,
      decide_eq_true ⟨beyond, Nat.not_lt.mpr past⟩⟩
    · exact getValsetKey_strictMono.le_iff_le.mpr beyond.le
    · exact getValsetKey_strictMono.lt_iff_lt.mpr (Nat.lt_succ_iff.mpr below)

/-- They come in the order of their nonces. -/
theorem Keyed.getUnSlashedValsets_sorted (keyed : store.Keyed) (last blockHeight window : Nat) :
    (store.getUnSlashedValsets last blockHeight window).Pairwise
      fun first second => first.nonce < second.nonce := by
  have sorted := entries_sorted_by_place getValsetKey_strictMono fun entry member =>
    keyed entry.1 entry.2 ((store.valsets.mem_entries_iff _ _).mp member)
  exact (sorted.sublist (List.filter_sublist.map _)).sublist List.filter_sublist

end ValsetStore

/-! ### What a call looks at -/

section Specs

variable {β σ : Type} {sdk : Sdk} {staking : StakingKeeper σ} {params : SlashingParams}
  {blockHeight : Nat}

/-- The three cursors. -/
def SlashingState.cursors (state : SlashingState σ) : Nat × Nat × Nat :=
  (state.lastSlashedValsetNonce, state.lastSlashedBatchBlock, state.lastSlashedLogicCallBlock)

theorem punish_cursors {slashFraction : Int} {validator : ValidatorRecord}
    {state after : SlashingState σ} {punishment : Punishment}
    (punished : punish staking blockHeight slashFraction validator state = .ok (after, punishment)) :
    after.cursors = state.cursors := by
  unfold punish at punished
  split at punished
  · cases punished
  · simp only at punished
    split_ifs at punished
    · obtain ⟨rfl, _⟩ := Prod.mk.inj (Outcome.ok.inj punished)
      rfl
    · split at punished
      · cases punished
      · obtain ⟨rfl, _⟩ := Prod.mk.inj (Outcome.ok.inj punished)
        rfl

theorem checkValidators_cursors {slashFraction : Int} {missed : σ → ValidatorRecord → Bool}
    {validators : List ValidatorRecord} {state after : SlashingState σ} {punishments : List Punishment}
    (checked : checkValidators staking blockHeight slashFraction missed validators state =
      .ok (after, punishments)) : after.cursors = state.cursors := by
  induction validators generalizing state punishments with
  | nil =>
      obtain ⟨rfl, _⟩ := Prod.mk.inj (Outcome.ok.inj checked)
      rfl
  | cons validator rest ih =>
      rw [checkValidators] at checked
      split_ifs at checked
      · obtain ⟨⟨middle, punishment⟩, punished, checked⟩ := Outcome.bind_eq_ok.mp checked
        obtain ⟨⟨last, later⟩, others, checked⟩ := Outcome.bind_eq_ok.mp checked
        obtain ⟨rfl, _⟩ := Prod.mk.inj (Outcome.ok.inj checked)
        exact (ih others).trans (punish_cursors punished)
      · exact ih checked

theorem checkUnbonding_cursors {slashFraction : Int} {missed : σ → ValidatorRecord → Bool}
    {texts : List Bytes} {state after : SlashingState σ} {punishments : List Punishment}
    (checked : checkUnbonding sdk staking blockHeight slashFraction missed texts state =
      .ok (after, punishments)) : after.cursors = state.cursors := by
  induction texts generalizing state punishments with
  | nil =>
      obtain ⟨rfl, _⟩ := Prod.mk.inj (Outcome.ok.inj checked)
      rfl
  | cons text rest ih =>
      rw [checkUnbonding] at checked
      split at checked
      · cases checked
      · split at checked
        · cases checked
        · obtain ⟨⟨middle, here⟩, first, checked⟩ := Outcome.bind_eq_ok.mp checked
          obtain ⟨⟨last, later⟩, others, checked⟩ := Outcome.bind_eq_ok.mp checked
          obtain ⟨rfl, _⟩ := Prod.mk.inj (Outcome.ok.inj checked)
          exact (ih others).trans (checkValidators_cursors first)

theorem valsetRound_cursors {keys : DelegateKeys} {confirms : Confirms} {valset : Valset}
    {state after : SlashingState σ} {punishments : List Punishment}
    (done : valsetRound sdk staking params blockHeight keys confirms valset state =
      .ok (after, punishments)) : after.cursors = (valset.nonce, state.cursors.2) := by
  obtain ⟨⟨middle, bonded⟩, first, done⟩ := Outcome.bind_eq_ok.mp done
  obtain ⟨⟨last, unbonding⟩, second, done⟩ := Outcome.bind_eq_ok.mp done
  obtain ⟨rfl, _⟩ := Prod.mk.inj (Outcome.ok.inj done)
  have kept := (checkUnbonding_cursors second).trans (checkValidators_cursors first)
  exact congrArg (fun cursors => (valset.nonce, cursors.2)) kept

theorem batchRound_cursors {keys : DelegateKeys} {confirms : Confirms} {batch : OutgoingTxBatch}
    {state after : SlashingState σ} {punishments : List Punishment}
    (done : batchRound sdk staking params blockHeight keys confirms batch state =
      .ok (after, punishments)) :
    after.cursors = (state.cursors.1, batch.block, state.cursors.2.2) := by
  obtain ⟨⟨middle, missed⟩, first, done⟩ := Outcome.bind_eq_ok.mp done
  obtain ⟨rfl, _⟩ := Prod.mk.inj (Outcome.ok.inj done)
  exact congrArg (fun cursors => (cursors.1, batch.block, cursors.2.2)) (checkValidators_cursors first)

theorem logicCallRound_cursors {keys : DelegateKeys} {confirms : Confirms} {call : OutgoingLogicCall}
    {state after : SlashingState σ} {punishments : List Punishment}
    (done : logicCallRound sdk staking params blockHeight keys confirms call state =
      .ok (after, punishments)) :
    after.cursors = (state.cursors.1, state.cursors.2.1, call.block) := by
  obtain ⟨⟨middle, missed⟩, first, done⟩ := Outcome.bind_eq_ok.mp done
  obtain ⟨rfl, _⟩ := Prod.mk.inj (Outcome.ok.inj done)
  exact congrArg (fun cursors => (cursors.1, cursors.2.1, call.block)) (checkValidators_cursors first)

/-- **A loop looks at every item once**, and the last one sets the cursor. -/
theorem slashEach_eq_ok {α : Type} {object : α → EthereumSigned} {items : List α}
    {round : α → SlashingState σ → Outcome Empty SlashingPanic (SlashingState σ × List Punishment)}
    (move : α → Nat × Nat × Nat → Nat × Nat × Nat)
    (moves : ∀ item state after punishments, round item state = .ok (after, punishments) →
      after.cursors = move item state.cursors)
    (forgets : ∀ first second cursors, move second (move first cursors) = move second cursors)
    {state after : SlashingState σ} {rounds : List SlashingRound}
    (done : slashEach object round items state = .ok (after, rounds)) :
    rounds.map SlashingRound.object = items.map object ∧
      after.cursors = (items.getLast?.map fun last => move last state.cursors).getD state.cursors := by
  induction items generalizing state rounds with
  | nil =>
      obtain ⟨rfl, rfl⟩ := Prod.mk.inj (Outcome.ok.inj done)
      exact ⟨rfl, rfl⟩
  | cons item rest ih =>
      obtain ⟨⟨middle, punishments⟩, first, done⟩ := Outcome.bind_eq_ok.mp done
      obtain ⟨⟨last, later⟩, remaining, done⟩ := Outcome.bind_eq_ok.mp done
      obtain ⟨rfl, rfl⟩ := Prod.mk.inj (Outcome.ok.inj done)
      obtain ⟨objects, cursors⟩ := ih remaining
      have moved : middle.cursors = move item state.cursors := moves _ _ _ _ first
      refine ⟨by rw [List.map_cons, List.map_cons, objects], cursors.trans ?_⟩
      rw [moved]
      cases rest with
      | nil => rfl
      | cons second others =>
          rw [List.getLast?_cons_cons]
          cases final : (second :: others).getLast? with
          | none => simp at final
          | some value => exact forgets item value state.cursors

/-- What a call of `slashing` leaves. -/
structure Slashed (params : SlashingParams) (blockHeight : Nat) (keeper : KeeperState β)
    (before after : SlashingState σ) (rounds : List SlashingRound) : Prop where
  objects : rounds.map SlashingRound.object =
    (dueValsets params blockHeight keeper.chain.valsets before.lastSlashedValsetNonce).map .valset ++
    ((dueBatches params blockHeight keeper.chain.app.outgoing before.lastSlashedBatchBlock).map .batch ++
    (dueLogicCalls params blockHeight keeper.logicCalls before.lastSlashedLogicCallBlock).map .logicCall)
  valsetNonce : after.lastSlashedValsetNonce = swept Valset.nonce before.lastSlashedValsetNonce
    (dueValsets params blockHeight keeper.chain.valsets before.lastSlashedValsetNonce)
  batchBlock : after.lastSlashedBatchBlock = swept OutgoingTxBatch.block before.lastSlashedBatchBlock
    (dueBatches params blockHeight keeper.chain.app.outgoing before.lastSlashedBatchBlock)
  logicCallBlock : after.lastSlashedLogicCallBlock =
    swept OutgoingLogicCall.block before.lastSlashedLogicCallBlock
      (dueLogicCalls params blockHeight keeper.logicCalls before.lastSlashedLogicCallBlock)

/-- **What a call of `slashing` looks at**: what is due of the three kinds, each once. -/
theorem slashing_eq_ok {keeper : KeeperState β} {before after : SlashingState σ}
    {rounds : List SlashingRound}
    (done : slashing sdk staking params blockHeight keeper before = .ok (after, rounds)) :
    Slashed params blockHeight keeper before after rounds := by
  obtain ⟨⟨afterValsets, valsets⟩, first, done⟩ := Outcome.bind_eq_ok.mp done
  obtain ⟨⟨afterBatches, batches⟩, second, done⟩ := Outcome.bind_eq_ok.mp done
  obtain ⟨⟨afterCalls, calls⟩, third, done⟩ := Outcome.bind_eq_ok.mp done
  obtain ⟨rfl, rfl⟩ := Prod.mk.inj (Outcome.ok.inj done)
  obtain ⟨valsetObjects, valsetsMoved⟩ := slashEach_eq_ok
    (fun valset cursors => (valset.nonce, cursors.2)) (fun _ _ _ _ => valsetRound_cursors)
    (fun _ _ _ => rfl) first
  obtain ⟨batchObjects, batchesMoved⟩ := slashEach_eq_ok
    (fun batch cursors => (cursors.1, batch.block, cursors.2.2)) (fun _ _ _ _ => batchRound_cursors)
    (fun _ _ _ => rfl) second
  obtain ⟨callObjects, callsMoved⟩ := slashEach_eq_ok
    (fun call cursors => (cursors.1, cursors.2.1, call.block)) (fun _ _ _ _ => logicCallRound_cursors)
    (fun _ _ _ => rfl) third
  -- each loop moves its own cursor only
  have valsetCursors : afterValsets.cursors =
      (swept Valset.nonce before.lastSlashedValsetNonce
        (dueValsets params blockHeight keeper.chain.valsets before.lastSlashedValsetNonce),
        before.cursors.2) := by
    rw [valsetsMoved, swept]
    cases (dueValsets params blockHeight keeper.chain.valsets _).getLast? <;> rfl
  have batchFrom : afterValsets.lastSlashedBatchBlock = before.lastSlashedBatchBlock :=
    congrArg (fun cursors => cursors.2.1) valsetCursors
  rw [batchFrom] at batchObjects batchesMoved
  have batchCursors : afterBatches.cursors = (afterValsets.cursors.1,
      swept OutgoingTxBatch.block afterValsets.cursors.2.1
        (dueBatches params blockHeight keeper.chain.app.outgoing before.lastSlashedBatchBlock),
      afterValsets.cursors.2.2) := by
    rw [batchesMoved, swept]
    cases (dueBatches params blockHeight keeper.chain.app.outgoing _).getLast? <;> rfl
  have callFrom : afterBatches.lastSlashedLogicCallBlock = before.lastSlashedLogicCallBlock :=
    (congrArg (fun cursors => cursors.2.2) batchCursors).trans
      (congrArg (fun cursors => cursors.2.2) valsetCursors)
  rw [callFrom] at callObjects callsMoved
  have callCursors : afterCalls.cursors = (afterBatches.cursors.1, afterBatches.cursors.2.1,
      swept OutgoingLogicCall.block afterBatches.cursors.2.2
        (dueLogicCalls params blockHeight keeper.logicCalls before.lastSlashedLogicCallBlock)) := by
    rw [callsMoved, swept]
    cases (dueLogicCalls params blockHeight keeper.logicCalls _).getLast? <;> rfl
  rw [batchCursors, valsetCursors] at callCursors
  refine ⟨?_, congrArg Prod.fst callCursors, congrArg (fun cursors => cursors.2.1) callCursors,
    congrArg (fun cursors => cursors.2.2) callCursors⟩
  rw [List.map_append, List.map_append, valsetObjects, batchObjects, callObjects]

end Specs

end NabBridge
