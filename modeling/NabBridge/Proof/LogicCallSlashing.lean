/-
**Which logic calls slashing looks at.**

The cursor is a block, but the calls come in the order of their keys, and the height up to which they are
asked for is not read: past the first window every stored call beyond the cursor is looked at, whether its
own window has passed or not, and the cursor ends at the block of the one with the highest key.

* `WindowsRespected`: what has to hold in a block for this to be harmless;
* `CallsLooked`: then no call was looked at twice, and those behind the cursor were looked at;
* `logic_call_windows_respected`: runs without restarts in which it holds;
* `logic_call_slashed_early`: calls that are looked at too early, one of them twice.
-/

import NabBridge.Proof.ValsetLifecycle

namespace NabBridge

/-! ### The stored calls -/

namespace LogicCalls

/-- Calls are stored under their own keys. -/
def Keyed (calls : LogicCalls) : Prop := ∀ key call, calls.get key = some call → key = call.key

theorem Within.keyed {before after : LogicCalls} (within : Within before after) (keyed : before.Keyed) :
    after.Keyed :=
  fun key call found => keyed key call (within key call found)

theorem Within.values {before after : LogicCalls} (within : Within before after)
    {call : OutgoingLogicCall} (isStored : call ∈ after.values) : call ∈ before.values := by
  obtain ⟨key, found⟩ := (after.mem_values_iff call).mp isStored
  exact (before.mem_values_iff call).mpr ⟨key, within key call found⟩

/-- The calls come in the order of their keys. -/
theorem Keyed.values_sorted {calls : LogicCalls} (keyed : calls.Keyed) :
    calls.values.Pairwise fun first second => first.key < second.key := by
  refine List.pairwise_map.mpr (calls.sorted.imp_of_mem fun {first second} isFirst isSecond less => ?_)
  rw [keyed _ _ ((calls.mem_entries_iff _ _).mp isFirst),
    keyed _ _ ((calls.mem_entries_iff _ _).mp isSecond)] at less
  exact less

/-- The stored calls beyond the cursor. -/
def beyond (calls : LogicCalls) (lastSlashedLogicCallBlock : Nat) : List OutgoingLogicCall :=
  calls.values.filter fun call => lastSlashedLogicCallBlock < call.block

theorem mem_beyond {calls : LogicCalls} {last : Nat} {call : OutgoingLogicCall} :
    call ∈ calls.beyond last ↔ call ∈ calls.values ∧ last < call.block := by
  rw [beyond, List.mem_filter, decide_eq_true_iff]

/-- Where the cursor ends: at the block of the call with the highest key. -/
theorem Keyed.le_swept {calls : LogicCalls} (keyed : calls.Keyed) {last : Nat}
    (ordered : ∀ call ∈ calls.beyond last, ∀ highest ∈ calls.beyond last,
      (∀ other ∈ calls.beyond last, other.key ≤ highest.key) → call.block ≤ highest.block) :
    ∀ call ∈ calls.beyond last,
      call.block ≤ swept OutgoingLogicCall.block last (calls.beyond last) := by
  intro call isBeyond
  have sorted := keyed.values_sorted.sublist
    (List.filter_sublist (p := fun call => decide (last < call.block)))
  change (calls.beyond last).Pairwise _ at sorted
  rcases (calls.beyond last).eq_nil_or_concat with none | ⟨earlier, highest, all⟩
  · rw [none] at isBeyond
    exact absurd isBeyond List.not_mem_nil
  · rw [List.concat_eq_append] at all
    have isHighest : highest ∈ calls.beyond last := by
      rw [all]
      exact List.mem_append_right _ (List.mem_singleton_self _)
    refine (ordered call isBeyond highest isHighest fun other member => ?_).trans_eq ?_
    · rw [all] at member sorted
      rcases List.mem_append.mp member with before | here
      · exact le_of_lt ((List.pairwise_append.mp sorted).2.2 other before highest
          (List.mem_singleton_self _))
      · rw [List.mem_singleton.mp here]
    · rw [all, swept_append_singleton]

end LogicCalls

theorem dueLogicCalls_eq (params : SlashingParams) (blockHeight : Nat) (calls : LogicCalls) (last : Nat) :
    dueLogicCalls params blockHeight calls last =
      if params.signedLogicCallsWindow < blockHeight then calls.beyond last else [] := rfl

/-! ### What changes the calls -/

section Steps

variable {β τ : Type} {sdk : Sdk} {bank : BankKeeper β} {geth : Geth} {evm : Evm}
  {others : Contracts τ}

/-- **Calls come one at a time**: within a block, one that was handed over was stored, or some may have
gone. -/
theorem nodeStep_calls {node next : Node β τ} {action : NodeInput β τ} {made : List NodeOutput}
    (inside : action.Within)
    (step : nodeStep sdk bank geth evm others node action = some (next, made)) :
    node.keeper.logicCalls.Within next.keeper.logicCalls ∨
      ∃ call checkpoint, action = .setOutgoingLogicCall call ∧
        call.getCheckpoint geth node.keeper.params.gravityId = .ok checkpoint ∧
        next.keeper.logicCalls = node.keeper.logicCalls.set call.key call := by
  cases action with
  | bridge isValidator action =>
      simp only [nodeStep] at step
      split at step
      · cases step
      · rename_i bridge outputs taken
        obtain ⟨rfl, rfl⟩ := Prod.mk.inj (Option.some.inj step)
        exact Or.inl (node.afterBridge_within action bridge)
  | setOutgoingLogicCall call =>
      simp only [nodeStep] at step
      split_ifs at step
      split at step
      · rename_i outgoing calls stored
        obtain ⟨rfl, rfl⟩ := Prod.mk.inj (Option.some.inj step)
        obtain ⟨checkpoint, computed, _, callsIs⟩ := setOutgoingLogicCall_eq_ok stored
        exact Or.inr ⟨call, checkpoint, rfl, computed, callsIs⟩
      · obtain ⟨rfl, rfl⟩ := Prod.mk.inj (Option.some.inj step)
        exact Or.inl (LogicCalls.Within.refl _)
  | deleteOutgoingLogicCall invalidationId invalidationNonce =>
      simp only [nodeStep] at step
      split_ifs at step
      obtain ⟨rfl, rfl⟩ := Prod.mk.inj (Option.some.inj step)
      exact Or.inl (LogicCalls.delete_within _ _ _)
  | setParams network =>
      simp only [nodeStep] at step
      split_ifs at step
      all_goals
        obtain ⟨rfl, rfl⟩ := Prod.mk.inj (Option.some.inj step)
        exact Or.inl (LogicCalls.Within.refl _)
  | restart valsetReward attestations delegateKeys => exact inside.elim
  | setOrchestratorAddress _ _ | valsetConfirm _ _ | confirmBatch _ _ | confirmLogicCall _ _
  | evidence _ _ _ =>
      simp only [nodeStep] at step
      split_ifs at step
      obtain ⟨rfl, rfl⟩ := Prod.mk.inj (Option.some.inj step)
      exact Or.inl (LogicCalls.Within.refl _)

end Steps

/-! ### Runs -/

section Runs

variable {β τ σ : Type} {sdk : Sdk} {bank : BankKeeper β} {geth : Geth} {evm : Evm}
  {others : Contracts τ} {staking : StakingKeeper σ} {params : SlashingParams}
  {past outputs : List BlockOutput} {before after : BlockNode β τ σ}

/-- What keeps slashing from harm. At the end of a block past the first window: every stored call beyond the
cursor has waited for its own window, and the one with the highest key has the highest block. When a call is
handed over: its block is beyond the cursor, or it is stored already. -/
def WindowsRespected (geth : Geth) (params : SlashingParams) (state : BlockNode β τ σ) :
    BlockInput β τ σ → Prop
  | .node (.bridge _ (.endBlock _)) =>
      let due := state.node.keeper.logicCalls.beyond state.slashing.lastSlashedLogicCallBlock
      params.signedLogicCallsWindow < state.blockHeight → ∀ call ∈ due,
        call.block + params.signedLogicCallsWindow ≤ state.blockHeight ∧
          ∀ highest ∈ due, (∀ other ∈ due, other.key ≤ highest.key) → call.block ≤ highest.block
  | .node (.setOutgoingLogicCall call) =>
      match call.getCheckpoint geth state.node.keeper.params.gravityId with
      | .ok _ => state.slashing.lastSlashedLogicCallBlock < call.block ∨
          call ∈ state.node.keeper.logicCalls.values
      | _ => True
  | _ => True

instance (geth : Geth) (params : SlashingParams) (state : BlockNode β τ σ) (input : BlockInput β τ σ) :
    Decidable (WindowsRespected geth params state input) := by
  rcases input with ⟨_, action⟩ | change
  · rcases action <;> unfold WindowsRespected <;> infer_instance
  all_goals unfold WindowsRespected; dsimp only; try infer_instance
  split <;> infer_instance

/-- The calls that were looked at. -/
def slashedLogicCalls (trace : List BlockOutput) : List OutgoingLogicCall :=
  (slashedOf EthereumSigned.logicCall? trace).map Prod.snd

@[simp] theorem slashedLogicCalls_append (first second : List BlockOutput) :
    slashedLogicCalls (first ++ second) = slashedLogicCalls first ++ slashedLogicCalls second := by
  rw [slashedLogicCalls, slashedOf_append, List.map_append]
  rfl

/-- **After some blocks**: no call was looked at twice, those that were looked at lie behind the cursor, the
stored ones behind the cursor were looked at, and nothing was looked at early. -/
structure CallsLooked (params : SlashingParams) (past : List BlockOutput) (state : BlockNode β τ σ) :
    Prop where
  keyed : state.node.keeper.logicCalls.Keyed
  once : Once OutgoingLogicCall.block Set.univ state.slashing.lastSlashedLogicCallBlock
    (slashedLogicCalls past)
  covered : Covered OutgoingLogicCall.block {call | call ∈ state.node.keeper.logicCalls.values}
    state.slashing.lastSlashedLogicCallBlock (slashedLogicCalls past)
  patient : ∀ looked ∈ slashedOf EthereumSigned.logicCall? past,
    looked.2.block + params.signedLogicCallsWindow ≤ looked.1

/-- Nothing is looked at; what is new lies beyond the cursor. -/
theorem CallsLooked.same (looked : CallsLooked params past before)
    (keyed : after.node.keeper.logicCalls.Keyed)
    (new : ∀ call ∈ after.node.keeper.logicCalls.values, call ∈ before.node.keeper.logicCalls.values ∨
      before.slashing.lastSlashedLogicCallBlock < call.block)
    (cursor : after.slashing.lastSlashedLogicCallBlock = before.slashing.lastSlashedLogicCallBlock)
    (unslashed : slashedObjects outputs = []) : CallsLooked params (past ++ outputs) after := by
  have none : slashedOf EthereumSigned.logicCall? (past ++ outputs) =
      slashedOf EthereumSigned.logicCall? past := by
    rw [slashedOf_append, slashedOf_eq_nil unslashed, List.append_nil]
  have same : slashedLogicCalls (past ++ outputs) = slashedLogicCalls past := by
    rw [slashedLogicCalls, none, slashedLogicCalls]
  refine ⟨keyed, ?_, ?_, none ▸ looked.patient⟩
  · rw [same, cursor]
    exact looked.once
  · rw [same, cursor]
    exact looked.covered.grow new

/-- What a block looks at, and where it leaves the cursor. -/
theorem Slashed.logicCalls {rounds : List SlashingRound}
    (slashed : Slashed params before.blockHeight before.node.keeper before.slashing after.slashing
      rounds) (made : List NodeOutput) :
    let due := dueLogicCalls params before.blockHeight before.node.keeper.logicCalls
      before.slashing.lastSlashedLogicCallBlock
    slashedOf EthereumSigned.logicCall?
        (rounds.map (.slashed before.blockHeight) ++ made.map .node) =
          due.map (fun call => (before.blockHeight, call)) ∧
      slashedLogicCalls (rounds.map (.slashed before.blockHeight) ++ made.map .node) = due ∧
      after.slashing.lastSlashedLogicCallBlock =
        swept OutgoingLogicCall.block before.slashing.lastSlashedLogicCallBlock due := by
  have looks := @slashedOf_block _ EthereumSigned.logicCall? before.blockHeight rounds made
  rw [slashed.kinds.2.2] at looks
  refine ⟨looks, ?_, slashed.logicCallBlock⟩
  rw [slashedLogicCalls, looks, List.map_map]
  exact List.map_id _

/-- **A block leaves out nothing that it may look at**, whatever the windows. -/
theorem CallsLooked.covers (looked : CallsLooked params past before) {rounds : List SlashingRound}
    (slashed : Slashed params before.blockHeight before.node.keeper before.slashing after.slashing
      rounds) :
    Covered OutgoingLogicCall.block {call | call ∈ before.node.keeper.logicCalls.values}
      after.slashing.lastSlashedLogicCallBlock (slashedLogicCalls past ++
        dueLogicCalls params before.blockHeight before.node.keeper.logicCalls
          before.slashing.lastSlashedLogicCallBlock) ∧
    ∀ call ∈ before.node.keeper.logicCalls.values,
      params.signedLogicCallsWindow < before.blockHeight → call ∈ slashedLogicCalls past ++
        dueLogicCalls params before.blockHeight before.node.keeper.logicCalls
          before.slashing.lastSlashedLogicCallBlock := by
  rw [slashed.logicCallBlock, dueLogicCalls_eq]
  split_ifs with late
  · have all : ∀ call ∈ before.node.keeper.logicCalls.values, call ∈ slashedLogicCalls past ++
        before.node.keeper.logicCalls.beyond before.slashing.lastSlashedLogicCallBlock := by
      intro call isStored
      by_cases ahead : before.slashing.lastSlashedLogicCallBlock < call.block
      · exact List.mem_append_right _ (LogicCalls.mem_beyond.mpr ⟨isStored, ahead⟩)
      · exact List.mem_append_left _ (looked.covered call isStored (Nat.not_lt.mp ahead))
    exact ⟨fun call isStored _ => all call isStored, fun call isStored _ => all call isStored⟩
  · rw [List.append_nil, swept_nil]
    exact ⟨looked.covered, fun _ _ late' => absurd late' late⟩

/-- **A step keeps it**, if it respects the windows. -/
theorem CallsLooked.step {input : BlockInput β τ σ} (looked : CallsLooked params past before)
    (noRestart : ¬ input.IsRestart) (respected : WindowsRespected geth params before input)
    (step : blockStep sdk bank geth evm others staking params before input = some (after, outputs)) :
    CallsLooked params (past ++ outputs) after := by
  cases blockStep_cases step with
  | staking change taken node cursors height silent =>
      subst silent
      exact looked.same (node ▸ looked.keyed) (fun call isStored => Or.inl (node ▸ isStored))
        (congrArg (fun cursors => cursors.2.2) cursors) rfl
  | within action made taken inside acts slashing height reported =>
      subst reported
      rcases nodeStep_calls inside acts with fewer | ⟨call, checkpoint, handed, computed, calls⟩
      · exact looked.same (fewer.keyed looked.keyed) (fun call isStored => Or.inl (fewer.values isStored))
          (by rw [slashing]) (slashedObjects_map_node made)
      · have isHanded : action = .setOutgoingLogicCall call := by
          cases action with
          | setOutgoingLogicCall other => exact handed
          | _ => cases handed
        subst taken isHanded
        simp only [WindowsRespected, computed] at respected
        refine looked.same (fun key other found => ?_) (fun other isStored => ?_) (by rw [slashing])
          (slashedObjects_map_node made)
        · rw [calls] at found
          rcases Store.of_get_set found with ⟨rfl, rfl⟩ | earlier
          · rfl
          · exact looked.keyed key other earlier
        · obtain ⟨key, found⟩ := (Store.mem_values_iff _ other).mp isStored
          rw [calls] at found
          rcases Store.of_get_set found with ⟨_, rfl⟩ | earlier
          · exact respected.symm
          · exact Or.inl ((Store.mem_values_iff _ other).mpr ⟨key, earlier⟩)
  | halted isValidator env taken running node slashing height reported =>
      refine looked.same (by rw [node]; exact looked.keyed)
        (fun call isStored => Or.inl (by rw [node] at isStored; exact isStored)) (by rw [slashing]) ?_
      rcases reported with ⟨reason, rfl⟩ | ⟨reason, rfl⟩ <;> rfl
  | restarted valsetReward attestations delegateKeys taken restarts slashing height silent =>
      subst taken
      exact absurd trivial noRestart
  | ended isValidator env chain report rounds taken running fits slashed ends node height reported =>
      subst taken
      obtain ⟨looks, calls, cursor⟩ := slashed.logicCalls
        ((endBlockOutputs before.node.keeper.chain.app.outgoing chain.app.outgoing report).map
          NodeOutput.bridge)
      rw [← reported] at looks calls
      have fewer : before.node.keeper.logicCalls.Within after.node.keeper.logicCalls := by
        rw [node]
        exact LogicCalls.cleanupTimedOutLogicCalls_within _ _
      have due : ∀ call ∈ slashedLogicCalls outputs,
          before.slashing.lastSlashedLogicCallBlock < call.block ∧
          call.block + params.signedLogicCallsWindow ≤ before.blockHeight ∧
          call.block ≤ after.slashing.lastSlashedLogicCallBlock := by
        rw [cursor, calls, dueLogicCalls_eq]
        split_ifs with late
        · intro call isBeyond
          have ordered := looked.keyed.le_swept fun call isBeyond => (respected late call isBeyond).2
          exact ⟨(LogicCalls.mem_beyond.mp isBeyond).2, (respected late call isBeyond).1,
            ordered call isBeyond⟩
        · exact fun _ member => absurd member List.not_mem_nil
      have distinct : (slashedLogicCalls outputs).Nodup := by
        rw [calls, dueLogicCalls_eq]
        split_ifs
        · refine (looked.keyed.values_sorted.imp fun {first second} less same => ?_).sublist
            List.filter_sublist
          rw [same] at less
          exact lt_irrefl _ less
        · exact List.nodup_nil
      refine ⟨fewer.keyed looked.keyed, ?_, ?_, ?_⟩
      · rw [slashedLogicCalls_append]
        refine looked.once.sweep distinct (fun call member => ⟨trivial, (due call member).1⟩) ?_
          fun call member => (due call member).2.2
        rw [cursor]
        exact le_swept (calls ▸ fun call member => (due call member).1)
      · rw [slashedLogicCalls_append, calls]
        exact (looked.covers slashed).1.shrink fun call isStored => fewer.values isStored
      · rw [slashedOf_append]
        intro seen member
        rcases List.mem_append.mp member with earlier | now
        · exact looked.patient seen earlier
        · rw [looks] at now
          obtain ⟨call, isDue, rfl⟩ := List.mem_map.mp now
          exact (due call (calls ▸ isDue)).2.1

/-- The cursor does not go back. -/
theorem logicCallCursor_le {input : BlockInput β τ σ} (noRestart : ¬ input.IsRestart)
    (step : blockStep sdk bank geth evm others staking params before input = some (after, outputs)) :
    before.slashing.lastSlashedLogicCallBlock ≤ after.slashing.lastSlashedLogicCallBlock := by
  cases blockStep_cases step with
  | staking change taken node cursors height silent =>
      exact (congrArg (fun cursors : Nat × Nat × Nat => cursors.2.2) cursors).ge
  | within action made taken inside acts slashing height reported => rw [slashing]
  | halted isValidator env taken running node slashing height reported => rw [slashing]
  | restarted valsetReward attestations delegateKeys taken restarts slashing height silent =>
      subst taken
      exact absurd trivial noRestart
  | ended isValidator env chain report rounds taken running fits slashed ends node height reported =>
      rw [slashed.logicCallBlock]
      refine le_swept fun call member => ?_
      rw [dueLogicCalls_eq] at member
      split_ifs at member
      · exact (LogicCalls.mem_beyond.mp member).2
      · exact absurd member List.not_mem_nil

/-- **At the end of a block every call whose window has passed was looked at.** -/
theorem CallsLooked.overdue (looked : CallsLooked params past before)
    {isValidator : ValAddress → Bool} {env : EndBlockEnv}
    (step : blockStep sdk bank geth evm others staking params before
      (.node (.bridge isValidator (.endBlock env))) = some (after, outputs))
    (running : after.node.halted = false) {call : OutgoingLogicCall}
    (isStored : call ∈ before.node.keeper.logicCalls.values)
    (passed : call.block + params.signedLogicCallsWindow ≤ before.blockHeight) :
    call ∈ slashedLogicCalls (past ++ outputs) := by
  generalize taken : BlockInput.node (NodeInput.bridge isValidator (.endBlock env)) = input at step
  cases blockStep_cases step with
  | staking change same node cursors height silent =>
      subst same
      cases taken
  | within action made same inside acts slashing height reported =>
      subst same
      obtain rfl := BlockInput.node.inj taken
      exact inside.elim
  | halted isValidator env same wasRunning node slashing height reported =>
      rw [node] at running
      cases running
  | restarted valsetReward attestations delegateKeys same restarts slashing height silent =>
      subst same
      cases taken
  | ended isValidator env chain report rounds same wasRunning fits slashed ends node height reported =>
      have calls := (slashed.logicCalls
        ((endBlockOutputs before.node.keeper.chain.app.outgoing chain.app.outgoing report).map
          NodeOutput.bridge)).2.1
      rw [slashedLogicCalls_append, reported, calls]
      by_cases late : params.signedLogicCallsWindow < before.blockHeight
      · exact (looked.covers slashed).2 call isStored late
      · -- such a call would be of block zero
        refine List.mem_append_left _ (looked.covered call isStored ?_)
        omega

/-- **Logic-call slashing in its windows.** In every run without restarts whose steps respect the windows: no
call is looked at before its window has passed, and none twice; at the end of a block every stored call whose
window has passed was looked at; and the cursor does not go back. -/
theorem logic_call_windows_respected (network : Params) (balances : β) (eth : Ethereum τ) (start : σ)
    (inputs : List (BlockInput β τ σ)) (final : BlockNode β τ σ) (trace : List BlockOutput)
    (runs : run (blockStep sdk bank geth evm others staking params)
      (BlockNode.fresh network balances eth start) inputs = some (final, trace))
    (noRestart : ∀ input ∈ inputs, ¬ input.IsRestart)
    (respected : StepsMeet (blockStep sdk bank geth evm others staking params)
      (WindowsRespected geth params) (BlockNode.fresh network balances eth start) inputs) :
    (∀ looked ∈ slashedOf EthereumSigned.logicCall? trace,
      looked.2.block + params.signedLogicCallsWindow ≤ looked.1) ∧
    (slashedLogicCalls trace).Nodup ∧
    (∀ isValidator env next outputs, blockStep sdk bank geth evm others staking params final
        (.node (.bridge isValidator (.endBlock env))) = some (next, outputs) →
      next.node.halted = false → ∀ call ∈ final.node.keeper.logicCalls.values,
        call.block + params.signedLogicCallsWindow ≤ final.blockHeight →
        call ∈ slashedLogicCalls (trace ++ outputs)) ∧
    ∀ input next outputs, ¬ input.IsRestart →
      blockStep sdk bank geth evm others staking params final input = some (next, outputs) →
      final.slashing.lastSlashedLogicCallBlock ≤ next.slashing.lastSlashedLogicCallBlock := by
  have fresh : CallsLooked params [] (BlockNode.fresh network balances eth start) :=
    ⟨fun _ _ found => (by cases found), Once.initially _ _, fun _ member => absurd member List.not_mem_nil,
      fun _ member => absurd member List.not_mem_nil⟩
  have looked : CallsLooked params ([] ++ trace) final := run_invariant_of_meets _ _
    (fun _ _ _ _ _ meets looked step => looked.step meets.1 meets.2 step)
    (StepsMeet.and_inputs noRestart respected) fresh runs
  rw [List.nil_append] at looked
  refine ⟨looked.patient, looked.once.nodup, fun _ _ _ _ step running _ isStored passed => ?_,
    fun _ _ _ noRestart step => logicCallCursor_le noRestart step⟩
  exact looked.overdue step running isStored passed

end Runs

/-! ### Two runs -/

/-- A call of the first block, whose window ends with the second one. -/
def exampleOldCall : OutgoingLogicCall := { exampleLogicCall with block := 1 }

def examplePatientBlocks : List (BlockInput Ledger Unit Bool) :=
  [.node exampleRegister, .node (exampleBlock 1), .node (.setOutgoingLogicCall exampleOldCall),
    .node (exampleBlock 2), .node (exampleBlock 3)]

theorem examplePatientBlocks_run : (run exampleBlockStep exampleBlockNode examplePatientBlocks).any
    (fun result => slashedOf EthereumSigned.logicCall? result.2 = [(2, exampleOldCall)]) = true := by
  decide +kernel

/-- It is looked at once. -/
theorem logic_call_windows_respected_patient : ∃ final trace,
    run exampleBlockStep exampleBlockNode examplePatientBlocks = some (final, trace) ∧
    slashedOf EthereumSigned.logicCall? trace = [(2, exampleOldCall)] ∧
    (slashedLogicCalls trace).Nodup := by
  obtain ⟨⟨final, trace⟩, runs, looked⟩ := (Option.any_eq_true _ _).mp examplePatientBlocks_run
  have respected := logic_call_windows_respected exampleParams exampleLedger exampleEthereum false
    examplePatientBlocks final trace runs (by decide) (by decide +kernel)
  exact ⟨final, trace, runs, of_decide_eq_true looked, respected.2.1⟩

/-- Two calls of the second block and of the third one; the key of the younger one is the lower one. -/
def exampleCrossedBlocks : List (BlockInput Ledger Unit Bool) :=
  [.node exampleRegister, .node (exampleBlock 1),
    .node (.setOutgoingLogicCall { exampleLogicCall with block := 2 }),
    .node (.setOutgoingLogicCall { exampleLogicCall with invalidationId := [6], block := 3 }),
    .node (exampleBlock 2), .node (exampleBlock 3)]

/-- **Too early, and twice**: the second block looks at both calls, the third one again at the one whose
key is lower. -/
theorem logic_call_slashed_early : ∃ final trace,
    run exampleBlockStep exampleBlockNode exampleCrossedBlocks = some (final, trace) ∧
    (slashedOf EthereumSigned.logicCall? trace).map (fun looked => (looked.1, looked.2.block)) =
      [(2, 3), (2, 2), (3, 3)] ∧
    ¬ (slashedLogicCalls trace).Nodup := by
  have early : (run exampleBlockStep exampleBlockNode exampleCrossedBlocks).any (fun result =>
      decide ((slashedOf EthereumSigned.logicCall? result.2).map
        (fun looked => (looked.1, looked.2.block)) = [(2, 3), (2, 2), (3, 3)] ∧
      ¬ (slashedLogicCalls result.2).Nodup)) = true := by
    decide +kernel
  obtain ⟨⟨final, trace⟩, runs, holds⟩ := (Option.any_eq_true _ _).mp early
  exact ⟨final, trace, runs, of_decide_eq_true holds⟩

end NabBridge
