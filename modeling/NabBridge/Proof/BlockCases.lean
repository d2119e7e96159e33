/-
**What a step of the block machine can be.**

`BlockCase` lists the steps: something in the staking module, an action inside a block, a block that ends, a
block that halts, a restart. `blockStep_cases` says so for every input. A block that ends is taken apart into
what slashing looked at (`Slashed`) and what the rest of the end blocker did (`endBlocker`); a block that
halts leaves the state as it was.
-/

import NabBridge.Proof.NodeEffects
import NabBridge.System.Blocks

namespace NabBridge

/-- An action inside a block: not its end, and not a restart. -/
def NodeInput.Within {β τ : Type} : NodeInput β τ → Prop
  | .bridge _ (.endBlock _) => False
  | .restart _ _ _ => False
  | _ => True

/-- The node after a block. -/
def Node.ended {β τ : Type} (node : Node β τ) (chain : Chain β) : Node β τ :=
  { node with
    keeper := { node.keeper with
      chain := chain
      logicCalls := node.keeper.logicCalls.cleanupTimedOutLogicCalls
        chain.oracle.lastObservedEthereumBlockHeight.ethereumBlockHeight } }

section Cases

variable {β τ σ : Type}

/-- One step. -/
inductive BlockCase (sdk : Sdk) (bank : BankKeeper β) (geth : Geth) (evm : Evm) (others : Contracts τ)
    (params : SlashingParams) (before : BlockNode β τ σ) (input : BlockInput β τ σ)
    (outputs : List BlockOutput) (after : BlockNode β τ σ) : Prop where
  | staking (change : σ → σ) (taken : input = .staking change) (node : after.node = before.node)
      (cursors : after.slashing.cursors = before.slashing.cursors)
      (height : after.blockHeight = before.blockHeight) (silent : outputs = [])
  | within (action : NodeInput β τ) (made : List NodeOutput) (taken : input = .node action)
      (inside : (action.atHeight before.blockHeight).Within)
      (step : nodeStep sdk bank geth evm others before.node (action.atHeight before.blockHeight) =
        some (after.node, made))
      (slashing : after.slashing = before.slashing) (height : after.blockHeight = before.blockHeight)
      (reported : outputs = made.map .node)
  | ended (isValidator : ValAddress → Bool) (env : EndBlockEnv) (chain : Chain β)
      (report : EndBlockReport) (rounds : List SlashingRound)
      (taken : input = .node (.bridge isValidator (.endBlock env)))
      (running : before.node.halted = false) (fits : before.blockHeight + 1 < 2 ^ 63)
      (slashed : Slashed params before.blockHeight before.node.keeper before.slashing after.slashing
        rounds)
      (ends : endBlocker sdk bank geth before.node.keeper.params
        { endBlockEnv params before.blockHeight after.slashing env with
          keys := before.node.keeper.keys } before.node.keeper.chain = .ok (chain, report))
      (node : after.node = before.node.ended chain) (height : after.blockHeight = before.blockHeight + 1)
      (reported : outputs = rounds.map (.slashed before.blockHeight) ++
        ((endBlockOutputs before.node.keeper.chain.app.outgoing chain.app.outgoing report).map
          NodeOutput.bridge).map .node)
  | halted (isValidator : ValAddress → Bool) (env : EndBlockEnv)
      (taken : input = .node (.bridge isValidator (.endBlock env)))
      (running : before.node.halted = false) (node : after.node = { before.node with halted := true })
      (slashing : after.slashing = before.slashing) (height : after.blockHeight = before.blockHeight)
      (reported : (∃ reason, outputs = [.slashingPanicked reason]) ∨
        ∃ reason, outputs = [.node (.bridge (.halted reason))])
  | restarted (valsetReward : Coin) (attestations : List Attestation)
      (delegateKeys : List MsgSetOrchestratorAddress)
      (taken : input = .node (.restart valsetReward attestations delegateKeys))
      (restarts : before.node.restart sdk geth valsetReward attestations delegateKeys =
        some after.node.keeper)
      (slashing : after.slashing = before.slashing.restart)
      (height : after.blockHeight = before.blockHeight) (silent : outputs = [])

variable {sdk : Sdk} {bank : BankKeeper β} {geth : Geth} {evm : Evm} {others : Contracts τ}
  {staking : StakingKeeper σ} {params : SlashingParams}

/-- **The end of a block** in the machine of the node: the block ends, or the module halts. -/
theorem nodeStep_endBlock {isValidator : ValAddress → Bool} {env : EndBlockEnv} {node next : Node β τ}
    {outputs : List NodeOutput} (running : node.halted = false)
    (step : nodeStep sdk bank geth evm others node (.bridge isValidator (.endBlock env)) =
      some (next, outputs)) :
    (∃ chain report, endBlocker sdk bank geth node.keeper.params { env with keys := node.keeper.keys }
        node.keeper.chain = .ok (chain, report) ∧ next = node.ended chain ∧
        outputs = (endBlockOutputs node.keeper.chain.app.outgoing chain.app.outgoing report).map
          NodeOutput.bridge) ∨
      ∃ reason, next = { node with halted := true } ∧ outputs = [.bridge (.halted reason)] := by
  simp only [nodeStep, BridgeInput.reading, bridgeStep, Node.bridge, running, Bool.false_eq_true,
    if_false] at step
  cases ended : endBlocker sdk bank geth node.keeper.params { env with keys := node.keeper.keys }
      node.keeper.chain with
  | ok result =>
      obtain ⟨chain, report⟩ := result
      rw [ended] at step
      obtain ⟨rfl, rfl⟩ := Prod.mk.inj (Option.some.inj step)
      refine Or.inl ⟨chain, report, rfl, ?_, rfl⟩
      simp [Node.afterBridge, Node.ended, BridgeInput.endsBlock, running]
  | error reason => exact reason.elim
  | panic reason =>
      rw [ended] at step
      obtain ⟨rfl, rfl⟩ := Prod.mk.inj (Option.some.inj step)
      refine Or.inr ⟨reason, ?_, rfl⟩
      simp [Node.afterBridge]

theorem bridgeStep_valsets {network : Params} {state next : Bridge β τ} {action : BridgeInput β τ}
    {made : List BridgeOutput} (inside : action.endsBlock = false)
    (step : bridgeStep sdk bank geth network evm others state action = some (next, made)) :
    next.chain.valsets = state.chain.valsets ∧
      next.chain.app.lastObservedValset = state.chain.app.lastObservedValset := by
  cases action with
  | sendToEth sender receiver amount fee =>
      simp only [bridgeStep] at step
      split_ifs at step
      split at step
      · rename_i id app sent
        obtain ⟨rfl, rfl⟩ := Prod.mk.inj (Option.some.inj step)
        obtain ⟨_, _, _, _, _, _, rfl, rfl⟩ := addToOutgoingPool_eq_ok sent
        exact ⟨rfl, rfl⟩
      · obtain ⟨rfl, rfl⟩ := Prod.mk.inj (Option.some.inj step)
        exact ⟨rfl, rfl⟩
  | cancelSendToEth txId sender =>
      simp only [bridgeStep] at step
      split_ifs at step
      split at step
      · rename_i app removed
        obtain ⟨rfl, rfl⟩ := Prod.mk.inj (Option.some.inj step)
        obtain ⟨_, _, _, _, _, _, _, _, _, _, rfl⟩ := removeFromOutgoingPoolAndRefund_eq_ok removed
        exact ⟨rfl, rfl⟩
      · obtain ⟨rfl, rfl⟩ := Prod.mk.inj (Option.some.inj step)
        exact ⟨rfl, rfl⟩
  | requestBatch denom maxElements blockHeight =>
      simp only [bridgeStep] at step
      split_ifs at step
      split at step
      all_goals
        obtain ⟨rfl, rfl⟩ := Prod.mk.inj (Option.some.inj step)
        exact ⟨rfl, rfl⟩
  | claim orchestratorValidator blockHeight reported =>
      simp only [bridgeStep] at step
      split_ifs at step
      split at step
      all_goals
        obtain ⟨rfl, rfl⟩ := Prod.mk.inj (Option.some.inj step)
        exact ⟨rfl, rfl⟩
  | endBlock env => cases inside
  | accounts change =>
      obtain ⟨rfl, rfl⟩ := Prod.mk.inj (Option.some.inj step)
      exact ⟨rfl, rfl⟩
  | call sender call =>
      simp only [bridgeStep] at step
      split at step
      all_goals
        obtain ⟨rfl, rfl⟩ := Prod.mk.inj (Option.some.inj step)
        exact ⟨rfl, rfl⟩
  | ethereum change newBlocks =>
      obtain ⟨rfl, rfl⟩ := Prod.mk.inj (Option.some.inj step)
      exact ⟨rfl, rfl⟩

/-- **Validator sets come and go at the end of a block only.** -/
theorem nodeStep_valsets {node next : Node β τ} {action : NodeInput β τ} {made : List NodeOutput}
    (inside : action.Within)
    (step : nodeStep sdk bank geth evm others node action = some (next, made)) :
    next.keeper.chain.valsets = node.keeper.chain.valsets ∧
      next.keeper.chain.app.lastObservedValset = node.keeper.chain.app.lastObservedValset := by
  cases action with
  | bridge isValidator action =>
      simp only [nodeStep] at step
      split at step
      · cases step
      · rename_i bridge outputs taken
        obtain ⟨rfl, rfl⟩ := Prod.mk.inj (Option.some.inj step)
        have same : (action.reading node.keeper.keys isValidator).endsBlock = false := by
          cases action
          case endBlock => exact inside.elim
          all_goals rfl
        exact bridgeStep_valsets same taken
  | setOutgoingLogicCall call =>
      simp only [nodeStep] at step
      split_ifs at step
      split at step
      · rename_i outgoing calls stored
        obtain ⟨rfl, rfl⟩ := Prod.mk.inj (Option.some.inj step)
        exact ⟨rfl, rfl⟩
      · obtain ⟨rfl, rfl⟩ := Prod.mk.inj (Option.some.inj step)
        exact ⟨rfl, rfl⟩
  | setParams network =>
      simp only [nodeStep] at step
      split_ifs at step
      all_goals
        obtain ⟨rfl, rfl⟩ := Prod.mk.inj (Option.some.inj step)
        exact ⟨rfl, rfl⟩
  | restart valsetReward attestations delegateKeys => exact inside.elim
  | deleteOutgoingLogicCall _ _ | setOrchestratorAddress _ _ | valsetConfirm _ _ | confirmBatch _ _
  | confirmLogicCall _ _ | evidence _ _ _ =>
      simp only [nodeStep] at step
      split_ifs at step
      obtain ⟨rfl, rfl⟩ := Prod.mk.inj (Option.some.inj step)
      exact ⟨rfl, rfl⟩

theorem endBlockStep_cases {isValidator : ValAddress → Bool} {env : EndBlockEnv}
    {before after : BlockNode β τ σ} {outputs : List BlockOutput}
    (step : endBlockStep sdk bank geth evm others staking params isValidator env before =
      some (after, outputs)) :
    BlockCase sdk bank geth evm others params before (.node (.bridge isValidator (.endBlock env)))
      outputs after := by
  unfold endBlockStep at step
  split_ifs at step with stuck
  obtain ⟨running, fits⟩ := not_or.mp stuck
  have running : before.node.halted = false := by simpa using running
  split at step
  · rename_i reason _
    exact reason.elim
  · obtain ⟨rfl, rfl⟩ := Prod.mk.inj (Option.some.inj step)
    exact .halted isValidator env rfl running rfl rfl rfl (Or.inl ⟨_, rfl⟩)
  · rename_i slashed rounds done
    split at step
    · cases step
    · rename_i node made taken
      rcases nodeStep_endBlock running taken with ⟨chain, report, ends, rfl, rfl⟩ | ⟨reason, rfl, rfl⟩
      · rw [if_neg (by simp [Node.ended, running])] at step
        obtain ⟨rfl, rfl⟩ := Prod.mk.inj (Option.some.inj step)
        exact .ended isValidator env chain report rounds rfl running (Nat.not_le.mp fits)
          (slashing_eq_ok done) ends rfl rfl rfl
      · rw [if_pos rfl] at step
        obtain ⟨rfl, rfl⟩ := Prod.mk.inj (Option.some.inj step)
        exact .halted isValidator env rfl running rfl rfl rfl (Or.inr ⟨reason, rfl⟩)

/-- **What a step of the block machine is.** -/
theorem blockStep_cases {input : BlockInput β τ σ} {before after : BlockNode β τ σ}
    {outputs : List BlockOutput}
    (step : blockStep sdk bank geth evm others staking params before input = some (after, outputs)) :
    BlockCase sdk bank geth evm others params before input outputs after := by
  unfold blockStep at step
  split at step
  · obtain ⟨rfl, rfl⟩ := Prod.mk.inj (Option.some.inj step)
    exact .staking _ rfl rfl rfl rfl rfl
  · exact endBlockStep_cases step
  · obtain ⟨⟨node, made⟩, taken, same⟩ := Option.map_eq_some_iff.mp step
    obtain ⟨keeper, restarts, equal⟩ := Option.map_eq_some_iff.mp taken
    obtain ⟨rfl, rfl⟩ := Prod.mk.inj equal
    obtain ⟨rfl, rfl⟩ := Prod.mk.inj same
    exact .restarted _ _ _ rfl restarts rfl rfl rfl
  · rename_i input notEnd notRestart
    obtain ⟨⟨node, made⟩, taken, same⟩ := Option.map_eq_some_iff.mp step
    obtain ⟨rfl, rfl⟩ := Prod.mk.inj same
    refine .within input made rfl ?_ taken rfl rfl rfl
    cases input with
    | bridge isValidator action =>
        cases action with
        | endBlock env => exact absurd rfl (notEnd isValidator env)
        | _ => trivial
    | restart valsetReward attestations delegateKeys => exact absurd rfl (notRestart _ _ _)
    | _ => trivial

end Cases

/-! ### What was looked at -/

/-- The sets, batches or calls that were looked at, with the height of the block. -/
def slashedOf {α : Type} (select : EthereumSigned → Option α) (trace : List BlockOutput) :
    List (Nat × α) :=
  (slashedObjects trace).filterMap fun looked => (select looked.2).map fun item => (looked.1, item)

def EthereumSigned.valset? : EthereumSigned → Option Valset
  | .valset set => some set
  | _ => none

def EthereumSigned.batch? : EthereumSigned → Option OutgoingTxBatch
  | .batch stored => some stored
  | _ => none

def EthereumSigned.logicCall? : EthereumSigned → Option OutgoingLogicCall
  | .logicCall call => some call
  | _ => none

section Looked

variable {α : Type} {select : EthereumSigned → Option α}

@[simp] theorem slashedOf_nil : slashedOf select [] = [] := rfl

@[simp] theorem slashedOf_append (first second : List BlockOutput) :
    slashedOf select (first ++ second) = slashedOf select first ++ slashedOf select second := by
  rw [slashedOf, slashedObjects_append, List.filterMap_append]
  rfl

/-- Only the end of a block looks at anything. -/
theorem slashedOf_eq_nil {trace : List BlockOutput} (unslashed : slashedObjects trace = []) :
    slashedOf select trace = [] := by
  rw [slashedOf, unslashed, List.filterMap_nil]

theorem slashedOf_block (blockHeight : Nat) (rounds : List SlashingRound) (made : List NodeOutput) :
    slashedOf select (rounds.map (.slashed blockHeight) ++ made.map .node) =
      ((rounds.map SlashingRound.object).filterMap select).map fun item => (blockHeight, item) := by
  rw [slashedOf, slashedObjects_append, slashedObjects_map_slashed, slashedObjects_map_node,
    List.append_nil, List.filterMap_map, List.filterMap_map, List.map_filterMap]
  rfl

end Looked

section Kinds

variable {β σ : Type} {params : SlashingParams} {blockHeight : Nat} {keeper : KeeperState β}
  {before after : SlashingState σ} {rounds : List SlashingRound}

/-- The three kinds of what a block looked at. -/
theorem Slashed.kinds (slashed : Slashed params blockHeight keeper before after rounds) :
    (rounds.map SlashingRound.object).filterMap EthereumSigned.valset? =
        dueValsets params blockHeight keeper.chain.valsets before.lastSlashedValsetNonce ∧
      (rounds.map SlashingRound.object).filterMap EthereumSigned.batch? =
        dueBatches params blockHeight keeper.chain.app.outgoing before.lastSlashedBatchBlock ∧
      (rounds.map SlashingRound.object).filterMap EthereumSigned.logicCall? =
        dueLogicCalls params blockHeight keeper.logicCalls before.lastSlashedLogicCallBlock := by
  rw [slashed.objects]
  simp [List.filterMap_append, List.filterMap_map, Function.comp_def, EthereumSigned.valset?,
    EthereumSigned.batch?, EthereumSigned.logicCall?]

end Kinds

end NabBridge
