/-
**A node block by block.**

`blockStep` is the machine of `nodeStep` with the height of the current block and with slashing. Messages
are executed at the height of the block; the end of a block slashes first, on the state the messages have
left, and then does the rest of the end blocker. When the block is committed the height goes up by one.
Heights are an `int64`.

A restart keeps the height. It keeps the state of the staking module, which has a genesis of its own, but
not the cursors of slashing, which are not exported.
-/

import NabBridge.Keeper.Slashing
import NabBridge.System.Node

namespace NabBridge

/-- A node, the state of slashing, and the height of the current block. -/
structure BlockNode (β τ σ : Type) where
  node : Node β τ
  slashing : SlashingState σ
  blockHeight : Nat

/-- A fresh chain, in its first block. -/
def BlockNode.fresh {β τ σ : Type} (params : Params) (balances : β) (eth : Ethereum τ) (staking : σ) :
    BlockNode β τ σ :=
  ⟨⟨KeeperState.fresh params balances, eth, false⟩, SlashingState.fresh staking, 1⟩

/-- One action. -/
inductive BlockInput (β τ σ : Type) where
  | node (input : NodeInput β τ)
  /-- everything else the staking module does -/
  | staking (change : σ → σ)

/-- What an action adds to the history. -/
inductive BlockOutput where
  | node (output : NodeOutput)
  /-- what a block looked at -/
  | slashed (blockHeight : Nat) (round : SlashingRound)
  | slashingPanicked (reason : SlashingPanic)
  deriving DecidableEq

/-- Messages are executed at the height of the block. -/
def BridgeInput.atHeight {β τ : Type} (blockHeight : Nat) : BridgeInput β τ → BridgeInput β τ
  | .requestBatch denom maxElements _ => .requestBatch denom maxElements blockHeight
  | .claim orchestratorValidator _ reported => .claim orchestratorValidator blockHeight reported
  | action => action

/-- Messages are executed at the height of the block. -/
def NodeInput.atHeight {β τ : Type} (blockHeight : Nat) : NodeInput β τ → NodeInput β τ
  | .bridge isValidator action => .bridge isValidator (action.atHeight blockHeight)
  | .evidence env subject signature =>
      .evidence { env with blockHeight := blockHeight } subject signature
  | input => input

/-- A restart leaves no cursor. -/
def SlashingState.restart {σ : Type} (state : SlashingState σ) : SlashingState σ :=
  SlashingState.fresh state.staking

section Machine

variable {β τ σ : Type} (sdk : Sdk) (bank : BankKeeper β) (geth : Geth) (evm : Evm)
  (others : Contracts τ) (staking : StakingKeeper σ) (params : SlashingParams)

/-- What the rest of the end blocker reads, after slashing. -/
def endBlockEnv (params : SlashingParams) (blockHeight : Nat) (slashing : SlashingState σ)
    (env : EndBlockEnv) : EndBlockEnv :=
  { env with
    blockHeight := blockHeight
    signedValsetsWindow := params.signedValsetsWindow
    unbonding := env.unbonding ∨ slashing.lastUnBondingBlockHeight = blockHeight }

/-- The end of a block. -/
def endBlockStep (isValidator : ValAddress → Bool) (env : EndBlockEnv) (state : BlockNode β τ σ) :
    Option (BlockNode β τ σ × List BlockOutput) :=
  if state.node.halted ∨ 2 ^ 63 ≤ state.blockHeight + 1 then none
  else
    match NabBridge.slashing sdk staking params state.blockHeight state.node.keeper state.slashing with
    | .error reason => reason.elim
    | .panic reason =>
        some ({ state with node := { state.node with halted := true } }, [.slashingPanicked reason])
    | .ok (slashed, rounds) =>
        match nodeStep sdk bank geth evm others state.node
            (.bridge isValidator (.endBlock (endBlockEnv params state.blockHeight slashed env))) with
        | none => none
        | some (node, outputs) =>
            -- after a panic the block is not committed
            if node.halted then some ({ state with node := node }, outputs.map .node)
            else
              some (⟨node, slashed, state.blockHeight + 1⟩,
                rounds.map (.slashed state.blockHeight) ++ outputs.map .node)

/-- One action. -/
def blockStep (state : BlockNode β τ σ) :
    BlockInput β τ σ → Option (BlockNode β τ σ × List BlockOutput)
  | .staking change =>
      some ({ state with
        slashing := { state.slashing with staking := change state.slashing.staking } }, [])
  | .node (.bridge isValidator (.endBlock env)) =>
      endBlockStep sdk bank geth evm others staking params isValidator env state
  | .node (.restart valsetReward attestations delegateKeys) =>
      (nodeStep sdk bank geth evm others state.node
        (.restart valsetReward attestations delegateKeys)).map fun result =>
          ({ state with node := result.1, slashing := state.slashing.restart }, result.2.map .node)
  | .node input =>
      (nodeStep sdk bank geth evm others state.node (input.atHeight state.blockHeight)).map fun result =>
        ({ state with node := result.1 }, result.2.map .node)

end Machine

/-! ### The history -/

/-- What the node did. -/
def nodeOutputs (trace : List BlockOutput) : List NodeOutput :=
  trace.filterMap fun
    | .node output => some output
    | _ => none

/-- What the blocks looked at, with the height of the block. -/
def slashedObjects (trace : List BlockOutput) : List (Nat × EthereumSigned) :=
  trace.filterMap fun
    | .slashed blockHeight round => some (blockHeight, round.object)
    | _ => none

@[simp] theorem nodeOutputs_append (first second : List BlockOutput) :
    nodeOutputs (first ++ second) = nodeOutputs first ++ nodeOutputs second :=
  List.filterMap_append

@[simp] theorem slashedObjects_append (first second : List BlockOutput) :
    slashedObjects (first ++ second) = slashedObjects first ++ slashedObjects second :=
  List.filterMap_append

@[simp] theorem nodeOutputs_map_node (outputs : List NodeOutput) :
    nodeOutputs (outputs.map .node) = outputs := by
  rw [nodeOutputs, List.filterMap_map]
  exact List.filterMap_some

@[simp] theorem slashedObjects_map_node (outputs : List NodeOutput) :
    slashedObjects (outputs.map .node) = [] := by
  rw [slashedObjects, List.filterMap_map]
  exact List.filterMap_eq_nil_iff.mpr fun _ _ => rfl

@[simp] theorem nodeOutputs_map_slashed (blockHeight : Nat) (rounds : List SlashingRound) :
    nodeOutputs (rounds.map (.slashed blockHeight)) = [] := by
  rw [nodeOutputs, List.filterMap_map]
  exact List.filterMap_eq_nil_iff.mpr fun _ _ => rfl

@[simp] theorem slashedObjects_map_slashed (blockHeight : Nat) (rounds : List SlashingRound) :
    slashedObjects (rounds.map (.slashed blockHeight)) =
      rounds.map fun round => (blockHeight, round.object) := by
  rw [slashedObjects, List.filterMap_map]
  exact congrFun List.filterMap_eq_map' rounds

end NabBridge
