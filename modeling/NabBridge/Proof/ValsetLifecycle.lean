/-
**The life of a validator set.**

A set is made at the end of a block, looked at once its window has passed, and pruned when the contract has
moved on and the window is over. Without restarts the sets are numbered `1, 2, 3, …` in the order of their
heights, so the cursor of slashing, which is a nonce, separates the sets that were looked at from the
others.

Pruning goes by the set the oracle has observed. With honest reports that set is not ahead of the contract,
so what the contract has not passed is kept. Whether the latest set is kept depends on the contract alone:
it is not lost as long as the contract has installed no nonce above it.

* `Installed`: the nonce of the contract only goes up, and no log is ahead of it;
* `Lifecycle`: the invariant of the sets;
* `valset_lifecycle`: runs without restarts;
* `latest_valset_lost`: a quorum that signs a set of its own makes the module drop its latest one.
-/

import NabBridge.Proof.ContractRun
import NabBridge.Proof.ValsetSlashing

namespace NabBridge

/-! ### The contract -/

/-- The nonce of an event of `updateValset`. -/
def GravityEvent.valsetNonce? : GravityEvent → Option Nat
  | .valsetUpdated newValsetNonce _ _ _ _ _ => some newValsetNonce
  | _ => none

/-- The custody of the validator set, and its logs: none reports a nonce above the installed one. -/
structure Installed {τ : Type} (evm : Evm) (gravityId : Bytes) (powerThreshold : Nat)
    (initial : ValsetArgs) (eth : Ethereum τ) : Prop where
  custody : CustodyInvariant evm gravityId powerThreshold initial eth
  logged : ∀ log ∈ eth.logs, ∀ nonce ∈ log.1.valsetNonce?, nonce ≤ eth.gravity.lastValsetNonce

section Contract

variable {τ : Type} {evm : Evm} {gravityId : Bytes} {powerThreshold : Nat} {initial : ValsetArgs}
  {before after : Ethereum τ}

/-- The nonce of the contract does not go down. -/
theorem CustodyInvariant.nonce_le (first : CustodyInvariant evm gravityId powerThreshold initial before)
    (second : CustodyInvariant evm gravityId powerThreshold initial after)
    (longer : before.accepted <+: after.accepted) :
    before.gravity.lastValsetNonce ≤ after.gravity.lastValsetNonce := by
  rw [first.nonce]
  refine second.highest _ ?_
  obtain ⟨new, accepted⟩ := longer
  unfold installedValsets installedValset
  rw [← accepted, List.filterMap_append]
  cases installed : before.accepted.filterMap fun entry => entry.2.installs with
  | nil => exact List.mem_cons_self
  | cons head tail =>
      refine List.mem_cons_of_mem _ (List.mem_append_left _ ?_)
      rw [List.getLastD_cons]
      exact List.getLastD_mem_cons

theorem Installed.accepts (installed : Installed evm gravityId powerThreshold initial before)
    (collisionFree : Function.Injective evm.keccak256) (id : gravityId.length = 32)
    {sender : EthAddress} {call : GravityCall} (accepts : before.Accepts evm sender call after) :
    Installed evm gravityId powerThreshold initial after ∧
      before.gravity.lastValsetNonce ≤ after.gravity.lastValsetNonce := by
  have custody := installed.custody.accepts collisionFree id accepts
  have higher := installed.custody.nonce_le custody (by
    obtain ⟨nested, accepted, _⟩ := accepts.accepted
    rw [accepted, List.append_assoc]
    exact List.prefix_append _ _)
  refine ⟨⟨custody, fun log member nonce found => ?_⟩, higher⟩
  obtain ⟨nested, event, logs, deployments, reports⟩ := accepts.logs
  rw [logs] at member
  rcases List.mem_append.mp member with earlier | last
  · rcases List.mem_append.mp earlier with old | inside
    · exact (installed.logged log old nonce found).trans higher
    · obtain ⟨deployment, _⟩ := deployments log inside
      obtain ⟨event, block⟩ := log
      cases event with
      | erc20Deployed => cases found
      | _ => cases deployment
  · rw [List.mem_singleton.mp last] at found
    cases call with
    | updateValset newValset currentValset signatures =>
        rw [reports] at found
        obtain rfl := Option.some.inj found
        rw [accepts.gravity]
        exact Nat.le_refl _
    | submitLogicCall currentValset signatures args =>
        obtain ⟨returnData, reports⟩ := reports
        rw [reports] at found
        cases found
    | deployERC20 args =>
        obtain ⟨token, reports⟩ := reports
        rw [reports] at found
        cases found
    | _ =>
        rw [reports] at found
        cases found

end Contract

/-! ### A node and its contract -/

section Eth

variable {β τ : Type} {sdk : Sdk} {bank : BankKeeper β} {geth : Geth} {evm : Evm}
  {others : Contracts τ}

theorem bridgeStep_eth {network : Params} {P : Ethereum τ → Prop}
    (changed : ∀ (eth : Ethereum τ) contracts blockNumber, P eth →
      P { eth with contracts := contracts, blockNumber := blockNumber })
    (called : ∀ sender call eth after, P eth → Ethereum.Accepts evm sender call eth after → P after)
    {state next : Bridge β τ} {action : BridgeInput β τ} {made : List BridgeOutput} (holds : P state.eth)
    (step : bridgeStep sdk bank geth network evm others state action = some (next, made)) :
    P next.eth := by
  cases action with
  | accounts change =>
      obtain ⟨rfl, rfl⟩ := Prod.mk.inj (Option.some.inj step)
      exact holds
  | call sender call =>
      simp only [bridgeStep] at step
      split at step
      · rename_i eth done
        obtain ⟨rfl, rfl⟩ := Prod.mk.inj (Option.some.inj step)
        exact called _ _ _ _ holds (Ethereum.call_eq_ok done)
      · obtain ⟨rfl, rfl⟩ := Prod.mk.inj (Option.some.inj step)
        exact holds
  | ethereum change newBlocks =>
      obtain ⟨rfl, rfl⟩ := Prod.mk.inj (Option.some.inj step)
      exact changed _ _ _ holds
  | endBlock env =>
      simp only [bridgeStep] at step
      split_ifs at step
      split at step
      · obtain ⟨rfl, rfl⟩ := Prod.mk.inj (Option.some.inj step)
        exact holds
      · rename_i reason _
        exact reason.elim
      · obtain ⟨rfl, rfl⟩ := Prod.mk.inj (Option.some.inj step)
        exact holds
  | sendToEth _ _ _ _ | cancelSendToEth _ _ | requestBatch _ _ _ | claim _ _ _ =>
      simp only [bridgeStep] at step
      split_ifs at step
      split at step
      all_goals
        obtain ⟨rfl, rfl⟩ := Prod.mk.inj (Option.some.inj step)
        exact holds

/-- **What accepted calls and foreign contracts keep**, a node keeps. -/
theorem nodeStep_eth {P : Ethereum τ → Prop}
    (changed : ∀ (eth : Ethereum τ) contracts blockNumber, P eth →
      P { eth with contracts := contracts, blockNumber := blockNumber })
    (called : ∀ sender call eth after, P eth → Ethereum.Accepts evm sender call eth after → P after)
    {node next : Node β τ} {action : NodeInput β τ} {made : List NodeOutput} (holds : P node.eth)
    (step : nodeStep sdk bank geth evm others node action = some (next, made)) : P next.eth := by
  cases action with
  | bridge isValidator action =>
      simp only [nodeStep] at step
      split at step
      · cases step
      · rename_i bridge outputs taken
        obtain ⟨rfl, rfl⟩ := Prod.mk.inj (Option.some.inj step)
        have holdsThere : P node.bridge.eth := holds
        exact bridgeStep_eth changed called holdsThere taken
  | setOutgoingLogicCall call =>
      simp only [nodeStep] at step
      split_ifs at step
      split at step
      all_goals
        obtain ⟨rfl, rfl⟩ := Prod.mk.inj (Option.some.inj step)
        exact holds
  | setParams network =>
      simp only [nodeStep] at step
      split_ifs at step
      all_goals
        obtain ⟨rfl, rfl⟩ := Prod.mk.inj (Option.some.inj step)
        exact holds
  | restart valsetReward attestations delegateKeys =>
      obtain ⟨keeper, _, equal⟩ := Option.map_eq_some_iff.mp step
      obtain ⟨rfl, rfl⟩ := Prod.mk.inj equal
      exact holds
  | deleteOutgoingLogicCall _ _ | setOrchestratorAddress _ _ | valsetConfirm _ _ | confirmBatch _ _
  | confirmLogicCall _ _ | evidence _ _ _ =>
      simp only [nodeStep] at step
      split_ifs at step
      obtain ⟨rfl, rfl⟩ := Prod.mk.inj (Option.some.inj step)
      exact holds

end Eth

/-! ### What is made and what is pruned -/

/-- The sets that were made. -/
def createdValsets (trace : List BlockOutput) : List Valset :=
  trace.filterMap fun
    | .node (.bridge (.valsetStored valset)) => some valset
    | _ => none

@[simp] theorem createdValsets_append (first second : List BlockOutput) :
    createdValsets (first ++ second) = createdValsets first ++ createdValsets second :=
  List.filterMap_append

/-- Whether a claim is honest: it reports one of the logs of the contract. -/
def BlockOutput.HonestAt (spelling : Spelling) (logs : List (GravityEvent × Nat)) : BlockOutput → Prop
  | .node (.bridge (.observed claim)) => spelling.Reports logs claim
  | _ => True

instance (spelling : Spelling) (logs : List (GravityEvent × Nat)) (output : BlockOutput) :
    Decidable (output.HonestAt spelling logs) := by
  unfold BlockOutput.HonestAt; split <;> infer_instance

def BlockInput.IsRestart {β τ σ : Type} : BlockInput β τ σ → Prop
  | .node (.restart _ _ _) => True
  | _ => False

instance {β τ σ : Type} (input : BlockInput β τ σ) : Decidable input.IsRestart := by
  rcases input with input | change
  · rcases input <;> unfold BlockInput.IsRestart <;> infer_instance
  · unfold BlockInput.IsRestart; infer_instance

/-- No set is made but at the end of a block. -/
theorem nodeStep_created {β τ : Type} {sdk : Sdk} {bank : BankKeeper β} {geth : Geth} {evm : Evm}
    {others : Contracts τ} {node next : Node β τ} {action : NodeInput β τ} {made : List NodeOutput}
    (inside : action.Within)
    (step : nodeStep sdk bank geth evm others node action = some (next, made)) :
    createdValsets (made.map .node) = [] := by
  have same := (nodeStep_valsets inside step).1
  refine List.filterMap_eq_nil_iff.mpr fun output member => ?_
  obtain ⟨output, isMade, rfl⟩ := List.mem_map.mp member
  cases nodeStep_effect step with
  | bridge outputs effect calls keys params reported =>
      rw [reported] at isMade
      obtain ⟨inner, isReported, rfl⟩ := List.mem_map.mp isMade
      cases effect with
      | quiet outgoing valsets silent =>
          have quiet := silent inner isReported
          cases inner with
          | valsetStored valset => exact absurd trivial quiet
          | _ => rfl
      | sent tx outgoing valsets reported =>
          rw [reported] at isReported
          rw [List.mem_singleton.mp isReported]
      | batchStored batch outgoing valsets reported =>
          rw [reported] at isReported
          rw [List.mem_singleton.mp isReported]
      | valsetStored pair shuffled stored earlier outgoing recorded stores valsets silent reported =>
          -- the counter would have moved
          have moved := valsets.latestValsetNonce
          rw [same, stores.store] at moved
          exact absurd (moved.trans stores.nonce) (Nat.ne_of_lt (Nat.lt_succ_self _))
  | logicCallStored call checkpoint computed outgoing valsets calls keys params reported =>
      rw [reported] at isMade
      rw [List.mem_singleton.mp isMade]
  | registered text validator orchestrator ethAddress parsed unset state silent =>
      rw [silent] at isMade
      cases isMade
  | setParams params set valid state silent =>
      rw [silent] at isMade
      cases isMade
  | restarted valsetReward attestations delegateKeys restart effect silent =>
      rw [silent] at isMade
      cases isMade
  | aside chain calls keys params silent =>
      obtain ⟨punishment, rfl⟩ := silent output isMade
      rfl

/-- At the end of a block the new set is reported, if there is one. -/
theorem createdValsets_block (blockHeight : Nat) (rounds : List SlashingRound) (before after : Outgoing)
    (report : EndBlockReport) :
    createdValsets (rounds.map (.slashed blockHeight) ++
      ((endBlockOutputs before after report).map NodeOutput.bridge).map .node) =
        report.valset.toList := by
  obtain ⟨earlier, silent, outputs⟩ := endBlockOutputs_silent before after report
  have noRound : createdValsets (rounds.map (.slashed blockHeight)) = [] := by
    refine List.filterMap_eq_nil_iff.mpr fun output member => ?_
    obtain ⟨round, _, rfl⟩ := List.mem_map.mp member
    rfl
  have noEarlier : createdValsets ((earlier.map NodeOutput.bridge).map .node) = [] := by
    refine List.filterMap_eq_nil_iff.mpr fun output member => ?_
    obtain ⟨_, isMade, rfl⟩ := List.mem_map.mp member
    obtain ⟨inner, isReported, rfl⟩ := List.mem_map.mp isMade
    have quiet := silent inner isReported
    cases inner with
    | valsetStored valset => exact absurd trivial quiet
    | _ => rfl
  rw [outputs, List.map_append, List.map_append, createdValsets_append, createdValsets_append, noRound,
    noEarlier]
  cases report.valset <;> rfl

/-- **What pruning leaves**: everything but sets that are below the observed one and past their window. -/
theorem ValsetStore.Keyed.mem_pruneValsets {store : ValsetStore} (keyed : store.Keyed)
    {env : EndBlockEnv} {lastObserved : Option Valset} {valset : Valset}
    (isStored : valset ∈ store.stored) :
    valset ∈ (pruneValsets env lastObserved store).stored ∨
      ∃ observed ∈ lastObserved, valset.nonce < observed.nonce ∧
        valset.height + env.signedValsetsWindow < env.blockHeight := by
  have found := (keyed.get_iff valset).mp isStored
  unfold pruneValsets
  split
  · exact Or.inl isStored
  · rename_i observed
    split_ifs with early
    · exact Or.inl isStored
    · refine (List.foldlRecOn (motive := fun current : ValsetStore =>
        current.valsets.get (getValsetKey valset.nonce) = some valset ∨
          ∃ other ∈ some observed, valset.nonce < other.nonce ∧
            valset.height + env.signedValsetsWindow < env.blockHeight) _ _ (Or.inl found)
        fun current kept set member => ?_).imp (fun still => mem_stored.mpr ⟨_, still⟩) id
      rcases kept with still | gone
      · split_ifs with due
        · by_cases same : getValsetKey valset.nonce = getValsetKey set.nonce
          · -- the key belongs to one set
            have setFound := (keyed.get_iff set).mp member
            rw [← same, found] at setFound
            obtain rfl := Option.some.inj setFound
            refine Or.inr ⟨observed, rfl, due.1, ?_⟩
            have past := due.2
            omega
          · refine Or.inl ?_
            rw [Store.get_delete_of_ne _ same]
            exact still
        · exact Or.inl still
      · exact Or.inr gone

/-- The observed set of a block: the one from before, or one of an observed claim. -/
theorem endBlocker_lastObservedValset {β : Type} {sdk : Sdk} {bank : BankKeeper β} {geth : Geth}
    {network : Params} {env : EndBlockEnv} {chain after : Chain β} {report : EndBlockReport}
    (ends : endBlocker sdk bank geth network env chain = .ok (after, report)) :
    after.app.lastObservedValset = chain.app.lastObservedValset ∨
      ∃ msg, .valsetUpdated msg ∈ report.observations.map Observation.claim ∧
        ∀ observed ∈ after.app.lastObservedValset, observed.nonce = msg.valsetNonce := by
  obtain ⟨ctx, outgoing, made, store, counted, _, _, rfl, rfl⟩ := endBlocker_eq_ok ends
  refine (attestationTally_claims (P := fun claims app =>
    app.lastObservedValset = chain.app.lastObservedValset ∨ ∃ msg, .valsetUpdated msg ∈ claims ∧
      ∀ observed ∈ app.lastObservedValset, observed.nonce = msg.valsetNonce)
    (fun claims att claim app next holds done => ?_) (fun claims claim app holds => ?_)
    (Or.inl rfl)).ok counted
  · have longer : ∀ {later : EthereumClaim}, later ∈ claims → later ∈ claims ++ [claim] :=
      fun member => List.mem_append_left _ member
    have same : next.lastObservedValset = app.lastObservedValset →
        next.lastObservedValset = chain.app.lastObservedValset ∨
          ∃ msg, .valsetUpdated msg ∈ claims ++ [claim] ∧
            ∀ observed ∈ next.lastObservedValset, observed.nonce = msg.valsetNonce := by
      intro unchanged
      rw [unchanged]
      exact holds.imp id fun ⟨msg, member, nonce⟩ => ⟨msg, longer member, nonce⟩
    cases claim with
    | valsetUpdated msg =>
        rw [handleValsetUpdated_effect done]
        refine Or.inr ⟨msg, List.mem_append_right _ (List.mem_singleton_self _), fun observed now => ?_⟩
        rw [← Option.some.inj now]
    | sendToCosmos msg =>
        exact same (by rw [handleSendToCosmos_effect done])
    | batchSendToEth msg =>
        simp only [handle, handleBatchSendToEth] at done
        split at done
        · exact same (by rw [← Outcome.ok.inj done])
        · rename_i reason _
          exact reason.elim
        · cases done
    | erc20Deployed msg =>
        exact same (by rw [(handleERC20Deployed_effect done).2])
    | logicCallExecuted msg => cases done
  · exact holds.imp id fun ⟨msg, member, nonce⟩ => ⟨msg, List.mem_append_left _ member, nonce⟩

/-! ### The invariant -/

section Runs

variable {β τ σ : Type} {sdk : Sdk} {bank : BankKeeper β} {geth : Geth} {evm : Evm}
  {others : Contracts τ} {staking : StakingKeeper σ} {params : SlashingParams} {gravityId : Bytes}
  {powerThreshold : Nat} {initial : ValsetArgs} {past outputs : List BlockOutput}
  {before after : BlockNode β τ σ}

/-- **After some blocks without a restart.** The cursor separates the sets that were looked at from the
others; a set that is gone was looked at, and the contract has passed it. -/
structure Lifecycle (evm : Evm) (gravityId : Bytes) (powerThreshold : Nat) (initial : ValsetArgs)
    (params : SlashingParams) (past : List BlockOutput) (state : BlockNode β τ σ) : Prop where
  installed : Installed evm gravityId powerThreshold initial state.node.eth
  keyed : state.node.keeper.chain.valsets.Keyed
  numbered : (createdValsets past).map Valset.nonce =
    List.range' 1 state.node.keeper.chain.valsets.latestValsetNonce
  rising : (createdValsets past).Pairwise
    fun first second => first.nonce < second.nonce ∧ first.height < second.height
  heights : ∀ valset ∈ createdValsets past, 1 ≤ valset.height ∧ valset.height < state.blockHeight
  made : ∀ valset ∈ state.node.keeper.chain.valsets.stored, valset ∈ createdValsets past
  once : Once Valset.nonce Set.univ state.slashing.lastSlashedValsetNonce (slashedValsets past)
  covered : Covered Valset.nonce {valset | valset ∈ createdValsets past}
    state.slashing.lastSlashedValsetNonce (slashedValsets past)
  cursor : state.slashing.lastSlashedValsetNonce ≤ state.node.keeper.chain.valsets.latestValsetNonce
  patient : ∀ looked ∈ slashedOf EthereumSigned.valset? past, looked.2 ∈ createdValsets past ∧
    looked.2.height + params.signedValsetsWindow ≤ looked.1
  punctual : ∀ valset ∈ createdValsets past,
    valset.height + max 1 params.signedValsetsWindow < state.blockHeight → valset ∈ slashedValsets past
  kept : ∀ valset ∈ createdValsets past, valset ∈ state.node.keeper.chain.valsets.stored ∨
    valset ∈ slashedValsets past ∧ valset.nonce < state.node.eth.gravity.lastValsetNonce
  observed : ∀ observed ∈ state.node.keeper.chain.app.lastObservedValset,
    observed.nonce ≤ state.node.eth.gravity.lastValsetNonce
  begun : 1 ≤ state.blockHeight ∧
    (1 < state.blockHeight → 1 ≤ state.node.keeper.chain.valsets.latestValsetNonce)

theorem Lifecycle.nonce_bounds
    (life : Lifecycle evm gravityId powerThreshold initial params past before) {valset : Valset}
    (created : valset ∈ createdValsets past) : 1 ≤ valset.nonce ∧
      valset.nonce ≤ before.node.keeper.chain.valsets.latestValsetNonce := by
  have inRange : valset.nonce ∈ (createdValsets past).map Valset.nonce := List.mem_map_of_mem created
  rw [life.numbered, List.mem_range'_1] at inRange
  omega

/-- Of two sets the one with the lower nonce is the older one. -/
theorem Lifecycle.height_le (life : Lifecycle evm gravityId powerThreshold initial params past before)
    {first second : Valset} (isFirst : first ∈ createdValsets past)
    (isSecond : second ∈ createdValsets past) (less : first.nonce ≤ second.nonce) :
    first.height ≤ second.height := by
  have ordered : ∀ left ∈ createdValsets past, ∀ right ∈ createdValsets past,
      left.nonce ≤ right.nonce → left.height ≤ right.height := by
    refine (life.rising.imp fun {left right} rises => ?_).forall_of_forall_of_flip
      (fun _ _ _ => Nat.le_refl _) (life.rising.imp fun {left right} rises => ?_)
    · exact fun _ => Nat.le_of_lt rises.2
    · exact fun falls => absurd rises.1 (Nat.not_lt.mpr falls)
  exact ordered first isFirst second isSecond less

/-- Nothing happens to the sets; the contract may go on. -/
theorem Lifecycle.same (life : Lifecycle evm gravityId powerThreshold initial params past before)
    (installed : Installed evm gravityId powerThreshold initial after.node.eth)
    (higher : before.node.eth.gravity.lastValsetNonce ≤ after.node.eth.gravity.lastValsetNonce)
    (valsets : after.node.keeper.chain.valsets = before.node.keeper.chain.valsets)
    (lastObserved : after.node.keeper.chain.app.lastObservedValset =
      before.node.keeper.chain.app.lastObservedValset)
    (cursor : after.slashing.lastSlashedValsetNonce = before.slashing.lastSlashedValsetNonce)
    (height : after.blockHeight = before.blockHeight) (unslashed : slashedObjects outputs = [])
    (uncreated : createdValsets outputs = []) :
    Lifecycle evm gravityId powerThreshold initial params (past ++ outputs) after := by
  have created : createdValsets (past ++ outputs) = createdValsets past := by
    rw [createdValsets_append, uncreated, List.append_nil]
  have slashed : slashedValsets (past ++ outputs) = slashedValsets past := by
    rw [slashedValsets_append, slashedValsets_eq_nil unslashed, List.append_nil]
  have looked : slashedOf EthereumSigned.valset? (past ++ outputs) =
      slashedOf EthereumSigned.valset? past := by
    rw [slashedOf_append, slashedOf_eq_nil unslashed, List.append_nil]
  refine ⟨installed, ?_, ?_, ?_, ?_, ?_, ?_, ?_, ?_, ?_, ?_, ?_, ?_, ?_⟩
  all_goals simp only [created, slashed, looked, valsets, lastObserved, cursor, height]
  · exact life.keyed
  · exact life.numbered
  · exact life.rising
  · exact life.heights
  · exact life.made
  · exact life.once
  · exact life.covered
  · exact life.cursor
  · exact life.patient
  · exact life.punctual
  · exact fun valset member => (life.kept valset member).imp_right
      fun gone => ⟨gone.1, Nat.lt_of_lt_of_le gone.2 higher⟩
  · exact fun observed now => (life.observed observed now).trans higher
  · exact life.begun

/-- What slashing looks at in a block: what has waited for its window and was not looked at. -/
theorem Lifecycle.mem_dueValsets
    (life : Lifecycle evm gravityId powerThreshold initial params past before)
    (fits : before.blockHeight + 1 < 2 ^ 63) {valset : Valset} :
    valset ∈ dueValsets params before.blockHeight before.node.keeper.chain.valsets
        before.slashing.lastSlashedValsetNonce ↔
      valset ∈ createdValsets past ∧ valset ∉ slashedValsets past ∧
        valset.height + params.signedValsetsWindow ≤ before.blockHeight := by
  rw [life.keyed.mem_dueValsets]
  constructor
  · rintro ⟨late, isStored, beyond, _, due⟩
    have created := life.made valset isStored
    have young := (life.heights valset created).2
    rw [Nat.mod_eq_of_lt (by omega)] at due
    refine ⟨created, fun slashed => ?_, due⟩
    exact absurd beyond (Nat.not_lt.mpr (life.once.behind valset slashed trivial))
  · rintro ⟨created, unslashed, due⟩
    obtain ⟨old, young⟩ := life.heights valset created
    have isStored := (life.kept valset created).resolve_right fun gone => unslashed gone.1
    refine ⟨by omega, isStored, ?_, (life.nonce_bounds created).2, ?_⟩
    · exact Nat.not_le.mp fun behind => unslashed (life.covered valset created behind)
    · rw [Nat.mod_eq_of_lt (by omega)]
      exact due

/-- **The sweep of a block.** The cursor ends past everything that was due, and nothing that was due is
left out. -/
theorem Lifecycle.sweep (life : Lifecycle evm gravityId powerThreshold initial params past before)
    (fits : before.blockHeight + 1 < 2 ^ 63) {rounds : List SlashingRound}
    {slashing : SlashingState σ} (slashed : Slashed params before.blockHeight before.node.keeper
      before.slashing slashing rounds) {due : List Valset}
    (dueIs : due = dueValsets params before.blockHeight before.node.keeper.chain.valsets
      before.slashing.lastSlashedValsetNonce) :
    Once Valset.nonce Set.univ slashing.lastSlashedValsetNonce (slashedValsets past ++ due) ∧
      Covered Valset.nonce {valset | valset ∈ createdValsets past} slashing.lastSlashedValsetNonce
        (slashedValsets past ++ due) ∧
      before.slashing.lastSlashedValsetNonce ≤ slashing.lastSlashedValsetNonce ∧
      slashing.lastSlashedValsetNonce ≤ before.node.keeper.chain.valsets.latestValsetNonce ∧
      ∀ valset ∈ createdValsets past,
        valset.height + max 1 params.signedValsetsWindow < before.blockHeight + 1 →
        valset ∈ slashedValsets past ++ due := by
  have sorted : due.Pairwise fun first second => first.nonce < second.nonce :=
    dueIs ▸ life.keyed.dueValsets_sorted
  have isDue : ∀ valset, valset ∈ due ↔ valset ∈ createdValsets past ∧ valset ∉ slashedValsets past ∧
      valset.height + params.signedValsetsWindow ≤ before.blockHeight :=
    fun valset => dueIs ▸ life.mem_dueValsets fits
  have beyond : ∀ valset ∈ due, before.slashing.lastSlashedValsetNonce < valset.nonce := by
    intro valset member
    obtain ⟨created, unslashed, _⟩ := (isDue valset).mp member
    exact Nat.not_le.mp fun behind => unslashed (life.covered valset created behind)
  have cursor : slashing.lastSlashedValsetNonce =
      swept Valset.nonce before.slashing.lastSlashedValsetNonce due := dueIs ▸ slashed.valsetNonce
  have forward := le_swept beyond
  rw [← cursor] at forward
  refine ⟨?_, ?_, forward, ?_, fun valset created late => ?_⟩
  · refine life.once.sweep (sorted.imp fun less same => ?_)
      (fun valset member => ⟨trivial, beyond valset member⟩) forward
      (cursor ▸ swept_sorted (sorted.imp Nat.le_of_lt))
    exact absurd (congrArg Valset.nonce same) (Nat.ne_of_lt less)
  · refine life.covered.sweep fun valset created ahead behind => ?_
    rcases swept_eq Valset.nonce before.slashing.lastSlashedValsetNonce due with same | ⟨last, isLast, same⟩
    · rw [cursor, same] at behind
      exact absurd ahead (Nat.not_lt.mpr behind)
    · -- the last one is due, and this one is not younger
      obtain ⟨lastCreated, _, lastDue⟩ := (isDue last).mp isLast
      rw [cursor, same] at behind
      have older := life.height_le created lastCreated behind
      refine (isDue valset).mpr ⟨created, fun slashed => ?_, by omega⟩
      exact absurd ahead (Nat.not_lt.mpr (life.once.behind valset slashed trivial))
  · rcases swept_eq Valset.nonce before.slashing.lastSlashedValsetNonce due with same | ⟨last, isLast, same⟩
    · rw [cursor, same]
      exact life.cursor
    · rw [cursor, same]
      exact (life.nonce_bounds ((isDue last).mp isLast).1).2
  · by_cases slashed : valset ∈ slashedValsets past
    · exact List.mem_append_left _ slashed
    · exact List.mem_append_right _ ((isDue valset).mpr ⟨created, slashed, by omega⟩)

/-- The store before pruning, with the set the block has made. -/
structure Renewed (params : SlashingParams) (past : List BlockOutput) (before : BlockNode β τ σ)
    (new : List Valset) (store : ValsetStore) : Prop where
  keyed : store.Keyed
  numbered : (createdValsets past ++ new).map Valset.nonce = List.range' 1 store.latestValsetNonce
  rising : (createdValsets past ++ new).Pairwise
    fun first second => first.nonce < second.nonce ∧ first.height < second.height
  heights : ∀ valset ∈ new, valset.height = before.blockHeight
  higher : ∀ valset ∈ new, before.node.keeper.chain.valsets.latestValsetNonce < valset.nonce
  made : ∀ valset ∈ store.stored, valset ∈ createdValsets past ++ new
  kept : ∀ valset ∈ createdValsets past ++ new, valset ∈ store.stored ∨
    valset ∈ slashedValsets past ∧ valset.nonce < before.node.eth.gravity.lastValsetNonce
  latest : before.node.keeper.chain.valsets.latestValsetNonce ≤ store.latestValsetNonce ∧
    1 ≤ store.latestValsetNonce

/-- **The end of a block has a latest set**: the one from before, or a new one. -/
theorem Lifecycle.renew (life : Lifecycle evm gravityId powerThreshold initial params past before)
    {made : Option Valset} {store : ValsetStore}
    (renewal : (made = none ∧ store = before.node.keeper.chain.valsets ∧
        (before.node.keeper.chain.valsets.valsets.get
          (getValsetKey before.node.keeper.chain.valsets.latestValsetNonce)).isSome) ∨
      ∃ valset, made = some valset ∧
        valset.nonce = before.node.keeper.chain.valsets.latestValsetNonce + 1 ∧
        valset.height = before.blockHeight ∧
        store = ⟨before.node.keeper.chain.valsets.valsets.set (getValsetKey valset.nonce) valset,
          valset.nonce⟩) :
    Renewed params past before made.toList store := by
  rcases renewal with ⟨rfl, rfl, latest⟩ | ⟨valset, rfl, nonce, height, rfl⟩
  · obtain ⟨valset, found⟩ := Option.isSome_iff_exists.mp latest
    have created := life.made valset (ValsetStore.mem_stored.mpr ⟨_, found⟩)
    have positive := life.nonce_bounds created
    have same : before.node.keeper.chain.valsets.latestValsetNonce = valset.nonce :=
      getValsetKey_strictMono.injective (life.keyed _ _ found)
    refine ⟨life.keyed, ?_, ?_, fun _ member => absurd member List.not_mem_nil,
      fun _ member => absurd member List.not_mem_nil, ?_, ?_, Nat.le_refl _, by omega⟩
    all_goals rw [Option.toList_none, List.append_nil]
    · exact life.numbered
    · exact life.rising
    · exact life.made
    · exact life.kept
  · rw [Option.toList_some]
    have lower : ∀ other ∈ createdValsets past, other.nonce < valset.nonce := by
      intro other created
      rw [nonce]
      exact Nat.lt_succ_of_le (life.nonce_bounds created).2
    refine ⟨life.keyed.set valset _, ?_, ?_, fun other member => ?_, fun other member => ?_,
      fun other isStored => ?_, fun other member => ?_, (Nat.le_succ _).trans_eq nonce.symm,
      (Nat.succ_pos _).trans_eq nonce.symm⟩
    · rw [List.map_append, life.numbered, List.map_singleton, nonce, List.range'_1_concat, Nat.add_comm 1]
    · refine List.pairwise_append.mpr ⟨life.rising, List.pairwise_singleton _ _,
        fun first created second isNew => ?_⟩
      rw [List.mem_singleton.mp isNew, height]
      exact ⟨lower first created, (life.heights first created).2⟩
    · rw [List.mem_singleton.mp member, height]
    · rw [List.mem_singleton.mp member, nonce]
      exact Nat.lt_succ_self _
    · rcases ValsetStore.mem_stored_set isStored with earlier | rfl
      · exact List.mem_append_left _ (life.made other earlier)
      · exact List.mem_append_right _ (List.mem_singleton_self _)
    · rcases List.mem_append.mp member with earlier | new
      · refine (life.kept other earlier).imp_left fun isStored => ?_
        have found := (life.keyed.get_iff other).mp isStored
        have apart : getValsetKey other.nonce ≠ getValsetKey valset.nonce :=
          getValsetKey_strictMono.injective.ne (Nat.ne_of_lt (lower other earlier))
        refine ValsetStore.mem_stored.mpr ⟨getValsetKey other.nonce, ?_⟩
        rw [Store.get_set_of_ne _ _ apart]
        exact found
      · rw [List.mem_singleton.mp new]
        exact Or.inl (ValsetStore.mem_stored.mpr ⟨_, Store.get_set_self _ _ _⟩)

/-- **The end of a block**, with honest claims. -/
theorem Lifecycle.ended (life : Lifecycle evm gravityId powerThreshold initial params past before)
    {env : EndBlockEnv} {network : Params} {chain : Chain β} {report : EndBlockReport}
    {rounds : List SlashingRound} (fits : before.blockHeight + 1 < 2 ^ 63)
    (slashed : Slashed params before.blockHeight before.node.keeper before.slashing after.slashing
      rounds)
    (ends : endBlocker sdk bank geth network env before.node.keeper.chain = .ok (chain, report))
    (heightIs : env.blockHeight = before.blockHeight)
    (windowIs : env.signedValsetsWindow = params.signedValsetsWindow)
    (node : after.node = before.node.ended chain) (height : after.blockHeight = before.blockHeight + 1)
    (reported : outputs = rounds.map (.slashed before.blockHeight) ++
      ((endBlockOutputs before.node.keeper.chain.app.outgoing chain.app.outgoing report).map
        NodeOutput.bridge).map .node)
    {spelling : Spelling} (honest : ∀ output ∈ outputs, output.HonestAt spelling before.node.eth.logs) :
    Lifecycle evm gravityId powerThreshold initial params (past ++ outputs) after := by
  have looks : slashedValsets outputs = dueValsets params before.blockHeight
      before.node.keeper.chain.valsets before.slashing.lastSlashedValsetNonce :=
    reported ▸ slashed.slashedValsets _
  have created : createdValsets outputs = report.valset.toList :=
    reported ▸ createdValsets_block before.blockHeight rounds _ _ report
  have lookedOf : slashedOf EthereumSigned.valset? outputs =
      (slashedValsets outputs).map fun valset => (before.blockHeight, valset) := by
    rw [looks, reported, slashedOf_block, slashed.kinds.1]
  obtain ⟨store, pruned, renewal⟩ := endBlocker_valsets ends
  rw [heightIs] at renewal
  have renewed := life.renew renewal
  rw [← created] at renewed
  obtain ⟨once, covered, forward, cursor, punctual⟩ := life.sweep fits slashed looks
  have eth : after.node.eth = before.node.eth := by rw [node]; rfl
  have valsets : after.node.keeper.chain.valsets = chain.valsets := by rw [node]; rfl
  have lastObserved : after.node.keeper.chain.app.lastObservedValset = chain.app.lastObservedValset := by
    rw [node]; rfl
  have within := pruneValsets_within env chain.app.lastObservedValset store
  rw [← pruned] at within
  have observed : ∀ observed ∈ chain.app.lastObservedValset,
      observed.nonce ≤ before.node.eth.gravity.lastValsetNonce := by
    intro observed now
    rcases endBlocker_lastObservedValset ends with same | ⟨msg, member, nonce⟩
    · exact life.observed observed (same ▸ now)
    · have output : BlockOutput.node (.bridge (.observed (.valsetUpdated msg))) ∈ outputs := by
        rw [reported]
        exact List.mem_append_right _ (List.mem_map_of_mem (List.mem_map_of_mem
          (List.mem_append_left _ (List.mem_map_of_mem member))))
      obtain ⟨⟨event, block⟩, logged, same⟩ := honest _ output
      rw [nonce observed now]
      cases event with
      | valsetUpdated newValsetNonce eventNonce rewardAmount rewardToken validators powers =>
          have equal : msg.valsetNonce = newValsetNonce := congrArg MsgValsetUpdatedClaim.valsetNonce same.1
          exact equal ▸ life.installed.logged _ logged newValsetNonce rfl
      | _ => exact same.elim
  have young : ∀ valset ∈ createdValsets (past ++ outputs), 1 ≤ valset.height ∧
      valset.height < before.blockHeight + 1 := by
    intro valset member
    rw [createdValsets_append] at member
    rcases List.mem_append.mp member with earlier | new
    · have bounds := life.heights valset earlier
      omega
    · have atHeight := renewed.heights valset new
      have begun := life.begun.1
      omega
  refine ⟨eth ▸ life.installed, ?_, ?_, ?_, ?_, ?_, ?_, ?_, ?_, ?_, ?_, ?_, ?_, ?_⟩
  any_goals simp only [valsets, lastObserved, eth, height, within.latestValsetNonce]
  · exact within.keyed renewed.keyed
  · rw [createdValsets_append]
    exact renewed.numbered
  · rw [createdValsets_append]
    exact renewed.rising
  · exact young
  · rw [createdValsets_append]
    exact fun valset isStored => renewed.made valset (within.stored isStored)
  · rw [slashedValsets_append]
    exact once
  · rw [slashedValsets_append, createdValsets_append]
    refine covered.grow fun valset member => ?_
    rcases List.mem_append.mp member with earlier | new
    · exact Or.inl earlier
    · exact Or.inr (lt_of_le_of_lt cursor (renewed.higher valset new))
  · exact cursor.trans renewed.latest.1
  · rw [slashedOf_append, createdValsets_append]
    intro looked member
    rcases List.mem_append.mp member with earlier | now
    · obtain ⟨wasCreated, waited⟩ := life.patient looked earlier
      exact ⟨List.mem_append_left _ wasCreated, waited⟩
    · rw [lookedOf, looks] at now
      obtain ⟨valset, due, rfl⟩ := List.mem_map.mp now
      obtain ⟨wasCreated, _, waited⟩ := (life.mem_dueValsets fits).mp due
      exact ⟨List.mem_append_left _ wasCreated, waited⟩
  · rw [slashedValsets_append, createdValsets_append]
    intro valset member late
    rcases List.mem_append.mp member with earlier | new
    · exact punctual valset earlier late
    · -- what is made in this block is not late yet
      have atHeight := renewed.heights valset new
      omega
  · intro valset member
    rw [createdValsets_append] at member
    rw [slashedValsets_append]
    rcases renewed.kept valset member with isStored | ⟨gone, passed⟩
    · rw [pruned]
      refine (renewed.keyed.mem_pruneValsets isStored).imp_right fun ⟨last, now, lower, passed⟩ => ?_
      rw [heightIs, windowIs] at passed
      have wasCreated : valset ∈ createdValsets past := by
        rcases List.mem_append.mp member with earlier | new
        · exact earlier
        · have atHeight := renewed.heights valset new
          omega
      have bounds := life.heights valset wasCreated
      exact ⟨punctual valset wasCreated (by omega), lt_of_lt_of_le lower (observed last now)⟩
    · exact Or.inr ⟨List.mem_append_left _ gone, passed⟩
  · exact observed
  · have begun := life.begun.1
    exact ⟨by omega, fun _ => renewed.latest.2⟩

/-- The cursor does not go back. -/
theorem Lifecycle.cursor_le (life : Lifecycle evm gravityId powerThreshold initial params past before)
    {input : BlockInput β τ σ} (noRestart : ¬ input.IsRestart)
    (step : blockStep sdk bank geth evm others staking params before input = some (after, outputs)) :
    before.slashing.lastSlashedValsetNonce ≤ after.slashing.lastSlashedValsetNonce := by
  cases blockStep_cases step with
  | staking change taken node cursors height silent => exact (congrArg Prod.fst cursors).ge
  | within action made taken inside step slashing height reported => rw [slashing]
  | halted isValidator env taken running node slashing height reported => rw [slashing]
  | restarted valsetReward attestations delegateKeys taken restarts slashing height silent =>
      subst taken
      exact absurd trivial noRestart
  | ended isValidator env chain report rounds taken running fits slashed ends node height reported =>
      exact (life.sweep fits slashed rfl).2.2.1

/-- Claims that reach the handler report logs of the contract. -/
def ReportsHonestly (step : BlockNode β τ σ → BlockInput β τ σ →
      Option (BlockNode β τ σ × List BlockOutput))
    (spelling : Spelling) (state : BlockNode β τ σ) (input : BlockInput β τ σ) : Prop :=
  ∀ result ∈ step state input, ∀ output ∈ result.2, output.HonestAt spelling state.node.eth.logs

instance (step : BlockNode β τ σ → BlockInput β τ σ →
      Option (BlockNode β τ σ × List BlockOutput))
    (spelling : Spelling) (state : BlockNode β τ σ) (input : BlockInput β τ σ) :
    Decidable (ReportsHonestly step spelling state input) := by
  unfold ReportsHonestly; infer_instance

/-- **Every step keeps it**, but a restart. -/
theorem Lifecycle.step (life : Lifecycle evm gravityId powerThreshold initial params past before)
    (collisionFree : Function.Injective evm.keccak256) (id : gravityId.length = 32)
    {spelling : Spelling} {input : BlockInput β τ σ} (noRestart : ¬ input.IsRestart)
    (honest : ReportsHonestly (blockStep sdk bank geth evm others staking params) spelling before input)
    (step : blockStep sdk bank geth evm others staking params before input = some (after, outputs)) :
    Lifecycle evm gravityId powerThreshold initial params (past ++ outputs) after := by
  cases blockStep_cases step with
  | staking change taken node cursors height silent =>
      subst silent
      exact life.same (node ▸ life.installed) (by rw [node]) (by rw [node]) (by rw [node])
        (congrArg Prod.fst cursors) height rfl rfl
  | within action made taken inside acts slashing height reported =>
      have contract := nodeStep_eth (P := fun eth =>
        Installed evm gravityId powerThreshold initial eth ∧
          before.node.eth.gravity.lastValsetNonce ≤ eth.gravity.lastValsetNonce)
        (fun eth contracts blockNumber holds => ⟨⟨⟨holds.1.custody.sameId, holds.1.custody.sameThreshold,
          holds.1.custody.inRange, holds.1.custody.checkpoint, holds.1.custody.nonce,
          holds.1.custody.increasing, holds.1.custody.highest, holds.1.custody.approved⟩,
          holds.1.logged⟩, holds.2⟩)
        (fun sender call eth after holds accepts => by
          obtain ⟨kept, higher⟩ := holds.1.accepts collisionFree id accepts
          exact ⟨kept, holds.2.trans higher⟩)
        ⟨life.installed, Nat.le_refl _⟩ acts
      obtain ⟨valsets, lastObserved⟩ := nodeStep_valsets inside acts
      subst reported
      exact life.same contract.1 contract.2 valsets lastObserved (by rw [slashing]) height
        (slashedObjects_map_node made) (nodeStep_created inside acts)
  | halted isValidator env taken running node slashing height reported =>
      have eth : after.node.eth = before.node.eth := by rw [node]
      refine life.same (eth ▸ life.installed) (by rw [eth]) (by rw [node]) (by rw [node])
        (by rw [slashing]) height ?_ ?_
      all_goals rcases reported with ⟨reason, rfl⟩ | ⟨reason, rfl⟩ <;> rfl
  | restarted valsetReward attestations delegateKeys taken restarts slashing height silent =>
      subst taken
      exact absurd trivial noRestart
  | ended isValidator env chain report rounds taken running fits slashed ends node height reported =>
      exact life.ended fits slashed ends rfl rfl node height reported (honest _ step)

/-- A chain right after the deployment of its contract. -/
theorem lifecycle_fresh {validators : List EthAddress} {powers : List Nat} {wNomAddress : EthAddress}
    {contracts : τ} {blockNumber : Nat} {eth : Ethereum τ}
    (deployed : deployGravity evm gravityId powerThreshold validators powers wNomAddress contracts
      blockNumber = .ok eth) (network : Params) (balances : β) (start : σ) :
    gravityId.length = 32 ∧ Lifecycle evm gravityId powerThreshold ⟨validators, powers, 0, 0, 0⟩ params []
      (BlockNode.fresh network balances eth start) := by
  obtain ⟨id, inRange, _, rfl⟩ := deployGravity_eq_ok deployed
  refine ⟨id, ⟨⟨rfl, rfl, inRange, rfl, rfl, List.pairwise_singleton _ _, fun valset member => ?_,
    trivial⟩, fun log member nonce found => ?_⟩, fun _ _ found => ?_, rfl, List.Pairwise.nil, ?_, ?_,
    Once.initially _ _, ?_, Nat.le_refl _, ?_, ?_, ?_, ?_, Nat.le_refl _, fun late => ?_⟩
  · rw [List.mem_singleton.mp member]
    exact Nat.le_refl _
  · rw [List.mem_singleton.mp member] at found
    exact Nat.le_of_eq (Option.some.inj found).symm
  · cases found
  · exact fun _ member => absurd member List.not_mem_nil
  · exact fun _ member => absurd member List.not_mem_nil
  · exact fun _ member => absurd member List.not_mem_nil
  · exact fun _ member => absurd member List.not_mem_nil
  · exact fun _ member => absurd member List.not_mem_nil
  · exact fun _ member => absurd member List.not_mem_nil
  · exact fun _ now => absurd now (by simp [BlockNode.fresh, KeeperState.fresh, Chain.fresh])
  · exact absurd late (Nat.lt_irrefl _)

/-- **The life of validator sets.** In every run from the deployment without restarts, with honest claims:
the sets are numbered `1, 2, 3, …` at rising heights; none is looked at twice, or before its window has
passed; each is looked at in the first block after its making at the end of which the window has passed, and
before it is pruned; the cursor does not go back; what the contract has not passed is kept; and from the end
of the first block on there is a latest set, unless the contract has installed a nonce above all. -/
theorem valset_lifecycle (collisionFree : Function.Injective evm.keccak256)
    {validators : List EthAddress} {powers : List Nat} {wNomAddress : EthAddress} {contracts : τ}
    {blockNumber : Nat} {eth : Ethereum τ}
    (deployed : deployGravity evm gravityId powerThreshold validators powers wNomAddress contracts
      blockNumber = .ok eth) (spelling : Spelling) (network : Params) (balances : β) (start : σ)
    (inputs : List (BlockInput β τ σ)) (final : BlockNode β τ σ) (trace : List BlockOutput)
    (runs : run (blockStep sdk bank geth evm others staking params)
      (BlockNode.fresh network balances eth start) inputs = some (final, trace))
    (noRestart : ∀ input ∈ inputs, ¬ input.IsRestart)
    (honest : StepsMeet (blockStep sdk bank geth evm others staking params)
      (ReportsHonestly (blockStep sdk bank geth evm others staking params) spelling)
      (BlockNode.fresh network balances eth start) inputs) :
    let store := final.node.keeper.chain.valsets
    let contractNonce := final.node.eth.gravity.lastValsetNonce
    (createdValsets trace).map Valset.nonce = List.range' 1 store.latestValsetNonce ∧
    (createdValsets trace).Pairwise (fun first second => first.height < second.height) ∧
    (slashedValsets trace).Nodup ∧
    (∀ valset ∈ createdValsets trace,
      valset.height + max 1 params.signedValsetsWindow < final.blockHeight →
      valset ∈ slashedValsets trace) ∧
    (∀ looked ∈ slashedOf EthereumSigned.valset? trace, looked.2 ∈ createdValsets trace ∧
      looked.2.height + params.signedValsetsWindow ≤ looked.1) ∧
    (∀ valset ∈ createdValsets trace, valset ∉ store.valsets.values → valset ∈ slashedValsets trace) ∧
    (∀ input next outputs, ¬ input.IsRestart →
      blockStep sdk bank geth evm others staking params final input = some (next, outputs) →
      final.slashing.lastSlashedValsetNonce ≤ next.slashing.lastSlashedValsetNonce) ∧
    (∀ valset ∈ createdValsets trace, contractNonce ≤ valset.nonce → valset ∈ store.valsets.values) ∧
    (1 < final.blockHeight → contractNonce ≤ store.latestValsetNonce →
      store.getLatestValset.isSome = true) := by
  obtain ⟨id, fresh⟩ : gravityId.length = 32 ∧ Lifecycle evm gravityId powerThreshold
      ⟨validators, powers, 0, 0, 0⟩ params [] (BlockNode.fresh network balances eth start) :=
    lifecycle_fresh deployed network balances start
  have life : Lifecycle evm gravityId powerThreshold ⟨validators, powers, 0, 0, 0⟩ params ([] ++ trace)
      final := run_invariant_of_meets _ _
    (fun _ _ _ _ _ meets life step => life.step collisionFree id meets.1 meets.2 step)
    (StepsMeet.and_inputs noRestart honest) fresh runs
  rw [List.nil_append] at life
  have unpassed : ∀ valset ∈ createdValsets trace,
      final.node.eth.gravity.lastValsetNonce ≤ valset.nonce →
      valset ∈ final.node.keeper.chain.valsets.stored :=
    fun valset created ahead => (life.kept valset created).resolve_right
      fun gone => absurd gone.2 (Nat.not_lt.mpr ahead)
  refine ⟨life.numbered, life.rising.imp And.right, life.once.nodup, life.punctual, life.patient,
    fun valset created gone => ?_, fun input next outputs noRestart step => ?_, unpassed,
    fun late behind => ?_⟩
  · exact ((life.kept valset created).resolve_left gone).1
  · exact life.cursor_le noRestart step
  · -- the latest set was made, and the contract has not passed it
    have positive := life.begun.2 late
    have latest : final.node.keeper.chain.valsets.latestValsetNonce ∈
        (createdValsets trace).map Valset.nonce := by
      rw [life.numbered, List.mem_range'_1]
      omega
    obtain ⟨valset, created, same⟩ := List.mem_map.mp latest
    have found := (life.keyed.get_iff valset).mp (unpassed valset created (same ▸ behind))
    rw [same] at found
    exact Option.isSome_iff_exists.mpr ⟨valset, found⟩

end Runs

/-! ### Two runs from the deployment -/

/-- A chain of the one validator beside a contract. -/
def exampleBridgedNode (eth : Ethereum Unit) : BlockNode Ledger Unit Bool :=
  BlockNode.fresh exampleParams exampleLedger eth false

/-- The first set is made, looked at, and followed by a second one when the validator is jailed. -/
def exampleQuietBlocks : List (BlockInput Ledger Unit Bool) :=
  [.node exampleRegister, .node (exampleBlock 1), .node (exampleBlock 2), .node (exampleBlock 3)]

theorem exampleQuietBlocks_run : (exampleDeployment.toOption.any fun eth =>
    (run exampleBlockStep (exampleBridgedNode eth) exampleQuietBlocks).any fun result =>
      (createdValsets result.2).map Valset.nonce = [1, 2] ∧
        (slashedOf EthereumSigned.valset? result.2).map (fun looked => (looked.1, looked.2.nonce)) =
          [(2, 1), (3, 2)] ∧
        1 < result.1.blockHeight ∧ result.1.node.eth.gravity.lastValsetNonce = 0 ∧
        StepsMeet exampleBlockStep (ReportsHonestly exampleBlockStep exampleSpelling)
          (exampleBridgedNode eth) exampleQuietBlocks) = true := by
  decide +kernel

/-- Both sets are looked at, each in the block after its own, and the second one is the latest. -/
theorem valset_lifecycle_quiet : ∃ eth final trace, exampleDeployment = .ok eth ∧
    run exampleBlockStep (exampleBridgedNode eth) exampleQuietBlocks = some (final, trace) ∧
    (slashedOf EthereumSigned.valset? trace).map (fun looked => (looked.1, looked.2.nonce)) =
      [(2, 1), (3, 2)] ∧
    (slashedValsets trace).Nodup ∧ final.node.keeper.chain.valsets.getLatestValset.isSome = true := by
  obtain ⟨eth, deployed, quiet⟩ := (Option.any_eq_true _ _).mp exampleQuietBlocks_run
  obtain ⟨⟨final, trace⟩, runs, holds⟩ := (Option.any_eq_true _ _).mp quiet
  obtain ⟨created, looked, late, contract, honest⟩ := of_decide_eq_true holds
  have deployed : exampleDeployment = .ok eth := except_eq_ok_of_toOption deployed
  have life := valset_lifecycle (fun _ _ same => same) deployed exampleSpelling exampleParams
    exampleLedger false exampleQuietBlocks final trace runs (by decide) honest
  refine ⟨eth, final, trace, deployed, runs, looked, life.2.2.1, ?_⟩
  exact life.2.2.2.2.2.2.2.2 late (contract ▸ Nat.zero_le _)

/-- A set with the nonce five, of the members of the deployment. -/
def exampleOwnValset : ValsetArgs := { exampleCurrentValset with valsetNonce := 5 }

/-- The claim of a set of the contract. -/
def exampleValsetClaim (eventNonce valsetNonce : Nat) : BlockInput Ledger Unit Bool :=
  .node (.bridge (fun _ => true) (exampleClaim 2 (.valsetUpdated ⟨eventNonce, valsetNonce, 100,
    [⟨maxUint32, ascii "0xd041c41ea1bf0f006adbb6d2c9ef9d425de5ead7"⟩], some 0, zeroAddress,
    ascii "cosmos1qyqszqgpqyqszqgpqyqszqgpqyqszqgpjnp7du"⟩)))

/-- The validators of the contract sign a set the module has not made; both events of the contract are
observed. -/
def exampleOwnBlocks : List (BlockInput Ledger Unit Bool) :=
  [.node exampleRegister, .node (exampleBlock 1),
    .node (.bridge (fun _ => true) (.call 9 (.updateValset exampleOwnValset exampleCurrentValset
      ⟨[27], [List.replicate 32 0], [List.replicate 32 0]⟩))),
    exampleValsetClaim 1 0, exampleValsetClaim 2 5, .node (exampleBlock 2), .node (exampleBlock 3),
    .node (exampleBlock 4)]

/-- **The latest set is lost**: with honest claims, after the first block. -/
theorem latest_valset_lost : ∃ eth final trace, exampleDeployment = .ok eth ∧
    run exampleBlockStep (exampleBridgedNode eth) exampleOwnBlocks = some (final, trace) ∧
    (∀ input ∈ exampleOwnBlocks, ¬ input.IsRestart) ∧
    StepsMeet exampleBlockStep (ReportsHonestly exampleBlockStep exampleSpelling)
      (exampleBridgedNode eth) exampleOwnBlocks ∧
    1 < final.blockHeight ∧ final.node.keeper.chain.valsets.getLatestValset = none := by
  have lost : (exampleDeployment.toOption.any fun eth =>
      (run exampleBlockStep (exampleBridgedNode eth) exampleOwnBlocks).any fun result =>
        StepsMeet exampleBlockStep (ReportsHonestly exampleBlockStep exampleSpelling)
          (exampleBridgedNode eth) exampleOwnBlocks ∧
        1 < result.1.blockHeight ∧ result.1.node.keeper.chain.valsets.getLatestValset = none) = true := by
    decide +kernel
  obtain ⟨eth, deployed, lost⟩ := (Option.any_eq_true _ _).mp lost
  obtain ⟨⟨final, trace⟩, runs, holds⟩ := (Option.any_eq_true _ _).mp lost
  exact ⟨eth, final, trace, except_eq_ok_of_toOption deployed, runs, by decide, of_decide_eq_true holds⟩

end NabBridge
