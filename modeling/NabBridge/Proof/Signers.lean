/-
**Who has confirmed what.**

A confirmation is stored under the account that sent it. Slashing goes the way back: from the account to
the validator that has registered it, or from the Ethereum address in the message to the validator that
has registered that.

* `Node.handleConfirm_adds`: an accepted confirmation is a new entry at a place of its own;
* `SignerBook`: **the invariant**: what is stored is what was accepted, and every stored confirmation is
  still that of the validator it was accepted from;
* `HasConfirmed`: what all of this is about, in terms of the run alone.
-/

import NabBridge.Proof.Attribution
import NabBridge.Proof.BatchSlashing
import NabBridge.Proof.ConfirmLookups
import NabBridge.Proof.PoolFiling
import NabBridge.Proof.Registrations

namespace NabBridge

/-! ### Confirmations by their place -/

namespace Confirmation

/-- The text of the account that sends it. -/
def orchestrator : Confirmation → Bytes
  | .valset msg => msg.orchestrator
  | .batch msg => msg.orchestrator
  | .logicCall msg => msg.orchestrator

/-- It names the object. -/
def Names : Confirmation → EthereumSigned → Prop
  | .valset msg, .valset set => msg.nonce = set.nonce
  | .batch msg, .batch stored => msg.tokenContract = stored.tokenContract ∧ msg.nonce = stored.batchNonce
  | .logicCall msg, .logicCall call =>
      decodeString msg.invalidationId = some call.invalidationId ∧
        msg.invalidationNonce = call.invalidationNonce
  | _, _ => False

/-- The key it is stored under. -/
def place (sdk : Sdk) : Confirmation → Option StoreKey
  | .valset msg => (sdk.accAddressFromBech32 msg.orchestrator).map (getValsetConfirmKey msg.nonce)
  | .batch msg =>
      (sdk.accAddressFromBech32 msg.orchestrator).map (getBatchConfirmKey msg.tokenContract msg.nonce)
  | .logicCall msg =>
      (decodeString msg.invalidationId).bind fun invalidationId =>
        (sdk.accAddressFromBech32 msg.orchestrator).map
          (getLogicConfirmKey invalidationId msg.invalidationNonce)

/-- The fields that make lookups find it: a contract of the length of an address, and a `uint64` nonce of a
call. -/
def Fits : Confirmation → Prop
  | .valset _ => True
  | .batch msg => msg.tokenContract.length = ethContractAddressLen
  | .logicCall msg => msg.invalidationNonce < 2 ^ 64

/-- A confirmation of a validator set carries this Ethereum address; the others carry one that is not
read. -/
def Carries (ethAddress : Bytes) : Confirmation → Prop
  | .valset msg => msg.ethAddress = ethAddress
  | _ => True

end Confirmation

section Handled

variable {β τ : Type} {sdk : Sdk} {geth : Geth} {node : Node β τ} {isValidator : ValAddress → Bool}

/-- A value that is set at a free key. -/
theorem Store.get_set_of_free {α : Type} {store : Store StoreKey α} {key other : StoreKey}
    {value found : α} (free : store.get key = none) :
    (store.set key value).get other = some found ↔
      other = key ∧ found = value ∨ store.get other = some found := by
  rw [Store.get_set]
  split_ifs with same
  · subst same
    rw [free]
    simp [eq_comm]
  · simp [same]

/-- **An accepted confirmation** is a new entry at its own place, and nothing else changes. -/
theorem Node.handleConfirm_adds {confirmation : Confirmation} {after : NabBridge.Confirms}
    (handled : node.handleConfirm sdk geth isValidator confirmation = .ok after) :
    ∃ key, confirmation.place sdk = some key ∧ ¬ node.keeper.confirms.HasAt key confirmation ∧
      ∀ other found, after.HasAt other found ↔
        other = key ∧ found = confirmation ∨ node.keeper.confirms.HasAt other found := by
  cases confirmation with
  | valset msg =>
      have checked := handled
      obtain ⟨valset, checkpoint, orchestrator, stored, computed, accepted, parsed, rfl⟩ :=
        valsetConfirm_eq_ok handled
      have free : node.keeper.confirms.valsets.get (getValsetConfirmKey msg.nonce orchestrator) =
          none := by
        unfold Node.handleConfirm NabBridge.valsetConfirm at checked
        simp only [stored] at checked
        obtain ⟨_, _, checked⟩ := Outcome.bind_eq_ok.mp checked
        obtain ⟨_, _, checked⟩ := Outcome.bind_eq_ok.mp checked
        split_ifs at checked with duplicate
        rw [parsed, Option.getD_some, Bool.not_eq_true] at duplicate
        exact (Store.has_eq_false_iff _ _).mp duplicate
      refine ⟨_, by rw [Confirmation.place, parsed]; rfl, fun there => ?_, fun other found => ?_⟩
      · cases free.symm.trans there
      cases found with
      | valset value =>
          simpa only [NabBridge.Confirms.HasAt, Confirmation.valset.injEq] using Store.get_set_of_free free
      | batch value => simp [NabBridge.Confirms.HasAt]
      | logicCall value => simp [NabBridge.Confirms.HasAt]
  | batch msg =>
      have checked := handled
      obtain ⟨batch, checkpoint, orchestrator, stored, computed, accepted, parsed, rfl⟩ :=
        confirmBatch_eq_ok handled
      have free : node.keeper.confirms.batches.get
          (getBatchConfirmKey msg.tokenContract msg.nonce orchestrator) = none := by
        unfold Node.handleConfirm NabBridge.confirmBatch at checked
        simp only [stored] at checked
        obtain ⟨_, _, checked⟩ := Outcome.bind_eq_ok.mp checked
        obtain ⟨_, _, checked⟩ := Outcome.bind_eq_ok.mp checked
        split_ifs at checked with duplicate
        rw [parsed, Option.getD_some, Bool.not_eq_true] at duplicate
        exact (Store.has_eq_false_iff _ _).mp duplicate
      refine ⟨_, by rw [Confirmation.place, parsed]; rfl, fun there => ?_, fun other found => ?_⟩
      · cases free.symm.trans there
      cases found with
      | batch value =>
          simpa only [NabBridge.Confirms.HasAt, Confirmation.batch.injEq] using Store.get_set_of_free free
      | valset value => simp [NabBridge.Confirms.HasAt]
      | logicCall value => simp [NabBridge.Confirms.HasAt]
  | logicCall msg =>
      obtain ⟨invalidationId, checkpoint, orchestrator, decoded, computed, accepted, parsed, new, rfl⟩ :=
        confirmLogicCall_eq_ok_iff.mp handled
      have free := (Store.has_eq_false_iff _ _).mp new
      refine ⟨_, by rw [Confirmation.place, decoded, Option.bind_some, parsed]; rfl,
        fun there => ?_, fun other found => ?_⟩
      · cases free.symm.trans there
      cases found with
      | logicCall value =>
          simpa only [NabBridge.Confirms.HasAt, Confirmation.logicCall.injEq] using Store.get_set_of_free free
      | valset value => simp [NabBridge.Confirms.HasAt]
      | batch value => simp [NabBridge.Confirms.HasAt]

/-- The account of a confirmation that has a place. -/
theorem Confirmation.account_of_place {confirmation : Confirmation} {key : StoreKey}
    (placed : confirmation.place sdk = some key) :
    ∃ account, sdk.accAddressFromBech32 confirmation.orchestrator = some account := by
  cases confirmation with
  | valset msg =>
      obtain ⟨account, parsed, _⟩ := Option.map_eq_some_iff.mp placed
      exact ⟨account, parsed⟩
  | batch msg =>
      obtain ⟨account, parsed, _⟩ := Option.map_eq_some_iff.mp placed
      exact ⟨account, parsed⟩
  | logicCall msg =>
      obtain ⟨_, _, placed⟩ := Option.bind_eq_some_iff.mp placed
      obtain ⟨account, parsed, _⟩ := Option.map_eq_some_iff.mp placed
      exact ⟨account, parsed⟩

/-- **The signer of an accepted confirmation.** -/
theorem Node.handleConfirm_signer {confirmation : Confirmation} {after : NabBridge.Confirms}
    (handled : node.handleConfirm sdk geth isValidator confirmation = .ok after) :
    ∃ operator ethAddress, (node.keeper.registry isValidator).signer
      ((sdk.accAddressFromBech32 confirmation.orchestrator).getD []) = .ok (operator, ethAddress) := by
  cases confirmation with
  | valset msg =>
      obtain ⟨_, _, _, _, _, accepted, _, _⟩ := valsetConfirm_eq_ok handled
      obtain ⟨_, operator, ethAddress, _, signs, _⟩ := confirmHandlerCommon_eq_ok accepted
      exact ⟨operator, ethAddress, signs⟩
  | batch msg =>
      obtain ⟨_, _, _, _, _, accepted, _, _⟩ := confirmBatch_eq_ok handled
      obtain ⟨_, operator, ethAddress, _, signs, _⟩ := confirmHandlerCommon_eq_ok accepted
      exact ⟨operator, ethAddress, signs⟩
  | logicCall msg =>
      obtain ⟨_, _, _, _, _, accepted, _, _⟩ := confirmLogicCall_eq_ok handled
      obtain ⟨_, operator, ethAddress, _, signs, _⟩ := confirmHandlerCommon_eq_ok accepted
      exact ⟨operator, ethAddress, signs⟩

end Handled

/-! ### The contracts in the index by blocks -/

namespace Outgoing

/-- Every batch in the index by blocks has a contract of the length of an address. -/
def IndexFits (outgoing : Outgoing) : Prop :=
  outgoing.batchBlocks.All fun _ batch => batch.tokenContract.length = ethContractAddressLen

variable {outgoing : Outgoing}

theorem IndexFits.same (fits : outgoing.IndexFits) {after : Outgoing}
    (same : SameBatches outgoing after) : after.IndexFits := by
  unfold IndexFits
  rw [same.blocks]
  exact fits

theorem IndexFits.deleteBatch (fits : outgoing.IndexFits) (batch : OutgoingTxBatch) :
    (outgoing.deleteBatch batch).IndexFits := fits.delete _

theorem IndexFits.cancelOutgoingTXBatch (fits : outgoing.IndexFits) (tokenContract : Bytes)
    (nonce : Nat) :
    (outgoing.cancelOutgoingTXBatch tokenContract nonce).Meets IndexFits fun _ => True := by
  unfold Outgoing.cancelOutgoingTXBatch
  split
  · trivial
  · rename_i batch read
    exact (putBack_foldlM_meets batch.transactions outgoing).bind fun after same =>
      (fits.same same).deleteBatch batch

theorem IndexFits.outgoingTxBatchExecuted (fits : outgoing.IndexFits) (tokenContract : Bytes)
    (nonce : Nat) :
    (outgoing.outgoingTxBatchExecuted tokenContract nonce).Meets IndexFits fun _ => True := by
  unfold Outgoing.outgoingTxBatchExecuted
  split
  · trivial
  · rename_i batch read
    refine Outcome.Meets.bind (Outcome.Meets.foldlM (fun current earlier _ fits => ?_) fits)
      fun current fits => fits.deleteBatch _
    unfold cancelEarlier
    split_ifs
    · have done := fits.cancelOutgoingTXBatch tokenContract earlier.batchNonce
      split
      · rename_i result
        exact done.ok result
      · trivial
      · trivial
    · exact fits

theorem IndexFits.cleanupTimedOutBatches (fits : outgoing.IndexFits) (ethereumHeight : Nat) :
    (outgoing.cleanupTimedOutBatches ethereumHeight).Meets IndexFits fun _ => True := by
  refine Outcome.Meets.foldlM (fun current batch _ fits => ?_) fits
  unfold cleanupTimedOutBatch
  split_ifs
  · have done := fits.cancelOutgoingTXBatch batch.tokenContract batch.batchNonce
    split
    · rename_i result
      exact done.ok result
    · exact fits
    · trivial
  · exact fits

end Outgoing

section Index

variable {β τ : Type} {sdk : Sdk} {bank : BankKeeper β} {geth : Geth} {evm : Evm}
  {others : Contracts τ}

/-- Within a block: a new batch is also among the batches, which are filed. -/
theorem Outgoing.IndexFits.within {node next : Node β τ} {action : NodeInput β τ}
    {made : List NodeOutput} (fits : node.keeper.chain.app.outgoing.IndexFits)
    (filed : next.keeper.chain.Filed) (inside : action.Within)
    (step : nodeStep sdk bank geth evm others node action = some (next, made)) :
    next.keeper.chain.app.outgoing.IndexFits := by
  rcases nodeStep_batches inside step with same | ⟨_, denom, maxElements, height, batch, _, requested⟩
  · exact fits.same same
  · unfold requestBatch at requested
    split at requested
    · cases requested
    · rcases Outgoing.buildOutgoingTXBatch_blocks requested with ⟨bad, _⟩ | ⟨built, isBuilt, _, _, batches,
        blocks, _⟩
      · cases bad
      · obtain rfl := Option.some.inj isBuilt
        have stored : next.keeper.chain.app.outgoing.batches.get batch.key = some batch := by
          rw [batches]
          exact Store.get_set_self _ _ _
        unfold Outgoing.IndexFits
        rw [blocks]
        exact fits.set (filed.app.outgoing.batches _ batch stored).contract

/-- The end of a block. -/
theorem Outgoing.IndexFits.endBlock {network : Params} {env : EndBlockEnv} {chain after : Chain β}
    {report : EndBlockReport} (fits : chain.app.outgoing.IndexFits)
    (ends : endBlocker sdk bank geth network env chain = .ok (after, report)) :
    after.app.outgoing.IndexFits := by
  obtain ⟨ctx, outgoing, made, store, counted, cleaned, _, rfl, rfl⟩ := endBlocker_eq_ok ends
  have tallied : ctx.app.outgoing.IndexFits :=
    (attestationTally_keeps (P := fun app => app.outgoing.IndexFits) (fun att claim app next kept done => by
      have effect := handle_effect done
      cases claim with
      | batchSendToEth msg => exact (kept.outgoingTxBatchExecuted msg.tokenContract msg.batchNonce).ok effect.1
      | sendToCosmos msg => exact effect.1 ▸ kept
      | erc20Deployed msg => exact effect.1 ▸ kept
      | logicCallExecuted msg => exact effect.1 ▸ kept
      | valsetUpdated msg => exact effect.1 ▸ kept) fits).ok counted
  have cleanedUp := (tallied.cleanupTimedOutBatches _).ok cleaned
  cases made <;> exact cleanedUp

end Index

/-! ### The registry -/

namespace DelegateKeys

/-- The confirmation is that of the validator, as the registry has it. -/
def Sent (sdk : Sdk) (keys : DelegateKeys) (operator : ValAddress) (confirmation : Confirmation) : Prop :=
  ∃ account ethAddress, sdk.accAddressFromBech32 confirmation.orchestrator = some account ∧
    keys.validatorByOrchestrator.get (getOrchestratorAddressKey account) = some operator ∧
    keys.getEthAddressByValidator operator = some ethAddress ∧ confirmation.Carries ethAddress

theorem Sent.unique {sdk : Sdk} {keys : DelegateKeys} {first second : ValAddress}
    {confirmation : Confirmation} (one : keys.Sent sdk first confirmation)
    (other : keys.Sent sdk second confirmation) : first = second := by
  obtain ⟨account, _, parsed, bound, _⟩ := one
  obtain ⟨account', _, parsed', bound', _⟩ := other
  obtain rfl := Option.some.inj (parsed.symm.trans parsed')
  exact Option.some.inj (bound.symm.trans bound')

/-- A registration of an account and a validator that have no entries leaves the others alone. -/
theorem Sent.register {sdk : Sdk} {keys : DelegateKeys} {operator : ValAddress}
    {confirmation : Confirmation} (sent : keys.Sent sdk operator confirmation) {validator : ValAddress}
    {orchestrator : AccAddress} {ethAddress : Bytes}
    (unset : keys.getEthAddressByValidator validator = none)
    (free : keys.validatorByOrchestrator.get (getOrchestratorAddressKey orchestrator) = none) :
    (keys.register validator orchestrator ethAddress).Sent sdk operator confirmation := by
  obtain ⟨account, address, parsed, bound, registered, carries⟩ := sent
  refine ⟨account, address, parsed, ?_, ?_, carries⟩
  · rw [get_validatorByOrchestrator_register, if_neg, bound]
    intro same
    rw [same, free] at bound
    cases bound
  · rw [getEthAddress_register, if_neg, registered]
    rintro rfl
    rw [unset] at registered
    cases registered

end DelegateKeys

section Runs

variable {β τ σ : Type} {sdk : Sdk} {bank : BankKeeper β} {geth : Geth} {evm : Evm}
  {others : Contracts τ} {staking : StakingKeeper σ} {params : SlashingParams}

/-- **The keys after a step**: as before, with a new registration, or those of a restart. -/
theorem nodeStep_keys {node next : Node β τ} {input : NodeInput β τ} {outputs : List NodeOutput}
    (step : nodeStep sdk bank geth evm others node input = some (next, outputs)) :
    next.keeper.keys = node.keeper.keys ∨
      (∃ isValidator msg, input = .setOrchestratorAddress isValidator msg ∧
        delegateStep sdk node.keeper.keys (isValidator, msg) = some (next.keeper.keys, [])) ∨
      ∃ valsetReward attestations delegateKeys,
        input = .restart valsetReward attestations delegateKeys := by
  cases input with
  | setOrchestratorAddress isValidator msg =>
      simp only [nodeStep] at step
      split_ifs at step
      obtain ⟨rfl, _⟩ := Prod.mk.inj (Option.some.inj step)
      exact Or.inr (Or.inl ⟨isValidator, msg, rfl, rfl⟩)
  | restart valsetReward attestations delegateKeys => exact Or.inr (Or.inr ⟨_, _, _, rfl⟩)
  | bridge isValidator action =>
      simp only [nodeStep] at step
      split at step
      · cases step
      · obtain ⟨rfl, _⟩ := Prod.mk.inj (Option.some.inj step)
        exact Or.inl rfl
  | setOutgoingLogicCall call =>
      simp only [nodeStep] at step
      split_ifs at step
      split at step <;> obtain ⟨rfl, _⟩ := Prod.mk.inj (Option.some.inj step) <;> exact Or.inl rfl
  | deleteOutgoingLogicCall _ _ | setParams _ | valsetConfirm _ _ | confirmBatch _ _
  | confirmLogicCall _ _ | evidence _ _ _ =>
      simp only [nodeStep] at step
      split_ifs at step
      all_goals
        obtain ⟨rfl, _⟩ := Prod.mk.inj (Option.some.inj step)
        exact Or.inl rfl

/-! ### The condition -/

/-- **What the attribution of confirmations needs of a message**: a registration takes over no account and
shares no Ethereum address, and a validator set is confirmed in the sender's own Ethereum address. The
state is not exported and imported. -/
def BlockNode.Attributes (sdk : Sdk) (geth : Geth) (state : BlockNode β τ σ) : BlockInput β τ σ → Prop
  | .node (.setOrchestratorAddress isValidator msg) =>
      state.node.keeper.keys.KeepsOrchestrators sdk (isValidator, msg) ∧
        state.node.keeper.keys.KeepsAddresses sdk (isValidator, msg)
  | .node (.valsetConfirm isValidator msg) =>
      ∀ after, state.node.handleConfirm sdk geth isValidator (.valset msg) = .ok after →
        ∀ operator ethAddress, (state.node.keeper.registry isValidator).signer
          ((sdk.accAddressFromBech32 msg.orchestrator).getD []) = .ok (operator, ethAddress) →
          msg.ethAddress = ethAddress
  | .node (.confirmLogicCall _ msg) => msg.invalidationNonce < 2 ^ 64
  | .node (.restart _ _ _) => False
  | _ => True

/-- A confirmation was accepted in a run, from the orchestrator of a validator. -/
def AcceptedFrom (sdk : Sdk) (bank : BankKeeper β) (geth : Geth) (evm : Evm) (others : Contracts τ)
    (staking : StakingKeeper σ) (params : SlashingParams) (start : BlockNode β τ σ)
    (inputs : List (BlockInput β τ σ)) (operator : ValAddress) (confirmation : Confirmation) : Prop :=
  ∃ earlier isValidator later before outputs after ethAddress,
    inputs = earlier ++ .node (confirmation.input isValidator) :: later ∧
    run (blockStep sdk bank geth evm others staking params) start earlier = some (before, outputs) ∧
    confirmation.validateBasic sdk = .ok () ∧
    before.node.handleConfirm sdk geth isValidator confirmation = .ok after ∧
    (before.node.keeper.registry isValidator).signer
      ((sdk.accAddressFromBech32 confirmation.orchestrator).getD []) = .ok (operator, ethAddress)

/-- **A validator has confirmed an object**: a confirmation of it was accepted from the validator's
orchestrator. -/
def HasConfirmed (sdk : Sdk) (bank : BankKeeper β) (geth : Geth) (evm : Evm) (others : Contracts τ)
    (staking : StakingKeeper σ) (params : SlashingParams) (start : BlockNode β τ σ)
    (inputs : List (BlockInput β τ σ)) (object : EthereumSigned) (operator : ValAddress) : Prop :=
  ∃ confirmation : Confirmation, confirmation.Names object ∧
    AcceptedFrom sdk bank geth evm others staking params start inputs operator confirmation

/-- **The invariant.** What is stored is what was accepted, and each confirmation is still that of the
validator it was accepted from. -/
structure SignerBook (sdk : Sdk) (accepted : ValAddress → Confirmation → Prop) (node : Node β τ) :
    Prop where
  filed : node.keeper.chain.Filed
  index : node.keeper.chain.app.outgoing.IndexFits
  history : node.keeper.keys.History sdk
  unshared : node.keeper.keys.Unshared
  placed : ∀ key confirmation, node.keeper.confirms.HasAt key confirmation →
    confirmation.place sdk = some key ∧ confirmation.Fits
  sent : ∀ key confirmation, node.keeper.confirms.HasAt key confirmation →
    ∃ operator, accepted operator confirmation
  stored : ∀ operator confirmation, accepted operator confirmation →
    (∃ key, node.keeper.confirms.HasAt key confirmation) ∧ node.keeper.keys.Sent sdk operator confirmation

/-! ### One step -/

/-- A confirmation is accepted in this step, from the orchestrator of a validator. -/
def Node.AcceptsNow (sdk : Sdk) (geth : Geth) (node : Node β τ) (input : BlockInput β τ σ)
    (operator : ValAddress) (confirmation : Confirmation) : Prop :=
  ∃ isValidator after ethAddress, input = .node (confirmation.input isValidator) ∧
    confirmation.validateBasic sdk = .ok () ∧
    node.handleConfirm sdk geth isValidator confirmation = .ok after ∧
    (node.keeper.registry isValidator).signer
      ((sdk.accAddressFromBech32 confirmation.orchestrator).getD []) = .ok (operator, ethAddress)

theorem Confirmation.input_inj {first second : Confirmation} {isValidator isValidator' : ValAddress → Bool}
    (same : (first.input isValidator : NodeInput β τ) = second.input isValidator') :
    first = second ∧ isValidator = isValidator' := by
  cases first <;> cases second <;> cases same <;> exact ⟨rfl, rfl⟩

/-- Confirmations do not read the height. -/
theorem NodeInput.atHeight_eq_input {input : NodeInput β τ} {blockHeight : Nat}
    {confirmation : Confirmation} {isValidator : ValAddress → Bool} :
    input.atHeight blockHeight = confirmation.input isValidator ↔
      input = confirmation.input isValidator := by
  cases input <;> cases confirmation <;> simp [NodeInput.atHeight, Confirmation.input]

/-- **What was accepted up to a step**: what was accepted before, and what is accepted now. -/
theorem acceptedFrom_snoc {start before : BlockNode β τ σ} {past : List (BlockInput β τ σ)}
    {outputs : List BlockOutput}
    (reached : run (blockStep sdk bank geth evm others staking params) start past =
      some (before, outputs)) (input : BlockInput β τ σ) (operator : ValAddress)
    (confirmation : Confirmation) :
    AcceptedFrom sdk bank geth evm others staking params start (past ++ [input]) operator confirmation ↔
      AcceptedFrom sdk bank geth evm others staking params start past operator confirmation ∨
        before.node.AcceptsNow sdk geth input operator confirmation := by
  constructor
  · rintro ⟨earlier, isValidator, later, state, trace, after, ethAddress, split, runs, valid, handled,
      signs⟩
    rcases List.eq_nil_or_concat later with rfl | ⟨others, last, rfl⟩
    · obtain ⟨rfl, same⟩ := List.append_inj' split rfl
      obtain ⟨rfl, _⟩ := Prod.mk.inj (Option.some.inj (reached.symm.trans runs))
      exact Or.inr ⟨isValidator, after, ethAddress, List.singleton_inj.mp same, valid, handled, signs⟩
    · rw [List.concat_eq_append, ← List.cons_append, ← List.append_assoc] at split
      obtain ⟨rfl, _⟩ := List.append_inj' split rfl
      exact Or.inl ⟨earlier, isValidator, others, state, trace, after, ethAddress, rfl, runs, valid,
        handled, signs⟩
  · rintro (⟨earlier, isValidator, later, state, trace, after, ethAddress, rfl, runs, valid, handled,
      signs⟩ | ⟨isValidator, after, ethAddress, rfl, valid, handled, signs⟩)
    · exact ⟨earlier, isValidator, later ++ [input], state, trace, after, ethAddress,
        List.append_assoc _ _ _, runs, valid, handled, signs⟩
    · exact ⟨past, isValidator, [], before, outputs, after, ethAddress, rfl, reached, valid, handled,
        signs⟩

/-- A confirmation that is accepted is stored. -/
theorem nodeStep_of_handled {node next : Node β τ} {outputs : List NodeOutput}
    {confirmation : Confirmation} {isValidator : ValAddress → Bool} {after : Confirms}
    (valid : confirmation.validateBasic sdk = .ok ())
    (handled : node.handleConfirm sdk geth isValidator confirmation = .ok after)
    (step : nodeStep sdk bank geth evm others node (confirmation.input isValidator) =
      some (next, outputs)) : next.keeper.confirms = after := by
  cases confirmation
  all_goals
    simp only [Confirmation.input, nodeStep] at step
    split_ifs at step
    obtain ⟨rfl, _⟩ := Prod.mk.inj (Option.some.inj step)
    simp only [Confirmation.validateBasic] at valid
    simp only [Node.handleConfirm] at handled
    simp [Node.withConfirms, deliverConfirm, valid, handled, Outcome.deliver]

/-- **What a step does to registry and confirmations.** -/
inductive BookStep (sdk : Sdk) (geth : Geth) (before after : Node β τ) (input : BlockInput β τ σ) :
    Prop where
  | quiet (silent : ∀ operator confirmation, ¬ before.AcceptsNow sdk geth input operator confirmation)
      (confirms : after.keeper.confirms = before.keeper.confirms)
      (keys : after.keeper.keys = before.keeper.keys)
  | registered (isValidator : ValAddress → Bool) (msg : MsgSetOrchestratorAddress)
      (taken : input = .node (.setOrchestratorAddress isValidator msg))
      (silent : ∀ operator confirmation, ¬ before.AcceptsNow sdk geth input operator confirmation)
      (confirms : after.keeper.confirms = before.keeper.confirms)
      (step : delegateStep sdk before.keeper.keys (isValidator, msg) = some (after.keeper.keys, []))
  | accepted (isValidator : ValAddress → Bool) (confirmation : Confirmation)
      (taken : input = .node (confirmation.input isValidator))
      (valid : confirmation.validateBasic sdk = .ok ())
      (handled : before.handleConfirm sdk geth isValidator confirmation = .ok after.keeper.confirms)
      (keys : after.keeper.keys = before.keeper.keys)

theorem blockStep_book {before after : BlockNode β τ σ} {input : BlockInput β τ σ}
    {outputs : List BlockOutput} (condition : before.Attributes sdk geth input)
    (step : blockStep sdk bank geth evm others staking params before input = some (after, outputs)) :
    BookStep sdk geth before.node after.node input := by
  -- only a confirmation is accepted
  have silentOf : (∀ isValidator (confirmation : Confirmation),
      input ≠ .node (confirmation.input isValidator)) →
      ∀ operator confirmation, ¬ before.node.AcceptsNow sdk geth input operator confirmation :=
    fun other operator confirmation ⟨isValidator, _, _, same, _⟩ => other isValidator confirmation same
  cases blockStep_cases step with
  | staking change taken node cursors height silent =>
      subst taken
      exact .quiet (silentOf fun _ _ same => by cases same) (by rw [node]) (by rw [node])
  | within action made taken inside nodeStepped slashing height reported =>
      subst taken
      rcases nodeStep_confirms nodeStepped with same | ⟨isValidator, confirmation, is, valid, handled⟩ |
          ⟨_, _, _, is, _⟩
      · have silent : ∀ operator confirmation, ¬ before.node.AcceptsNow sdk geth
            (.node action : BlockInput β τ σ) operator confirmation := by
          rintro operator confirmation ⟨isValidator, stored, _, taken, valid, handled, _⟩
          obtain rfl := BlockInput.node.inj taken
          rw [NodeInput.atHeight_eq_input.mpr rfl] at nodeStepped
          obtain ⟨key, _, free, adds⟩ := Node.handleConfirm_adds handled
          have there := (adds key confirmation).mpr (Or.inl ⟨rfl, rfl⟩)
          rw [← nodeStep_of_handled valid handled nodeStepped, same] at there
          exact free there
        rcases nodeStep_keys nodeStepped with keys | ⟨isValidator, msg, is, registers⟩ | ⟨_, _, _, is⟩
        · exact .quiet silent same keys
        · cases action <;> cases is
          exact .registered isValidator msg rfl silent same registers
        · rw [is] at inside
          exact inside.elim
      · rw [NodeInput.atHeight_eq_input] at is
        subst is
        rcases nodeStep_keys nodeStepped with keys | ⟨_, _, is, _⟩ | ⟨_, _, _, is⟩
        · exact .accepted isValidator confirmation rfl valid handled keys
        · cases confirmation <;> cases is
        · cases confirmation <;> cases is
      · rw [is] at inside
        exact inside.elim
  | ended isValidator env chain report rounds taken running fits slashed ends node height reported =>
      subst taken
      exact .quiet (silentOf fun _ confirmation same => by cases confirmation <;> cases same)
        (by rw [node]; rfl) (by rw [node]; rfl)
  | halted isValidator env taken running node slashing height reported =>
      subst taken
      exact .quiet (silentOf fun _ confirmation same => by cases confirmation <;> cases same)
        (by rw [node]) (by rw [node])
  | restarted valsetReward attestations delegateKeys taken restarts slashing height silent =>
      subst taken
      exact condition.elim

theorem signerBook_fresh (network : Params) (balances : β) (eth : Ethereum τ)
    {accepted : ValAddress → Confirmation → Prop} (none : ∀ operator confirmation,
      ¬ accepted operator confirmation) :
    SignerBook sdk accepted (⟨KeeperState.fresh network balances, eth, false⟩ : Node β τ) where
  filed := ⟨⟨Outgoing.tidy_empty, DenomIndex.filed_empty⟩, Store.all_empty _⟩
  index := Store.all_empty _
  history := DelegateKeys.history_empty sdk
  unshared := DelegateKeys.unshared_empty
  placed key confirmation found := absurd found (Confirms.hasAt_empty key confirmation)
  sent key confirmation found := absurd found (Confirms.hasAt_empty key confirmation)
  stored operator confirmation given := absurd given (none operator confirmation)

variable {accepted accepted' : ValAddress → Confirmation → Prop} {node next : Node β τ}

/-- Nothing happens to registry and confirmations. -/
theorem SignerBook.same (book : SignerBook sdk accepted node) (filed : next.keeper.chain.Filed)
    (index : next.keeper.chain.app.outgoing.IndexFits)
    (confirms : next.keeper.confirms = node.keeper.confirms)
    (keys : next.keeper.keys = node.keeper.keys)
    (iff : ∀ operator confirmation, accepted' operator confirmation ↔ accepted operator confirmation) :
    SignerBook sdk accepted' next where
  filed := filed
  index := index
  history := keys ▸ book.history
  unshared := keys ▸ book.unshared
  placed key confirmation found := book.placed key confirmation (confirms ▸ found)
  sent key confirmation found := by
    obtain ⟨operator, from_⟩ := book.sent key confirmation (confirms ▸ found)
    exact ⟨operator, (iff _ _).mpr from_⟩
  stored operator confirmation given := by
    rw [confirms, keys]
    exact book.stored operator confirmation ((iff _ _).mp given)

/-- A registration. -/
theorem SignerBook.register (book : SignerBook sdk accepted node) (filed : next.keeper.chain.Filed)
    (index : next.keeper.chain.app.outgoing.IndexFits)
    {isValidator : ValAddress → Bool} {msg : MsgSetOrchestratorAddress}
    (keepsAccounts : node.keeper.keys.KeepsOrchestrators sdk (isValidator, msg))
    (keepsAddresses : node.keeper.keys.KeepsAddresses sdk (isValidator, msg))
    (confirms : next.keeper.confirms = node.keeper.confirms)
    (step : delegateStep sdk node.keeper.keys (isValidator, msg) = some (next.keeper.keys, []))
    (iff : ∀ operator confirmation, accepted' operator confirmation ↔ accepted operator confirmation) :
    SignerBook sdk accepted' next where
  filed := filed
  index := index
  history := book.history.step step
  unshared := (DelegateKeys.unshared_step_iff step).mpr ⟨book.unshared, keepsAddresses⟩
  placed key confirmation found := book.placed key confirmation (confirms ▸ found)
  sent key confirmation found := by
    obtain ⟨operator, from_⟩ := book.sent key confirmation (confirms ▸ found)
    exact ⟨operator, (iff _ _).mpr from_⟩
  stored operator confirmation given := by
    obtain ⟨there, sent⟩ := book.stored operator confirmation ((iff _ _).mp given)
    refine ⟨confirms ▸ there, ?_⟩
    rcases DelegateKeys.delegateStep_cases step with ⟨same, _⟩ | ⟨validator, account, registers, same⟩
    · rw [same]
      exact sent
    · rw [same]
      exact sent.register registers.unset (keepsAccounts validator account registers)

/-- **A confirmation is accepted.** -/
theorem SignerBook.accept (book : SignerBook sdk accepted node) (filed : next.keeper.chain.Filed)
    (index : next.keeper.chain.app.outgoing.IndexFits)
    {isValidator : ValAddress → Bool} {confirmation : Confirmation}
    (valid : confirmation.validateBasic sdk = .ok ())
    (handled : node.handleConfirm sdk geth isValidator confirmation = .ok next.keeper.confirms)
    (keys : next.keeper.keys = node.keeper.keys)
    (small : ∀ msg, confirmation = .logicCall msg → msg.invalidationNonce < 2 ^ 64)
    (own : ∀ msg, confirmation = .valset msg → ∀ operator ethAddress,
      (node.keeper.registry isValidator).signer
        ((sdk.accAddressFromBech32 msg.orchestrator).getD []) = .ok (operator, ethAddress) →
      msg.ethAddress = ethAddress)
    (iff : ∀ operator other, accepted' operator other ↔ accepted operator other ∨
      other = confirmation ∧ ∃ ethAddress, (node.keeper.registry isValidator).signer
        ((sdk.accAddressFromBech32 confirmation.orchestrator).getD []) = .ok (operator, ethAddress)) :
    SignerBook sdk accepted' next := by
  obtain ⟨place, placed, free, adds⟩ := Node.handleConfirm_adds handled
  obtain ⟨signer, signed, signs⟩ := Node.handleConfirm_signer handled
  obtain ⟨account, parsed⟩ := Confirmation.account_of_place placed
  refine ⟨filed, index, keys ▸ book.history, keys ▸ book.unshared, fun key other found => ?_,
    fun key other found => ?_, fun operator other given => ?_⟩
  · rcases (adds key other).mp found with ⟨rfl, rfl⟩ | earlier
    · refine ⟨placed, ?_⟩
      cases other with
      | valset msg => trivial
      | batch msg => exact length_of_validateEthAddress (MsgConfirmBatch.validateBasic_eq_ok valid).2
      | logicCall msg => exact small msg rfl
    · exact book.placed key other earlier
  · rcases (adds key other).mp found with ⟨rfl, rfl⟩ | earlier
    · exact ⟨signer, (iff _ _).mpr (Or.inr ⟨rfl, signed, signs⟩)⟩
    · obtain ⟨operator, from_⟩ := book.sent key other earlier
      exact ⟨operator, (iff _ _).mpr (Or.inl from_)⟩
  · rw [keys]
    rcases (iff _ _).mp given with earlier | ⟨rfl, ethAddress, now⟩
    · obtain ⟨⟨key, there⟩, sent⟩ := book.stored operator other earlier
      exact ⟨⟨key, (adds key other).mpr (Or.inr there)⟩, sent⟩
    · have carries : other.Carries ethAddress := by
        cases other with
        | valset msg => exact own msg rfl operator ethAddress now
        | batch msg => trivial
        | logicCall msg => trivial
      rw [parsed, Option.getD_some] at now
      obtain ⟨bound, registered⟩ := Registry.signer_eq_ok now
      exact ⟨⟨place, (adds place other).mpr (Or.inl ⟨rfl, rfl⟩)⟩, account, ethAddress, parsed, bound,
        registered, carries⟩

/-- The chain files what it stores, without a restart also in the index by blocks. -/
theorem blockStep_filed {before after : BlockNode β τ σ} {input : BlockInput β τ σ}
    {outputs : List BlockOutput} (condition : before.Attributes sdk geth input)
    (filed : before.node.keeper.chain.Filed) (index : before.node.keeper.chain.app.outgoing.IndexFits)
    (step : blockStep sdk bank geth evm others staking params before input = some (after, outputs)) :
    after.node.keeper.chain.Filed ∧ after.node.keeper.chain.app.outgoing.IndexFits := by
  cases blockStep_cases step with
  | staking change taken node cursors height silent =>
      rw [node]
      exact ⟨filed, index⟩
  | within action made taken inside nodeStepped slashing height reported =>
      have files := filed.node_step nodeStepped
      exact ⟨files, index.within files inside nodeStepped⟩
  | ended isValidator env chain report rounds taken running fits slashed ends node height reported =>
      rw [node]
      exact ⟨filed.endBlock ends, index.endBlock ends⟩
  | halted isValidator env taken running node slashing height reported =>
      rw [node]
      exact ⟨filed, index⟩
  | restarted valsetReward attestations delegateKeys taken restarts slashing height silent =>
      subst taken
      exact condition.elim

/-- **The book of a run.** -/
theorem signerBook_of_run (network : Params) (balances : β) (eth : Ethereum τ) (start : σ)
    {inputs : List (BlockInput β τ σ)} {final : BlockNode β τ σ} {trace : List BlockOutput}
    (runs : run (blockStep sdk bank geth evm others staking params)
      (BlockNode.fresh network balances eth start) inputs = some (final, trace))
    (meets : StepsMeet (blockStep sdk bank geth evm others staking params)
      (BlockNode.Attributes sdk geth) (BlockNode.fresh network balances eth start) inputs) :
    SignerBook sdk (AcceptedFrom sdk bank geth evm others staking params
      (BlockNode.fresh network balances eth start) inputs) final.node := by
  refine run_history_of_meets (BlockNode.Attributes sdk geth) (fun past state => SignerBook sdk
    (AcceptedFrom sdk bank geth evm others staking params (BlockNode.fresh network balances eth start)
      past) state.node) ?_ meets (signerBook_fresh network balances eth ?_) runs
  · intro past trace state input next outputs condition reached book step
    have iff := acceptedFrom_snoc reached input
    obtain ⟨filed, index⟩ := blockStep_filed condition book.filed book.index step
    cases blockStep_book condition step with
    | quiet silent confirms keys =>
        refine book.same filed index confirms keys fun operator confirmation => ?_
        rw [iff, or_iff_left (silent operator confirmation)]
    | registered isValidator msg taken silent confirms registers =>
        subst taken
        refine book.register filed index condition.1 condition.2 confirms registers
          fun operator confirmation => ?_
        rw [iff, or_iff_left (silent operator confirmation)]
    | accepted isValidator confirmation taken valid handled keys =>
        subst taken
        refine book.accept filed index valid handled keys ?_ ?_ fun operator other => ?_
        · rintro msg rfl
          exact condition
        · rintro msg rfl
          exact condition _ handled
        · rw [iff]
          refine or_congr_right ⟨?_, ?_⟩
          · rintro ⟨isValidator', after, ethAddress, same, _, _, signs⟩
            obtain ⟨rfl, rfl⟩ := Confirmation.input_inj (BlockInput.node.inj same)
            exact ⟨rfl, ethAddress, signs⟩
          · rintro ⟨rfl, ethAddress, signs⟩
            exact ⟨isValidator, _, ethAddress, rfl, valid, handled, signs⟩
  · rintro operator confirmation ⟨earlier, _, later, _, _, _, _, split, _⟩
    simp at split

end Runs

end NabBridge
