/-
**What a confirmation was accepted for.**

The handlers of confirmations read the object first and refuse a message that names none. For logic calls
the test never fires: `GetOutgoingLogicCall` returns the address of a record that it makes up, so a
signature of the empty call is accepted under any invalidation id and nonce, and a cancellation of a call
that is not there reports success.

* `nodeStep_confirms`: a step stores no confirmation, or one that its handler has accepted, or restarts;
* `Node.restart_confirms`: what a restart reads back was stored before;
* `confirms_attributed`: in a run where no message confirms a made-up call, every stored confirmation was
  accepted in a state that had its object; and exactly which messages are refused.
-/

import NabBridge.Proof.Identifiers
import NabBridge.Proof.Relaying

namespace NabBridge

/-! ### The three kinds together -/

/-- A confirmation. -/
inductive Confirmation where
  | valset (msg : MsgValsetConfirm)
  | batch (msg : MsgConfirmBatch)
  | logicCall (msg : MsgConfirmLogicCall)
  deriving DecidableEq

/-- Setting a confirmation of any kind. -/
def Confirms.file (sdk : Sdk) (confirms : Confirms) :
    Confirmation → Outcome Empty ConfirmPanic Confirms
  | .valset msg => confirms.setValsetConfirm sdk msg
  | .batch msg => confirms.setBatchConfirm sdk msg
  | .logicCall msg => confirms.setLogicCallConfirm sdk msg

/-- A confirmation is in the store. -/
def Confirms.HasAt (confirms : Confirms) (key : StoreKey) : Confirmation → Prop
  | .valset msg => confirms.valsets.get key = some msg
  | .batch msg => confirms.batches.get key = some msg
  | .logicCall msg => confirms.logicCalls.get key = some msg

/-- The keys a confirmation can be stored under. -/
def Confirmation.FiledUnder (key : StoreKey) : Confirmation → Prop
  | .valset msg => ∃ orchestrator, key = getValsetConfirmKey msg.nonce orchestrator
  | .batch msg => ∃ orchestrator, key = getBatchConfirmKey msg.tokenContract msg.nonce orchestrator
  | .logicCall msg => ∃ invalidationId orchestrator, decodeString msg.invalidationId = some invalidationId ∧
      key = getLogicConfirmKey invalidationId msg.invalidationNonce orchestrator

theorem Confirms.hasAt_empty (key : StoreKey) (confirmation : Confirmation) :
    ¬ Confirms.empty.HasAt key confirmation := by
  cases confirmation <;> exact fun bad => by cases bad

/-- **Setting a confirmation** adds it under a key of its own. -/
theorem Confirms.file_hasAt {sdk : Sdk} {confirms after : Confirms} {confirmation other : Confirmation}
    {key : StoreKey} (filed : confirms.file sdk confirmation = .ok after)
    (found : after.HasAt key other) :
    other = confirmation ∧ other.FiledUnder key ∨ confirms.HasAt key other := by
  cases confirmation with
  | valset msg =>
      unfold Confirms.file Confirms.setValsetConfirm at filed
      cases parsed : sdk.accAddressFromBech32 msg.orchestrator with
      | none => simp [parsed] at filed
      | some orchestrator =>
          simp only [parsed, Outcome.ok.injEq] at filed
          subst filed
          cases other with
          | valset stored =>
              rcases Store.of_get_set found with ⟨here, rfl⟩ | earlier
              · exact Or.inl ⟨rfl, orchestrator, here⟩
              · exact Or.inr earlier
          | batch stored => exact Or.inr found
          | logicCall stored => exact Or.inr found
  | batch msg =>
      unfold Confirms.file Confirms.setBatchConfirm at filed
      cases parsed : sdk.accAddressFromBech32 msg.orchestrator with
      | none => simp [parsed] at filed
      | some orchestrator =>
          simp only [parsed, Outcome.ok.injEq] at filed
          subst filed
          cases other with
          | batch stored =>
              rcases Store.of_get_set found with ⟨here, rfl⟩ | earlier
              · exact Or.inl ⟨rfl, orchestrator, here⟩
              · exact Or.inr earlier
          | valset stored => exact Or.inr found
          | logicCall stored => exact Or.inr found
  | logicCall msg =>
      unfold Confirms.file Confirms.setLogicCallConfirm at filed
      cases decoded : decodeString msg.invalidationId with
      | none => simp [decoded] at filed
      | some invalidationId =>
          cases parsed : sdk.accAddressFromBech32 msg.orchestrator with
          | none => simp [decoded, parsed] at filed
          | some orchestrator =>
              simp only [decoded, parsed, Outcome.ok.injEq] at filed
              subst filed
              cases other with
              | logicCall stored =>
                  rcases Store.of_get_set found with ⟨here, rfl⟩ | earlier
                  · exact Or.inl ⟨rfl, invalidationId, orchestrator, decoded, here⟩
                  · exact Or.inr earlier
              | valset stored => exact Or.inr found
              | batch stored => exact Or.inr found

/-- The confirmations of one list of a genesis file. -/
theorem genesisConfirms_hasAt {α : Type} {sdk : Sdk} (wrap : α → Confirmation) {msgs : List α}
    {confirms after : Confirms}
    (imported : msgs.foldlM (fun confirms msg => genesisConfirm (confirms.file sdk (wrap msg))) confirms =
      .ok after) {key : StoreKey} {other : Confirmation} (found : after.HasAt key other) :
    (∃ msg ∈ msgs, other = wrap msg) ∧ other.FiledUnder key ∨ confirms.HasAt key other := by
  induction msgs generalizing confirms with
  | nil =>
      obtain rfl := Outcome.ok.inj imported
      exact Or.inr found
  | cons msg rest ih =>
      rw [List.foldlM_cons] at imported
      obtain ⟨next, first, imported⟩ := Outcome.bind_eq_ok.mp imported
      have filed : confirms.file sdk (wrap msg) = .ok next := by
        cases done : confirms.file sdk (wrap msg) with
        | ok value =>
            rw [done] at first
            exact congrArg _ (Outcome.ok.inj first)
        | error reason => exact reason.elim
        | panic reason =>
            rw [done] at first
            cases first
      rcases ih imported with ⟨⟨later, member, same⟩, under⟩ | earlier
      · exact Or.inl ⟨⟨later, List.mem_cons_of_mem _ member, same⟩, under⟩
      · rcases Confirms.file_hasAt filed earlier with ⟨same, under⟩ | before
        · exact Or.inl ⟨⟨msg, List.mem_cons_self, same⟩, under⟩
        · exact Or.inr before

/-! ### A restart -/

/-- What an export needs of a confirmation to write it as it is. -/
def Confirmation.Proper : Confirmation → Prop
  | .batch msg => msg.nonce ≠ 0 ∧ msg.tokenContract ≠ []
  | _ => True

theorem mem_prefixValues {α : Type} {store : Store StoreKey α} {prefixKey : StoreKey} {value : α} :
    value ∈ prefixValues store prefixKey ↔ ∃ key, store.get key = some value ∧ prefixKey <+: key := by
  unfold prefixValues
  simp only [List.mem_map, List.mem_filter, List.isPrefixOf_iff_prefix, Prod.exists,
    exists_eq_right, Store.mem_entries_iff]

theorem mem_rangeValues {α : Type} {store : Store StoreKey α} {prefixKey : StoreKey} {value : α}
    (member : value ∈ rangeValues store prefixKey) : ∃ key, store.get key = some value := by
  unfold rangeValues at member
  obtain ⟨⟨key, stored⟩, inside, rfl⟩ := List.mem_map.mp member
  exact ⟨key, (Store.mem_entries_iff _ _ _).mp (List.mem_of_mem_filter inside)⟩

theorem orPreset_of_ne {stored preset : Nat} (different : stored ≠ 0) :
    orPreset stored preset = stored := if_neg different

namespace Confirms

variable {confirms : Confirms}

/-- A validator set's confirmations are read back as they were stored. -/
theorem mem_getValsetConfirms
    (filed : ∀ key confirmation, confirms.HasAt key confirmation → confirmation.FiledUnder key)
    {nonce : Nat} {msg : MsgValsetConfirm} (member : msg ∈ confirms.getValsetConfirms nonce) :
    ∃ key, confirms.HasAt key (.valset msg) := by
  obtain ⟨stored, inside, rfl⟩ := List.mem_map.mp member
  obtain ⟨key, found, begins⟩ := mem_prefixValues.mp inside
  obtain ⟨orchestrator, rfl⟩ := filed key (.valset stored) found
  have same : nonce = stored.nonce := uint64Bytes_injective
    (eq_of_prefix_append (List.cons_prefix_cons.mp begins).2 (by simp))
  have kept : orPreset stored.nonce nonce = stored.nonce := by
    unfold orPreset
    split_ifs with zero
    · exact same
    · rfl
  rw [kept]
  exact ⟨_, found⟩

/-- So are a batch's. -/
theorem mem_getBatchConfirms
    (proper : ∀ key confirmation, confirms.HasAt key confirmation → confirmation.Proper)
    {nonce : Nat} {tokenContract : Bytes} {msg : MsgConfirmBatch}
    (member : msg ∈ confirms.getBatchConfirmByNonceAndTokenContract nonce tokenContract) :
    ∃ key, confirms.HasAt key (.batch msg) := by
  obtain ⟨stored, inside, rfl⟩ := List.mem_map.mp member
  obtain ⟨key, found, _⟩ := mem_prefixValues.mp inside
  obtain ⟨numbered, contract⟩ := proper key (.batch stored) found
  rw [orPreset_of_ne numbered, if_neg contract]
  exact ⟨key, found⟩

/-- A call's are, unless the call's nonce is filled in for that of another call. -/
theorem mem_getLogicConfirms {invalidationId : Bytes} {invalidationNonce : Nat}
    (keeps : ∀ msg ∈ rangeValues confirms.logicCalls
      (0x13 :: (keyBytes invalidationId ++ uint64Bytes invalidationNonce)),
      msg.invalidationNonce = 0 → invalidationNonce = 0) {msg : MsgConfirmLogicCall}
    (member : msg ∈ confirms.getLogicConfirmByInvalidationIDAndNonce invalidationId invalidationNonce) :
    ∃ key, confirms.HasAt key (.logicCall msg) := by
  obtain ⟨stored, inside, rfl⟩ := List.mem_map.mp member
  obtain ⟨key, found⟩ := mem_rangeValues inside
  have kept : orPreset stored.invalidationNonce invalidationNonce = stored.invalidationNonce := by
    unfold orPreset
    split_ifs with zero
    · rw [keeps stored inside zero, zero]
    · rfl
  rw [kept]
  exact ⟨key, found⟩

end Confirms

section Restart

variable {β τ : Type} {sdk : Sdk} {geth : Geth}

/-- The condition on a restart: no confirmation of a call with nonce zero lies in the range of a call with
another nonce. -/
def Node.KeepsNonces (node : Node β τ) : Prop :=
  ∀ call ∈ node.keeper.logicCalls.values, ∀ msg ∈ rangeValues node.keeper.confirms.logicCalls
    (0x13 :: (keyBytes call.invalidationId ++ uint64Bytes call.invalidationNonce)),
    msg.invalidationNonce = 0 → call.invalidationNonce = 0

instance (node : Node β τ) : Decidable node.KeepsNonces := by
  unfold Node.KeepsNonces; infer_instance

/-- **What a restart reads back** was stored before. -/
theorem Node.restart_confirms {node : Node β τ} {valsetReward : Coin} {attestations : List Attestation}
    {delegateKeys : List MsgSetOrchestratorAddress} {after : KeeperState β}
    (restarts : node.restart sdk geth valsetReward attestations delegateKeys = some after)
    (filed : ∀ key confirmation, node.keeper.confirms.HasAt key confirmation →
      confirmation.FiledUnder key)
    (proper : ∀ key confirmation, node.keeper.confirms.HasAt key confirmation → confirmation.Proper)
    (keeps : node.KeepsNonces) {key : StoreKey} {confirmation : Confirmation}
    (found : after.confirms.HasAt key confirmation) :
    confirmation.FiledUnder key ∧ ∃ key', node.keeper.confirms.HasAt key' confirmation := by
  unfold Node.restart at restarts
  split_ifs at restarts
  obtain ⟨valsets, batches, first, second, third⟩ :=
    initGenesis_confirms (Outcome.value?_eq_some.mp restarts)
  rcases genesisConfirms_hasAt .logicCall third found with ⟨⟨msg, member, rfl⟩, under⟩ | found
  · obtain ⟨call, inside, member⟩ := List.mem_flatMap.mp member
    exact ⟨under, Confirms.mem_getLogicConfirms (keeps call inside) member⟩
  rcases genesisConfirms_hasAt .batch second found with ⟨⟨msg, member, rfl⟩, under⟩ | found
  · obtain ⟨batch, _, member⟩ := List.mem_flatMap.mp member
    exact ⟨under, Confirms.mem_getBatchConfirms proper member⟩
  rcases genesisConfirms_hasAt .valset first found with ⟨⟨msg, member, rfl⟩, under⟩ | absent
  · obtain ⟨valset, _, member⟩ := List.mem_flatMap.mp member
    exact ⟨under, Confirms.mem_getValsetConfirms filed member⟩
  · exact absurd absent (Confirms.hasAt_empty key confirmation)

end Restart

/-! ### The handlers -/

section Handlers

variable {β τ : Type} (sdk : Sdk) (geth : Geth)

/-- The action that brings a confirmation. -/
def Confirmation.input (isValidator : ValAddress → Bool) : Confirmation → NodeInput β τ
  | .valset msg => .valsetConfirm isValidator msg
  | .batch msg => .confirmBatch isValidator msg
  | .logicCall msg => .confirmLogicCall isValidator msg

/-- The handler of a confirmation. -/
def Node.handleConfirm (node : Node β τ) (isValidator : ValAddress → Bool) :
    Confirmation → Outcome ConfirmError ConfirmPanic NabBridge.Confirms
  | .valset msg =>
      valsetConfirm sdk geth node.keeper.params.gravityId (node.keeper.registry isValidator)
        node.keeper.chain.valsets.valsets msg node.keeper.confirms
  | .batch msg =>
      confirmBatch sdk geth node.keeper.params.gravityId (node.keeper.registry isValidator)
        node.keeper.chain.app.outgoing msg node.keeper.confirms
  | .logicCall msg =>
      confirmLogicCall sdk geth node.keeper.params.gravityId (node.keeper.registry isValidator)
        node.keeper.logicCalls msg node.keeper.confirms

/-- What a confirmation confirms is in the store. -/
def Node.HasObject (node : Node β τ) : Confirmation → Prop
  | .valset msg => ∃ valset, node.keeper.chain.valsets.valsets.get (getValsetKey msg.nonce) = some valset
  | .batch msg => ∃ batch,
      node.keeper.chain.app.outgoing.batches.get (getOutgoingTxBatchKey msg.tokenContract msg.nonce) =
        some batch
  | .logicCall msg => ∃ invalidationId call, decodeString msg.invalidationId = some invalidationId ∧
      node.keeper.logicCalls.get (getOutgoingLogicCallKey invalidationId msg.invalidationNonce) =
        some call

/-- The record that `GetOutgoingLogicCall` makes up for a call that is not stored. -/
def emptyLogicCall (invalidationId : Bytes) (invalidationNonce : Nat) : OutgoingLogicCall where
  transfers := []
  fees := []
  logicContractAddress := []
  payload := []
  timeout := 0
  invalidationId := invalidationId
  invalidationNonce := invalidationNonce
  block := 0

theorem LogicCalls.getOutgoingLogicCall_of_absent {calls : LogicCalls} {invalidationId : Bytes}
    {invalidationNonce : Nat}
    (absent : calls.get (getOutgoingLogicCallKey invalidationId invalidationNonce) = none) :
    calls.getOutgoingLogicCall invalidationId invalidationNonce =
      emptyLogicCall invalidationId invalidationNonce := by
  unfold getOutgoingLogicCall
  rw [absent]
  rfl

/-- The message confirms a call that is not stored, with a good signature of the empty call, and for the
first time. -/
def Node.ConfirmsEmpty (node : Node β τ) (isValidator : ValAddress → Bool)
    (msg : MsgConfirmLogicCall) : Prop :=
  ∃ invalidationId ∈ decodeString msg.invalidationId,
    node.keeper.logicCalls.get (getOutgoingLogicCallKey invalidationId msg.invalidationNonce) = none ∧
    (∃ checkpoint ∈ ((emptyLogicCall invalidationId msg.invalidationNonce).getCheckpoint geth
        node.keeper.params.gravityId).value?,
      confirmHandlerCommon sdk geth (node.keeper.registry isValidator) msg.orchestrator msg.signature
        checkpoint = .ok ()) ∧
    ∃ orchestrator ∈ sdk.accAddressFromBech32 msg.orchestrator,
      node.keeper.confirms.logicCalls.has
        (getLogicConfirmKey invalidationId msg.invalidationNonce orchestrator) = false

instance (node : Node β τ) (isValidator : ValAddress → Bool) (msg : MsgConfirmLogicCall) :
    Decidable (node.ConfirmsEmpty sdk geth isValidator msg) := by
  unfold Node.ConfirmsEmpty; infer_instance

variable {sdk geth}

/-- **An accepted confirmation** is stored, and its object was there, or it is of an empty call. -/
theorem Node.handleConfirm_eq_ok {node : Node β τ} {isValidator : ValAddress → Bool}
    {confirmation : Confirmation} {after : NabBridge.Confirms}
    (handled : node.handleConfirm sdk geth isValidator confirmation = .ok after) :
    node.keeper.confirms.file sdk confirmation = .ok after ∧
      (node.HasObject confirmation ∨
        ∃ msg, confirmation = .logicCall msg ∧ node.ConfirmsEmpty sdk geth isValidator msg) := by
  cases confirmation with
  | valset msg =>
      obtain ⟨valset, _, orchestrator, stored, _, _, parsed, rfl⟩ := valsetConfirm_eq_ok handled
      refine ⟨?_, Or.inl ⟨valset, stored⟩⟩
      simp only [NabBridge.Confirms.file, NabBridge.Confirms.setValsetConfirm, parsed]
  | batch msg =>
      obtain ⟨batch, _, orchestrator, stored, _, _, parsed, rfl⟩ := confirmBatch_eq_ok handled
      obtain ⟨found, stored, _⟩ := Option.map_eq_some_iff.mp stored
      refine ⟨?_, Or.inl ⟨found, stored⟩⟩
      simp only [NabBridge.Confirms.file, NabBridge.Confirms.setBatchConfirm, parsed]
  | logicCall msg =>
      obtain ⟨invalidationId, checkpoint, orchestrator, decoded, computed, accepted, parsed, new, rfl⟩ :=
        confirmLogicCall_eq_ok_iff.mp handled
      refine ⟨by simp only [NabBridge.Confirms.file, NabBridge.Confirms.setLogicCallConfirm, decoded, parsed], ?_⟩
      cases stored : node.keeper.logicCalls.get
          (getOutgoingLogicCallKey invalidationId msg.invalidationNonce) with
      | some call => exact Or.inl ⟨invalidationId, call, decoded, stored⟩
      | none =>
          rw [LogicCalls.getOutgoingLogicCall_of_absent stored] at computed
          refine Or.inr ⟨msg, rfl, invalidationId, decoded, stored,
            ⟨checkpoint, Outcome.value?_eq_some.mpr computed, accepted⟩, orchestrator, parsed, new⟩

/-- **Which messages a missing call does not stop.** -/
theorem Node.confirmLogicCall_refused_iff (node : Node β τ) (isValidator : ValAddress → Bool)
    (msg : MsgConfirmLogicCall) :
    (¬ node.HasObject (.logicCall msg) →
      ∀ after, node.handleConfirm sdk geth isValidator (.logicCall msg) ≠ .ok after) ↔
      ¬ node.ConfirmsEmpty sdk geth isValidator msg := by
  constructor
  · rintro refused ⟨invalidationId, decoded, absent, ⟨checkpoint, computed, accepted⟩, orchestrator,
      parsed, new⟩
    refine refused ?_ _ (confirmLogicCall_eq_ok_iff.mpr
      ⟨invalidationId, checkpoint, orchestrator, decoded, ?_, accepted, parsed, new, rfl⟩)
    · rintro ⟨other, call, decoded', stored⟩
      obtain rfl := Option.some.inj (decoded'.symm.trans decoded)
      rw [absent] at stored
      cases stored
    · rw [LogicCalls.getOutgoingLogicCall_of_absent absent]
      exact Outcome.value?_eq_some.mp computed
  · intro real absent after handled
    rcases (Node.handleConfirm_eq_ok handled).2 with present | ⟨_, same, madeUp⟩
    · exact absent present
    · exact real (Confirmation.logicCall.inj same ▸ madeUp)

/-- **A missing call does not stop a cancellation.** -/
theorem LogicCalls.cancel_refused_iff (calls : LogicCalls) (invalidationId : Bytes)
    (invalidationNonce : Nat) :
    (calls.get (getOutgoingLogicCallKey invalidationId invalidationNonce) = none →
      calls.cancelOutgoingLogicCallResult invalidationId invalidationNonce = none) ↔
      ∃ call, calls.get (getOutgoingLogicCallKey invalidationId invalidationNonce) = some call := by
  rw [calls.cancelOutgoingLogicCallResult_eq, ← Option.isSome_iff_exists, ← Option.ne_none_iff_isSome]
  exact ⟨fun refused absent => (by cases refused absent), fun present absent => absurd absent present⟩

end Handlers

/-! ### One step -/

section Step

variable {β τ : Type} {sdk : Sdk} {bank : BankKeeper β} {geth : Geth} {evm : Evm}
  {others : Contracts τ}

/-- `ValidateBasic` of a confirmation. -/
def Confirmation.validateBasic (sdk : Sdk) : Confirmation → Except ConfirmError Unit
  | .valset msg => msg.validateBasic sdk
  | .batch msg => msg.validateBasic sdk
  | .logicCall msg => msg.validateBasic sdk

/-- **The confirmations after a step**: those before it, those with an accepted one, or those of a
restart. -/
theorem nodeStep_confirms {node next : Node β τ} {input : NodeInput β τ} {outputs : List NodeOutput}
    (step : nodeStep sdk bank geth evm others node input = some (next, outputs)) :
    next.keeper.confirms = node.keeper.confirms ∨
      (∃ isValidator confirmation, input = confirmation.input isValidator ∧
        confirmation.validateBasic sdk = .ok () ∧
        node.handleConfirm sdk geth isValidator confirmation = .ok next.keeper.confirms) ∨
      ∃ valsetReward attestations delegateKeys,
        input = .restart valsetReward attestations delegateKeys ∧
        node.restart sdk geth valsetReward attestations delegateKeys = some next.keeper := by
  -- the three messages differ in nothing else than the kind of the confirmation
  have handled : ∀ isValidator (confirmation : Confirmation),
      next = node.withConfirms (deliverConfirm (confirmation.validateBasic sdk)
        (node.handleConfirm sdk geth isValidator confirmation) node.keeper.confirms) →
      next.keeper.confirms = node.keeper.confirms ∨
        confirmation.validateBasic sdk = .ok () ∧
          node.handleConfirm sdk geth isValidator confirmation = .ok next.keeper.confirms := by
    rintro isValidator confirmation rfl
    rcases deliverConfirm_cases (confirmation.validateBasic sdk)
        (node.handleConfirm sdk geth isValidator confirmation) node.keeper.confirms with
      alone | ⟨valid, after, accepted, stored⟩
    · exact Or.inl alone
    · exact Or.inr ⟨valid, accepted.trans (congrArg _ stored.symm)⟩
  cases input with
  | bridge isValidator action =>
      simp only [nodeStep] at step
      split at step
      · cases step
      · obtain ⟨rfl, _⟩ := Prod.mk.inj (Option.some.inj step)
        exact Or.inl rfl
  | setOutgoingLogicCall call =>
      simp only [nodeStep] at step
      split_ifs at step
      split at step <;> obtain ⟨rfl, _⟩ := Prod.mk.inj (Option.some.inj step) <;> exact Or.inl rfl
  | deleteOutgoingLogicCall invalidationId invalidationNonce =>
      simp only [nodeStep] at step
      split_ifs at step
      obtain ⟨rfl, _⟩ := Prod.mk.inj (Option.some.inj step)
      exact Or.inl rfl
  | setOrchestratorAddress isValidator msg =>
      simp only [nodeStep] at step
      split_ifs at step
      obtain ⟨rfl, _⟩ := Prod.mk.inj (Option.some.inj step)
      exact Or.inl rfl
  | valsetConfirm isValidator msg =>
      simp only [nodeStep] at step
      split_ifs at step
      obtain ⟨same, _⟩ := Prod.mk.inj (Option.some.inj step)
      exact (handled isValidator (.valset msg) same.symm).imp_right fun found =>
        Or.inl ⟨isValidator, _, rfl, found⟩
  | confirmBatch isValidator msg =>
      simp only [nodeStep] at step
      split_ifs at step
      obtain ⟨same, _⟩ := Prod.mk.inj (Option.some.inj step)
      exact (handled isValidator (.batch msg) same.symm).imp_right fun found =>
        Or.inl ⟨isValidator, _, rfl, found⟩
  | confirmLogicCall isValidator msg =>
      simp only [nodeStep] at step
      split_ifs at step
      obtain ⟨same, _⟩ := Prod.mk.inj (Option.some.inj step)
      exact (handled isValidator (.logicCall msg) same.symm).imp_right fun found =>
        Or.inl ⟨isValidator, _, rfl, found⟩
  | evidence env subject signature =>
      simp only [nodeStep] at step
      split_ifs at step
      obtain ⟨rfl, _⟩ := Prod.mk.inj (Option.some.inj step)
      exact Or.inl rfl
  | setParams params =>
      simp only [nodeStep] at step
      split_ifs at step <;> obtain ⟨rfl, _⟩ := Prod.mk.inj (Option.some.inj step) <;> exact Or.inl rfl
  | restart valsetReward attestations delegateKeys =>
      obtain ⟨keeper, restarts, equal⟩ := Option.map_eq_some_iff.mp step
      obtain ⟨rfl, _⟩ := Prod.mk.inj equal
      exact Or.inr (Or.inr ⟨_, _, _, rfl, restarts⟩)

/-- An imported batch is under its own key. -/
theorem Node.restart_batch_key {node : Node β τ} {valsetReward : Coin}
    {attestations : List Attestation} {delegateKeys : List MsgSetOrchestratorAddress}
    {after : KeeperState β}
    (restarts : node.restart sdk geth valsetReward attestations delegateKeys = some after)
    {key : StoreKey} {batch : OutgoingTxBatch}
    (found : after.chain.app.outgoing.batches.get key = some batch) : key = batch.key := by
  unfold Node.restart at restarts
  split_ifs at restarts
  obtain ⟨_, _, _, _, called, calls, _, transfers⟩ :=
    initGenesis_eq_ok (Outcome.value?_eq_some.mp restarts)
  obtain ⟨_, _, ⟨_, callsKept⟩, _⟩ := genesisCalls_spec calls
  obtain ⟨⟨_, poolKept⟩, _⟩ := genesisTransfers_spec transfers
  rw [poolKept, callsKept] at found
  rcases (genesisBatches_spec _ Outgoing.empty).2.2.2.2 key batch found with absent | ⟨_, own⟩
  · cases absent
  · exact own

/-- **Where a stored batch comes from.** -/
theorem nodeStep_batch_key {node next : Node β τ} {input : NodeInput β τ} {outputs : List NodeOutput}
    (step : nodeStep sdk bank geth evm others node input = some (next, outputs)) {key : StoreKey}
    {batch : OutgoingTxBatch} (found : next.keeper.chain.app.outgoing.batches.get key = some batch) :
    node.keeper.chain.app.outgoing.batches.get key = some batch ∨ key = batch.key := by
  cases nodeStep_effect step with
  | bridge made effect calls keys params reported =>
      cases effect with
      | quiet outgoing valsets silent => exact Or.inl (outgoing.batches key batch found)
      | sent tx outgoing valsets reported => exact Or.inl (outgoing.batches ▸ found)
      | batchStored other outgoing valsets reported =>
          rw [outgoing.batches] at found
          rcases Store.of_get_set found with ⟨own, rfl⟩ | earlier
          · exact Or.inr own
          · exact Or.inl earlier
      | valsetStored made shuffled stored earlier outgoing recorded stores valsets silent reported =>
          rw [recorded] at found
          exact Or.inl (outgoing.batches key batch found)
  | logicCallStored call checkpoint computed outgoing valsets calls keys params reported =>
      rw [outgoing] at found
      exact Or.inl found
  | registered text validator orchestrator ethAddress parsed unset state silent =>
      rw [state] at found
      exact Or.inl found
  | setParams params set valid state silent =>
      rw [state] at found
      exact Or.inl found
  | restarted valsetReward attestations delegateKeys restart effect silent =>
      subst restart
      obtain ⟨keeper, restarts, equal⟩ := Option.map_eq_some_iff.mp step
      obtain ⟨rfl, _⟩ := Prod.mk.inj equal
      exact Or.inr (Node.restart_batch_key restarts found)
  | aside chain calls keys params silent => exact Or.inl (chain ▸ found)

/-! ### Runs -/

/-- **The condition**: no message confirms an empty call, and restarts keep the nonces. -/
def Node.Attributable (sdk : Sdk) (geth : Geth) (node : Node β τ) : NodeInput β τ → Prop
  | .confirmLogicCall isValidator msg =>
      msg.validateBasic sdk = .ok () → ¬ node.ConfirmsEmpty sdk geth isValidator msg
  | .restart _ _ _ => node.KeepsNonces
  | _ => True

instance (node : Node β τ) (input : NodeInput β τ) : Decidable (node.Attributable sdk geth input) := by
  rcases input <;> unfold Node.Attributable <;> infer_instance

/-- Stored batches and confirmations are under their own keys, and no nonce of a batch is zero. -/
structure Node.Filed (node : Node β τ) : Prop where
  numbered : Numbered node
  batches : ∀ key batch, node.keeper.chain.app.outgoing.batches.get key = some batch → key = batch.key
  filed : ∀ key confirmation, node.keeper.confirms.HasAt key confirmation → confirmation.FiledUnder key
  proper : ∀ key confirmation, node.keeper.confirms.HasAt key confirmation → confirmation.Proper

theorem Node.filed_fresh (params : Params) (balances : β) (eth : Ethereum τ) :
    Node.Filed (⟨KeeperState.fresh params balances, eth, false⟩ : Node β τ) where
  numbered := numbered_fresh params balances eth
  batches _ _ found := by cases found
  filed key confirmation found := absurd found (Confirms.hasAt_empty key confirmation)
  proper key confirmation found := absurd found (Confirms.hasAt_empty key confirmation)

/-- A confirmation that was accepted is written out as it is. -/
theorem Node.Filed.proper_of_handled {node : Node β τ} (here : node.Filed)
    {isValidator : ValAddress → Bool} {confirmation : Confirmation} {after : NabBridge.Confirms}
    (valid : confirmation.validateBasic sdk = .ok ())
    (handled : node.handleConfirm sdk geth isValidator confirmation = .ok after) :
    confirmation.Proper := by
  cases confirmation with
  | valset msg => trivial
  | logicCall msg => trivial
  | batch msg =>
      refine ⟨fun zero => ?_, fun empty => ?_⟩
      · obtain ⟨batch, stored⟩ : node.HasObject (.batch msg) := by
          rcases (Node.handleConfirm_eq_ok handled).2 with present | ⟨_, same, _⟩
          · exact present
          · cases same
        have number : msg.nonce = batch.batchNonce :=
          (getOutgoingTxBatchKey_inj.mp (here.batches _ batch stored)).2
        have positive := here.numbered.positive .batch batch.batchNonce
          (Outgoing.mem_batchNonces.mpr ⟨_, batch, stored, rfl⟩)
        rw [← number, zero] at positive
        exact absurd positive (by decide)
      · obtain ⟨_, address, _⟩ :=
          (validateEthAddress_eq_ok_iff _).mp (MsgConfirmBatch.validateBasic_eq_ok valid).2
        rw [empty] at address
        cases address

theorem Node.Filed.step {node next : Node β τ} {input : NodeInput β τ} {outputs : List NodeOutput}
    (here : node.Filed) (meets : node.Attributable sdk geth input)
    (step : nodeStep sdk bank geth evm others node input = some (next, outputs)) : next.Filed := by
  have batches : ∀ key batch,
      next.keeper.chain.app.outgoing.batches.get key = some batch → key = batch.key :=
    fun key batch found => (nodeStep_batch_key step found).elim (here.batches key batch) id
  rcases nodeStep_confirms step with same | ⟨isValidator, confirmation, rfl, valid, handled⟩ |
      ⟨valsetReward, attestations, delegateKeys, rfl, restarts⟩
  · exact ⟨here.numbered.step step, batches, same ▸ here.filed, same ▸ here.proper⟩
  · obtain ⟨filed, _⟩ := Node.handleConfirm_eq_ok handled
    refine ⟨here.numbered.step step, batches, fun key other found => ?_, fun key other found => ?_⟩
    · exact (Confirms.file_hasAt filed found).elim And.right (here.filed key other)
    · rcases Confirms.file_hasAt filed found with ⟨rfl, _⟩ | earlier
      · exact here.proper_of_handled valid handled
      · exact here.proper key other earlier
  · refine ⟨here.numbered.step step, batches, fun key other found => ?_, fun key other found => ?_⟩
    · exact (Node.restart_confirms restarts here.filed here.proper meets found).1
    · obtain ⟨_, key', earlier⟩ := Node.restart_confirms restarts here.filed here.proper meets found
      exact here.proper key' other earlier

/-- The confirmation was accepted at one of the inputs, in a state that had its object. -/
def AcceptedFor (sdk : Sdk) (bank : BankKeeper β) (geth : Geth) (evm : Evm) (others : Contracts τ)
    (start : Node β τ) (inputs : List (NodeInput β τ)) (confirmation : Confirmation) : Prop :=
  ∃ earlier isValidator later node outputs after,
    inputs = earlier ++ confirmation.input isValidator :: later ∧
    run (nodeStep sdk bank geth evm others) start earlier = some (node, outputs) ∧
    node.handleConfirm sdk geth isValidator confirmation = .ok after ∧ node.HasObject confirmation

theorem AcceptedFor.snoc {start : Node β τ} {inputs : List (NodeInput β τ)}
    {confirmation : Confirmation}
    (accepted : AcceptedFor sdk bank geth evm others start inputs confirmation)
    (input : NodeInput β τ) :
    AcceptedFor sdk bank geth evm others start (inputs ++ [input]) confirmation := by
  obtain ⟨earlier, isValidator, later, node, outputs, after, rfl, runs, handled, object⟩ := accepted
  exact ⟨earlier, isValidator, later ++ [input], node, outputs, after, List.append_assoc _ _ _, runs,
    handled, object⟩

/-- **Confirmations are of what was there.** For every run from a fresh start in which no message confirms
an empty call, and in which restarts keep the nonces, every stored confirmation was accepted when its
object was stored. And of the messages that name a missing call exactly these are not refused: the good
signatures of empty calls, and all cancellations. -/
theorem confirms_attributed (params : Params) (balances : β) (eth : Ethereum τ)
    (inputs : List (NodeInput β τ)) (node : Node β τ) (outputs : List NodeOutput)
    (runs : run (nodeStep sdk bank geth evm others) ⟨KeeperState.fresh params balances, eth, false⟩
      inputs = some (node, outputs)) :
    (StepsMeet (nodeStep sdk bank geth evm others) (Node.Attributable sdk geth)
        ⟨KeeperState.fresh params balances, eth, false⟩ inputs →
      ∀ key confirmation, node.keeper.confirms.HasAt key confirmation →
        AcceptedFor sdk bank geth evm others ⟨KeeperState.fresh params balances, eth, false⟩ inputs
          confirmation) ∧
    (∀ isValidator msg,
      (¬ node.HasObject (.logicCall msg) →
        ∀ after, node.handleConfirm sdk geth isValidator (.logicCall msg) ≠ .ok after) ↔
        ¬ node.ConfirmsEmpty sdk geth isValidator msg) ∧
    ∀ invalidationId invalidationNonce,
      (node.keeper.logicCalls.get (getOutgoingLogicCallKey invalidationId invalidationNonce) = none →
        node.keeper.logicCalls.cancelOutgoingLogicCallResult invalidationId invalidationNonce = none) ↔
        ∃ call, node.keeper.logicCalls.get
          (getOutgoingLogicCallKey invalidationId invalidationNonce) = some call := by
  refine ⟨fun meets => ?_, node.confirmLogicCall_refused_iff, node.keeper.logicCalls.cancel_refused_iff⟩
  refine (run_history_of_meets (Node.Attributable sdk geth)
    (fun past node => node.Filed ∧ ∀ key confirmation, node.keeper.confirms.HasAt key confirmation →
      AcceptedFor sdk bank geth evm others ⟨KeeperState.fresh params balances, eth, false⟩ past
        confirmation) ?_ meets ⟨Node.filed_fresh params balances eth,
      fun key confirmation found => absurd found (Confirms.hasAt_empty key confirmation)⟩ runs).2
  rintro past before state input next made condition reached ⟨filed, accepted⟩ step
  refine ⟨filed.step condition step, fun key confirmation found => ?_⟩
  rcases nodeStep_confirms step with same | ⟨isValidator, new, rfl, valid, handled⟩ |
      ⟨valsetReward, attestations, delegateKeys, rfl, restarts⟩
  · exact (accepted key confirmation (same ▸ found)).snoc input
  · obtain ⟨added, object⟩ := Node.handleConfirm_eq_ok handled
    rcases Confirms.file_hasAt added found with ⟨rfl, _⟩ | earlier
    · refine ⟨past, isValidator, [], state, before, _, rfl, reached, handled, ?_⟩
      rcases object with present | ⟨msg, rfl, madeUp⟩
      · exact present
      · exact absurd madeUp (condition valid)
    · exact (accepted key confirmation earlier).snoc _
  · obtain ⟨_, key', earlier⟩ :=
      Node.restart_confirms restarts filed.filed filed.proper condition found
    exact (accepted key' confirmation earlier).snoc _

end Step

/-! ### Two confirmations -/

section Examples

/-- A confirmation of the logic call with id seven and nonce one. -/
def exampleCallConfirm : MsgConfirmLogicCall where
  invalidationId := ascii "07"
  invalidationNonce := 1
  ethSigner := hexOfAddress 1
  orchestrator := ascii "cosmos1qyqszqgpqyqszqgpqyqszqgpqyqszqgpjnp7du"
  signature := exampleSignature.drop 2

/-- The validator registers and confirms a call that nobody has handed over. -/
def exampleEmptyConfirmed : List (NodeInput Ledger Unit) :=
  [exampleRegister, .confirmLogicCall (fun _ => true) exampleCallConfirm]

/-- **A confirmation of nothing** is stored, and the same call can be cancelled. -/
theorem empty_call_confirmed : ∃ node outputs key,
    run exampleNodeStep exampleNode exampleEmptyConfirmed = some (node, outputs) ∧
    node.keeper.confirms.HasAt key (.logicCall exampleCallConfirm) ∧
    (∀ earlier later, exampleEmptyConfirmed = earlier ++ later → ∀ node' outputs',
      run exampleNodeStep exampleNode earlier = some (node', outputs') →
      ¬ node'.HasObject (.logicCall exampleCallConfirm)) ∧
    node.keeper.logicCalls.cancelOutgoingLogicCallResult [7] 1 ≠ none := by
  have evaluated : (run exampleNodeStep exampleNode exampleEmptyConfirmed).any (fun result =>
      result.1.keeper.confirms.logicCalls.entries.map Prod.snd = [exampleCallConfirm] ∧
        ∀ count < 3, (run exampleNodeStep exampleNode (exampleEmptyConfirmed.take count)).all
          fun earlier => earlier.1.keeper.logicCalls.values = []) = true := by
    decide +kernel
  obtain ⟨⟨node, outputs⟩, runs, facts⟩ := (Option.any_eq_true _ _).mp evaluated
  obtain ⟨stored, empty⟩ := of_decide_eq_true facts
  obtain ⟨key, found⟩ := (Store.mem_values_iff node.keeper.confirms.logicCalls exampleCallConfirm).mp
    (by rw [Store.values, stored]; exact List.mem_singleton_self _)
  refine ⟨node, outputs, key, runs, found, fun earlier later split node' outputs' runs' => ?_,
    Option.some_ne_none _⟩
  have short : earlier.length < 3 := by
    have lengths := congrArg List.length split
    rw [List.length_append] at lengths
    exact Nat.lt_succ_of_le (Nat.le.intro lengths.symm)
  have whole := empty earlier.length short
  rw [split, List.take_left', runs'] at whole
  · rintro ⟨invalidationId, call, _, there⟩
    have member := (Store.mem_values_iff _ call).mpr ⟨_, there⟩
    rw [of_decide_eq_true whole] at member
    exact absurd member List.not_mem_nil
  · rfl

/-- The call is handed over first. -/
def exampleCallConfirmed : List (NodeInput Ledger Unit) :=
  [exampleRegister, .setOutgoingLogicCall exampleLogicCall,
    .confirmLogicCall (fun _ => true) exampleCallConfirm]

/-- Then the confirmation is one of that call. -/
theorem stored_call_confirmed : ∃ node outputs key,
    run exampleNodeStep exampleNode exampleCallConfirmed = some (node, outputs) ∧
    node.keeper.confirms.HasAt key (.logicCall exampleCallConfirm) ∧
    AcceptedFor exampleSdk (ledgerBank exampleModuleAccount) exampleGeth exampleEvm exampleContracts
      exampleNode exampleCallConfirmed (.logicCall exampleCallConfirm) := by
  have evaluated : (run exampleNodeStep exampleNode exampleCallConfirmed).any (fun result =>
      result.1.keeper.confirms.logicCalls.values = [exampleCallConfirm]) = true := by
    decide +kernel
  have meets : StepsMeet exampleNodeStep (Node.Attributable exampleSdk exampleGeth) exampleNode
      exampleCallConfirmed := by
    decide +kernel
  obtain ⟨⟨node, outputs⟩, runs, facts⟩ := (Option.any_eq_true _ _).mp evaluated
  obtain ⟨key, found⟩ := (Store.mem_values_iff node.keeper.confirms.logicCalls exampleCallConfirm).mp
    (by rw [of_decide_eq_true facts]; exact List.mem_singleton_self _)
  exact ⟨node, outputs, key, runs, found, (confirms_attributed exampleParams exampleLedger
    exampleEthereum exampleCallConfirmed node outputs runs).1 meets key _ found⟩

end Examples

end NabBridge
