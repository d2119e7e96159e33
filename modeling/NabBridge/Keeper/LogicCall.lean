/-
**Logic calls.**

Another module of the chain hands a logic call to this one with `SetOutgoingLogicCall`, which records
its checkpoint and stores it under its invalidation id and nonce. It stays until somebody deletes it or
the observed Ethereum height has passed its timeout.
-/

import NabBridge.Keeper.Batch

namespace NabBridge

/-- `GetOutgoingLogicCallKey` -/
def getOutgoingLogicCallKey (invalidationId : Bytes) (invalidationNonce : Nat) : StoreKey :=
  0x12 :: (keyBytes invalidationId ++ uint64Bytes invalidationNonce)

/-- **A logic call key determines the invalidation id and the nonce.** -/
theorem getOutgoingLogicCallKey_inj {id id' : Bytes} {nonce nonce' : Nat} :
    getOutgoingLogicCallKey id nonce = getOutgoingLogicCallKey id' nonce' ↔
      id = id' ∧ nonce = nonce' := by
  constructor
  · intro equal
    obtain ⟨ids, nonces⟩ := List.append_inj' (List.cons.inj equal).2 (by simp)
    exact ⟨keyBytes_injective ids, uint64Bytes_injective nonces⟩
  · rintro ⟨rfl, rfl⟩
    rfl

/-- The key a logic call belongs under. -/
def OutgoingLogicCall.key (call : OutgoingLogicCall) : StoreKey :=
  getOutgoingLogicCallKey call.invalidationId call.invalidationNonce

/-- The logic calls in the store, under `KeyOutgoingLogicCall`. -/
abbrev LogicCalls := Store StoreKey OutgoingLogicCall

namespace LogicCalls

/-- `GetOutgoingLogicCall`: where none is stored, the record keeps the values it was set up with. -/
def getOutgoingLogicCall (calls : LogicCalls) (invalidationId : Bytes) (invalidationNonce : Nat) :
    OutgoingLogicCall :=
  (calls.get (getOutgoingLogicCallKey invalidationId invalidationNonce)).getD
    { transfers := [], fees := [], logicContractAddress := [], payload := [], timeout := 0
      invalidationId := invalidationId, invalidationNonce := invalidationNonce, block := 0 }

/-- `DeleteOutgoingLogicCall` -/
def deleteOutgoingLogicCall (calls : LogicCalls) (invalidationId : Bytes) (invalidationNonce : Nat) :
    LogicCalls :=
  calls.delete (getOutgoingLogicCallKey invalidationId invalidationNonce)

/-- `GetOutgoingLogicCalls` -/
def getOutgoingLogicCalls (calls : LogicCalls) : List OutgoingLogicCall := calls.values

/-- `CancelOutgoingLogicCall`; the record it reads is never nil. -/
def cancelOutgoingLogicCall (calls : LogicCalls) (invalidationId : Bytes) (invalidationNonce : Nat) :
    LogicCalls :=
  let call := calls.getOutgoingLogicCall invalidationId invalidationNonce
  calls.deleteOutgoingLogicCall call.invalidationId call.invalidationNonce

/-- The pointer that `GetOutgoingLogicCall` returns; `none` is nil, and the address of a variable is not. -/
def outgoingLogicCallPointer (calls : LogicCalls) (invalidationId : Bytes) (invalidationNonce : Nat) :
    Option OutgoingLogicCall :=
  some (calls.getOutgoingLogicCall invalidationId invalidationNonce)

/-- What `CancelOutgoingLogicCall` returns; `none` is `ErrUnknown`. -/
def cancelOutgoingLogicCallResult (calls : LogicCalls) (invalidationId : Bytes)
    (invalidationNonce : Nat) : Option LogicCalls :=
  (calls.outgoingLogicCallPointer invalidationId invalidationNonce).map fun call =>
    calls.deleteOutgoingLogicCall call.invalidationId call.invalidationNonce

theorem cancelOutgoingLogicCallResult_eq (calls : LogicCalls) (invalidationId : Bytes)
    (invalidationNonce : Nat) :
    calls.cancelOutgoingLogicCallResult invalidationId invalidationNonce =
      some (calls.cancelOutgoingLogicCall invalidationId invalidationNonce) := rfl

/-- `cleanupTimedOutLogicCalls` -/
def cleanupTimedOutLogicCalls (calls : LogicCalls) (ethereumHeight : Nat) : LogicCalls :=
  calls.getOutgoingLogicCalls.foldl
    (fun current call =>
      if call.timeout < ethereumHeight then
        current.cancelOutgoingLogicCall call.invalidationId call.invalidationNonce
      else current)
    calls

/-- Every stored call was stored before. -/
def Within (before after : LogicCalls) : Prop :=
  ∀ key call, after.get key = some call → before.get key = some call

theorem Within.refl (calls : LogicCalls) : Within calls calls := fun _ _ => id

theorem Within.trans {first second third : LogicCalls} (left : Within first second)
    (right : Within second third) : Within first third :=
  fun key call found => left key call (right key call found)

theorem delete_within (calls : LogicCalls) (invalidationId : Bytes) (invalidationNonce : Nat) :
    Within calls (calls.deleteOutgoingLogicCall invalidationId invalidationNonce) := by
  intro key call found
  unfold deleteOutgoingLogicCall at found
  rw [Store.get_delete] at found
  split_ifs at found
  exact found

theorem cleanupTimedOutLogicCalls_within (calls : LogicCalls) (ethereumHeight : Nat) :
    Within calls (calls.cleanupTimedOutLogicCalls ethereumHeight) := by
  unfold cleanupTimedOutLogicCalls
  refine List.foldlRecOn _ _ (Within.refl calls) fun current within call _ => ?_
  split_ifs
  · exact within.trans (delete_within _ _ _)
  · exact within

end LogicCalls

/-- `SetOutgoingLogicCall`: the checkpoint is recorded, then the call is stored. -/
def setOutgoingLogicCall (geth : Geth) (gravityID : Bytes) (call : OutgoingLogicCall)
    (outgoing : Outgoing) (calls : LogicCalls) :
    Outcome Empty CheckpointPanic (Outgoing × LogicCalls) := do
  let checkpoint ← call.getCheckpoint geth gravityID
  pure (outgoing.setPastEthSignatureCheckpoint checkpoint, calls.set call.key call)

theorem setOutgoingLogicCall_eq_ok {geth : Geth} {gravityID : Bytes} {call : OutgoingLogicCall}
    {outgoing after : Outgoing} {calls calls' : LogicCalls}
    (stored : setOutgoingLogicCall geth gravityID call outgoing calls = .ok (after, calls')) :
    ∃ checkpoint, call.getCheckpoint geth gravityID = .ok checkpoint ∧
      after = outgoing.setPastEthSignatureCheckpoint checkpoint ∧ calls' = calls.set call.key call := by
  obtain ⟨checkpoint, computed, stored⟩ := Outcome.bind_eq_ok.mp stored
  obtain ⟨rfl, rfl⟩ := Prod.mk.inj (Outcome.ok.inj stored)
  exact ⟨checkpoint, computed, rfl, rfl⟩

end NabBridge
