/-
**Confirmations.**

An orchestrator confirms a validator set, a batch or a logic call by sending its validator's Ethereum
signature of the object's checkpoint. The handlers check the signature against the address the validator
has registered; the address in the message itself goes into the store unchecked.
-/

import NabBridge.Keeper.LogicCall
import NabBridge.Types.EthereumSigner

namespace NabBridge

/-- `MsgValsetConfirm` -/
structure MsgValsetConfirm where
  nonce : Nat
  orchestrator : Bytes
  ethAddress : Bytes
  signature : Bytes
  deriving DecidableEq, Repr

/-- `MsgConfirmBatch` -/
structure MsgConfirmBatch where
  nonce : Nat
  tokenContract : Bytes
  ethSigner : Bytes
  orchestrator : Bytes
  signature : Bytes
  deriving DecidableEq, Repr

/-- `MsgConfirmLogicCall`; the invalidation id is hexadecimal text. -/
structure MsgConfirmLogicCall where
  invalidationId : Bytes
  invalidationNonce : Nat
  ethSigner : Bytes
  orchestrator : Bytes
  signature : Bytes
  deriving DecidableEq, Repr

/-- The errors of the three messages. -/
inductive ConfirmError where
  /-- `ErrInvalidAddress` -/
  | invalidAddress (text : Bytes)
  /-- wrapped as `ethereum address` or `eth signer` -/
  | ethAddress (reason : AddressError)
  /-- wrapped as `token contract` -/
  | tokenContract (reason : AddressError)
  /-- `Could not decode hex string %s` -/
  | hexString (text : Bytes)
  /-- `couldn't find valset`, `couldn't find batch` -/
  | notFound
  /-- `invalidation id encoding` -/
  | invalidationIdEncoding
  /-- `signature decoding` -/
  | signatureDecoding
  /-- `ErrUnknown`: `validator` -/
  | unknownValidator
  /-- `ErrEmpty`: `eth address` -/
  | emptyEthAddress
  /-- `signature verification failed expected sig by %s with checkpoint %s found %s` -/
  | signatureVerification (ethAddress checkpoint signature : Bytes)
  /-- `ErrDuplicate`: `signature duplicate`, `duplicate signature` -/
  | duplicate
  deriving DecidableEq, Repr

/-- The panics of the three messages, and of setting a confirmation. -/
inductive ConfirmPanic where
  | checkpoint (reason : CheckpointPanic)
  /-- the orchestrator is not an address -/
  | orchestrator (text : Bytes)
  /-- the invalidation id is not hexadecimal -/
  | invalidationId (text : Bytes)
  deriving DecidableEq, Repr

/-! ### `ValidateBasic` -/

/-- The checks all three messages begin with: the orchestrator and the signer's address. -/
def validateConfirmer (sdk : Sdk) (orchestrator ethSigner : Bytes) : Except ConfirmError Unit :=
  if (sdk.accAddressFromBech32 orchestrator).isNone then .error (.invalidAddress orchestrator)
  else
    match validateEthAddress ethSigner with
    | .error reason => .error (.ethAddress reason)
    | .ok () => .ok ()

/-- A text that has to be hexadecimal. -/
def validateHexString (text : Bytes) : Except ConfirmError Unit :=
  if (decodeString text).isNone then .error (.hexString text) else .ok ()

/-- `MsgValsetConfirm.ValidateBasic` -/
def MsgValsetConfirm.validateBasic (sdk : Sdk) (msg : MsgValsetConfirm) : Except ConfirmError Unit :=
  validateConfirmer sdk msg.orchestrator msg.ethAddress

/-- `MsgConfirmBatch.ValidateBasic` -/
def MsgConfirmBatch.validateBasic (sdk : Sdk) (msg : MsgConfirmBatch) :
    Except ConfirmError Unit := do
  validateConfirmer sdk msg.orchestrator msg.ethSigner
  match validateEthAddress msg.tokenContract with
  | .error reason => .error (.tokenContract reason)
  | .ok () => validateHexString msg.signature

/-- `MsgConfirmLogicCall.ValidateBasic` -/
def MsgConfirmLogicCall.validateBasic (sdk : Sdk) (msg : MsgConfirmLogicCall) :
    Except ConfirmError Unit := do
  validateConfirmer sdk msg.orchestrator msg.ethSigner
  validateHexString msg.signature
  validateHexString msg.invalidationId

/-! ### The store -/

/-- The confirmations in the store. -/
structure Confirms where
  /-- `ValsetConfirmKey` -/
  valsets : Store StoreKey MsgValsetConfirm
  /-- `BatchConfirmKey` -/
  batches : Store StoreKey MsgConfirmBatch
  /-- `KeyOutgoingLogicConfirm` -/
  logicCalls : Store StoreKey MsgConfirmLogicCall
  deriving DecidableEq

/-- A fresh store. -/
def Confirms.empty : Confirms := ⟨Store.empty, Store.empty, Store.empty⟩

/-- `GetValsetConfirmKey` -/
def getValsetConfirmKey (nonce : Nat) (orchestrator : AccAddress) : StoreKey :=
  0x4 :: (uint64Bytes nonce ++ keyBytes orchestrator)

/-- `GetBatchConfirmKey` -/
def getBatchConfirmKey (tokenContract : Bytes) (nonce : Nat) (orchestrator : AccAddress) : StoreKey :=
  0xc :: (keyBytes tokenContract ++ (uint64Bytes nonce ++ keyBytes orchestrator))

/-- `GetLogicConfirmKey` -/
def getLogicConfirmKey (invalidationId : Bytes) (invalidationNonce : Nat)
    (orchestrator : AccAddress) : StoreKey :=
  0x13 :: (keyBytes invalidationId ++ (uint64Bytes invalidationNonce ++ keyBytes orchestrator))

/-- The values whose keys begin with a prefix, in ascending order of their keys. -/
def prefixValues {α : Type} (store : Store StoreKey α) (prefixKey : StoreKey) : List α :=
  (store.entries.filter fun entry => prefixKey.isPrefixOf entry.1).map Prod.snd

/-- The values an iterator over `prefixRange` walks. -/
def rangeValues {α : Type} (store : Store StoreKey α) (prefixKey : StoreKey) : List α :=
  (store.entries.filter fun entry => InPrefixRange prefixKey entry.1).map Prod.snd

/-- A field that the encoding leaves out when it is zero keeps the value it was set up with. -/
def orPreset (stored preset : Nat) : Nat := if stored = 0 then preset else stored

namespace Confirms

/-- `SetValsetConfirm` -/
def setValsetConfirm (sdk : Sdk) (confirms : Confirms) (msg : MsgValsetConfirm) :
    Outcome Empty ConfirmPanic Confirms :=
  match sdk.accAddressFromBech32 msg.orchestrator with
  | none => .panic (.orchestrator msg.orchestrator)
  | some orchestrator =>
      .ok { confirms with
        valsets := confirms.valsets.set (getValsetConfirmKey msg.nonce orchestrator) msg }

/-- `SetBatchConfirm` -/
def setBatchConfirm (sdk : Sdk) (confirms : Confirms) (msg : MsgConfirmBatch) :
    Outcome Empty ConfirmPanic Confirms :=
  match sdk.accAddressFromBech32 msg.orchestrator with
  | none => .panic (.orchestrator msg.orchestrator)
  | some orchestrator =>
      .ok { confirms with
        batches :=
          confirms.batches.set (getBatchConfirmKey msg.tokenContract msg.nonce orchestrator) msg }

/-- `SetLogicCallConfirm` -/
def setLogicCallConfirm (sdk : Sdk) (confirms : Confirms) (msg : MsgConfirmLogicCall) :
    Outcome Empty ConfirmPanic Confirms :=
  match decodeString msg.invalidationId with
  | none => .panic (.invalidationId msg.invalidationId)
  | some invalidationId =>
      match sdk.accAddressFromBech32 msg.orchestrator with
      | none => .panic (.orchestrator msg.orchestrator)
      | some orchestrator =>
          .ok { confirms with
            logicCalls := confirms.logicCalls.set
              (getLogicConfirmKey invalidationId msg.invalidationNonce orchestrator) msg }

/-- `GetValsetConfirms` -/
def getValsetConfirms (confirms : Confirms) (nonce : Nat) : List MsgValsetConfirm :=
  (prefixValues confirms.valsets (0x4 :: uint64Bytes nonce)).map fun confirm =>
    { confirm with nonce := orPreset confirm.nonce nonce }

/-- `GetBatchConfirmByNonceAndTokenContract` -/
def getBatchConfirmByNonceAndTokenContract (confirms : Confirms) (nonce : Nat)
    (tokenContract : Bytes) : List MsgConfirmBatch :=
  (prefixValues confirms.batches (0xc :: (keyBytes tokenContract ++ uint64Bytes nonce))).map
    fun confirm =>
      { confirm with
        nonce := orPreset confirm.nonce nonce
        tokenContract := if confirm.tokenContract = [] then tokenContract else confirm.tokenContract }

/-- The iterator of `GetValsetConfirms`, over `prefixRange` of the nonce. -/
def valsetConfirmsInRange (confirms : Confirms) (nonce : Nat) : List MsgValsetConfirm :=
  (rangeValues confirms.valsets (0x4 :: uint64Bytes nonce)).map fun confirm =>
    { confirm with nonce := orPreset confirm.nonce nonce }

/-- The iterator of `GetBatchConfirmByNonceAndTokenContract`, over `prefixRange` of the contract and the
nonce. -/
def batchConfirmsInRange (confirms : Confirms) (nonce : Nat) (tokenContract : Bytes) :
    List MsgConfirmBatch :=
  (rangeValues confirms.batches (0xc :: (keyBytes tokenContract ++ uint64Bytes nonce))).map
    fun confirm =>
      { confirm with
        nonce := orPreset confirm.nonce nonce
        tokenContract := if confirm.tokenContract = [] then tokenContract else confirm.tokenContract }

/-- `GetLogicConfirmByInvalidationIDAndNonce`; invalidation ids have no fixed length, so the range can hold
confirmations of other calls. -/
def getLogicConfirmByInvalidationIDAndNonce (confirms : Confirms) (invalidationId : Bytes)
    (invalidationNonce : Nat) : List MsgConfirmLogicCall :=
  (rangeValues confirms.logicCalls
    (0x13 :: (keyBytes invalidationId ++ uint64Bytes invalidationNonce))).map fun confirm =>
      { confirm with invalidationNonce := orPreset confirm.invalidationNonce invalidationNonce }

end Confirms

/-! ### The handlers -/

/-- The registered keys, and the operators the staking module knows. -/
structure Registry where
  keys : DelegateKeys
  isValidator : ValAddress → Bool

/-- The validator an orchestrator signs for, and its Ethereum address. -/
def Registry.signer (registry : Registry) (orchestrator : AccAddress) :
    Except ConfirmError (ValAddress × Bytes) :=
  match registry.keys.getOrchestratorValidator registry.isValidator orchestrator with
  | none => .error .unknownValidator
  | some validator =>
      match registry.keys.getEthAddressByValidator validator with
      | none => .error .emptyEthAddress
      | some ethAddress => .ok (validator, ethAddress)

/-- `confirmHandlerCommon` -/
def confirmHandlerCommon (sdk : Sdk) (geth : Geth) (registry : Registry)
    (orchestrator signature checkpoint : Bytes) : Outcome ConfirmError ConfirmPanic Unit :=
  match decodeString signature with
  | none => .error .signatureDecoding
  | some sigBytes =>
      match registry.signer ((sdk.accAddressFromBech32 orchestrator).getD []) with
      | .error reason => .error reason
      | .ok (_, ethAddress) =>
          match validateEthereumSignature geth checkpoint sigBytes ethAddress with
          | .error _ => .error (.signatureVerification ethAddress checkpoint signature)
          | .ok () => .ok ()

/-- A checkpoint inside of a handler. -/
def confirmCheckpoint : Outcome Empty CheckpointPanic Bytes → Outcome ConfirmError ConfirmPanic Bytes
  | .ok checkpoint => .ok checkpoint
  | .error reason => reason.elim
  | .panic reason => .panic (.checkpoint reason)

/-- A confirmation is set inside of a handler. -/
def persistConfirm : Outcome Empty ConfirmPanic Confirms → Outcome ConfirmError ConfirmPanic Confirms
  | .ok confirms => .ok confirms
  | .error reason => reason.elim
  | .panic reason => .panic reason

section Handlers

variable (sdk : Sdk) (geth : Geth) (gravityID : Bytes) (registry : Registry)

/-- `ValsetConfirm` -/
def valsetConfirm (valsets : Store StoreKey Valset) (msg : MsgValsetConfirm) (confirms : Confirms) :
    Outcome ConfirmError ConfirmPanic Confirms :=
  match valsets.get (getValsetKey msg.nonce) with
  | none => .error .notFound
  | some valset => do
      let checkpoint ← confirmCheckpoint (valset.getCheckpoint geth gravityID)
      confirmHandlerCommon sdk geth registry msg.orchestrator msg.signature checkpoint
      let orchestrator := (sdk.accAddressFromBech32 msg.orchestrator).getD []
      if confirms.valsets.has (getValsetConfirmKey msg.nonce orchestrator) then .error .duplicate
      else persistConfirm (confirms.setValsetConfirm sdk msg)

/-- `ConfirmBatch` -/
def confirmBatch (outgoing : Outgoing) (msg : MsgConfirmBatch) (confirms : Confirms) :
    Outcome ConfirmError ConfirmPanic Confirms :=
  match outgoing.getOutgoingTXBatch msg.tokenContract msg.nonce with
  | none => .error .notFound
  | some batch => do
      let checkpoint ← confirmCheckpoint (batch.getCheckpoint geth gravityID)
      confirmHandlerCommon sdk geth registry msg.orchestrator msg.signature checkpoint
      let orchestrator := (sdk.accAddressFromBech32 msg.orchestrator).getD []
      if confirms.batches.has (getBatchConfirmKey msg.tokenContract msg.nonce orchestrator) then
        .error .duplicate
      else persistConfirm (confirms.setBatchConfirm sdk msg)

/-- `ConfirmLogicCall`; the record it reads is never nil. -/
def confirmLogicCall (calls : LogicCalls) (msg : MsgConfirmLogicCall) (confirms : Confirms) :
    Outcome ConfirmError ConfirmPanic Confirms :=
  match decodeString msg.invalidationId with
  | none => .error .invalidationIdEncoding
  | some invalidationId => do
      let call := calls.getOutgoingLogicCall invalidationId msg.invalidationNonce
      let checkpoint ← confirmCheckpoint (call.getCheckpoint geth gravityID)
      confirmHandlerCommon sdk geth registry msg.orchestrator msg.signature checkpoint
      let orchestrator := (sdk.accAddressFromBech32 msg.orchestrator).getD []
      if confirms.logicCalls.has
          (getLogicConfirmKey invalidationId msg.invalidationNonce orchestrator) then
        .error .duplicate
      else persistConfirm (confirms.setLogicCallConfirm sdk msg)

end Handlers

/-! ### What is stored -/

section Stored

variable {sdk : Sdk} {geth : Geth} {gravityID : Bytes} {registry : Registry}

theorem confirmCheckpoint_eq_ok {outcome : Outcome Empty CheckpointPanic Bytes} {checkpoint : Bytes} :
    confirmCheckpoint outcome = .ok checkpoint ↔ outcome = .ok checkpoint := by
  cases outcome with
  | ok there => exact ⟨fun same => congrArg _ (Outcome.ok.inj same), fun same =>
      congrArg _ (Outcome.ok.inj same)⟩
  | error reason => exact reason.elim
  | panic reason => exact ⟨fun bad => (by cases bad), fun bad => (by cases bad)⟩

theorem persistConfirm_eq_ok {outcome : Outcome Empty ConfirmPanic Confirms} {confirms : Confirms} :
    persistConfirm outcome = .ok confirms ↔ outcome = .ok confirms := by
  cases outcome with
  | ok there => exact ⟨fun same => congrArg _ (Outcome.ok.inj same), fun same =>
      congrArg _ (Outcome.ok.inj same)⟩
  | error reason => exact reason.elim
  | panic reason => exact ⟨fun bad => (by cases bad), fun bad => (by cases bad)⟩

/-- **An accepted signature** is by the address registered for the orchestrator. -/
theorem confirmHandlerCommon_eq_ok {orchestrator signature checkpoint : Bytes}
    (accepted : confirmHandlerCommon sdk geth registry orchestrator signature checkpoint = .ok ()) :
    ∃ sigBytes validator ethAddress, decodeString signature = some sigBytes ∧
      registry.signer ((sdk.accAddressFromBech32 orchestrator).getD []) = .ok (validator, ethAddress) ∧
      validateEthereumSignature geth checkpoint sigBytes ethAddress = .ok () := by
  unfold confirmHandlerCommon at accepted
  cases decoded : decodeString signature with
  | none => simp [decoded] at accepted
  | some sigBytes =>
      simp only [decoded] at accepted
      split at accepted
      · cases accepted
      · rename_i validator ethAddress signer
        split at accepted
        · cases accepted
        · rename_i verified
          exact ⟨sigBytes, validator, ethAddress, rfl, signer, verified⟩

/-- The registered signer of an orchestrator. -/
theorem Registry.signer_eq_ok {orchestrator : AccAddress} {validator : ValAddress} {ethAddress : Bytes}
    (signs : registry.signer orchestrator = .ok (validator, ethAddress)) :
    registry.keys.validatorByOrchestrator.get (getOrchestratorAddressKey orchestrator) =
        some validator ∧
      registry.keys.getEthAddressByValidator validator = some ethAddress := by
  unfold Registry.signer DelegateKeys.getOrchestratorValidator at signs
  cases bound : registry.keys.validatorByOrchestrator.get (getOrchestratorAddressKey orchestrator) with
  | none => simp [bound] at signs
  | some operator =>
      simp only [bound] at signs
      split_ifs at signs with known
      · cases address : registry.keys.getEthAddressByValidator operator with
        | none => simp [address] at signs
        | some registered =>
            simp only [address, Except.ok.injEq, Prod.mk.injEq] at signs
            obtain ⟨rfl, rfl⟩ := signs
            exact ⟨rfl, address⟩

/-- **What `ValsetConfirm` stores.** -/
theorem valsetConfirm_eq_ok {valsets : Store StoreKey Valset} {msg : MsgValsetConfirm}
    {confirms after : Confirms}
    (handled : valsetConfirm sdk geth gravityID registry valsets msg confirms = .ok after) :
    ∃ valset checkpoint orchestrator, valsets.get (getValsetKey msg.nonce) = some valset ∧
      valset.getCheckpoint geth gravityID = .ok checkpoint ∧
      confirmHandlerCommon sdk geth registry msg.orchestrator msg.signature checkpoint = .ok () ∧
      sdk.accAddressFromBech32 msg.orchestrator = some orchestrator ∧
      after = { confirms with
        valsets := confirms.valsets.set (getValsetConfirmKey msg.nonce orchestrator) msg } := by
  unfold valsetConfirm at handled
  cases found : valsets.get (getValsetKey msg.nonce) with
  | none => simp [found] at handled
  | some valset =>
      simp only [found] at handled
      obtain ⟨checkpoint, computed, handled⟩ := Outcome.bind_eq_ok.mp handled
      obtain ⟨_, accepted, handled⟩ := Outcome.bind_eq_ok.mp handled
      split_ifs at handled
      rw [persistConfirm_eq_ok, Confirms.setValsetConfirm] at handled
      cases parsed : sdk.accAddressFromBech32 msg.orchestrator with
      | none => simp [parsed] at handled
      | some orchestrator =>
          simp only [parsed, Outcome.ok.injEq] at handled
          exact ⟨valset, checkpoint, orchestrator, rfl, confirmCheckpoint_eq_ok.mp computed, accepted,
            rfl, handled.symm⟩

/-- **What `ConfirmBatch` stores.** -/
theorem confirmBatch_eq_ok {outgoing : Outgoing} {msg : MsgConfirmBatch} {confirms after : Confirms}
    (handled : confirmBatch sdk geth gravityID registry outgoing msg confirms = .ok after) :
    ∃ batch checkpoint orchestrator,
      outgoing.getOutgoingTXBatch msg.tokenContract msg.nonce = some batch ∧
      batch.getCheckpoint geth gravityID = .ok checkpoint ∧
      confirmHandlerCommon sdk geth registry msg.orchestrator msg.signature checkpoint = .ok () ∧
      sdk.accAddressFromBech32 msg.orchestrator = some orchestrator ∧
      after = { confirms with
        batches :=
          confirms.batches.set (getBatchConfirmKey msg.tokenContract msg.nonce orchestrator) msg } := by
  unfold confirmBatch at handled
  cases found : outgoing.getOutgoingTXBatch msg.tokenContract msg.nonce with
  | none => simp [found] at handled
  | some batch =>
      simp only [found] at handled
      obtain ⟨checkpoint, computed, handled⟩ := Outcome.bind_eq_ok.mp handled
      obtain ⟨_, accepted, handled⟩ := Outcome.bind_eq_ok.mp handled
      split_ifs at handled
      rw [persistConfirm_eq_ok, Confirms.setBatchConfirm] at handled
      cases parsed : sdk.accAddressFromBech32 msg.orchestrator with
      | none => simp [parsed] at handled
      | some orchestrator =>
          simp only [parsed, Outcome.ok.injEq] at handled
          exact ⟨batch, checkpoint, orchestrator, rfl, confirmCheckpoint_eq_ok.mp computed, accepted,
            rfl, handled.symm⟩

/-- **When `ConfirmLogicCall` accepts**, and what it stores. -/
theorem confirmLogicCall_eq_ok_iff {calls : LogicCalls} {msg : MsgConfirmLogicCall}
    {confirms after : Confirms} :
    confirmLogicCall sdk geth gravityID registry calls msg confirms = .ok after ↔
      ∃ invalidationId checkpoint orchestrator, decodeString msg.invalidationId = some invalidationId ∧
        (calls.getOutgoingLogicCall invalidationId msg.invalidationNonce).getCheckpoint geth gravityID =
          .ok checkpoint ∧
        confirmHandlerCommon sdk geth registry msg.orchestrator msg.signature checkpoint = .ok () ∧
        sdk.accAddressFromBech32 msg.orchestrator = some orchestrator ∧
        confirms.logicCalls.has
          (getLogicConfirmKey invalidationId msg.invalidationNonce orchestrator) = false ∧
        after = { confirms with
          logicCalls := confirms.logicCalls.set
            (getLogicConfirmKey invalidationId msg.invalidationNonce orchestrator) msg } := by
  unfold confirmLogicCall
  constructor
  · intro handled
    cases decoded : decodeString msg.invalidationId with
    | none => simp [decoded] at handled
    | some invalidationId =>
        simp only [decoded] at handled
        obtain ⟨checkpoint, computed, handled⟩ := Outcome.bind_eq_ok.mp handled
        obtain ⟨_, accepted, handled⟩ := Outcome.bind_eq_ok.mp handled
        split_ifs at handled with duplicate
        rw [persistConfirm_eq_ok, Confirms.setLogicCallConfirm] at handled
        cases parsed : sdk.accAddressFromBech32 msg.orchestrator with
        | none => simp [decoded, parsed] at handled
        | some orchestrator =>
            simp only [decoded, parsed, Outcome.ok.injEq] at handled
            rw [parsed, Option.getD_some, Bool.not_eq_true] at duplicate
            exact ⟨invalidationId, checkpoint, orchestrator, rfl, confirmCheckpoint_eq_ok.mp computed,
              accepted, rfl, duplicate, handled.symm⟩
  · rintro ⟨invalidationId, checkpoint, orchestrator, decoded, computed, accepted, parsed, new, rfl⟩
    simp only [decoded]
    refine Outcome.bind_eq_ok.mpr ⟨checkpoint, confirmCheckpoint_eq_ok.mpr computed, ?_⟩
    refine Outcome.bind_eq_ok.mpr ⟨(), accepted, ?_⟩
    rw [parsed, Option.getD_some, if_neg (by rw [new]; exact Bool.false_ne_true), persistConfirm_eq_ok]
    simp only [Confirms.setLogicCallConfirm, decoded, parsed]

/-- **What `ConfirmLogicCall` stores.** -/
theorem confirmLogicCall_eq_ok {calls : LogicCalls} {msg : MsgConfirmLogicCall}
    {confirms after : Confirms}
    (handled : confirmLogicCall sdk geth gravityID registry calls msg confirms = .ok after) :
    ∃ invalidationId checkpoint orchestrator, decodeString msg.invalidationId = some invalidationId ∧
      (calls.getOutgoingLogicCall invalidationId msg.invalidationNonce).getCheckpoint geth gravityID =
        .ok checkpoint ∧
      confirmHandlerCommon sdk geth registry msg.orchestrator msg.signature checkpoint = .ok () ∧
      sdk.accAddressFromBech32 msg.orchestrator = some orchestrator ∧
      after = { confirms with
        logicCalls := confirms.logicCalls.set
          (getLogicConfirmKey invalidationId msg.invalidationNonce orchestrator) msg } := by
  obtain ⟨invalidationId, checkpoint, orchestrator, decoded, computed, accepted, parsed, _, stored⟩ :=
    confirmLogicCall_eq_ok_iff.mp handled
  exact ⟨invalidationId, checkpoint, orchestrator, decoded, computed, accepted, parsed, stored⟩

end Stored

end NabBridge
