/-
**Delegate keys.**

A validator registers once, in `setOrchestratorAddress`, the account that signs for it on Cosmos and
the Ethereum address it signs with. The message is checked for well-formed addresses only; neither
the zero address nor an address another validator has registered is refused.

`delegateStep` is the registry as a machine; `registered_of_run` says where its entries come from.
-/

import NabBridge.Lib.Outcome
import NabBridge.Lib.Run
import NabBridge.Lib.Store
import NabBridge.Types.Claims

namespace NabBridge

/-- The registry of delegate keys. -/
structure DelegateKeys where
  validatorByOrchestrator : Store StoreKey ValAddress
  ethAddressByValidator : Store StoreKey Bytes
  validatorByEthAddress : Store StoreKey ValAddress
  deriving DecidableEq

/-- The registry of a fresh store. -/
def DelegateKeys.empty : DelegateKeys := ⟨Store.empty, Store.empty, Store.empty⟩

/-- `GetOrchestratorAddressKey` -/
def getOrchestratorAddressKey (orchestrator : AccAddress) : StoreKey := 0x11 :: keyBytes orchestrator

/-- `GetEthAddressByValidatorKey` -/
def getEthAddressByValidatorKey (validator : ValAddress) : StoreKey := 0x1 :: keyBytes validator

/-- `GetValidatorByEthAddressKey` -/
def getValidatorByEthAddressKey (ethAddress : Bytes) : StoreKey := 0x2 :: keyBytes ethAddress

theorem getOrchestratorAddressKey_inj {first second : AccAddress} :
    getOrchestratorAddressKey first = getOrchestratorAddressKey second ↔ first = second := by
  simp [getOrchestratorAddressKey, keyBytes_injective.eq_iff]

theorem getEthAddressByValidatorKey_inj {first second : ValAddress} :
    getEthAddressByValidatorKey first = getEthAddressByValidatorKey second ↔ first = second := by
  simp [getEthAddressByValidatorKey, keyBytes_injective.eq_iff]

/-- `MsgSetOrchestratorAddress` -/
structure MsgSetOrchestratorAddress where
  validator : Bytes
  orchestrator : Bytes
  ethAddress : Bytes
  deriving DecidableEq, Repr

/-- The errors of the message and of its handler. -/
inductive DelegateError where
  /-- `ErrInvalidAddress` -/
  | invalidAddress (text : Bytes)
  /-- wrapped as `ethereum address` -/
  | ethereumAddress (reason : AddressError)
  /-- `ErrNoValidatorFound` -/
  | noValidatorFound (validator : ValAddress)
  /-- `ErrResetDelegateKeys` -/
  | resetDelegateKeys (validator : ValAddress)
  deriving DecidableEq, Repr

/-- `MsgSetOrchestratorAddress.ValidateBasic` -/
def MsgSetOrchestratorAddress.validateBasic (sdk : Sdk) (msg : MsgSetOrchestratorAddress) :
    Except DelegateError Unit :=
  if (sdk.valAddressFromBech32 msg.validator).isNone then .error (.invalidAddress msg.validator)
  else if (sdk.accAddressFromBech32 msg.orchestrator).isNone then
    .error (.invalidAddress msg.orchestrator)
  else
    match validateEthAddress msg.ethAddress with
    | .error reason => .error (.ethereumAddress reason)
    | .ok () => .ok ()

namespace DelegateKeys

/-- `GetOrchestratorValidator`; `isValidator` is whether the staking module knows an operator. -/
def getOrchestratorValidator (keys : DelegateKeys) (isValidator : ValAddress → Bool)
    (orchestrator : AccAddress) : Option ValAddress :=
  match keys.validatorByOrchestrator.get (getOrchestratorAddressKey orchestrator) with
  | none => none
  | some validator => if isValidator validator then some validator else none

/-- `SetOrchestratorValidator` -/
def setOrchestratorValidator (keys : DelegateKeys) (validator : ValAddress)
    (orchestrator : AccAddress) : DelegateKeys :=
  { keys with
    validatorByOrchestrator :=
      keys.validatorByOrchestrator.set (getOrchestratorAddressKey orchestrator) validator }

/-- `GetEthAddressByValidator` -/
def getEthAddressByValidator (keys : DelegateKeys) (validator : ValAddress) : Option Bytes :=
  keys.ethAddressByValidator.get (getEthAddressByValidatorKey validator)

/-- `SetEthAddressForValidator` -/
def setEthAddressForValidator (keys : DelegateKeys) (validator : ValAddress) (ethAddress : Bytes) :
    DelegateKeys :=
  { keys with
    ethAddressByValidator :=
      keys.ethAddressByValidator.set (getEthAddressByValidatorKey validator) ethAddress
    validatorByEthAddress :=
      keys.validatorByEthAddress.set (getValidatorByEthAddressKey ethAddress) validator }

end DelegateKeys

/-- `SetOrchestratorAddress` -/
def setOrchestratorAddress (sdk : Sdk) (isValidator : ValAddress → Bool)
    (msg : MsgSetOrchestratorAddress) (keys : DelegateKeys) :
    Outcome DelegateError Empty DelegateKeys :=
  match msg.validateBasic sdk with
  | .error reason => .error reason
  | .ok () =>
      -- both parse, or `ValidateBasic` had failed
      let validator := (sdk.valAddressFromBech32 msg.validator).getD []
      let orchestrator := (sdk.accAddressFromBech32 msg.orchestrator).getD []
      if ¬ isValidator validator then .error (.noValidatorFound validator)
      else if (keys.getOrchestratorValidator isValidator orchestrator).isSome ∨
          (keys.getEthAddressByValidator validator).isSome then
        .error (.resetDelegateKeys validator)
      else
        .ok ((keys.setOrchestratorValidator validator orchestrator).setEthAddressForValidator
          validator msg.ethAddress)

/-- **What a registration does**: a validator without an Ethereum address gets the message's, which
is well formed. -/
theorem setOrchestratorAddress_eq_ok {sdk : Sdk} {isValidator : ValAddress → Bool}
    {msg : MsgSetOrchestratorAddress} {keys after : DelegateKeys}
    (set : setOrchestratorAddress sdk isValidator msg keys = .ok after) :
    validateEthAddress msg.ethAddress = .ok () ∧
    ∃ validator orchestrator, sdk.valAddressFromBech32 msg.validator = some validator ∧
      sdk.accAddressFromBech32 msg.orchestrator = some orchestrator ∧
      isValidator validator = true ∧
      keys.getOrchestratorValidator isValidator orchestrator = none ∧
      keys.getEthAddressByValidator validator = none ∧
      after = (keys.setOrchestratorValidator validator orchestrator).setEthAddressForValidator
        validator msg.ethAddress := by
  unfold setOrchestratorAddress MsgSetOrchestratorAddress.validateBasic at set
  cases validatorIs : sdk.valAddressFromBech32 msg.validator with
  | none => simp [validatorIs] at set
  | some validator =>
      cases orchestratorIs : sdk.accAddressFromBech32 msg.orchestrator with
      | none => simp [validatorIs, orchestratorIs] at set
      | some orchestrator =>
          cases address : validateEthAddress msg.ethAddress with
          | error reason => simp [validatorIs, orchestratorIs, address] at set
          | ok value =>
              simp only [validatorIs, orchestratorIs, address, Option.isNone_some,
                Bool.false_eq_true, if_false, Option.getD_some] at set
              split_ifs at set with known taken
              · obtain ⟨free, unset⟩ := not_or.mp taken
                exact ⟨rfl, validator, orchestrator, rfl, rfl, known,
                  by simpa using free, by simpa using unset, (Outcome.ok.inj set).symm⟩

/-! ### The registry as a machine -/

/-- One registration attempt, with the validators the staking module knows at that time. A message
that fails leaves the registry as it was. -/
def delegateStep (sdk : Sdk) (keys : DelegateKeys)
    (input : (ValAddress → Bool) × MsgSetOrchestratorAddress) :
    Option (DelegateKeys × List Empty) :=
  some ((setOrchestratorAddress sdk input.1 input.2 keys).deliver keys, [])

theorem getEthAddressByValidator_register (keys : DelegateKeys) (validator other : ValAddress)
    (orchestrator : AccAddress) (ethAddress : Bytes) :
    ((keys.setOrchestratorValidator validator orchestrator).setEthAddressForValidator validator
        ethAddress).getEthAddressByValidator other =
      if other = validator then some ethAddress else keys.getEthAddressByValidator other := by
  simp only [DelegateKeys.getEthAddressByValidator, DelegateKeys.setEthAddressForValidator,
    DelegateKeys.setOrchestratorValidator, Store.get_set, getEthAddressByValidatorKey_inj]

/-- Every registered Ethereum address is well formed and was in one of the messages. -/
def DelegateKeys.From (inputs : List ((ValAddress → Bool) × MsgSetOrchestratorAddress))
    (keys : DelegateKeys) : Prop :=
  ∀ validator ethAddress, keys.getEthAddressByValidator validator = some ethAddress →
    validateEthAddress ethAddress = .ok () ∧ ∃ input ∈ inputs, input.2.ethAddress = ethAddress

theorem DelegateKeys.From.step {sdk : Sdk}
    {inputs : List ((ValAddress → Bool) × MsgSetOrchestratorAddress)} {keys next : DelegateKeys}
    {input : (ValAddress → Bool) × MsgSetOrchestratorAddress} {outputs : List Empty}
    (member : input ∈ inputs) (invariant : keys.From inputs)
    (step : delegateStep sdk keys input = some (next, outputs)) : next.From inputs := by
  obtain ⟨rfl, _⟩ := Prod.mk.inj (Option.some.inj step)
  intro validator ethAddress found
  cases set : setOrchestratorAddress sdk input.1 input.2 keys with
  | ok after =>
      rw [set] at found
      obtain ⟨valid, operator, orchestrator, _, _, _, _, _, rfl⟩ := setOrchestratorAddress_eq_ok set
      simp only [Outcome.deliver] at found
      rw [getEthAddressByValidator_register] at found
      split_ifs at found with same
      · obtain rfl := Option.some.inj found
        exact ⟨valid, input, member, rfl⟩
      · exact invariant validator ethAddress found
  | error reason =>
      rw [set] at found
      exact invariant validator ethAddress found
  | panic reason => exact reason.elim

/-- **Every registered Ethereum address was in some message of the run** and is well formed. -/
theorem registered_of_run {sdk : Sdk}
    {inputs : List ((ValAddress → Bool) × MsgSetOrchestratorAddress)} {keys : DelegateKeys}
    {outputs : List Empty}
    (runs : run (delegateStep sdk) DelegateKeys.empty inputs = some (keys, outputs)) :
    keys.From inputs := by
  have initially : DelegateKeys.empty.From inputs := by
    intro validator ethAddress found
    simp [DelegateKeys.empty, DelegateKeys.getEthAddressByValidator] at found
  exact run_invariant (fun input => input ∈ inputs) (fun _ keys => keys.From inputs)
    (fun _ _ _ _ _ member invariant step => invariant.step member step)
    (fun _ member => member) initially runs

end NabBridge
