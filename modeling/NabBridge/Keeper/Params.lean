/-
**The parameters of the module.**

Governance and genesis set seventeen parameters. They are kept in the SDK's parameter store, each under a
key of its own, as the pairs of `ParamSetPairs` say; a pair also names the check its value has to pass.
`ValidateBasic` makes the checks of all parameters.

The pairs are sixteen: none is there for `SlashFractionLogicCall`.

* `ModuleParams.validateBasic_times`: the bounds that `ValidateBasic` puts on the times.
-/

import NabBridge.Keeper.Batch
import NabBridge.Lib.Fields
import Mathlib.Data.List.Infix

namespace NabBridge

/-- `sdk.Dec`, in units of the eighteenth decimal; `none` is one that was never set. -/
abbrev Dec := Option Int

/-- `types.Params` -/
structure ModuleParams extends Params where
  contractSourceHash : Bytes
  bridgeEthereumAddress : Bytes
  bridgeChainId : Nat
  signedValsetsWindow : Nat
  signedBatchesWindow : Nat
  signedLogicCallsWindow : Nat
  slashFractionValset : Dec
  slashFractionBatch : Dec
  slashFractionLogicCall : Dec
  unbondSlashingValsetsWindow : Nat
  slashFractionBadEthSignature : Dec
  valsetReward : Coin
  deriving DecidableEq, Repr

/-- The parameters before any of them is read. -/
def ModuleParams.zero : ModuleParams where
  gravityId := []
  averageBlockTime := 0
  averageEthereumBlockTime := 0
  targetBatchTimeout := 0
  erc20ToDenomPermanentSwap := ⟨[], []⟩
  contractSourceHash := []
  bridgeEthereumAddress := []
  bridgeChainId := 0
  signedValsetsWindow := 0
  signedBatchesWindow := 0
  signedLogicCallsWindow := 0
  slashFractionValset := none
  slashFractionBatch := none
  slashFractionLogicCall := none
  unbondSlashingValsetsWindow := 0
  slashFractionBadEthSignature := none
  valsetReward := ⟨[], 0⟩

/-- `DefaultParams` -/
def defaultParams : ModuleParams where
  gravityId := ascii "defaultgravityid"
  averageBlockTime := 5000
  averageEthereumBlockTime := 15000
  targetBatchTimeout := 43200000
  erc20ToDenomPermanentSwap := ⟨[], []⟩
  contractSourceHash := []
  bridgeEthereumAddress := []
  bridgeChainId := 0
  signedValsetsWindow := 10000
  signedBatchesWindow := 10000
  signedLogicCallsWindow := 10000
  slashFractionValset := some (10 ^ 15)
  slashFractionBatch := some (10 ^ 15)
  slashFractionLogicCall := some (10 ^ 15)
  unbondSlashingValsetsWindow := 10000
  slashFractionBadEthSignature := some (10 ^ 15)
  valsetReward := ⟨[], 0⟩

/-- The numbers are of type `uint64`. -/
structure ModuleParams.InRange (p : ModuleParams) : Prop where
  averageBlockTime : p.averageBlockTime < 2 ^ 64
  averageEthereumBlockTime : p.averageEthereumBlockTime < 2 ^ 64
  targetBatchTimeout : p.targetBatchTimeout < 2 ^ 64
  bridgeChainId : p.bridgeChainId < 2 ^ 64
  signedValsetsWindow : p.signedValsetsWindow < 2 ^ 64
  signedBatchesWindow : p.signedBatchesWindow < 2 ^ 64
  signedLogicCallsWindow : p.signedLogicCallsWindow < 2 ^ 64
  unbondSlashingValsetsWindow : p.unbondSlashingValsetsWindow < 2 ^ 64

/-- The value of a parameter, of one of five types. -/
inductive ParamValue where
  | text (value : Bytes)
  | uint (value : Nat)
  | dec (value : Dec)
  | coin (value : Coin)
  | pair (value : ERC20ToDenom)
  deriving DecidableEq, Repr

/-- The errors of the checks. -/
inductive ParamError where
  /-- `invalid parameter type: %T` -/
  | type (value : ParamValue)
  /-- `string too long` -/
  | tooLong
  /-- `invalid target batch timeout, less than 60 seconds is too short` -/
  | targetBatchTimeout
  /-- `invalid average Cosmos block time, too short for latency limitations` -/
  | averageBlockTime
  /-- `invalid average Ethereum block time, too short for latency limitations` -/
  | averageEthereumBlockTime
  | address (reason : AddressError)
  /-- `invalid parameter type: %T, len must be 0 or 2, current value: %+v` -/
  | halfPair (value : ERC20ToDenom)
  deriving DecidableEq, Repr

abbrev ParamCheck := ParamValue → Except ParamError Unit

/-! ### The checks -/

/-- The text of an error of `ValidateEthAddress`. -/
def AddressError.text : AddressError → Bytes
  | empty => ascii "empty"
  | regex address => ascii "address(" ++ address ++ ascii ") doesn't pass regex"
  | length address =>
      ascii "address(" ++ address ++ ascii ") of the wrong length exp(" ++ decimal ethContractAddressLen ++
        ascii ") actual(" ++ decimal address.length ++ ascii ")"

/-- Any text. -/
def checkText : ParamCheck
  | .text _ => .ok ()
  | value => .error (.type value)

/-- A number that is at least `bound`. -/
def checkUint64 (bound : Nat) (reason : ParamError) : ParamCheck
  | .uint value => if value < bound then .error reason else .ok ()
  | value => .error (.type value)

/-- Any number. -/
def checkAnyUint64 : ParamCheck
  | .uint _ => .ok ()
  | value => .error (.type value)

/-- Any decimal, also one that was never set. -/
def checkDec : ParamCheck
  | .dec _ => .ok ()
  | value => .error (.type value)

/-- `validateGravityID` -/
def validateGravityID : ParamCheck
  | .text value => if (strToFixByteArray value).isNone then .error .tooLong else .ok ()
  | value => .error (.type value)

/-- `validateContractHash` -/
def validateContractHash : ParamCheck := checkText

/-- `validateBridgeChainID` -/
def validateBridgeChainID : ParamCheck := checkAnyUint64

/-- `validateTargetBatchTimeout` -/
def validateTargetBatchTimeout : ParamCheck := checkUint64 60000 .targetBatchTimeout

/-- `validateAverageBlockTime` -/
def validateAverageBlockTime : ParamCheck := checkUint64 100 .averageBlockTime

/-- `validateAverageEthereumBlockTime` -/
def validateAverageEthereumBlockTime : ParamCheck := checkUint64 100 .averageEthereumBlockTime

/-- `validateBridgeContractAddress`: an error passes if its text has `empty` in it. -/
def validateBridgeContractAddress : ParamCheck
  | .text value =>
      match validateEthAddress value with
      | .ok () => .ok ()
      | .error reason =>
          if ascii "empty" <:+: reason.text then .ok () else .error (.address reason)
  | value => .error (.type value)

/-- `validateSignedValsetsWindow` -/
def validateSignedValsetsWindow : ParamCheck := checkAnyUint64

/-- `validateUnbondSlashingValsetsWindow` -/
def validateUnbondSlashingValsetsWindow : ParamCheck := checkAnyUint64

/-- `validateSlashFractionValset` -/
def validateSlashFractionValset : ParamCheck := checkDec

/-- `validateSignedBatchesWindow` -/
def validateSignedBatchesWindow : ParamCheck := checkAnyUint64

/-- `validateSignedLogicCallsWindow` -/
def validateSignedLogicCallsWindow : ParamCheck := checkAnyUint64

/-- `validateSlashFractionBatch` -/
def validateSlashFractionBatch : ParamCheck := checkDec

/-- `validateSlashFractionLogicCall` -/
def validateSlashFractionLogicCall : ParamCheck := checkDec

/-- `validateSlashFractionBadEthSignature` -/
def validateSlashFractionBadEthSignature : ParamCheck := checkDec

/-- `validateValsetRewardAmount` -/
def validateValsetRewardAmount : ParamCheck
  | .coin _ => .ok ()
  | value => .error (.type value)

/-- `validateErc20ToDenomPermanentSwap` -/
def validateErc20ToDenomPermanentSwap : ParamCheck
  | .pair value =>
      if (value.erc20 = [] ∧ value.denom ≠ []) ∨ (value.erc20 ≠ [] ∧ value.denom = []) then
        .error (.halfPair value)
      else .ok ()
  | value => .error (.type value)

/-- `sdkerrors.Wrap` -/
def wrapParam (text : String) (checked : Except ParamError Unit) : Except (Bytes × ParamError) Unit :=
  checked.mapError fun reason => (ascii text, reason)

/-- `Params.ValidateBasic` -/
def ModuleParams.validateBasic (p : ModuleParams) : Except (Bytes × ParamError) Unit := do
  wrapParam "gravity id" (validateGravityID (.text p.gravityId))
  wrapParam "contract hash" (validateContractHash (.text p.contractSourceHash))
  wrapParam "bridge contract address" (validateBridgeContractAddress (.text p.bridgeEthereumAddress))
  wrapParam "bridge chain id" (validateBridgeChainID (.uint p.bridgeChainId))
  wrapParam "Batch timeout" (validateTargetBatchTimeout (.uint p.targetBatchTimeout))
  wrapParam "Block time" (validateAverageBlockTime (.uint p.averageBlockTime))
  wrapParam "Ethereum block time" (validateAverageEthereumBlockTime (.uint p.averageEthereumBlockTime))
  wrapParam "signed blocks window valsets" (validateSignedValsetsWindow (.uint p.signedValsetsWindow))
  wrapParam "signed blocks window batches" (validateSignedBatchesWindow (.uint p.signedBatchesWindow))
  wrapParam "signed blocks window logic calls"
    (validateSignedLogicCallsWindow (.uint p.signedLogicCallsWindow))
  wrapParam "slash fraction valset" (validateSlashFractionValset (.dec p.slashFractionValset))
  wrapParam "slash fraction batch" (validateSlashFractionBatch (.dec p.slashFractionBatch))
  wrapParam "slash fraction logic call" (validateSlashFractionLogicCall (.dec p.slashFractionLogicCall))
  wrapParam "slash fraction BadEthSignature"
    (validateSlashFractionBadEthSignature (.dec p.slashFractionBadEthSignature))
  wrapParam "unbond Slashing valset window"
    (validateUnbondSlashingValsetsWindow (.uint p.unbondSlashingValsetsWindow))
  wrapParam "ValsetReward amount" (validateValsetRewardAmount (.coin p.valsetReward))
  wrapParam "Erc20ToDenomPermanentSwap"
    (validateErc20ToDenomPermanentSwap (.pair p.erc20ToDenomPermanentSwap))

theorem wrapParam_bind_eq_ok {text : String} {checked : Except ParamError Unit}
    {rest : Except (Bytes × ParamError) Unit} :
    (wrapParam text checked >>= fun _ => rest) = .ok () ↔ checked = .ok () ∧ rest = .ok () := by
  cases checked with
  | error reason => exact iff_of_false nofun fun both => nomatch both.1
  | ok value => exact ⟨fun passed => ⟨rfl, passed⟩, And.right⟩

theorem wrapParam_eq_ok {text : String} {checked : Except ParamError Unit} :
    wrapParam text checked = .ok () ↔ checked = .ok () := by
  cases checked with
  | error reason => exact iff_of_false nofun nofun
  | ok value => exact iff_of_true rfl rfl

theorem checkUint64_eq_ok {bound value : Nat} {reason : ParamError} :
    checkUint64 bound reason (.uint value) = .ok () ↔ bound ≤ value := by
  rw [checkUint64]
  split_ifs with small
  · exact iff_of_false nofun (not_le.mpr small)
  · exact iff_of_true rfl (not_lt.mp small)

/-- The times of parameters that pass `ValidateBasic`: each has a lower bound, and none an upper one. -/
theorem ModuleParams.validateBasic_times {p : ModuleParams} (valid : p.validateBasic = .ok ()) :
    60000 ≤ p.targetBatchTimeout ∧ 100 ≤ p.averageBlockTime ∧ 100 ≤ p.averageEthereumBlockTime := by
  simp only [validateBasic, wrapParam_bind_eq_ok, validateTargetBatchTimeout, validateAverageBlockTime,
    validateAverageEthereumBlockTime, checkUint64_eq_ok] at valid
  obtain ⟨-, -, -, -, target, cosmos, ethereum, -⟩ := valid
  exact ⟨target, cosmos, ethereum⟩

/-! ### The pairs -/

/-- `ParamSetPair`: a field of the parameters, and the check of its value. -/
structure ParamSetPair extends Field StoreKey ParamValue ModuleParams where
  validatorFn : ParamCheck

/-- `NewParamSetPair`: key, field and check. The key is text. -/
def newParamSetPair (key : String) (read : ModuleParams → ParamValue)
    (write : ParamValue → ModuleParams → Option ModuleParams) (validatorFn : ParamCheck) : ParamSetPair :=
  ⟨⟨keyBytes (ascii key), read, write⟩, validatorFn⟩

section Pairs

/-- The value of a text. -/
def ParamValue.text? : ParamValue → Option Bytes
  | .text value => some value
  | _ => none

def ParamValue.uint? : ParamValue → Option Nat
  | .uint value => some value
  | _ => none

def ParamValue.dec? : ParamValue → Option Dec
  | .dec value => some value
  | _ => none

def ParamValue.coin? : ParamValue → Option Coin
  | .coin value => some value
  | _ => none

def ParamValue.pair? : ParamValue → Option ERC20ToDenom
  | .pair value => some value
  | _ => none

/-- `ParamSetPairs` -/
def paramSetPairs : List ParamSetPair :=
  [newParamSetPair "GravityID" (fun p => .text p.gravityId)
      (fun value p => value.text?.map fun text => { p with gravityId := text }) validateGravityID,
    newParamSetPair "ContractHash" (fun p => .text p.contractSourceHash)
      (fun value p => value.text?.map fun text => { p with contractSourceHash := text })
      validateContractHash,
    newParamSetPair "BridgeContractAddress" (fun p => .text p.bridgeEthereumAddress)
      (fun value p => value.text?.map fun text => { p with bridgeEthereumAddress := text })
      validateBridgeContractAddress,
    newParamSetPair "BridgeChainID" (fun p => .uint p.bridgeChainId)
      (fun value p => value.uint?.map fun number => { p with bridgeChainId := number })
      validateBridgeChainID,
    newParamSetPair "SignedValsetsWindow" (fun p => .uint p.signedValsetsWindow)
      (fun value p => value.uint?.map fun number => { p with signedValsetsWindow := number })
      validateSignedValsetsWindow,
    newParamSetPair "SignedBatchesWindow" (fun p => .uint p.signedBatchesWindow)
      (fun value p => value.uint?.map fun number => { p with signedBatchesWindow := number })
      validateSignedBatchesWindow,
    newParamSetPair "SignedLogicCallsWindow" (fun p => .uint p.signedLogicCallsWindow)
      (fun value p => value.uint?.map fun number => { p with signedLogicCallsWindow := number })
      validateSignedLogicCallsWindow,
    newParamSetPair "TargetBatchTimeout" (fun p => .uint p.targetBatchTimeout)
      (fun value p => value.uint?.map fun number => { p with targetBatchTimeout := number })
      validateTargetBatchTimeout,
    newParamSetPair "AverageBlockTime" (fun p => .uint p.averageBlockTime)
      (fun value p => value.uint?.map fun number => { p with averageBlockTime := number })
      validateAverageBlockTime,
    newParamSetPair "AverageEthereumBlockTime" (fun p => .uint p.averageEthereumBlockTime)
      (fun value p => value.uint?.map fun number => { p with averageEthereumBlockTime := number })
      validateAverageEthereumBlockTime,
    newParamSetPair "SlashFractionValset" (fun p => .dec p.slashFractionValset)
      (fun value p => value.dec?.map fun fraction => { p with slashFractionValset := fraction })
      validateSlashFractionValset,
    newParamSetPair "SlashFractionBatch" (fun p => .dec p.slashFractionBatch)
      (fun value p => value.dec?.map fun fraction => { p with slashFractionBatch := fraction })
      validateSlashFractionBatch,
    newParamSetPair "UnbondSlashingValsetsWindow" (fun p => .uint p.unbondSlashingValsetsWindow)
      (fun value p => value.uint?.map fun number => { p with unbondSlashingValsetsWindow := number })
      validateUnbondSlashingValsetsWindow,
    newParamSetPair "SlashFractionBadEthSignature" (fun p => .dec p.slashFractionBadEthSignature)
      (fun value p => value.dec?.map fun fraction => { p with slashFractionBadEthSignature := fraction })
      validateSlashFractionBadEthSignature,
    newParamSetPair "ValsetReward" (fun p => .coin p.valsetReward)
      (fun value p => value.coin?.map fun coin => { p with valsetReward := coin })
      validateValsetRewardAmount,
    newParamSetPair "Erc20ToDenomPermanentSwap" (fun p => .pair p.erc20ToDenomPermanentSwap)
      (fun value p => value.pair?.map fun pair => { p with erc20ToDenomPermanentSwap := pair })
      validateErc20ToDenomPermanentSwap]

/-- The parameter store of the module. -/
abbrev ParamSpace := Store StoreKey ParamValue

/-- `SetParams`; `none` is the panic of a check. The store keeps the values it is given. -/
def setParams (ps : ModuleParams) (paramSpace : ParamSpace) : Option ParamSpace :=
  if paramSetPairs.all fun pair => (pair.validatorFn (pair.read ps)).toOption.isSome then
    some (storeFields (paramSetPairs.map ParamSetPair.toField) ps paramSpace)
  else none

/-- `GetParams`; `none` is the panic of a value that is missing or of another type. -/
def getParams (paramSpace : ParamSpace) : Option ModuleParams :=
  loadFields (paramSetPairs.map ParamSetPair.toField) paramSpace ModuleParams.zero

end Pairs

end NabBridge
