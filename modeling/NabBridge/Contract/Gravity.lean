/-
**The bridge contract.**

The five public functions of `Gravity.sol` that emit events, from the storage they read to the logs
they write. A revert undoes the whole call, so a call is a function into `Except`.

The other contracts of the chain enter through `Contracts`, over any state of them. A call into one of
them runs foreign code, a `Callee`, which may call any function of the bridge before it comes back, and
may survive the failure of what it calls. `Callee.run` runs it, with rollback frame by frame; `callAt`
closes the loop up to the depth the EVM allows. A transaction is foreign code too (`transact`).

Four of the five functions are `nonReentrant`; `deployERC20` is not.
-/

import NabBridge.Contract.Signatures
import NabBridge.Lib.Abi
import NabBridge.Lib.Outcome
import Mathlib.Logic.Function.Basic

namespace NabBridge

/-- `ValsetArgs` -/
@[ext]
structure ValsetArgs where
  validators : List EthAddress
  powers : List Nat
  valsetNonce : Nat
  rewardAmount : Nat
  rewardToken : EthAddress
  deriving DecidableEq, Repr

/-- The arguments of `submitBatch` that describe the batch. -/
@[ext]
structure BatchArgs where
  amounts : List Nat
  destinations : List EthAddress
  fees : List Nat
  batchNonce : Nat
  tokenContract : EthAddress
  batchTimeout : Nat
  deriving DecidableEq, Repr

/-- `LogicCallArgs` -/
@[ext]
structure LogicCallArgs where
  transferAmounts : List Nat
  transferTokenContracts : List EthAddress
  feeAmounts : List Nat
  feeTokenContracts : List EthAddress
  logicContractAddress : EthAddress
  payload : Bytes
  timeOut : Nat
  invalidationId : Bytes
  invalidationNonce : Nat
  deriving DecidableEq, Repr

/-- The arguments of `deployERC20`. -/
structure DeployERC20Args where
  cosmosDenom : Bytes
  name : Bytes
  symbol : Bytes
  decimals : Nat
  deriving DecidableEq, Repr

/-- The signature arrays of a call. -/
structure Signatures where
  v : List UInt8
  r : List Bytes
  s : List Bytes
  deriving DecidableEq, Repr

/-- The events, with their event nonces. -/
inductive GravityEvent where
  | transactionBatchExecuted (batchNonce : Nat) (token : EthAddress) (eventNonce : Nat)
  | sendToCosmos (tokenContract sender : EthAddress) (destination : Bytes) (amount eventNonce : Nat)
  | erc20Deployed (cosmosDenom : Bytes) (tokenContract : EthAddress) (name symbol : Bytes)
      (decimals eventNonce : Nat)
  | valsetUpdated (newValsetNonce eventNonce rewardAmount : Nat) (rewardToken : EthAddress)
      (validators : List EthAddress) (powers : List Nat)
  | logicCall (invalidationId : Bytes) (invalidationNonce : Nat) (returnData : Bytes)
      (eventNonce : Nat)
  deriving DecidableEq, Repr

/-- `_eventNonce` -/
def GravityEvent.eventNonce : GravityEvent → Nat
  | transactionBatchExecuted _ _ nonce => nonce
  | sendToCosmos _ _ _ _ nonce => nonce
  | erc20Deployed _ _ _ _ _ nonce => nonce
  | valsetUpdated _ nonce _ _ _ _ => nonce
  | logicCall _ _ _ nonce => nonce

/-- The reverts. -/
inductive GravityRevert where
  /-- `New batch nonce must be greater than the current nonce` -/
  | batchNonce
  /-- `Batch timeout must be greater than the current block height` -/
  | batchTimeout
  /-- `Malformed current validator set` -/
  | malformedCurrentValset
  /-- `Supplied current validators and powers do not match checkpoint.` -/
  | checkpointMismatch
  /-- `Malformed batch of transactions` -/
  | malformedBatch
  | signatures (reason : SignatureRevert)
  /-- `New valset nonce must be greater than the current nonce` -/
  | valsetNonce
  /-- `Malformed new validator set` -/
  | malformedNewValset
  /-- `Timed out` -/
  | timedOut
  /-- `New invalidation nonce must be greater than the current nonce` -/
  | invalidationNonce
  /-- `Malformed list of token transfers` -/
  | malformedTransfers
  /-- `Malformed list of fees` -/
  | malformedFees
  /-- `Submitted validator set signatures do not have enough power.`, of the constructor -/
  | notEnoughPower
  /-- a call into another contract failed -/
  | callFailed
  /-- `SafeMath: addition overflow` -/
  | overflow
  /-- `ReentrancyGuard: reentrant call` -/
  | reentrantCall
  /-- calldata that does not decode to arguments of the function's types -/
  | malformedCalldata
  /-- the call stack is full -/
  | callDepth
  deriving DecidableEq, Repr

/-- A call of one of the public functions. -/
inductive GravityCall where
  | updateValset (newValset currentValset : ValsetArgs) (signatures : Signatures)
  | submitBatch (currentValset : ValsetArgs) (signatures : Signatures) (args : BatchArgs)
  | submitLogicCall (currentValset : ValsetArgs) (signatures : Signatures) (args : LogicCallArgs)
  | sendToCosmos (tokenContract : EthAddress) (destination : Bytes) (amount : Nat)
  | deployERC20 (args : DeployERC20Args)
  deriving DecidableEq, Repr

/-- The storage of the contract. -/
structure GravityState where
  wNomAddress : EthAddress
  lastValsetCheckpoint : Bytes
  lastBatchNonces : EthAddress → Nat
  invalidationMapping : Bytes → Nat
  lastValsetNonce : Nat
  lastEventNonce : Nat
  gravityId : Bytes
  powerThreshold : Nat
  /-- `_status` of `ReentrancyGuard`: a guarded function is running -/
  entered : Bool

/-- The chain the contract is on: its storage, the other contracts, the block, the logs with the
block each was written in, oldest first, and the calls of the bridge that took effect, in the order
in which they ended. -/
structure Ethereum (τ : Type) where
  gravity : GravityState
  contracts : τ
  blockNumber : Nat
  logs : List (GravityEvent × Nat)
  accepted : List (EthAddress × GravityCall)

/-- Foreign code, as it runs. What it does to the other contracts is in the state it passes on. -/
inductive Callee (τ : Type) where
  | returns (data : Bytes) (contracts : τ)
  | reverts
  /-- It calls the bridge, and goes on with the result. -/
  | calls (contracts : τ) (sender : EthAddress) (call : GravityCall)
      (next : Except GravityRevert (Ethereum τ) → Callee τ)
  /-- It calls foreign code in a frame of its own, and goes on with the result. -/
  | tries (contracts : τ) (body : Callee τ)
      (next : Except GravityRevert (Bytes × Ethereum τ) → Callee τ)

/-- The other contracts, as the bridge calls them. -/
structure Contracts (τ : Type) where
  /-- `safeTransfer` of the bridge's tokens: token, recipient, amount. -/
  safeTransfer : EthAddress → EthAddress → Nat → Ethereum τ → Callee τ
  /-- `safeTransferFrom` to the bridge: token, sender, amount. -/
  safeTransferFrom : EthAddress → EthAddress → Nat → Ethereum τ → Callee τ
  /-- `wNomBurner.burn` -/
  burn : Nat → Ethereum τ → Callee τ
  /-- `Address.functionCall`: address, payload. -/
  functionCall : EthAddress → Bytes → Ethereum τ → Callee τ
  /-- `new CosmosERC20` for the bridge: its address. -/
  newCosmosERC20 : DeployERC20Args → τ → EthAddress × τ

/-- How foreign code gets into the bridge: `msg.sender`, the call, the chain. -/
abbrev Entry (τ : Type) :=
  EthAddress → GravityCall → Ethereum τ → Except GravityRevert (Ethereum τ)

/-- `methodName`: the 32-byte constant that starts with a text. -/
def methodName (text : String) : Bytes := rightPad 32 (ascii text)

section Functions

/-- What the contract encodes for the checkpoint of a validator set. -/
def ValsetArgs.preimage (valset : ValsetArgs) (gravityId : Bytes) : List AbiValue :=
  [.bytes32 gravityId, .bytes32 (methodName "checkpoint"), .word valset.valsetNonce,
    .words (valset.validators.map Fin.val), .words valset.powers, .word valset.rewardAmount,
    .word valset.rewardToken.val]

/-- What the contract encodes for the hash of a batch. -/
def BatchArgs.preimage (args : BatchArgs) (gravityId : Bytes) : List AbiValue :=
  [.bytes32 gravityId, .bytes32 (methodName "transactionBatch"), .words args.amounts,
    .words (args.destinations.map Fin.val), .words args.fees, .word args.batchNonce,
    .word args.tokenContract.val, .word args.batchTimeout]

/-- What the contract encodes for the hash of a logic call. -/
def LogicCallArgs.preimage (args : LogicCallArgs) (gravityId : Bytes) : List AbiValue :=
  [.bytes32 gravityId, .bytes32 (methodName "logicCall"), .words args.transferAmounts,
    .words (args.transferTokenContracts.map Fin.val), .words args.feeAmounts,
    .words (args.feeTokenContracts.map Fin.val), .word args.logicContractAddress.val,
    .bytes args.payload, .word args.timeOut, .bytes32 args.invalidationId,
    .word args.invalidationNonce]

variable {τ : Type} (evm : Evm) (others : Contracts τ) (entry : Entry τ)

/-- `makeCheckpoint` -/
def makeCheckpoint (valset : ValsetArgs) (gravityId : Bytes) : Bytes :=
  evm.keccak256 (abiEncode (valset.preimage gravityId))

/-- The hash validators sign for a batch. -/
def batchHash (args : BatchArgs) (gravityId : Bytes) : Bytes :=
  evm.keccak256 (abiEncode (args.preimage gravityId))

/-- The hash validators sign for a logic call. -/
def logicCallHash (args : LogicCallArgs) (gravityId : Bytes) : Bytes :=
  evm.keccak256 (abiEncode (args.preimage gravityId))

/-- A condition a call requires. -/
def require (condition : Prop) [Decidable condition] (reason : GravityRevert) :
    Except GravityRevert Unit :=
  if condition then .ok () else .error reason

/-- The validators of a set and the signature arrays are of one length. -/
def Signatures.Match (signatures : Signatures) (valset : ValsetArgs) : Prop :=
  valset.validators.length = valset.powers.length ∧
    valset.validators.length = signatures.v.length ∧
    valset.validators.length = signatures.r.length ∧
    valset.validators.length = signatures.s.length

instance (signatures : Signatures) (valset : ValsetArgs) : Decidable (signatures.Match valset) := by
  unfold Signatures.Match; infer_instance

/-- Whether the current validators have signed a hash. -/
def checkQuorum (gravity : GravityState) (valset : ValsetArgs) (signatures : Signatures)
    (theHash : Bytes) : Except GravityRevert Unit :=
  (checkValidatorSignatures evm valset.validators valset.powers signatures.v signatures.r
    signatures.s theHash gravity.powerThreshold).mapError .signatures

/-! ### Foreign code -/

/-- Run foreign code. What fails is undone from the start of its frame. -/
def Callee.run : Callee τ → Ethereum τ → Except GravityRevert (Bytes × Ethereum τ)
  | returns data contracts, eth => .ok (data, { eth with contracts := contracts })
  | reverts, _ => .error .callFailed
  | calls contracts sender call next, eth =>
      let before := { eth with contracts := contracts }
      match entry sender call before with
      | .ok after => (next (.ok after)).run after
      | .error reason => (next (.error reason)).run before
  | tries contracts body next, eth =>
      let before := { eth with contracts := contracts }
      match body.run before with
      | .ok (data, after) => (next (.ok (data, after))).run after
      | .error reason => (next (.error reason)).run before

/-! ### The public functions -/

/-- `nonReentrant` -/
def nonReentrant (body : Ethereum τ → Except GravityRevert (Ethereum τ)) (eth : Ethereum τ) :
    Except GravityRevert (Ethereum τ) := do
  require (eth.gravity.entered = false) .reentrantCall
  let after ← body { eth with gravity := { eth.gravity with entered := true } }
  pure { after with gravity := { after.gravity with entered := false } }

namespace Ethereum

/-- Write a log with the next event nonce. -/
def emit (event : Nat → GravityEvent) (eth : Ethereum τ) : Except GravityRevert (Ethereum τ) :=
  let nonce := eth.gravity.lastEventNonce + 1
  if nonce < 2 ^ 256 then
    .ok { eth with
      gravity := { eth.gravity with lastEventNonce := nonce }
      logs := eth.logs ++ [(event nonce, eth.blockNumber)] }
  else .error .overflow

/-- `deployERC20` -/
def deployERC20 (args : DeployERC20Args) (eth : Ethereum τ) : Except GravityRevert (Ethereum τ) :=
  let (erc20, contracts) := others.newCosmosERC20 args eth.contracts
  emit (fun nonce => .erc20Deployed args.cosmosDenom erc20 args.name args.symbol args.decimals nonce)
    { eth with contracts := contracts }

/-- A call into another contract whose result is not used. -/
def external (callee : Ethereum τ → Callee τ) (eth : Ethereum τ) :
    Except GravityRevert (Ethereum τ) := do
  let (_, eth) ← (callee eth).run entry eth
  pure eth

/-- The transfers of a batch, and the sum of its fees. -/
def payBatch (token : EthAddress) :
    List Nat → List EthAddress → List Nat → Nat → Ethereum τ →
      Except GravityRevert (Nat × Ethereum τ)
  | amount :: amounts, destination :: destinations, fee :: fees, totalFee, eth => do
      let eth ← eth.external entry (others.safeTransfer token destination amount)
      require (totalFee + fee < 2 ^ 256) .overflow
      payBatch token amounts destinations fees (totalFee + fee) eth
  | [], _, _, totalFee, eth => .ok (totalFee, eth)
  | _, _, _, _, _ => .error .malformedBatch

/-- A list of transfers of several tokens to one recipient. -/
def payTokens (recipient : EthAddress) :
    List Nat → List EthAddress → Ethereum τ → Except GravityRevert (Ethereum τ)
  | amount :: amounts, token :: tokens, eth => do
      let eth ← eth.external entry (others.safeTransfer token recipient amount)
      payTokens recipient amounts tokens eth
  | _, _, eth => .ok eth

/-- The reward of a validator set, to whoever submits it. -/
def payReward (sender : EthAddress) (newValset : ValsetArgs) (eth : Ethereum τ) :
    Except GravityRevert (Ethereum τ) :=
  if newValset.rewardToken ≠ 0 ∧ newValset.rewardAmount ≠ 0 then
    eth.external entry
      (others.safeTransfer newValset.rewardToken sender newValset.rewardAmount)
  else .ok eth

/-- A deposit of wNOM is burned. -/
def burnWNom (tokenContract : EthAddress) (amount : Nat) (eth : Ethereum τ) :
    Except GravityRevert (Ethereum τ) :=
  if tokenContract = eth.gravity.wNomAddress then
    eth.external entry (others.burn amount)
  else .ok eth

/-- `updateValset` -/
def updateValset (sender : EthAddress) (newValset currentValset : ValsetArgs)
    (signatures : Signatures) : Ethereum τ → Except GravityRevert (Ethereum τ) :=
  nonReentrant fun eth => do
    require (newValset.valsetNonce > currentValset.valsetNonce) .valsetNonce
    require (newValset.validators.length = newValset.powers.length) .malformedNewValset
    require (signatures.Match currentValset) .malformedCurrentValset
    require (makeCheckpoint evm currentValset eth.gravity.gravityId =
      eth.gravity.lastValsetCheckpoint) .checkpointMismatch
    let newCheckpoint := makeCheckpoint evm newValset eth.gravity.gravityId
    checkQuorum evm eth.gravity currentValset signatures newCheckpoint
    let eth := { eth with
      gravity := { eth.gravity with
        lastValsetCheckpoint := newCheckpoint
        lastValsetNonce := newValset.valsetNonce } }
    let eth ← eth.payReward others entry sender newValset
    eth.emit fun nonce => .valsetUpdated newValset.valsetNonce nonce newValset.rewardAmount
      newValset.rewardToken newValset.validators newValset.powers

/-- `submitBatch` -/
def submitBatch (sender : EthAddress) (currentValset : ValsetArgs) (signatures : Signatures)
    (args : BatchArgs) : Ethereum τ → Except GravityRevert (Ethereum τ) :=
  nonReentrant fun eth => do
    require (eth.gravity.lastBatchNonces args.tokenContract < args.batchNonce) .batchNonce
    require (eth.blockNumber < args.batchTimeout) .batchTimeout
    require (signatures.Match currentValset) .malformedCurrentValset
    require (makeCheckpoint evm currentValset eth.gravity.gravityId =
      eth.gravity.lastValsetCheckpoint) .checkpointMismatch
    require (args.amounts.length = args.destinations.length ∧
      args.amounts.length = args.fees.length) .malformedBatch
    checkQuorum evm eth.gravity currentValset signatures (batchHash evm args eth.gravity.gravityId)
    let eth := { eth with
      gravity := { eth.gravity with
        lastBatchNonces :=
          Function.update eth.gravity.lastBatchNonces args.tokenContract args.batchNonce } }
    let (totalFee, eth) ←
      eth.payBatch others entry args.tokenContract args.amounts args.destinations args.fees 0
    let eth ← eth.external entry (others.safeTransfer args.tokenContract sender totalFee)
    eth.emit fun nonce => .transactionBatchExecuted args.batchNonce args.tokenContract nonce

/-- `submitLogicCall` -/
def submitLogicCall (sender : EthAddress) (currentValset : ValsetArgs) (signatures : Signatures)
    (args : LogicCallArgs) : Ethereum τ → Except GravityRevert (Ethereum τ) :=
  nonReentrant fun eth => do
    require (eth.blockNumber < args.timeOut) .timedOut
    require (eth.gravity.invalidationMapping args.invalidationId < args.invalidationNonce)
      .invalidationNonce
    require (signatures.Match currentValset) .malformedCurrentValset
    require (makeCheckpoint evm currentValset eth.gravity.gravityId =
      eth.gravity.lastValsetCheckpoint) .checkpointMismatch
    require (args.transferAmounts.length = args.transferTokenContracts.length) .malformedTransfers
    require (args.feeAmounts.length = args.feeTokenContracts.length) .malformedFees
    checkQuorum evm eth.gravity currentValset signatures
      (logicCallHash evm args eth.gravity.gravityId)
    let eth := { eth with
      gravity := { eth.gravity with
        invalidationMapping := Function.update eth.gravity.invalidationMapping args.invalidationId
          args.invalidationNonce } }
    let eth ← eth.payTokens others entry args.logicContractAddress args.transferAmounts
      args.transferTokenContracts
    let (returnData, eth) ←
      (others.functionCall args.logicContractAddress args.payload eth).run entry eth
    let eth ← eth.payTokens others entry sender args.feeAmounts args.feeTokenContracts
    eth.emit fun nonce => .logicCall args.invalidationId args.invalidationNonce returnData nonce

/-- `sendToCosmos` -/
def sendToCosmos (sender tokenContract : EthAddress) (destination : Bytes) (amount : Nat) :
    Ethereum τ → Except GravityRevert (Ethereum τ) :=
  nonReentrant fun eth => do
    let eth ← eth.external entry (others.safeTransferFrom tokenContract sender amount)
    let eth ← eth.burnWNom others entry tokenContract amount
    eth.emit fun nonce => .sendToCosmos tokenContract sender destination amount nonce

end Ethereum

/-! ### Calls -/

/-- The arguments are in the range of their Solidity types. -/
def ValsetArgs.InRange (valset : ValsetArgs) : Prop :=
  valset.validators.length < 2 ^ 256 ∧ valset.powers.length < 2 ^ 256 ∧
    (∀ power ∈ valset.powers, power < 2 ^ 256) ∧ valset.valsetNonce < 2 ^ 256 ∧
    valset.rewardAmount < 2 ^ 256

instance (valset : ValsetArgs) : Decidable valset.InRange := by
  unfold ValsetArgs.InRange; infer_instance

def BatchArgs.InRange (args : BatchArgs) : Prop :=
  args.amounts.length < 2 ^ 256 ∧ args.destinations.length < 2 ^ 256 ∧
    args.fees.length < 2 ^ 256 ∧ (∀ amount ∈ args.amounts, amount < 2 ^ 256) ∧
    (∀ fee ∈ args.fees, fee < 2 ^ 256) ∧ args.batchNonce < 2 ^ 256 ∧ args.batchTimeout < 2 ^ 256

instance (args : BatchArgs) : Decidable args.InRange := by
  unfold BatchArgs.InRange; infer_instance

def LogicCallArgs.InRange (args : LogicCallArgs) : Prop :=
  args.transferAmounts.length < 2 ^ 256 ∧ args.transferTokenContracts.length < 2 ^ 256 ∧
    args.feeAmounts.length < 2 ^ 256 ∧ args.feeTokenContracts.length < 2 ^ 256 ∧
    (∀ amount ∈ args.transferAmounts, amount < 2 ^ 256) ∧
    (∀ amount ∈ args.feeAmounts, amount < 2 ^ 256) ∧ args.payload.length < 2 ^ 256 ∧
    args.timeOut < 2 ^ 256 ∧ args.invalidationId.length = 32 ∧ args.invalidationNonce < 2 ^ 256

instance (args : LogicCallArgs) : Decidable args.InRange := by
  unfold LogicCallArgs.InRange; infer_instance

def Signatures.InRange (signatures : Signatures) : Prop :=
  (∀ r ∈ signatures.r, r.length = 32) ∧ ∀ s ∈ signatures.s, s.length = 32

instance (signatures : Signatures) : Decidable signatures.InRange := by
  unfold Signatures.InRange; infer_instance

/-- Some calldata decodes to the call. -/
def GravityCall.InRange : GravityCall → Prop
  | updateValset newValset currentValset signatures =>
      newValset.InRange ∧ currentValset.InRange ∧ signatures.InRange
  | submitBatch currentValset signatures args =>
      currentValset.InRange ∧ signatures.InRange ∧ args.InRange
  | submitLogicCall currentValset signatures args =>
      currentValset.InRange ∧ signatures.InRange ∧ args.InRange
  | sendToCosmos _ destination amount => destination.length = 32 ∧ amount < 2 ^ 256
  | deployERC20 args =>
      (args.cosmosDenom.length < 2 ^ 256 ∧ args.name.length < 2 ^ 256 ∧
        args.symbol.length < 2 ^ 256) ∧ args.decimals < 256

instance (call : GravityCall) : Decidable call.InRange := by
  rcases call <;> unfold GravityCall.InRange <;> infer_instance

/-- The function a call names. -/
def Ethereum.dispatch (sender : EthAddress) :
    GravityCall → Ethereum τ → Except GravityRevert (Ethereum τ)
  | .updateValset newValset currentValset signatures =>
      updateValset evm others entry sender newValset currentValset signatures
  | .submitBatch currentValset signatures args =>
      submitBatch evm others entry sender currentValset signatures args
  | .submitLogicCall currentValset signatures args =>
      submitLogicCall evm others entry sender currentValset signatures args
  | .sendToCosmos tokenContract destination amount =>
      sendToCosmos others entry sender tokenContract destination amount
  | .deployERC20 args => deployERC20 others args

/-- A call with its `msg.sender`, when `depth` more frames fit on the call stack. -/
def Ethereum.callAt : Nat → Entry τ
  | 0, _, _, _ => .error .callDepth
  | depth + 1, sender, call, eth => do
      require call.InRange .malformedCalldata
      let after ← dispatch evm others (callAt depth) sender call eth
      pure { after with accepted := after.accepted ++ [(sender, call)] }

/-- A call of the bridge from the outside. -/
def Ethereum.call (sender : EthAddress) (eth : Ethereum τ) (call : GravityCall) :
    Except GravityRevert (Ethereum τ) :=
  callAt evm others 1024 sender call eth

/-- A transaction: foreign code at the bottom of the call stack. One that fails changes nothing. -/
def Ethereum.transact (code : Ethereum τ → Callee τ) (eth : Ethereum τ) : Ethereum τ :=
  match (code eth).run (callAt evm others 1024) eth with
  | .ok (_, after) => after
  | .error _ => eth

/-- What happens on the chain: transactions, and new blocks. -/
inductive EthereumInput (τ : Type) where
  | transaction (code : Ethereum τ → Callee τ)
  | blocks (count : Nat)

/-- One input. -/
def Ethereum.next (eth : Ethereum τ) : EthereumInput τ → Ethereum τ
  | .transaction code => eth.transact evm others code
  | .blocks count => { eth with blockNumber := eth.blockNumber + count }

/-- The chain after a list of inputs. -/
def Ethereum.after (eth : Ethereum τ) (inputs : List (EthereumInput τ)) : Ethereum τ :=
  inputs.foldl (Ethereum.next evm others) eth

/-- The powers summed up by the constructor, until the threshold is passed. -/
def constructorPower (powerThreshold : Nat) : Nat → List Nat → Nat
  | cumulative, [] => cumulative
  | cumulative, power :: powers =>
      let cumulative := (cumulative + power) % 2 ^ 256
      if cumulative > powerThreshold then cumulative
      else constructorPower powerThreshold cumulative powers

/-- The constructor: the chain after the deployment of the bridge. -/
def deployGravity (gravityId : Bytes) (powerThreshold : Nat) (validators : List EthAddress)
    (powers : List Nat) (wNomAddress : EthAddress) (contracts : τ) (blockNumber : Nat) :
    Except GravityRevert (Ethereum τ) := do
  require (gravityId.length = 32 ∧ powerThreshold < 2 ^ 256 ∧
    (⟨validators, powers, 0, 0, 0⟩ : ValsetArgs).InRange) .malformedCalldata
  require (validators.length = powers.length) .malformedCurrentValset
  require (constructorPower powerThreshold 0 powers > powerThreshold) .notEnoughPower
  pure
    { gravity :=
        { wNomAddress := wNomAddress
          lastValsetCheckpoint := makeCheckpoint evm ⟨validators, powers, 0, 0, 0⟩ gravityId
          lastBatchNonces := fun _ => 0
          invalidationMapping := fun _ => 0
          lastValsetNonce := 0
          lastEventNonce := 1
          gravityId := gravityId
          powerThreshold := powerThreshold
          entered := false }
      contracts := contracts
      blockNumber := blockNumber
      logs := [(.valsetUpdated 0 1 0 0 validators powers, blockNumber)]
      accepted := [] }

end Functions

end NabBridge
