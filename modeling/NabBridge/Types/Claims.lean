/-
**The five Ethereum claims.**

An orchestrator reports a contract event as one of five messages. Each has a stateless check
(`validateBasic`) and a hash that identifies the event (`claimHash`); votes are counted per event
nonce and hash. The text that is hashed is written out here field by field, in the order and with
the separators of the source, since what it binds decides what a vote agrees to.

The SDK enters through `Sdk`: bech32 decoding, `tmhash.Sum` and the check of denoms.
-/

import NabBridge.Types.Address
import NabBridge.Types.Keys
import Mathlib.Data.List.Sort

namespace NabBridge

/-- Account addresses, as raw bytes. -/
abbrev AccAddress := Bytes

/-- Validator operator addresses, as raw bytes. -/
abbrev ValAddress := Bytes

/-- What the module uses of the SDK's address codec, of its denoms and of Tendermint's hash. -/
structure Sdk where
  /-- `sdk.AccAddressFromBech32`; `none` is an error. -/
  accAddressFromBech32 : Bytes → Option AccAddress
  /-- `AccAddress.String` -/
  accAddressString : AccAddress → Bytes
  /-- `sdk.ValAddressFromBech32`; `none` is an error. -/
  valAddressFromBech32 : Bytes → Option ValAddress
  /-- `ValAddress.String` -/
  valAddressString : ValAddress → Bytes
  /-- `tmhash.Sum` -/
  tmhash : Bytes → Bytes
  /-- `sdk.ValidateDenom` returns no error. -/
  validateDenom : Bytes → Bool

/-- Bech32 spellings of four account addresses and of their operator addresses, each address one
repeated byte. -/
def exampleAddresses : List (Bytes × Bytes × Bytes) :=
  [(ascii "cosmos1qyqszqgpqyqszqgpqyqszqgpqyqszqgpjnp7du",
      ascii "cosmosvaloper1qyqszqgpqyqszqgpqyqszqgpqyqszqgph84tp0", List.replicate 20 1),
    (ascii "cosmos1qgpqyqszqgpqyqszqgpqyqszqgpqyqszrh8mx2",
      ascii "cosmosvaloper1qgpqyqszqgpqyqszqgpqyqszqgpqyqszxrnw2e", List.replicate 20 2),
    (ascii "cosmos1qvpsxqcrqvpsxqcrqvpsxqcrqvpsxqcrz8x6vt",
      ascii "cosmosvaloper1qvpsxqcrqvpsxqcrqvpsxqcrqvpsxqcr8nj0qc", List.replicate 20 3),
    (ascii "cosmos1qszqgpqyqszqgpqyqszqgpqyqszqgpqyzhplth",
      ascii "cosmosvaloper1qszqgpqyqszqgpqyqszqgpqyqszqgpqy8r428y", List.replicate 20 4)]

/-- The denoms of the SDK: a letter, then two to 127 letters, digits or slashes. -/
def matchesDenomRegex : Bytes → Bool
  | [] => false
  | first :: rest =>
      let letter (byte : UInt8) : Bool :=
        (65 ≤ byte.toNat ∧ byte.toNat ≤ 90) ∨ (97 ≤ byte.toNat ∧ byte.toNat ≤ 122)
      letter first && decide (2 ≤ rest.length ∧ rest.length ≤ 127) &&
        rest.all fun byte => letter byte || decide (IsDigit byte ∨ byte = 47)

/-- The codec of `exampleAddresses`, with a hash that keeps its input. -/
def exampleSdk : Sdk where
  accAddressFromBech32 text :=
    (exampleAddresses.find? fun address => address.1 = text).map fun address => address.2.2
  accAddressString account :=
    ((exampleAddresses.find? fun address => address.2.2 = account).map fun address =>
      address.1).getD []
  valAddressFromBech32 text :=
    (exampleAddresses.find? fun address => address.2.1 = text).map fun address => address.2.2
  valAddressString validator :=
    ((exampleAddresses.find? fun address => address.2.2 = validator).map fun address =>
      address.2.1).getD []
  tmhash := id
  validateDenom := matchesDenomRegex

/-! ### Bridge validators -/

/-- `BridgeValidator` -/
structure BridgeValidator where
  power : Nat
  ethereumAddress : Bytes
  deriving DecidableEq, Repr

/-- `EthAddrLessThan`: byte order of the two spellings. -/
def ethAddrLessThan (first second : Bytes) : Bool := keyBytes first < keyBytes second

/-- The comparison of `BridgeValidators.Sort`: by power, largest first, then by address. -/
def BridgeValidator.before (first second : BridgeValidator) : Bool :=
  if first.power = second.power then ethAddrLessThan first.ethereumAddress second.ethereumAddress
  else second.power < first.power

/-- `BridgeValidators.Sort` -/
def sortBridgeValidators (members : List BridgeValidator) : List BridgeValidator :=
  members.insertionSort fun first second => second.before first = false

theorem sortBridgeValidators_perm (members : List BridgeValidator) :
    (sortBridgeValidators members).Perm members := List.perm_insertionSort _ members

/-- `proto.CompactTextString` of a `BridgeValidator`: a zero power is left out, and an address that
passes `ValidateEthAddress` needs no escape. -/
def BridgeValidator.text (member : BridgeValidator) : Bytes :=
  (if member.power = 0 then [] else ascii "power:" ++ decimal member.power ++ ascii " ") ++
    ascii "ethereum_address:\"" ++ member.ethereumAddress ++ ascii "\" "

/-- `%s` of a slice of members. -/
def membersText (members : List BridgeValidator) : Bytes :=
  ascii "[" ++ (ascii " ").intercalate (members.map BridgeValidator.text) ++ ascii "]"

/-! ### The messages -/

/-- The text of an `sdk.Int`; the zero value of the type prints as `<nil>`. -/
def sdkIntText : Option Int → Bytes
  | none => ascii "<nil>"
  | some value => decimalInt value

/-- `MsgSendToCosmosClaim`: a deposit on Ethereum. -/
structure MsgSendToCosmosClaim where
  eventNonce : Nat
  blockHeight : Nat
  tokenContract : Bytes
  amount : Option Int
  ethereumSender : Bytes
  cosmosReceiver : Bytes
  orchestrator : Bytes
  deriving DecidableEq, Repr

/-- `MsgBatchSendToEthClaim`: a batch was executed on Ethereum. -/
structure MsgBatchSendToEthClaim where
  eventNonce : Nat
  blockHeight : Nat
  batchNonce : Nat
  tokenContract : Bytes
  orchestrator : Bytes
  deriving DecidableEq, Repr

/-- `MsgERC20DeployedClaim`: an ERC20 was deployed for a Cosmos denom. -/
structure MsgERC20DeployedClaim where
  eventNonce : Nat
  blockHeight : Nat
  cosmosDenom : Bytes
  tokenContract : Bytes
  name : Bytes
  symbol : Bytes
  decimals : Nat
  orchestrator : Bytes
  deriving DecidableEq, Repr

/-- `MsgLogicCallExecutedClaim`: a logic call was executed on Ethereum. -/
structure MsgLogicCallExecutedClaim where
  eventNonce : Nat
  blockHeight : Nat
  invalidationId : Bytes
  invalidationNonce : Nat
  orchestrator : Bytes
  deriving DecidableEq, Repr

/-- `MsgValsetUpdatedClaim`: the contract took a new validator set. -/
structure MsgValsetUpdatedClaim where
  eventNonce : Nat
  valsetNonce : Nat
  blockHeight : Nat
  members : List BridgeValidator
  rewardAmount : Option Int
  rewardToken : Bytes
  orchestrator : Bytes
  deriving DecidableEq, Repr

/-- `EthereumClaim`: the five claim types. -/
inductive EthereumClaim where
  | sendToCosmos (msg : MsgSendToCosmosClaim)
  | batchSendToEth (msg : MsgBatchSendToEthClaim)
  | erc20Deployed (msg : MsgERC20DeployedClaim)
  | logicCallExecuted (msg : MsgLogicCallExecutedClaim)
  | valsetUpdated (msg : MsgValsetUpdatedClaim)
  deriving DecidableEq, Repr

/-- The ways a claim's `ValidateBasic` fails. -/
inductive ClaimError where
  /-- `ErrInvalidAddress` -/
  | invalidAddress (text : Bytes)
  /-- wrapped as `eth sender` -/
  | ethSender (reason : AddressError)
  /-- wrapped as `erc20 token` -/
  | erc20Token (reason : AddressError)
  /-- the reward token or a member's address, not wrapped -/
  | address (reason : AddressError)
  /-- `nonce == 0` -/
  | nonceZero
  /-- `event_nonce == 0` -/
  | eventNonceZero
  /-- `batch_nonce == 0` -/
  | batchNonceZero
  deriving DecidableEq, Repr

/-- The bech32 check that every claim makes of an account address. -/
def checkAccAddress (sdk : Sdk) (text : Bytes) : Except ClaimError Unit :=
  if (sdk.accAddressFromBech32 text).isSome then .ok () else .error (.invalidAddress text)

/-- The address check with the wrapping of its caller. -/
def checkEthAddress (wrap : AddressError → ClaimError) (address : Bytes) : Except ClaimError Unit :=
  (validateEthAddress address).mapError wrap

/-- A number that must not be zero. -/
def checkNonZero (reason : ClaimError) (value : Nat) : Except ClaimError Unit :=
  if value = 0 then .error reason else .ok ()

/-- `MsgSendToCosmosClaim.ValidateBasic` -/
def MsgSendToCosmosClaim.validateBasic (sdk : Sdk) (msg : MsgSendToCosmosClaim) :
    Except ClaimError Unit := do
  checkAccAddress sdk msg.cosmosReceiver
  checkEthAddress .ethSender msg.ethereumSender
  checkEthAddress .erc20Token msg.tokenContract
  checkAccAddress sdk msg.orchestrator
  checkNonZero .nonceZero msg.eventNonce

/-- `MsgBatchSendToEthClaim.ValidateBasic` -/
def MsgBatchSendToEthClaim.validateBasic (sdk : Sdk) (msg : MsgBatchSendToEthClaim) :
    Except ClaimError Unit := do
  checkNonZero .eventNonceZero msg.eventNonce
  checkNonZero .batchNonceZero msg.batchNonce
  checkEthAddress .erc20Token msg.tokenContract
  checkAccAddress sdk msg.orchestrator

/-- `MsgERC20DeployedClaim.ValidateBasic` -/
def MsgERC20DeployedClaim.validateBasic (sdk : Sdk) (msg : MsgERC20DeployedClaim) :
    Except ClaimError Unit := do
  checkEthAddress .erc20Token msg.tokenContract
  checkAccAddress sdk msg.orchestrator
  checkNonZero .nonceZero msg.eventNonce

/-- `MsgLogicCallExecutedClaim.ValidateBasic` -/
def MsgLogicCallExecutedClaim.validateBasic (sdk : Sdk) (msg : MsgLogicCallExecutedClaim) :
    Except ClaimError Unit := do
  checkAccAddress sdk msg.orchestrator
  checkNonZero .nonceZero msg.eventNonce

/-- `MsgValsetUpdatedClaim.ValidateBasic` -/
def MsgValsetUpdatedClaim.validateBasic (sdk : Sdk) (msg : MsgValsetUpdatedClaim) :
    Except ClaimError Unit := do
  checkAccAddress sdk msg.orchestrator
  checkNonZero .nonceZero msg.eventNonce
  checkEthAddress .address msg.rewardToken
  msg.members.forM fun member => checkEthAddress .address member.ethereumAddress

namespace EthereumClaim

/-- `ValidateBasic` -/
def validateBasic (sdk : Sdk) : EthereumClaim → Except ClaimError Unit
  | sendToCosmos msg => msg.validateBasic sdk
  | batchSendToEth msg => msg.validateBasic sdk
  | erc20Deployed msg => msg.validateBasic sdk
  | logicCallExecuted msg => msg.validateBasic sdk
  | valsetUpdated msg => msg.validateBasic sdk

/-- `GetEventNonce` -/
def getEventNonce : EthereumClaim → Nat
  | sendToCosmos msg => msg.eventNonce
  | batchSendToEth msg => msg.eventNonce
  | erc20Deployed msg => msg.eventNonce
  | logicCallExecuted msg => msg.eventNonce
  | valsetUpdated msg => msg.eventNonce

/-- `GetBlockHeight` -/
def getBlockHeight : EthereumClaim → Nat
  | sendToCosmos msg => msg.blockHeight
  | batchSendToEth msg => msg.blockHeight
  | erc20Deployed msg => msg.blockHeight
  | logicCallExecuted msg => msg.blockHeight
  | valsetUpdated msg => msg.blockHeight

/-- The `Orchestrator` field. -/
def orchestrator : EthereumClaim → Bytes
  | sendToCosmos msg => msg.orchestrator
  | batchSendToEth msg => msg.orchestrator
  | erc20Deployed msg => msg.orchestrator
  | logicCallExecuted msg => msg.orchestrator
  | valsetUpdated msg => msg.orchestrator

/-- `GetClaimer`; `none` is the panic on a claim that fails `ValidateBasic`. -/
def getClaimer (sdk : Sdk) (claim : EthereumClaim) : Option AccAddress :=
  match claim.validateBasic sdk with
  | .ok () => sdk.accAddressFromBech32 claim.orchestrator
  | .error _ => none

/-- The text that `ClaimHash` hashes. -/
def path : EthereumClaim → Bytes
  | sendToCosmos msg =>
      decimal msg.eventNonce ++ ascii "/" ++ decimal msg.blockHeight ++ ascii "/" ++
        msg.tokenContract ++ ascii "/" ++ sdkIntText msg.amount ++ ascii "/" ++
        msg.ethereumSender ++ ascii "/" ++ msg.cosmosReceiver
  | batchSendToEth msg =>
      -- the source formats the token contract twice and the block height not at all
      msg.tokenContract ++ ascii "/" ++ decimal msg.batchNonce ++ ascii "/" ++
        decimal msg.eventNonce ++ ascii "/" ++ msg.tokenContract
  | erc20Deployed msg =>
      decimal msg.eventNonce ++ ascii "/" ++ decimal msg.blockHeight ++ ascii "/" ++
        msg.cosmosDenom ++ ascii "/" ++ msg.tokenContract ++ ascii "/" ++ msg.name ++
        ascii "/" ++ msg.symbol ++ ascii "/" ++ decimal msg.decimals
  | logicCallExecuted msg =>
      decimal msg.eventNonce ++ ascii "," ++ decimal msg.blockHeight ++ ascii "," ++
        msg.invalidationId ++ ascii "/" ++ decimal msg.invalidationNonce ++ ascii "/"
  | valsetUpdated msg =>
      decimal msg.eventNonce ++ ascii "/" ++ decimal msg.valsetNonce ++ ascii "/" ++
        decimal msg.blockHeight ++ ascii "/" ++ membersText (sortBridgeValidators msg.members) ++
        ascii "/" ++ sdkIntText msg.rewardAmount ++ ascii "/" ++ msg.rewardToken

/-- `ClaimHash` -/
def claimHash (sdk : Sdk) (claim : EthereumClaim) : Bytes := sdk.tmhash claim.path

/-- What `ClaimHash` leaves behind: it sorts a valset claim's member slice in place. -/
def sortMembers : EthereumClaim → EthereumClaim
  | valsetUpdated msg => valsetUpdated { msg with members := sortBridgeValidators msg.members }
  | claim => claim

@[simp] theorem getEventNonce_sortMembers (claim : EthereumClaim) :
    claim.sortMembers.getEventNonce = claim.getEventNonce := by
  cases claim <;> rfl

@[simp] theorem getBlockHeight_sortMembers (claim : EthereumClaim) :
    claim.sortMembers.getBlockHeight = claim.getBlockHeight := by
  cases claim <;> rfl

/-- **Two claims of one event**: the same type, and equal in every field but the orchestrator, the
members of a validator set up to order. -/
def SameEvent : EthereumClaim → EthereumClaim → Prop
  | sendToCosmos first, sendToCosmos second =>
      { first with orchestrator := [] } = { second with orchestrator := [] }
  | batchSendToEth first, batchSendToEth second =>
      { first with orchestrator := [] } = { second with orchestrator := [] }
  | erc20Deployed first, erc20Deployed second =>
      { first with orchestrator := [] } = { second with orchestrator := [] }
  | logicCallExecuted first, logicCallExecuted second =>
      { first with orchestrator := [] } = { second with orchestrator := [] }
  | valsetUpdated first, valsetUpdated second =>
      { first with orchestrator := [], members := [] } =
          { second with orchestrator := [], members := [] } ∧
        first.members.Perm second.members
  | _, _ => False

instance (first second : EthereumClaim) : Decidable (first.SameEvent second) := by
  unfold SameEvent; split <;> infer_instance

theorem getEventNonce_of_sameEvent {first second : EthereumClaim} (same : first.SameEvent second) :
    first.getEventNonce = second.getEventNonce := by
  cases first <;> cases second <;> simp_all [SameEvent, getEventNonce]

theorem getBlockHeight_of_sameEvent {first second : EthereumClaim} (same : first.SameEvent second) :
    first.getBlockHeight = second.getBlockHeight := by
  cases first <;> cases second <;> simp_all [SameEvent, getBlockHeight]

end EthereumClaim

end NabBridge
