/-
**Validator sets for the contract.**

`getCurrentValset` takes the bonded validators with a registered Ethereum address, scales their
powers to a total of `MaxUint32`, and sorts them by power. `getCurrentValset_members` says where the
members come from.
-/

import NabBridge.Keeper.CosmosOriginated
import NabBridge.Keeper.DelegateKeys
import NabBridge.Types.Batch

namespace NabBridge

/-- `Valset` -/
structure Valset where
  nonce : Nat
  members : List BridgeValidator
  height : Nat
  rewardAmount : Option Int
  rewardToken : Bytes
  deriving DecidableEq, Repr

/-- What a validator set is made from: the staking module's answers and the parameters. -/
structure ValsetSources where
  /-- `GetBondedValidatorsByPower`, the operators. -/
  bondedValidatorsByPower : List ValAddress
  /-- `GetLastValidatorPower` -/
  lastValidatorPower : ValAddress → Int
  /-- The parameter `ValsetReward`. -/
  valsetReward : Coin
  /-- `GetLatestValsetNonce` -/
  latestValsetNonce : Nat
  blockHeight : Nat

/-- The panics of `GetCurrentValset`. -/
inductive ValsetPanic where
  /-- `QuoUint64(0)` -/
  | divisionByZero
  /-- `Uint64()` of a larger number -/
  | uint64Overflow
  | reward (reason : RewardPanic)
  deriving DecidableEq, Repr

/-- `math.MaxUint32` -/
def maxUint32 : Nat := 2 ^ 32 - 1

/-- `uint64` of an `int64`. -/
def uint64OfInt64 (value : Int) : Nat := (value % 2 ^ 64).toNat

/-- The loop of `GetCurrentValset`: the members in the order of the bonded validators, and the sum
of their powers as a `uint64`. -/
def bridgeValidators (keys : DelegateKeys) (lastValidatorPower : ValAddress → Int) :
    List ValAddress → List BridgeValidator × Nat
  | [] => ([], 0)
  | validator :: rest =>
      let power := uint64OfInt64 (lastValidatorPower validator)
      let (members, totalPower) := bridgeValidators keys lastValidatorPower rest
      match keys.getEthAddressByValidator validator with
      | none => (members, totalPower)
      | some ethAddress => (⟨power, ethAddress⟩ :: members, (power + totalPower) % 2 ^ 64)

/-- The normalised power of one member. -/
def normalizePower (totalPower : Nat) (member : BridgeValidator) :
    Outcome Empty ValsetPanic BridgeValidator :=
  if totalPower = 0 then .panic .divisionByZero
  else
    let power := member.power * maxUint32 / totalPower
    if 2 ^ 64 ≤ power then .panic .uint64Overflow else .ok { member with power := power }

/-- The zero address as the source spells it. -/
def zeroAddress : Bytes := ascii "0x0000000000000000000000000000000000000000"

/-- The reward of a validator set; no reward is the zero address and the amount zero. -/
def valsetRewardToken (sdk : Sdk) (index : DenomIndex) (reward : Coin) :
    Outcome Empty ValsetPanic (Bytes × Int) :=
  if ¬ reward.isValid sdk ∨ reward.isZero then .ok (zeroAddress, 0)
  else
    match index.rewardToERC20Lookup sdk reward with
    | .ok result => .ok result
    | .error reason => reason.elim
    | .panic reason => .panic (.reward reason)

/-- `NewValset` -/
def newValset (nonce height : Nat) (members : List BridgeValidator) (rewardAmount : Int)
    (rewardToken : Bytes) : Valset :=
  ⟨nonce, sortBridgeValidators members, height, some rewardAmount, rewardToken⟩

/-- `GetCurrentValset` -/
def getCurrentValset (sdk : Sdk) (keys : DelegateKeys) (index : DenomIndex)
    (sources : ValsetSources) : Outcome Empty ValsetPanic Valset := do
  let (unscaled, totalPower) :=
    bridgeValidators keys sources.lastValidatorPower sources.bondedValidatorsByPower
  let members ← unscaled.mapM (normalizePower totalPower)
  let (rewardToken, rewardAmount) ← valsetRewardToken sdk index sources.valsetReward
  pure (newValset (sources.latestValsetNonce + 1) sources.blockHeight members rewardAmount
    rewardToken)

theorem bridgeValidators_registered {keys : DelegateKeys} {lastValidatorPower : ValAddress → Int}
    {validators : List ValAddress} {member : BridgeValidator}
    (inside : member ∈ (bridgeValidators keys lastValidatorPower validators).1) :
    ∃ validator ∈ validators,
      keys.getEthAddressByValidator validator = some member.ethereumAddress := by
  induction validators with
  | nil => exact absurd inside List.not_mem_nil
  | cons validator rest ih =>
      unfold bridgeValidators at inside
      cases registered : keys.getEthAddressByValidator validator with
      | none =>
          rw [registered] at inside
          obtain ⟨other, inRest, found⟩ := ih inside
          exact ⟨other, List.mem_cons_of_mem _ inRest, found⟩
      | some ethAddress =>
          rw [registered] at inside
          rcases List.mem_cons.mp inside with rfl | later
          · exact ⟨validator, List.mem_cons_self, registered⟩
          · obtain ⟨other, inRest, found⟩ := ih later
            exact ⟨other, List.mem_cons_of_mem _ inRest, found⟩

theorem normalizePower_address {totalPower : Nat} {member scaled : BridgeValidator}
    (normalized : normalizePower totalPower member = .ok scaled) :
    scaled.ethereumAddress = member.ethereumAddress := by
  unfold normalizePower at normalized
  simp only at normalized
  split_ifs at normalized
  · obtain rfl := Outcome.ok.inj normalized
    rfl

/-- **The members of a validator set** have addresses that bonded validators registered. -/
theorem getCurrentValset_members {sdk : Sdk} {keys : DelegateKeys} {index : DenomIndex}
    {sources : ValsetSources} {valset : Valset}
    (built : getCurrentValset sdk keys index sources = .ok valset) :
    ∀ member ∈ valset.members, ∃ validator ∈ sources.bondedValidatorsByPower,
      keys.getEthAddressByValidator validator = some member.ethereumAddress := by
  unfold getCurrentValset at built
  obtain ⟨members, scaled, built⟩ := Outcome.bind_eq_ok.mp built
  obtain ⟨reward, _, built⟩ := Outcome.bind_eq_ok.mp built
  obtain rfl := Outcome.ok.inj built
  intro member inSorted
  have inMembers : member ∈ members := (sortBridgeValidators_perm members).mem_iff.mp inSorted
  obtain ⟨unscaled, inside, normalized⟩ := Outcome.exists_of_mem_mapM scaled inMembers
  rw [normalizePower_address normalized]
  exact bridgeValidators_registered inside

/-! ### Stored validator sets -/

/-- `Valset.GetCheckpoint` -/
def Valset.getCheckpoint (geth : Geth) (valset : Valset) (gravityID : Bytes) :
    Outcome Empty CheckpointPanic Bytes := do
  let gravityID ← gravityIdArgument gravityID
  match validateEthAddress valset.rewardToken with
  | .error reason => .panic (.rewardToken reason)
  | .ok () =>
      match valset.rewardAmount with
      | none => .panic .rewardAmount
      | some rewardAmount =>
          let encoded := geth.pack (ascii "checkpoint")
            [gravityID, .bytes32 (ascii "checkpoint"), .int64 valset.nonce,
              .hexAddresses (valset.members.map BridgeValidator.ethereumAddress),
              .int64s (valset.members.map BridgeValidator.power), .int rewardAmount,
              .word (hexToAddress valset.rewardToken).val]
          pure (geth.keccak256 (encoded.drop 4))

/-- The validator sets in the store. -/
structure ValsetStore where
  /-- `ValsetRequestKey` -/
  valsets : Store StoreKey Valset
  /-- `LatestValsetNonce` -/
  latestValsetNonce : Nat
  deriving DecidableEq

/-- A fresh store. -/
def ValsetStore.empty : ValsetStore := ⟨Store.empty, 0⟩

/-- `GetValsetKey` -/
def getValsetKey (nonce : Nat) : StoreKey := 0x3 :: uint64Bytes nonce

/-- `GetLatestValset` -/
def ValsetStore.getLatestValset (store : ValsetStore) : Option Valset :=
  store.valsets.get (getValsetKey store.latestValsetNonce)

theorem getValsetKey_strictMono : StrictMono getValsetKey :=
  fun _ _ less => List.cons_lt_cons_iff.mpr (Or.inr ⟨rfl, uint64Bytes_strictMono less⟩)

/-- `GetPastEthSignatureCheckpointKey` -/
def getPastEthSignatureCheckpointKey (checkpoint : Bytes) : StoreKey := 0x1b :: keyBytes checkpoint

/-- `StoreValset`: the set gets the current block height. -/
def ValsetStore.storeValset (store : ValsetStore) (blockHeight : Nat) (valset : Valset) :
    ValsetStore :=
  ⟨store.valsets.set (getValsetKey valset.nonce) { valset with height := blockHeight }, valset.nonce⟩

/-- The panics of making a validator set. -/
inductive ValsetRequestPanic where
  | valset (reason : ValsetPanic)
  | checkpoint (reason : CheckpointPanic)
  deriving DecidableEq, Repr

/-- `SetValsetRequest`: the new set, its checkpoint, and the store with the set. The caller puts the
checkpoint among the past ones. -/
def setValsetRequest (sdk : Sdk) (geth : Geth) (gravityID : Bytes) (keys : DelegateKeys)
    (index : DenomIndex) (sources : ValsetSources) (store : ValsetStore) :
    Outcome Empty ValsetRequestPanic ((Valset × Bytes) × ValsetStore) :=
  match getCurrentValset sdk keys index sources with
  | .error reason => reason.elim
  | .panic reason => .panic (.valset reason)
  | .ok valset =>
      let store := store.storeValset sources.blockHeight valset
      let valset := { valset with height := sources.blockHeight }
      match valset.getCheckpoint geth gravityID with
      | .error reason => reason.elim
      | .panic reason => .panic (.checkpoint reason)
      | .ok checkpoint => .ok ((valset, checkpoint), store)

end NabBridge
