/-
**The index of Cosmos-originated denoms.**

A denom bridged out of Cosmos has an ERC20 on Ethereum; the module keeps the pair in two indices,
written together. Any other ERC20 is Ethereum-originated and has the voucher denom of its contract.
`denomToERC20Lookup` reads voucher denoms first, so an index entry for a denom of that shape would
never be found; `erc20ToDenomLookup` reads the index first.
-/

import NabBridge.Lib.Outcome
import NabBridge.Lib.Store
import NabBridge.Types.Claims

namespace NabBridge

/-- `sdk.Coin` -/
structure Coin where
  denom : Bytes
  amount : Int
  deriving DecidableEq, Repr

/-- `Coin.IsValid` -/
def Coin.isValid (sdk : Sdk) (coin : Coin) : Bool := sdk.validateDenom coin.denom && 0 ≤ coin.amount

/-- `Coin.IsZero` -/
def Coin.isZero (coin : Coin) : Bool := coin.amount = 0

/-- The two indices. -/
structure DenomIndex where
  denomToERC20 : Store StoreKey Bytes
  erc20ToDenom : Store StoreKey Bytes
  deriving DecidableEq

/-- The indices of a fresh store. -/
def DenomIndex.empty : DenomIndex := ⟨Store.empty, Store.empty⟩

/-- `GetDenomToERC20Key` -/
def getDenomToERC20Key (denom : Bytes) : StoreKey := 0x15 :: keyBytes denom

/-- `GetERC20ToDenomKey` -/
def getERC20ToDenomKey (erc20 : Bytes) : StoreKey := 0x16 :: keyBytes erc20

theorem getDenomToERC20Key_inj {denom denom' : Bytes} :
    getDenomToERC20Key denom = getDenomToERC20Key denom' ↔ denom = denom' := by
  simp [getDenomToERC20Key, keyBytes_injective.eq_iff]

theorem getERC20ToDenomKey_inj {erc20 erc20' : Bytes} :
    getERC20ToDenomKey erc20 = getERC20ToDenomKey erc20' ↔ erc20 = erc20' := by
  simp [getERC20ToDenomKey, keyBytes_injective.eq_iff]

/-- `ErrInvalid`: `denom not a gravity voucher coin: %s, and also not in cosmos-originated ERC20
index` -/
inductive DenomError where
  | notVoucher (reason : GravityDenomError)
  deriving DecidableEq, Repr

/-- The panics of `RewardToERC20Lookup`. -/
inductive RewardPanic where
  /-- `Bad validator set relaying reward!` -/
  | badReward
  /-- `Invalid Valset reward! Correct or remove the paramater value` -/
  | invalidReward
  deriving DecidableEq, Repr

namespace DenomIndex

/-- `GetCosmosOriginatedDenom` -/
def getCosmosOriginatedDenom (index : DenomIndex) (tokenContract : Bytes) : Option Bytes :=
  index.erc20ToDenom.get (getERC20ToDenomKey tokenContract)

/-- `GetCosmosOriginatedERC20` -/
def getCosmosOriginatedERC20 (index : DenomIndex) (denom : Bytes) : Option Bytes :=
  index.denomToERC20.get (getDenomToERC20Key denom)

/-- `setCosmosOriginatedDenomToERC20` -/
def setCosmosOriginatedDenomToERC20 (index : DenomIndex) (denom tokenContract : Bytes) :
    DenomIndex :=
  ⟨index.denomToERC20.set (getDenomToERC20Key denom) tokenContract,
    index.erc20ToDenom.set (getERC20ToDenomKey tokenContract) denom⟩

/-- `DenomToERC20Lookup`: whether the denom is Cosmos-originated, and its contract. -/
def denomToERC20Lookup (index : DenomIndex) (denom : Bytes) : Except DenomError (Bool × Bytes) :=
  match gravityDenomToERC20 denom with
  | .ok contract => .ok (false, contract)
  | .error reason =>
      match index.getCosmosOriginatedERC20 denom with
      | none => .error (.notVoucher reason)
      | some contract => .ok (true, contract)

/-- `ERC20ToDenomLookup`: whether the contract is Cosmos-originated, and its denom. -/
def erc20ToDenomLookup (index : DenomIndex) (tokenContract : Bytes) : Bool × Bytes :=
  match index.getCosmosOriginatedDenom tokenContract with
  | some denom => (true, denom)
  | none => (false, gravityDenom tokenContract)

/-- Where a contract was found: in the voucher denom, or in the index. -/
theorem denomToERC20Lookup_eq_ok {index : DenomIndex} {denom contract : Bytes}
    {isCosmosOriginated : Bool}
    (found : index.denomToERC20Lookup denom = .ok (isCosmosOriginated, contract)) :
    (isCosmosOriginated = false ∧ gravityDenomToERC20 denom = .ok contract) ∨
      (isCosmosOriginated = true ∧ index.getCosmosOriginatedERC20 denom = some contract) := by
  unfold denomToERC20Lookup at found
  cases shape : gravityDenomToERC20 denom with
  | ok address =>
      rw [shape] at found
      obtain ⟨rfl, rfl⟩ := Prod.mk.inj (Except.ok.inj found)
      exact Or.inl ⟨rfl, rfl⟩
  | error reason =>
      simp only [shape] at found
      cases registered : index.getCosmosOriginatedERC20 denom with
      | none => simp [registered] at found
      | some address =>
          rw [registered] at found
          obtain ⟨rfl, rfl⟩ := Prod.mk.inj (Except.ok.inj found)
          exact Or.inr ⟨rfl, rfl⟩

/-- `RewardToERC20Lookup` -/
def rewardToERC20Lookup (sdk : Sdk) (index : DenomIndex) (coin : Coin) :
    Outcome Empty RewardPanic (Bytes × Int) :=
  if ¬ coin.isValid sdk ∨ coin.isZero then .panic .badReward
  else
    match index.denomToERC20Lookup coin.denom with
    | .error _ => .panic .invalidReward
    | .ok (_, address) =>
        match validateEthAddress address with
        | .error _ => .panic .invalidReward
        | .ok () => .ok (address, coin.amount)

end DenomIndex

end NabBridge
