/-
**The bank as the module sees it.**

Balances and supply are kept by the SDK's bank module, which is not part of this repository. The
module reaches it through six calls on its own module account; `BankKeeper` has the five it makes,
over any bank state.

`BankLaws` is what the calls do to balances and supplies, and when they cannot fail; the ledger at the
end obeys them (`ledgerBank_laws`).
-/

import NabBridge.Keeper.CosmosOriginated

namespace NabBridge

/-- The errors of the bank's calls. -/
inductive BankError where
  | insufficientFunds
  | invalidCoins
  | unauthorized
  deriving DecidableEq, Repr

/-- The panics of the bank's calls. -/
inductive BankPanic where
  /-- `Int overflow` -/
  | intOverflow
  /-- the module account does not exist or lacks the permission -/
  | moduleAccount
  deriving DecidableEq, Repr

/-- What the module reads of a denom's metadata. -/
structure Metadata where
  description : Bytes
  base : Bytes
  display : Bytes
  /-- `DenomUnits`: denom and exponent. -/
  denomUnits : List (Bytes × Nat)
  deriving DecidableEq, Repr

/-- The calls of the bank keeper, for the module account `nab`. -/
structure BankKeeper (β : Type) where
  /-- `SendCoinsFromAccountToModule` -/
  sendCoinsFromAccountToModule : AccAddress → List Coin → β → Outcome BankError BankPanic β
  /-- `SendCoinsFromModuleToAccount` -/
  sendCoinsFromModuleToAccount : AccAddress → List Coin → β → Outcome BankError BankPanic β
  /-- `MintCoins` -/
  mintCoins : List Coin → β → Outcome BankError BankPanic β
  /-- `BurnCoins` -/
  burnCoins : List Coin → β → Outcome BankError BankPanic β
  /-- `GetDenomMetaData`; an unknown denom has an empty base. -/
  getDenomMetaData : β → Bytes → Metadata

/-! ### Amounts and coins -/

/-- An `sdk.Int` has at most 255 bits; arithmetic panics beyond that. -/
def fitsSdkInt (value : Int) : Prop := value.natAbs < 2 ^ 255

instance (value : Int) : Decidable (fitsSdkInt value) := by unfold fitsSdkInt; infer_instance

/-- The panics of coins and their amounts. -/
inductive CoinPanic where
  /-- `Int overflow` -/
  | intOverflow
  /-- `NewCoin`, `NewCoins`: an invalid denom or a negative amount -/
  | invalidCoin
  /-- the amount was never set -/
  | nilAmount
  deriving DecidableEq, Repr

/-- `Int.Add` -/
def sdkIntAdd (first second : Int) : Outcome Empty CoinPanic Int :=
  if fitsSdkInt (first + second) then .ok (first + second) else .panic .intOverflow

/-- `sdk.NewCoin` -/
def newCoin (sdk : Sdk) (denom : Bytes) (amount : Option Int) : Outcome Empty CoinPanic Coin :=
  match amount with
  | none => .panic .nilAmount
  | some amount =>
      if (Coin.mk denom amount).isValid sdk then .ok ⟨denom, amount⟩ else .panic .invalidCoin

/-- `sdk.NewCoins` of one coin: a zero coin is dropped. -/
def newCoins (sdk : Sdk) (coin : Coin) : Outcome Empty CoinPanic (List Coin) :=
  if coin.isZero then .ok []
  else if coin.isValid sdk then .ok [coin] else .panic .invalidCoin

theorem sdkIntAdd_eq_ok {first second sum : Int} (added : sdkIntAdd first second = .ok sum) :
    sum = first + second ∧ fitsSdkInt sum := by
  unfold sdkIntAdd at added
  split_ifs at added with fits
  obtain rfl := Outcome.ok.inj added
  exact ⟨rfl, fits⟩

theorem newCoin_eq_ok {sdk : Sdk} {denom : Bytes} {amount : Option Int} {coin : Coin}
    (made : newCoin sdk denom amount = .ok coin) :
    coin.denom = denom ∧ amount = some coin.amount ∧ sdk.validateDenom denom = true ∧
      0 ≤ coin.amount := by
  unfold newCoin at made
  cases amount with
  | none => cases made
  | some amount =>
      simp only at made
      split_ifs at made with valid
      obtain rfl := Outcome.ok.inj made
      obtain ⟨denomOk, nonneg⟩ := Bool.and_eq_true_iff.mp valid
      exact ⟨rfl, rfl, denomOk, of_decide_eq_true nonneg⟩

theorem newCoins_eq_ok {sdk : Sdk} {coin : Coin} {coins : List Coin} (positive : 0 < coin.amount)
    (made : newCoins sdk coin = .ok coins) : coins = [coin] := by
  unfold newCoins at made
  rw [if_neg (by simpa [Coin.isZero] using positive.ne')] at made
  split_ifs at made
  exact (Outcome.ok.inj made).symm

/-- The amount of a denom in a list of coins. -/
def amountOf (coins : List Coin) (denom : Bytes) : Nat :=
  ((coins.filter fun coin => coin.denom = denom).map fun coin => coin.amount.toNat).sum

/-- `Coins.IsValid`, up to the order of the denoms. -/
def validCoins (coins : List Coin) : Bool :=
  coins.all (fun coin => 0 < coin.amount) && decide (coins.map Coin.denom).Nodup

theorem amountOf_singleton (coin : Coin) (denom : Bytes) :
    amountOf [coin] denom = if coin.denom = denom then coin.amount.toNat else 0 := by
  unfold amountOf
  by_cases same : coin.denom = denom <;> simp [same]

theorem amountOf_self (denom : Bytes) (amount : Int) : amountOf [⟨denom, amount⟩] denom = amount.toNat :=
  (amountOf_singleton _ _).trans (if_pos rfl)

theorem amountOf_eq_zero {coins : List Coin} {denom : Bytes}
    (absent : ∀ coin ∈ coins, coin.denom ≠ denom) : amountOf coins denom = 0 := by
  unfold amountOf
  rw [List.filter_eq_nil_iff.mpr fun coin member => by simpa using absent coin member]
  rfl

/-- A bound on what a list of coins has of its own denoms bounds what it has of any. -/
theorem amountOf_le {coins : List Coin} {bound : Bytes → Nat}
    (each : ∀ coin ∈ coins, amountOf coins coin.denom ≤ bound coin.denom) (denom : Bytes) :
    amountOf coins denom ≤ bound denom := by
  by_cases there : ∃ coin ∈ coins, coin.denom = denom
  · obtain ⟨coin, member, rfl⟩ := there
    exact each coin member
  · rw [amountOf_eq_zero fun coin member same => there ⟨coin, member, same⟩]
    exact Nat.zero_le _

theorem validCoins_singleton {coin : Coin} : validCoins [coin] = true ↔ 0 < coin.amount := by
  simp [validCoins]

/-! ### Laws -/

/-- What can be read off a bank's state. -/
structure BankView (β : Type) where
  /-- the account of the module -/
  moduleAccount : AccAddress
  balance : β → AccAddress → Bytes → Nat
  supply : β → Bytes → Nat

section Laws

variable {β : Type}

/-- Coins move from one account to another. -/
structure BankView.Moves (view : BankView β) (source target : AccAddress) (coins : List Coin)
    (before after : β) : Prop where
  valid : validCoins coins = true
  balance : ∀ account denom,
    view.balance after account denom + (if account = source then amountOf coins denom else 0) =
      view.balance before account denom + (if account = target then amountOf coins denom else 0)
  supply : ∀ denom, view.supply after denom = view.supply before denom

/-- Coins are created in the module account. -/
structure BankView.Mints (view : BankView β) (coins : List Coin) (before after : β) : Prop where
  valid : validCoins coins = true
  room : ∀ coin ∈ coins, view.supply before coin.denom + amountOf coins coin.denom < 2 ^ 255
  balance : ∀ account denom, view.balance after account denom = view.balance before account denom +
    (if account = view.moduleAccount then amountOf coins denom else 0)
  supply : ∀ denom, view.supply after denom = view.supply before denom + amountOf coins denom

/-- Coins of the module account are destroyed. -/
structure BankView.Burns (view : BankView β) (coins : List Coin) (before after : β) : Prop where
  valid : validCoins coins = true
  balance : ∀ account denom, view.balance after account denom +
    (if account = view.moduleAccount then amountOf coins denom else 0) =
      view.balance before account denom
  supply : ∀ denom, view.supply after denom + amountOf coins denom = view.supply before denom

/-- **What the bank's calls do.** A call that succeeds moves, creates or destroys the coins and nothing
else. Minting succeeds where the supply stays an `sdk.Int`, and paying out where the module account has
the coins. -/
structure BankLaws (sdk : Sdk) (bank : BankKeeper β) (view : BankView β) : Prop where
  toModule : ∀ account coins before after,
    bank.sendCoinsFromAccountToModule account coins before = .ok after →
      view.Moves account view.moduleAccount coins before after
  toAccount : ∀ account coins before after,
    bank.sendCoinsFromModuleToAccount account coins before = .ok after →
      view.Moves view.moduleAccount account coins before after
  mints : ∀ coins before after, bank.mintCoins coins before = .ok after →
    view.Mints coins before after
  burns : ∀ coins before after, bank.burnCoins coins before = .ok after →
    view.Burns coins before after
  mint : ∀ coins before, validCoins coins = true →
    (∀ coin ∈ coins, sdk.validateDenom coin.denom = true) →
    (∀ coin ∈ coins, view.supply before coin.denom + amountOf coins coin.denom < 2 ^ 255) →
      ∃ after, bank.mintCoins coins before = .ok after
  payOut : ∀ account coins before, validCoins coins = true →
    (∀ coin ∈ coins, sdk.validateDenom coin.denom = true) →
    (∀ coin ∈ coins,
      amountOf coins coin.denom ≤ view.balance before view.moduleAccount coin.denom) →
      ∃ after, bank.sendCoinsFromModuleToAccount account coins before = .ok after

end Laws

/-! ### A ledger -/

/-- Balances, supply and metadata. -/
structure Ledger where
  balance : AccAddress → Bytes → Nat
  supply : Bytes → Nat
  metadata : Bytes → Metadata

namespace Ledger

/-- Add coins to an account. -/
def credit (ledger : Ledger) (account : AccAddress) (coins : List Coin) : Ledger :=
  { ledger with
    balance := fun other denom =>
      if other = account then ledger.balance other denom + amountOf coins denom
      else ledger.balance other denom }

/-- Take coins from an account that has them. -/
def debit (ledger : Ledger) (account : AccAddress) (coins : List Coin) : Option Ledger :=
  if coins.all fun coin => amountOf coins coin.denom ≤ ledger.balance account coin.denom then
    some { ledger with
      balance := fun other denom =>
        if other = account then ledger.balance other denom - amountOf coins denom
        else ledger.balance other denom }
  else none

/-- Move coins between two accounts. -/
def send (sender recipient : AccAddress) (coins : List Coin) (ledger : Ledger) :
    Outcome BankError BankPanic Ledger :=
  if ¬ validCoins coins then .error .invalidCoins
  else
    match ledger.debit sender coins with
    | none => .error .insufficientFunds
    | some debited => .ok (debited.credit recipient coins)

/-- Create coins in an account. -/
def mint (account : AccAddress) (coins : List Coin) (ledger : Ledger) :
    Outcome BankError BankPanic Ledger :=
  if ¬ validCoins coins then .error .invalidCoins
  else if coins.all fun coin => ledger.supply coin.denom + amountOf coins coin.denom < 2 ^ 255 then
    .ok { ledger.credit account coins with
      supply := fun denom => ledger.supply denom + amountOf coins denom }
  else .panic .intOverflow

/-- Destroy coins of an account. -/
def burn (account : AccAddress) (coins : List Coin) (ledger : Ledger) :
    Outcome BankError BankPanic Ledger :=
  if ¬ validCoins coins then .error .invalidCoins
  else
    match ledger.debit account coins with
    | none => .error .insufficientFunds
    | some debited =>
        if coins.all fun coin => amountOf coins coin.denom ≤ ledger.supply coin.denom then
          .ok { debited with supply := fun denom => ledger.supply denom - amountOf coins denom }
        else .panic .intOverflow

end Ledger

/-- The bank of a ledger with the given module account. -/
def ledgerBank (moduleAccount : AccAddress) : BankKeeper Ledger where
  sendCoinsFromAccountToModule sender := Ledger.send sender moduleAccount
  sendCoinsFromModuleToAccount recipient := Ledger.send moduleAccount recipient
  mintCoins := Ledger.mint moduleAccount
  burnCoins := Ledger.burn moduleAccount
  getDenomMetaData := Ledger.metadata

/-- What a ledger says. -/
def ledgerView (moduleAccount : AccAddress) : BankView Ledger where
  moduleAccount := moduleAccount
  balance := Ledger.balance
  supply := Ledger.supply

namespace Ledger

theorem debit_eq_some {ledger after : Ledger} {account : AccAddress} {coins : List Coin}
    (debited : ledger.debit account coins = some after) :
    (∀ other denom, after.balance other denom + (if other = account then amountOf coins denom else 0) =
      ledger.balance other denom) ∧ after.supply = ledger.supply := by
  unfold debit at debited
  split_ifs at debited with covered
  obtain rfl := Option.some.inj debited
  refine ⟨fun other denom => ?_, rfl⟩
  have enough := amountOf_le (fun coin member =>
    of_decide_eq_true (List.all_eq_true.mp covered coin member)) denom
  dsimp only
  split_ifs with same
  · rw [same]
    omega
  · rfl

theorem send_moves {moduleAccount source target : AccAddress} {coins : List Coin}
    {ledger after : Ledger} (sent : send source target coins ledger = .ok after) :
    (ledgerView moduleAccount).Moves source target coins ledger after := by
  unfold send at sent
  split_ifs at sent with valid
  cases debited : ledger.debit source coins with
  | none => simp [debited] at sent
  | some rest =>
      simp only [debited] at sent
      obtain rfl := Outcome.ok.inj sent
      obtain ⟨balance, supply⟩ := debit_eq_some debited
      refine ⟨valid, fun account denom => ?_, fun denom => congrFun supply denom⟩
      have taken := balance account denom
      simp only [ledgerView, credit]
      split_ifs at taken ⊢ <;> omega

theorem mint_mints {moduleAccount : AccAddress} {coins : List Coin} {ledger after : Ledger}
    (minted : mint moduleAccount coins ledger = .ok after) :
    (ledgerView moduleAccount).Mints coins ledger after := by
  unfold mint at minted
  split_ifs at minted with valid room
  obtain rfl := Outcome.ok.inj minted
  refine ⟨valid, fun coin member =>
    of_decide_eq_true (List.all_eq_true.mp room coin member), fun account denom => ?_, fun _ => rfl⟩
  show (if account = moduleAccount then ledger.balance account denom + amountOf coins denom
    else ledger.balance account denom) = ledger.balance account denom +
      (if account = moduleAccount then amountOf coins denom else 0)
  split_ifs <;> rfl

theorem burn_burns {moduleAccount : AccAddress} {coins : List Coin} {ledger after : Ledger}
    (burned : burn moduleAccount coins ledger = .ok after) :
    (ledgerView moduleAccount).Burns coins ledger after := by
  unfold burn at burned
  split_ifs at burned with valid covered
  · cases debited : ledger.debit moduleAccount coins with
    | none => simp [debited] at burned
    | some rest =>
      simp only [debited] at burned
      obtain rfl := Outcome.ok.inj burned
      refine ⟨valid, (debit_eq_some debited).1, fun denom => ?_⟩
      have enough := amountOf_le (fun coin member =>
        of_decide_eq_true (List.all_eq_true.mp covered coin member)) denom
      exact Nat.sub_add_cancel enough
  · cases debited : ledger.debit moduleAccount coins <;> simp [debited] at burned

end Ledger

/-- **The ledger obeys the laws.** -/
theorem ledgerBank_laws (sdk : Sdk) (moduleAccount : AccAddress) :
    BankLaws sdk (ledgerBank moduleAccount) (ledgerView moduleAccount) where
  toModule _ _ _ _ sent := Ledger.send_moves sent
  toAccount _ _ _ _ sent := Ledger.send_moves sent
  mints _ _ _ minted := Ledger.mint_mints minted
  burns _ _ _ burned := Ledger.burn_burns burned
  mint coins ledger valid _ room := by
    have fits : (coins.all fun coin =>
        ledger.supply coin.denom + amountOf coins coin.denom < 2 ^ 255) = true :=
      List.all_eq_true.mpr fun coin member => decide_eq_true (room coin member)
    show ∃ after, Ledger.mint moduleAccount coins ledger = .ok after
    unfold Ledger.mint
    rw [if_neg (not_not.mpr valid), if_pos fits]
    exact ⟨_, rfl⟩
  payOut account coins ledger valid _ covered := by
    have enough : (coins.all fun coin =>
        amountOf coins coin.denom ≤ ledger.balance moduleAccount coin.denom) = true :=
      List.all_eq_true.mpr fun coin member => decide_eq_true (covered coin member)
    show ∃ after, Ledger.send moduleAccount account coins ledger = .ok after
    unfold Ledger.send Ledger.debit
    rw [if_neg (not_not.mpr valid), if_pos enough]
    exact ⟨_, rfl⟩

/-- A module account. -/
def exampleModuleAccount : AccAddress := List.replicate 20 9

end NabBridge
