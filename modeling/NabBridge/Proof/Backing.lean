/-
**What the module's bank has to show for a contract.**

The coins of a denom that is registered for a contract wait in the module account, vouchers of the contract
are out in the supply. `BankView.backing` is the one less the other. It moves with every transfer of the
contract: a send adds what was sent, a refund takes away what was given back, a deposit what was paid out,
and the reward of a validator set adds what was minted for it.

Which branch the module takes is read from the index of denoms. `DenomIndex.Ties` is what the index has to
say for the books of a contract to be kept apart from those of the others.

* `BankLaws.takeCoins_backing`, `BankLaws.giveCoins_backing`: sends and refunds;
* `BankLaws.handle_backing`: an observed claim.
-/

import NabBridge.Proof.DenomLookup
import NabBridge.Proof.Refund

namespace NabBridge

/-! ### The index -/

/-- What an index says of a contract when its books are kept apart: if any denom is registered for it, that
is `origin`, which is no voucher and registered for nothing else; and no contract is registered for its
voucher. -/
structure DenomIndex.Ties (index : DenomIndex) (origin : Option Bytes) (contract : Bytes) : Prop where
  forward : ∀ denom, index.getCosmosOriginatedERC20 denom = some contract → origin = some denom
  only : ∀ denom other, origin = some denom → index.getCosmosOriginatedERC20 denom = some other →
    other = contract
  plain : ∀ denom address, origin = some denom → gravityDenomToERC20 denom ≠ .ok address
  voucher : index.getCosmosOriginatedERC20 (gravityDenom contract) = none

namespace DenomIndex

/-- A denom found for a contract is registered for it. -/
def Paired (index : DenomIndex) : Prop :=
  ∀ contract denom, index.getCosmosOriginatedDenom contract = some denom →
    index.getCosmosOriginatedERC20 denom = some contract

/-- Registrations are never taken back. -/
def Extends (before after : DenomIndex) : Prop :=
  ∀ denom contract, before.getCosmosOriginatedERC20 denom = some contract →
    after.getCosmosOriginatedERC20 denom = some contract

theorem paired_empty : DenomIndex.empty.Paired := fun _ _ found => by cases found

theorem Extends.refl (index : DenomIndex) : index.Extends index := fun _ _ => id

theorem Extends.trans {first second third : DenomIndex} (left : first.Extends second)
    (right : second.Extends third) : first.Extends third :=
  fun denom contract found => right denom contract (left denom contract found)

variable {index : DenomIndex} {origin : Option Bytes} {contract : Bytes}

/-- A new denom is registered. -/
theorem Paired.set (paired : index.Paired) {denom : Bytes}
    (unset : index.getCosmosOriginatedERC20 denom = none) :
    (index.setCosmosOriginatedDenomToERC20 denom contract).Paired := by
  intro other found registered
  rw [getCosmosOriginatedDenom_set] at registered
  rw [getCosmosOriginatedERC20_set]
  split_ifs at registered with same
  · rw [if_pos (Option.some.inj registered).symm, same]
  · have earlier := paired other found registered
    rw [if_neg fun taken => ?_]
    · exact earlier
    · rw [taken, unset] at earlier
      cases earlier

theorem Extends.set {denom : Bytes} (unset : index.getCosmosOriginatedERC20 denom = none) :
    index.Extends (index.setCosmosOriginatedDenomToERC20 denom contract) := by
  intro other address found
  rw [getCosmosOriginatedERC20_set, if_neg fun same => ?_]
  · exact found
  · rw [same, unset] at found
    cases found

/-- What an index says of a contract, it has said from the start. -/
theorem Ties.of_extends {before after : DenomIndex} (ties : after.Ties origin contract)
    (extended : before.Extends after) : before.Ties origin contract where
  forward denom found := ties.forward denom (extended denom contract found)
  only denom other own found := ties.only denom other own (extended denom other found)
  plain := ties.plain
  voucher := by
    cases found : before.getCosmosOriginatedERC20 (gravityDenom contract) with
    | none => rfl
    | some other => rw [← ties.voucher, extended _ other found]

/-- The denom that a deposit of a registered contract is paid in. -/
theorem Ties.denom_iff (ties : index.Ties origin contract) (paired : index.Paired)
    {other denom : Bytes} (found : index.getCosmosOriginatedDenom other = some denom) :
    origin = some denom ↔ other = contract := by
  have registered := paired other denom found
  exact ⟨fun own => ties.only denom other own registered,
    fun same => ties.forward denom (same ▸ registered)⟩

theorem Ties.ne_voucher (ties : index.Ties origin contract) (paired : index.Paired)
    {other denom : Bytes} (found : index.getCosmosOriginatedDenom other = some denom) :
    denom ≠ gravityDenom contract := by
  rintro rfl
  have registered := paired other _ found
  rw [ties.voucher] at registered
  cases registered

end DenomIndex

/-! ### The books of a contract -/

/-- What the module account has of the denom of a contract, less the vouchers of the contract. -/
def BankView.backing {β : Type} (view : BankView β) (origin : Option Bytes) (contract : Bytes)
    (balances : β) : Int :=
  (origin.elim 0 fun denom => view.balance balances view.moduleAccount denom : Nat) -
    view.supply balances (gravityDenom contract)

/-- What a record is worth: its amount and its fee. -/
def OutgoingTransferTx.worth (tx : OutgoingTransferTx) : Nat :=
  tx.erc20Token.amount.toNat + tx.erc20Fee.amount.toNat

/-- What a list of records is worth in a contract. -/
def worthOf (contract : Bytes) (txs : List OutgoingTransferTx) : Nat :=
  ((txs.filter fun tx => tx.erc20Token.contract = contract).map OutgoingTransferTx.worth).sum

/-- What a claim reports as deposited of a contract. -/
def EthereumClaim.depositOf (contract : Bytes) : EthereumClaim → Nat
  | .sendToCosmos msg => if msg.tokenContract = contract then (msg.amount.getD 0).toNat else 0
  | _ => 0

/-- What a claim reports as paid in a contract for a validator set. -/
def EthereumClaim.rewardOf (contract : Bytes) : EthereumClaim → Nat
  | .valsetUpdated msg => if msg.rewardToken = contract then (msg.rewardAmount.getD 0).toNat else 0
  | _ => 0

section Bank

variable {β : Type} {sdk : Sdk} {bank : BankKeeper β} {view : BankView β} {index : DenomIndex}
  {origin : Option Bytes} {contract : Bytes}

theorem amountOf_voucher (other contract : Bytes) (total : Int) :
    amountOf [⟨gravityDenom other, total⟩] (gravityDenom contract) =
      if other = contract then total.toNat else 0 := by
  rw [amountOf_singleton]
  exact if_congr gravityDenom_injective.eq_iff rfl rfl

/-- **A send adds what was sent.** -/
theorem BankLaws.takeCoins_backing (laws : BankLaws sdk bank view)
    (ties : index.Ties origin contract) {isCosmosOriginated : Bool} {denom other : Bytes}
    (lookup : index.denomToERC20Lookup denom = .ok (isCosmosOriginated, other)) {sender : AccAddress}
    (user : sender ≠ view.moduleAccount) {total : Int} {before after : β}
    (taken : takeCoins bank isCosmosOriginated sender [⟨denom, total⟩] before = .ok after) :
    view.backing origin contract before + (if other = contract then total.toNat else 0 : Nat) ≤
      view.backing origin contract after := by
  have moved := (laws.takeCoins_taken user taken).2
  rcases DenomIndex.denomToERC20Lookup_eq_ok lookup with ⟨rfl, voucher⟩ | ⟨rfl, registered⟩
  · -- a voucher: the module account keeps what it has, and the supply falls
    obtain ⟨rfl, _⟩ := (gravityDenomToERC20_eq_ok_iff denom other).mp voucher
    have locked : ∀ denom, view.balance after view.moduleAccount denom =
        view.balance before view.moduleAccount denom := moved.held
    have burned := moved.supply (gravityDenom contract)
    rw [if_neg Bool.false_ne_true, amountOf_voucher] at burned
    simp only [BankView.backing, locked]
    omega
  · -- a registered denom: the supply stays, and the module account gains
    have kept : view.supply after (gravityDenom contract) =
      view.supply before (gravityDenom contract) := moved.supply _
    unfold BankView.backing
    rw [kept]
    cases own : origin with
    | none =>
        rw [if_neg fun same => ?_]
        · exact le_of_eq (Int.add_zero _)
        · have clash := ties.forward denom (same ▸ registered)
          rw [own] at clash
          cases clash
    | some home =>
        have gained := moved.held home
        rw [amountOf_singleton, if_pos rfl] at gained
        dsimp only at gained
        simp only [Option.elim_some]
        by_cases same : other = contract
        · have own_denom : denom = home :=
            Option.some.inj ((ties.forward denom (same ▸ registered)).symm.trans own)
          rw [if_pos own_denom] at gained
          rw [if_pos same]
          omega
        · rw [if_neg same]
          omega

/-- Coins that leave the module account, or are created in it and leave it. -/
theorem BankView.backing_moves {coins : List Coin} {account : AccAddress} {before after : β}
    (moves : view.Moves view.moduleAccount account coins before after)
    (other : ∀ denom, origin = some denom → amountOf coins denom = 0) :
    view.backing origin contract before ≤ view.backing origin contract after := by
  unfold BankView.backing
  rw [moves.supply]
  cases own : origin with
  | none => exact le_rfl
  | some home =>
      have balance := moves.balance view.moduleAccount home
      rw [other home own] at balance
      simp only [Option.elim_some]
      split_ifs at balance <;> omega

theorem BankView.backing_mints_moves {coins : List Coin} {account : AccAddress} {before minted after : β}
    (mints : view.Mints coins before minted)
    (moves : view.Moves view.moduleAccount account coins minted after) :
    view.backing origin contract before ≤
      view.backing origin contract after + amountOf coins (gravityDenom contract) := by
  unfold BankView.backing
  rw [moves.supply, mints.supply]
  cases own : origin with
  | none => simp
  | some home =>
      have created := mints.balance view.moduleAccount home
      have balance := moves.balance view.moduleAccount home
      rw [if_pos rfl] at created balance
      simp only [Option.elim_some]
      split_ifs at balance <;> omega

/-- **A refund takes away no more than what was given back.** -/
theorem BankLaws.giveCoins_backing (laws : BankLaws sdk bank view) (ties : index.Ties origin contract)
    {other : Bytes} (valid : validateEthAddress other = .ok ()) {sender : AccAddress} {total : Int}
    {coins : List Coin} (made : newCoins sdk ⟨gravityDenom other, total⟩ = .ok coins) {before after : β}
    (given : giveCoins bank (index.erc20ToDenomLookup other).1 sender coins before = .ok after) :
    view.backing origin contract before ≤
      view.backing origin contract after + (if other = contract then total.toNat else 0 : Nat) := by
  have refund : ∀ denom, amountOf coins denom = if gravityDenom other = denom then total.toNat else 0 := by
    intro denom
    unfold newCoins at made
    split_ifs at made with zero
    · obtain rfl := Outcome.ok.inj made
      have nothing : total = 0 := of_decide_eq_true zero
      simp [amountOf, nothing]
    · obtain rfl := Outcome.ok.inj made
      exact amountOf_singleton _ _
  cases isCosmosOriginated : (index.erc20ToDenomLookup other).1 with
  | true =>
      rw [isCosmosOriginated] at given
      have moves := laws.toAccount _ _ _ _ (liftBank_eq_ok.mp given)
      have apart : ∀ denom, origin = some denom → amountOf coins denom = 0 := by
        intro denom own
        rw [refund, if_neg]
        rintro rfl
        exact ties.plain _ other own (gravityDenomToERC20_gravityDenom valid)
      have kept : view.backing origin contract before ≤ view.backing origin contract after :=
        view.backing_moves moves apart
      omega
  | false =>
      rw [isCosmosOriginated] at given
      obtain ⟨minted, created, sent⟩ := Outcome.bind_eq_ok.mp given
      have kept : view.backing origin contract before ≤
          view.backing origin contract after + amountOf coins (gravityDenom contract) :=
        view.backing_mints_moves (laws.mints _ _ _ (liftBank_eq_ok.mp created))
          (laws.toAccount _ _ _ _ (liftBank_eq_ok.mp sent))
      rwa [refund, if_congr gravityDenom_injective.eq_iff rfl rfl] at kept

/-! ### Observed claims -/

/-- What else the books of a contract rest on: the contract is not the zero address, the denom of the
permanent swap is not its voucher, and the bank does not refuse to mint a reward. -/
structure PlainBooks (bank : BankKeeper β) (params : Params) (origin : Option Bytes) (contract : Bytes) :
    Prop where
  nonzero : contract ≠ zeroAddress
  swap : params.erc20ToDenomPermanentSwap.denom ≠ gravityDenom contract
  mints : origin ≠ none → ∀ coins balances reason, validCoins coins = true →
    bank.mintCoins coins balances ≠ .error reason

variable {params : Params} {state after : ModuleState β}

theorem handleBank_eq_ok {α : Type} {wrap : BankError → HandleError}
    {outcome : Outcome BankError BankPanic α} {value : α} (done : handleBank wrap outcome = .ok value) :
    outcome = .ok value := by
  cases outcome <;> cases done
  rfl

theorem handleCoin_eq_ok {α : Type} {outcome : Outcome Empty CoinPanic α} {value : α}
    (done : handleCoin outcome = .ok value) : outcome = .ok value := by
  cases outcome with
  | error reason => exact reason.elim
  | ok => cases done; rfl
  | panic => cases done

/-- The vouchers a deposit is minted in are those of its contract, if they are vouchers of the contract the
books are kept for. -/
theorem PlainBooks.amountOf_deposit (plain : PlainBooks bank params origin contract) (other : Bytes)
    (amount : Int) :
    amountOf [⟨depositDenom params (gravityDenom other), amount⟩] (gravityDenom contract) ≤
      if other = contract then amount.toNat else 0 := by
  unfold depositDenom
  dsimp only
  by_cases swapped : params.erc20ToDenomPermanentSwap.erc20 ≠ [] ∧
      params.erc20ToDenomPermanentSwap.denom ≠ [] ∧
      gravityDenom other = moduleName ++ params.erc20ToDenomPermanentSwap.erc20
  · rw [if_pos swapped, amountOf_singleton, if_neg plain.swap]
    exact Nat.zero_le _
  · rw [if_neg swapped]
    exact le_of_eq (amountOf_voucher _ _ _)

/-- **A deposit takes away no more than what it reports.** -/
theorem BankLaws.handleSendToCosmos_backing (laws : BankLaws sdk bank view)
    (plain : PlainBooks bank params origin contract) (paired : state.index.Paired)
    (ties : state.index.Ties origin contract) {claim : MsgSendToCosmosClaim}
    (done : handleSendToCosmos sdk bank params claim state = .ok after) :
    view.backing origin contract state.bank ≤ view.backing origin contract after.bank +
      (if claim.tokenContract = contract then (claim.amount.getD 0).toNat else 0 : Nat) := by
  unfold handleSendToCosmos at done
  cases registered : state.index.getCosmosOriginatedDenom claim.tokenContract with
  | some denom =>
      simp only [DenomIndex.erc20ToDenomLookup, registered] at done
      obtain ⟨coin, made, done⟩ := Outcome.bind_eq_ok.mp done
      obtain ⟨account, _, done⟩ := Outcome.bind_eq_ok.mp done
      obtain ⟨balances, sent, done⟩ := Outcome.bind_eq_ok.mp done
      obtain rfl := Outcome.ok.inj done
      obtain ⟨rfl, amount, _, _⟩ := newCoin_eq_ok (handleCoin_eq_ok made)
      have moves := laws.toAccount _ _ _ _ (handleBank_eq_ok sent)
      rw [amount, Option.getD_some]
      by_cases own : claim.tokenContract = contract
      · rw [if_pos own]
        have home := (ties.denom_iff paired registered).mpr own
        have balance := moves.balance view.moduleAccount coin.denom
        have kept := moves.supply (gravityDenom contract)
        rw [if_pos rfl, amountOf_singleton, if_pos rfl] at balance
        unfold BankView.backing
        rw [home, kept]
        simp only [Option.elim_some]
        split_ifs at balance <;> omega
      · have apart : ∀ denom, origin = some denom → amountOf [coin] denom = 0 := by
          intro denom home
          rw [amountOf_singleton, if_neg]
          rintro rfl
          exact own ((ties.denom_iff paired registered).mp home)
        have kept : view.backing origin contract state.bank ≤ view.backing origin contract balances :=
          view.backing_moves moves apart
        rw [if_neg own]
        dsimp only
        omega
  | none =>
      simp only [DenomIndex.erc20ToDenomLookup, registered] at done
      obtain ⟨coin, made, done⟩ := Outcome.bind_eq_ok.mp done
      obtain ⟨minted, created, done⟩ := Outcome.bind_eq_ok.mp done
      obtain ⟨account, _, done⟩ := Outcome.bind_eq_ok.mp done
      obtain ⟨balances, sent, done⟩ := Outcome.bind_eq_ok.mp done
      obtain rfl := Outcome.ok.inj done
      obtain ⟨denomIs, amount, _, _⟩ := newCoin_eq_ok (handleCoin_eq_ok made)
      have kept : view.backing origin contract state.bank ≤
          view.backing origin contract balances + amountOf [coin] (gravityDenom contract) :=
        view.backing_mints_moves (laws.mints _ _ _ (handleBank_eq_ok created))
          (laws.toAccount _ _ _ _ (handleBank_eq_ok sent))
      have vouchers := plain.amountOf_deposit claim.tokenContract coin.amount
      rw [← denomIs] at vouchers
      rw [amount, Option.getD_some]
      have bound : (amountOf [coin] (gravityDenom contract) : Int) ≤
          (if claim.tokenContract = contract then coin.amount.toNat else 0 : Nat) := by
        exact_mod_cast vouchers
      dsimp only
      omega

/-- **The reward of a validator set is added**: it is minted in the denom of its contract. -/
theorem BankLaws.handleValsetUpdated_backing (laws : BankLaws sdk bank view)
    (plain : PlainBooks bank params origin contract) (paired : state.index.Paired)
    (ties : state.index.Ties origin contract) {claim : MsgValsetUpdatedClaim}
    (done : handleValsetUpdated sdk bank claim state = .ok after) :
    view.backing origin contract state.bank +
      (if claim.rewardToken = contract then (claim.rewardAmount.getD 0).toNat else 0 : Nat) ≤
      view.backing origin contract after.bank := by
  unfold handleValsetUpdated at done
  cases rewarded : claim.rewardAmount with
  | none => simp [rewarded] at done
  | some amount =>
  simp only [rewarded] at done
  rw [Option.getD_some]
  split_ifs at done with pays
  · cases registered : state.index.getCosmosOriginatedDenom claim.rewardToken with
    | none => simp [DenomIndex.erc20ToDenomLookup, registered] at done
    | some denom =>
        simp only [DenomIndex.erc20ToDenomLookup, registered] at done
        obtain ⟨coin, made, minting⟩ := Outcome.bind_eq_ok.mp done
        obtain ⟨rfl, amountIs, _, _⟩ := newCoin_eq_ok (handleCoin_eq_ok made)
        have amountIs := Option.some.inj amountIs
        have homeless : origin = none → claim.rewardToken ≠ contract := by
          rintro own same
          have clash := (ties.denom_iff paired registered).mpr same
          rw [own] at clash
          cases clash
        cases minted : bank.mintCoins [coin] state.bank with
        | ok balances =>
            rw [minted] at minting
            obtain rfl := Outcome.ok.inj minting
            have mints := laws.mints _ _ _ minted
            have kept := mints.supply (gravityDenom contract)
            rw [amountOf_singleton, if_neg (ties.ne_voucher paired registered), Nat.add_zero] at kept
            unfold BankView.backing
            rw [kept]
            cases own : origin with
            | none =>
                rw [if_neg (homeless own)]
                exact le_of_eq (Int.add_zero _)
            | some home =>
                have created := mints.balance view.moduleAccount home
                rw [if_pos rfl, amountOf_singleton] at created
                simp only [Option.elim_some]
                by_cases same : claim.rewardToken = contract
                · have denomIs : coin.denom = home := Option.some.inj
                    (((ties.denom_iff paired registered).mpr same).symm.trans own)
                  rw [if_pos denomIs] at created
                  rw [if_pos same, amountIs]
                  omega
                · rw [if_neg same]
                  omega
        | error reason =>
            -- the error is dropped, but a bank that mints rewards has none
            rw [minted] at minting
            obtain rfl := Outcome.ok.inj minting
            have positive : validCoins [coin] = true := validCoins_singleton.mpr (amountIs ▸ pays.1)
            have own : origin = none := by
              by_contra owned
              exact plain.mints owned _ _ _ positive minted
            rw [if_neg (homeless own)]
            exact le_of_eq (Int.add_zero _)
        | panic reason =>
            rw [minted] at minting
            cases minting
  · obtain rfl := Outcome.ok.inj done
    have nothing : (if claim.rewardToken = contract then amount.toNat else 0) = 0 := by
      split_ifs with same
      · have zero : ¬ amount > 0 := fun positive =>
          pays ⟨positive, fun isZero => plain.nonzero (same ▸ isZero)⟩
        omega
      · rfl
    rw [nothing]
    exact le_of_eq (Int.add_zero _)

/-- **An observed claim** is booked as it reports. -/
theorem BankLaws.handle_backing (laws : BankLaws sdk bank view)
    (plain : PlainBooks bank params origin contract) (paired : state.index.Paired)
    (ties : state.index.Ties origin contract) {att : Attestation} {claim : EthereumClaim}
    (done : handle sdk bank params att claim state = .ok after) :
    view.backing origin contract state.bank + claim.rewardOf contract ≤
      view.backing origin contract after.bank + claim.depositOf contract := by
  cases claim with
  | sendToCosmos msg =>
      have deposit := laws.handleSendToCosmos_backing plain paired ties done
      simpa [EthereumClaim.rewardOf, EthereumClaim.depositOf] using deposit
  | batchSendToEth msg =>
      simp only [handle, handleBatchSendToEth] at done
      split at done
      · obtain rfl := Outcome.ok.inj done
        simp [EthereumClaim.rewardOf, EthereumClaim.depositOf]
      · rename_i reason _
        exact reason.elim
      · cases done
  | erc20Deployed msg =>
      rw [(handleERC20Deployed_effect done).2]
      simp [EthereumClaim.rewardOf, EthereumClaim.depositOf]
  | logicCallExecuted msg => cases done
  | valsetUpdated msg =>
      have reward := laws.handleValsetUpdated_backing plain paired ties done
      simpa [EthereumClaim.rewardOf, EthereumClaim.depositOf] using reward

end Bank

end NabBridge
