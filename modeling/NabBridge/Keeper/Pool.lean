/-
**The outgoing transaction pool.**

`addToOutgoingPool` takes the coins of a transfer and puts a record for it into the pool, under a key
made of its fee and its id, so that an iterator walks the pool of one token by fee.
`removeFromOutgoingPoolAndRefund` takes a record out again and gives the coins back.

The records live in `Outgoing`, together with the batches that are built from them. An iterator
reads a snapshot of the store, so a loop over the pool is a recursion over the list of records at its
start.

* `addToOutgoingPool_eq_ok`, `removeFromOutgoingPoolAndRefund_eq_ok`: what the two calls do;
* `Outgoing.addUnbatchedTX_eq_ok`, `Outgoing.removeUnbatchedTX_eq_ok`: the two updates of the pool.
-/

import NabBridge.Keeper.Bank
import NabBridge.Keeper.Valset
import NabBridge.Types.Batch

namespace NabBridge

/-- The part of the store that belongs to transfers to Ethereum. -/
structure Outgoing where
  /-- `OutgoingTXPoolKey` -/
  pool : Store StoreKey OutgoingTransferTx
  /-- `OutgoingTXBatchKey` -/
  batches : Store StoreKey OutgoingTxBatch
  /-- `OutgoingTXBatchBlockKey` -/
  batchBlocks : Store StoreKey OutgoingTxBatch
  /-- `KeyLastTXPoolID` -/
  lastTxPoolId : Option Nat
  /-- `KeyLastOutgoingBatchID` -/
  lastOutgoingBatchId : Option Nat
  /-- `PastEthSignatureCheckpointKey` -/
  pastEthSignatureCheckpoints : Store StoreKey Bytes
  deriving DecidableEq

/-- A fresh store. -/
def Outgoing.empty : Outgoing := ⟨Store.empty, Store.empty, Store.empty, none, none, Store.empty⟩

/-- The module's state that transfers and the attestation handler work on. -/
structure ModuleState (β : Type) where
  bank : β
  index : DenomIndex
  outgoing : Outgoing
  lastObservedValset : Option Valset
  deriving DecidableEq

/-- The errors of the pool and of the batches. -/
inductive PoolError where
  /-- `ErrInvalid`: `arguments` -/
  | arguments
  | denom (reason : DenomError)
  | bank (reason : BankError)
  /-- `ErrDuplicate`: `transaction already in pool` -/
  | duplicate
  /-- `ErrUnknown`: `pool transaction` -/
  | unknownPoolTransaction
  /-- `ErrInvalid`: `Sender %s did not send Id %d` -/
  | wrongSender (sender : AccAddress) (id : Nat)
  /-- `ErrInvalid`: `Inconsistent tokens to cancel!: %s %s` -/
  | inconsistentTokens (fee token : Bytes)
  /-- `ErrInvalid`: `txId %d not in unbatched index! Must be in a batch!` -/
  | notInUnbatchedIndex (id : Nat)
  /-- `ErrInvalid`: `tx with id %d was not fully removed from the pool, a duplicate must exist` -/
  | notFullyRemoved (id : Nat)
  /-- `ErrInvalid`: `max elements value` -/
  | maxElements
  /-- `ErrInvalid`: `new batch would not be more profitable` -/
  | notMoreProfitable
  /-- `ErrUnknown` -/
  | unknownBatch
  deriving DecidableEq, Repr

/-- The panics of the pool and of the batches. -/
inductive PoolPanic where
  | coin (reason : CoinPanic)
  | bank (reason : BankPanic)
  /-- burning the vouchers failed -/
  | burn (reason : BankError)
  /-- `Invalid address in store!` -/
  | invalidAddress
  /-- `unexpected fee contract %s when getting batch fees for contract %s` -/
  | unexpectedFeeContract (contract tokenContract : Bytes)
  /-- `picked a duplicate transaction from the pool, duplicates should never exist!` -/
  | pickedDuplicate
  /-- `integer divide by zero` -/
  | divideByZero
  | checkpoint (reason : CheckpointPanic)
  /-- `unable to add batched transaction back into pool %v` -/
  | unableToAddBack (tx : OutgoingTransferTx)
  /-- `unknown batch nonce for outgoing tx batch %s %d` -/
  | unknownBatchNonce (tokenContract : Bytes) (nonce : Nat)
  /-- `Failed cancel out batch %s %d while trying to execute %s %d with %s` -/
  | failedCancel (tokenContract : Bytes) (cancelled nonce : Nat) (reason : PoolError)
  deriving DecidableEq, Repr

/-- The outcome of a call that only fails through coins. -/
def liftCoin {ε α : Type} : Outcome Empty CoinPanic α → Outcome ε PoolPanic α
  | .ok value => .ok value
  | .error reason => reason.elim
  | .panic reason => .panic (.coin reason)

/-- The outcome of a bank call whose error is passed on. -/
def liftBank {α : Type} : Outcome BankError BankPanic α → Outcome PoolError PoolPanic α
  | .ok value => .ok value
  | .error reason => .error (.bank reason)
  | .panic reason => .panic (.bank reason)

/-- The outcome of a bank call whose error is a panic. -/
def mustBank {ε α : Type} : Outcome BankError BankPanic α → Outcome ε PoolPanic α
  | .ok value => .ok value
  | .error reason => .panic (.burn reason)
  | .panic reason => .panic (.bank reason)

theorem liftCoin_eq_ok {ε α : Type} {outcome : Outcome Empty CoinPanic α} {value : α} :
    (liftCoin outcome : Outcome ε PoolPanic α) = .ok value ↔ outcome = .ok value := by
  cases outcome with
  | ok value => simp [liftCoin]
  | error reason => exact reason.elim
  | panic reason => simp [liftCoin]

theorem liftBank_eq_ok {α : Type} {outcome : Outcome BankError BankPanic α} {value : α} :
    liftBank outcome = .ok value ↔ outcome = .ok value := by
  cases outcome <;> simp [liftBank]

theorem mustBank_eq_ok {ε α : Type} {outcome : Outcome BankError BankPanic α} {value : α} :
    (mustBank outcome : Outcome ε PoolPanic α) = .ok value ↔ outcome = .ok value := by
  cases outcome <;> simp [mustBank]

/-- `autoIncrementID`: the id, and the counter after it. -/
def autoIncrementID (counter : Option Nat) : Nat × Option Nat :=
  let id := counter.getD 1
  (id, some (id + 1))

/-- The key of a pool record; `FillBytes` takes the absolute value. -/
def poolKey (fee : ERC20Token) (id : Nat) : StoreKey :=
  getOutgoingTxPoolKey fee.contract fee.amount.natAbs id

/-- The key a record belongs under. -/
def OutgoingTransferTx.key (tx : OutgoingTransferTx) : StoreKey := poolKey tx.erc20Fee tx.id

namespace Outgoing

/-- `addUnbatchedTX` -/
def addUnbatchedTX (outgoing : Outgoing) (tx : OutgoingTransferTx) : Except PoolError Outgoing :=
  if outgoing.pool.has tx.key then .error .duplicate
  else .ok { outgoing with pool := outgoing.pool.set tx.key tx }

/-- `removeUnbatchedTX` -/
def removeUnbatchedTX (outgoing : Outgoing) (fee : ERC20Token) (id : Nat) :
    Except PoolError Outgoing :=
  if ¬ outgoing.pool.has (poolKey fee id) then .error .unknownPoolTransaction
  else .ok { outgoing with pool := outgoing.pool.delete (poolKey fee id) }

/-- `GetUnbatchedTxByFeeAndId`; `none` is `ErrUnknown`. -/
def getUnbatchedTxByFeeAndId (outgoing : Outgoing) (fee : ERC20Token) (id : Nat) :
    Option OutgoingTransferTx :=
  outgoing.pool.get (poolKey fee id)

/-- What `IterateUnbatchedTransactions` walks: the records whose keys begin with a prefix, in
descending order. -/
def unbatchedTransactions (outgoing : Outgoing) (prefixKey : StoreKey) : List OutgoingTransferTx :=
  ((outgoing.pool.entries.filter fun entry => prefixKey.isPrefixOf entry.1).map Prod.snd).reverse

/-- `OutgoingTXPoolKey` as a prefix. -/
def outgoingTXPoolKey : StoreKey := [0x7]

/-- `GetUnbatchedTxById`; `none` is `ErrUnknown`. -/
def getUnbatchedTxById (outgoing : Outgoing) (id : Nat) : Option OutgoingTransferTx :=
  (outgoing.unbatchedTransactions outgoingTXPoolKey).find? fun tx => tx.id = id

/-- The loop of `GetBatchFeeByTokenType`: the records counted so far, and their fees. -/
def sumFees (tokenContract : Bytes) (maxElements : Nat) :
    Nat → Int → List OutgoingTransferTx → Outcome PoolError PoolPanic Int
  | _, total, [] => .ok total
  | count, total, tx :: rest =>
      if tx.erc20Fee.contract ≠ tokenContract then
        .panic (.unexpectedFeeContract tx.erc20Fee.contract tokenContract)
      else do
        let total ← liftCoin (sdkIntAdd total tx.erc20Fee.amount)
        if count + 1 = maxElements then pure total
        else sumFees tokenContract maxElements (count + 1) total rest

/-- `GetBatchFeeByTokenType`, the total. -/
def getBatchFeeByTokenType (outgoing : Outgoing) (tokenContract : Bytes) (maxElements : Nat) :
    Outcome PoolError PoolPanic Int :=
  sumFees tokenContract maxElements 0 0
    (outgoing.unbatchedTransactions (getOutgoingTxPoolContractPrefix tokenContract))

end Outgoing

/-- `ERC20Token.GravityCoin` -/
def ERC20Token.gravityCoin (sdk : Sdk) (token : ERC20Token) : Outcome Empty CoinPanic Coin :=
  newCoin sdk (gravityDenom token.contract) (some token.amount)

section Calls

variable {β : Type} (sdk : Sdk) (bank : BankKeeper β)

/-- The coins of a transfer leave the sender: a Cosmos-originated coin is locked in the module
account, a voucher is burned. -/
def takeCoins (isCosmosOriginated : Bool) (sender : AccAddress) (coins : List Coin) (balances : β) :
    Outcome PoolError PoolPanic β := do
  let balances ← liftBank (bank.sendCoinsFromAccountToModule sender coins balances)
  if isCosmosOriginated then pure balances else mustBank (bank.burnCoins coins balances)

/-- The record of a transfer. -/
def newOutgoingTransferTx (id : Nat) (sender : AccAddress) (counterpartReceiver tokenContract : Bytes)
    (amount fee : Int) : OutgoingTransferTx where
  id := id
  sender := sdk.accAddressString sender
  destAddress := counterpartReceiver
  erc20Token := ⟨amount, tokenContract⟩
  erc20Fee := ⟨fee, tokenContract⟩

/-- The second half of `AddToOutgoingPool`: the next id is used up, and the record is put into the
pool. The error of `addUnbatchedTX` is dropped. -/
def Outgoing.issue (outgoing : Outgoing) (record : Nat → OutgoingTransferTx) : Nat × Outgoing :=
  let (nextID, counter) := autoIncrementID outgoing.lastTxPoolId
  let outgoing := { outgoing with lastTxPoolId := counter }
  match outgoing.addUnbatchedTX (record nextID) with
  | .ok added => (nextID, added)
  | .error _ => (nextID, outgoing)

/-- `AddToOutgoingPool`: the new id and the state after. -/
def addToOutgoingPool (sender : AccAddress) (counterpartReceiver : Bytes) (amount fee : Coin)
    (state : ModuleState β) : Outcome PoolError PoolPanic (Nat × ModuleState β) :=
  if sender = [] ∨ counterpartReceiver = [] ∨ ¬ amount.isValid sdk ∨ ¬ fee.isValid sdk ∨
      fee.denom ≠ amount.denom then .error .arguments
  else do
    let total ← liftCoin (sdkIntAdd amount.amount fee.amount)
    match state.index.denomToERC20Lookup amount.denom with
    | .error reason => .error (.denom reason)
    | .ok (isCosmosOriginated, tokenContract) =>
        let balances ← takeCoins bank isCosmosOriginated sender [⟨amount.denom, total⟩] state.bank
        let (nextID, outgoing) := state.outgoing.issue fun id =>
          newOutgoingTransferTx sdk id sender counterpartReceiver tokenContract amount.amount
            fee.amount
        pure (nextID, { state with bank := balances, outgoing := outgoing })

/-- The coins of a refund: out of the module account, after minting them for a voucher. -/
def giveCoins (isCosmosOriginated : Bool) (sender : AccAddress) (coins : List Coin) (balances : β) :
    Outcome PoolError PoolPanic β := do
  let balances ← if isCosmosOriginated then pure balances else liftBank (bank.mintCoins coins balances)
  liftBank (bank.sendCoinsFromModuleToAccount sender coins balances)

/-- `RemoveFromOutgoingPoolAndRefund`. The refund is in the voucher denom of the contract, also for a
Cosmos-originated coin. -/
def removeFromOutgoingPoolAndRefund (txId : Nat) (sender : AccAddress) (state : ModuleState β) :
    Outcome PoolError PoolPanic (ModuleState β) :=
  if txId < 1 ∨ sender = [] then .error .arguments
  else
    match state.outgoing.getUnbatchedTxById txId with
    | none => .error .unknownPoolTransaction
    | some tx =>
        match sdk.accAddressFromBech32 tx.sender with
        | none => .panic .invalidAddress
        | some txSender =>
            if txSender ≠ sender then .error (.wrongSender sender txId)
            else if tx.erc20Fee.contract ≠ tx.erc20Token.contract then
              .error (.inconsistentTokens tx.erc20Fee.contract tx.erc20Token.contract)
            else
              match state.outgoing.removeUnbatchedTX tx.erc20Fee txId with
              | .error _ => .error (.notInUnbatchedIndex txId)
              | .ok outgoing =>
                  if (outgoing.getUnbatchedTxByFeeAndId tx.erc20Fee tx.id).isSome then
                    .error (.notFullyRemoved txId)
                  else do
                    let coin ← liftCoin (tx.erc20Token.gravityCoin sdk)
                    let total ← liftCoin (sdkIntAdd coin.amount tx.erc20Fee.amount)
                    let coins ← liftCoin (newCoins sdk ⟨coin.denom, total⟩)
                    let (isCosmosOriginated, _) :=
                      state.index.erc20ToDenomLookup tx.erc20Token.contract
                    let balances ← giveCoins bank isCosmosOriginated sender coins state.bank
                    pure { state with bank := balances, outgoing := outgoing }

end Calls

/-! ### What the calls do -/

theorem Outgoing.addUnbatchedTX_eq_ok {outgoing after : Outgoing} {tx : OutgoingTransferTx}
    (added : outgoing.addUnbatchedTX tx = .ok after) :
    outgoing.pool.get tx.key = none ∧
      after = { outgoing with pool := outgoing.pool.set tx.key tx } := by
  unfold Outgoing.addUnbatchedTX at added
  split_ifs at added with taken
  have absent : outgoing.pool.has tx.key = false := by simpa using taken
  exact ⟨(outgoing.pool.has_eq_false_iff _).mp absent, (Except.ok.inj added).symm⟩

theorem Outgoing.addUnbatchedTX_of_absent {outgoing : Outgoing} {tx : OutgoingTransferTx}
    (absent : outgoing.pool.get tx.key = none) :
    outgoing.addUnbatchedTX tx = .ok { outgoing with pool := outgoing.pool.set tx.key tx } := by
  unfold Outgoing.addUnbatchedTX
  rw [if_neg (by simp [Store.has, absent])]

theorem Outgoing.removeUnbatchedTX_eq_ok {outgoing after : Outgoing} {fee : ERC20Token} {id : Nat}
    (removed : outgoing.removeUnbatchedTX fee id = .ok after) :
    (∃ tx, outgoing.pool.get (poolKey fee id) = some tx) ∧
      after = { outgoing with pool := outgoing.pool.delete (poolKey fee id) } := by
  unfold Outgoing.removeUnbatchedTX at removed
  split_ifs at removed with present
  exact ⟨(outgoing.pool.has_eq_true_iff _).mp present, (Except.ok.inj removed).symm⟩

theorem Outgoing.mem_unbatchedTransactions {outgoing : Outgoing} {prefixKey : StoreKey}
    {tx : OutgoingTransferTx} (member : tx ∈ outgoing.unbatchedTransactions prefixKey) :
    ∃ key, outgoing.pool.get key = some tx ∧ prefixKey <+: key := by
  obtain ⟨⟨key, value⟩, inside, rfl⟩ := List.mem_map.mp (List.mem_reverse.mp member)
  obtain ⟨entry, starts⟩ := List.mem_filter.mp inside
  exact ⟨key, (outgoing.pool.mem_entries_iff key value).mp entry, List.isPrefixOf_iff_prefix.mp starts⟩

theorem Outgoing.mem_unbatchedTransactions_of_get {outgoing : Outgoing} {prefixKey key : StoreKey}
    {tx : OutgoingTransferTx} (stored : outgoing.pool.get key = some tx) (starts : prefixKey <+: key) :
    tx ∈ outgoing.unbatchedTransactions prefixKey :=
  List.mem_reverse.mpr (List.mem_map.mpr ⟨(key, tx), List.mem_filter.mpr
    ⟨(outgoing.pool.mem_entries_iff key tx).mpr stored, List.isPrefixOf_iff_prefix.mpr starts⟩, rfl⟩)

theorem Outgoing.getUnbatchedTxById_eq_some {outgoing : Outgoing} {id : Nat}
    {tx : OutgoingTransferTx} (found : outgoing.getUnbatchedTxById id = some tx) :
    tx.id = id ∧ ∃ key, outgoing.pool.get key = some tx := by
  have member := List.mem_of_find?_eq_some found
  obtain ⟨key, stored, _⟩ := Outgoing.mem_unbatchedTransactions member
  exact ⟨by simpa using List.find?_some found, key, stored⟩

section Specs

variable {β : Type} {sdk : Sdk} {bank : BankKeeper β}

/-- **What a send does**: the coins are taken, and a record with the next id goes into the pool. -/
theorem addToOutgoingPool_eq_ok {sender : AccAddress} {receiver : Bytes} {amount fee : Coin}
    {state after : ModuleState β} {id : Nat}
    (sent : addToOutgoingPool sdk bank sender receiver amount fee state = .ok (id, after)) :
    (sender ≠ [] ∧ receiver ≠ [] ∧ amount.isValid sdk = true ∧ fee.isValid sdk = true ∧
      fee.denom = amount.denom ∧ fitsSdkInt (amount.amount + fee.amount)) ∧
    ∃ isCosmosOriginated tokenContract balances,
      state.index.denomToERC20Lookup amount.denom = .ok (isCosmosOriginated, tokenContract) ∧
      takeCoins bank isCosmosOriginated sender [⟨amount.denom, amount.amount + fee.amount⟩]
        state.bank = .ok balances ∧
      id = (state.outgoing.issue fun id => newOutgoingTransferTx sdk id sender receiver
        tokenContract amount.amount fee.amount).1 ∧
      after = { state with
        bank := balances
        outgoing := (state.outgoing.issue fun id => newOutgoingTransferTx sdk id sender receiver
          tokenContract amount.amount fee.amount).2 } := by
  unfold addToOutgoingPool at sent
  split_ifs at sent with invalid
  simp only [not_or, not_not] at invalid
  obtain ⟨hasSender, hasReceiver, amountValid, feeValid, sameDenom⟩ := invalid
  obtain ⟨total, added, sent⟩ := Outcome.bind_eq_ok.mp sent
  obtain ⟨rfl, fits⟩ := sdkIntAdd_eq_ok (liftCoin_eq_ok.mp added)
  cases lookup : state.index.denomToERC20Lookup amount.denom with
  | error reason => simp [lookup] at sent
  | ok result =>
      obtain ⟨isCosmosOriginated, tokenContract⟩ := result
      rw [lookup] at sent
      obtain ⟨balances, taken, sent⟩ := Outcome.bind_eq_ok.mp sent
      obtain ⟨rfl, rfl⟩ := Prod.mk.inj (Outcome.ok.inj sent)
      exact ⟨⟨hasSender, hasReceiver, amountValid, feeValid, sameDenom, fits⟩,
        isCosmosOriginated, tokenContract, balances, rfl, taken, rfl, rfl⟩

/-- A cancel of a record that is not in the pool fails. -/
theorem removeFromOutgoingPoolAndRefund_of_none {txId : Nat} {state : ModuleState β}
    (absent : state.outgoing.getUnbatchedTxById txId = none) (sender : AccAddress) :
    ∃ reason, removeFromOutgoingPoolAndRefund sdk bank txId sender state = .error reason := by
  unfold removeFromOutgoingPoolAndRefund
  split_ifs
  · exact ⟨_, rfl⟩
  · rw [absent]
    exact ⟨_, rfl⟩

/-- A cancel by another account than the sender fails. -/
theorem removeFromOutgoingPoolAndRefund_of_ne {txId : Nat} {state : ModuleState β}
    {tx : OutgoingTransferTx} {txSender sender : AccAddress}
    (found : state.outgoing.getUnbatchedTxById txId = some tx)
    (decoded : sdk.accAddressFromBech32 tx.sender = some txSender) (other : sender ≠ txSender) :
    ∃ reason, removeFromOutgoingPoolAndRefund sdk bank txId sender state = .error reason := by
  unfold removeFromOutgoingPoolAndRefund
  split_ifs
  · exact ⟨_, rfl⟩
  · simp only [found, decoded]
    rw [if_pos other.symm]
    exact ⟨_, rfl⟩

/-- A cancel of a record of the pool, up to the call of the bank. -/
theorem removeFromOutgoingPoolAndRefund_of_stored {txId : Nat} {sender : AccAddress}
    {state : ModuleState β} {tx : OutgoingTransferTx} {balances : β} {total : Int}
    (positive : 1 ≤ txId) (hasSender : sender ≠ [])
    (found : state.outgoing.getUnbatchedTxById txId = some tx) (id : tx.id = txId)
    (stored : state.outgoing.pool.get tx.key = some tx)
    (decoded : sdk.accAddressFromBech32 tx.sender = some sender)
    (oneContract : tx.erc20Fee.contract = tx.erc20Token.contract)
    (voucher : sdk.validateDenom (gravityDenom tx.erc20Token.contract) = true)
    (nonneg : 0 ≤ tx.erc20Token.amount) (sum : total = tx.erc20Token.amount + tx.erc20Fee.amount)
    (fits : fitsSdkInt total) (owed : 0 < total)
    (given : giveCoins bank (state.index.erc20ToDenomLookup tx.erc20Token.contract).1 sender
      [⟨gravityDenom tx.erc20Token.contract, total⟩] state.bank = .ok balances) :
    removeFromOutgoingPoolAndRefund sdk bank txId sender state = .ok { state with
      bank := balances
      outgoing := { state.outgoing with pool := state.outgoing.pool.delete tx.key } } := by
  subst sum id
  have removed : state.outgoing.removeUnbatchedTX tx.erc20Fee tx.id =
      .ok { state.outgoing with pool := state.outgoing.pool.delete tx.key } := by
    unfold Outgoing.removeUnbatchedTX
    have present : state.outgoing.pool.has tx.key = true :=
      (state.outgoing.pool.has_eq_true_iff _).mpr ⟨tx, stored⟩
    exact if_neg (not_not.mpr present)
  have gone : ¬ (({ state.outgoing with pool := state.outgoing.pool.delete tx.key } :
      Outgoing).getUnbatchedTxByFeeAndId tx.erc20Fee tx.id).isSome = true := by
    show ¬ ((state.outgoing.pool.delete tx.key).get tx.key).isSome = true
    rw [Store.get_delete_self]
    exact Bool.false_ne_true
  have coin : tx.erc20Token.gravityCoin sdk =
      .ok ⟨gravityDenom tx.erc20Token.contract, tx.erc20Token.amount⟩ :=
    if_pos (by simp [Coin.isValid, voucher, nonneg])
  have added : sdkIntAdd tx.erc20Token.amount tx.erc20Fee.amount =
      .ok (tx.erc20Token.amount + tx.erc20Fee.amount) := if_pos fits
  have coins : newCoins sdk ⟨gravityDenom tx.erc20Token.contract,
      tx.erc20Token.amount + tx.erc20Fee.amount⟩ = .ok [⟨gravityDenom tx.erc20Token.contract,
        tx.erc20Token.amount + tx.erc20Fee.amount⟩] := by
    unfold newCoins
    rw [if_neg (by simpa [Coin.isZero] using owed.ne'),
      if_pos (by simp [Coin.isValid, voucher, owed.le])]
  unfold removeFromOutgoingPoolAndRefund
  rw [if_neg (by simp [hasSender]; omega)]
  simp only [found, decoded, ne_eq, not_true_eq_false, if_false, oneContract, removed, if_neg gone,
    coin, liftCoin, Outcome.ok_bind, added, coins, given, Outcome.pure_eq]

/-- **What a cancel does**: a record of the sender leaves the pool, and its amount and fee are given
back in the voucher denom. -/
theorem removeFromOutgoingPoolAndRefund_eq_ok {txId : Nat} {sender : AccAddress}
    {state after : ModuleState β}
    (removed : removeFromOutgoingPoolAndRefund sdk bank txId sender state = .ok after) :
    ∃ tx outgoing coins balances, state.outgoing.getUnbatchedTxById txId = some tx ∧
      sdk.accAddressFromBech32 tx.sender = some sender ∧
      tx.erc20Fee.contract = tx.erc20Token.contract ∧
      state.outgoing.removeUnbatchedTX tx.erc20Fee txId = .ok outgoing ∧
      newCoins sdk ⟨gravityDenom tx.erc20Token.contract, tx.erc20Token.amount + tx.erc20Fee.amount⟩ =
        .ok coins ∧
      giveCoins bank (state.index.erc20ToDenomLookup tx.erc20Token.contract).1 sender coins
        state.bank = .ok balances ∧
      after = { state with bank := balances, outgoing := outgoing } := by
  unfold removeFromOutgoingPoolAndRefund at removed
  split_ifs at removed with invalid
  cases found : state.outgoing.getUnbatchedTxById txId with
  | none => simp [found] at removed
  | some tx =>
  cases decoded : sdk.accAddressFromBech32 tx.sender with
  | none => simp [found, decoded] at removed
  | some txSender =>
  simp only [found, decoded] at removed
  split_ifs at removed with other inconsistent
  cases gone : state.outgoing.removeUnbatchedTX tx.erc20Fee txId with
  | error reason => simp [gone] at removed
  | ok outgoing =>
  simp only [gone] at removed
  split_ifs at removed with still
  obtain ⟨coin, made, refund⟩ := Outcome.bind_eq_ok.mp removed
  obtain ⟨total, added, refund⟩ := Outcome.bind_eq_ok.mp refund
  obtain ⟨coins, collected, refund⟩ := Outcome.bind_eq_ok.mp refund
  obtain ⟨balances, given, refund⟩ := Outcome.bind_eq_ok.mp refund
  obtain ⟨denomIs, amountIs, _, _⟩ := newCoin_eq_ok (liftCoin_eq_ok.mp made)
  obtain ⟨totalIs, _⟩ := sdkIntAdd_eq_ok (liftCoin_eq_ok.mp added)
  rw [denomIs, totalIs, ← Option.some.inj amountIs] at collected
  refine ⟨tx, outgoing, coins, balances, rfl, ?_, not_not.mp inconsistent, gone,
    liftCoin_eq_ok.mp collected, given, (Outcome.ok.inj refund).symm⟩
  exact (not_not.mp other) ▸ decoded

end Specs

end NabBridge
