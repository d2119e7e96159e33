/-
**Cancelling a send.**

A send takes the coins of a transfer, a cancel gives them back. Between the two other users send and cancel;
that leaves the record in the pool and the sender's balances alone (`Waits.step`).

For the bank the two calls are each other's inverse: `Taken` holds from the state before a send to the state
after it, and from the state after a cancel to the state before it (`takeCoins_taken`, `giveCoins_taken`).
They are called with different arguments, though. The coins of a cancel are always in the voucher denom of
the contract, and whether they are minted is read from the index of contracts, not from the denom that was
sent. `cancel_undoes_iff`: a cancel undoes the send of a voucher of a contract that is not registered, and
of nothing else.
-/

import NabBridge.Proof.Conservation

namespace NabBridge

section Bank

variable {β : Type} {sdk : Sdk} {bank : BankKeeper β} {view : BankView β}

/-- Coins of an account are locked in the module account, or destroyed. -/
structure BankView.Taken (view : BankView β) (isCosmosOriginated : Bool) (account : AccAddress)
    (coins : List Coin) (before after : β) : Prop where
  payer : ∀ denom, view.balance after account denom + amountOf coins denom =
    view.balance before account denom
  held : ∀ denom, view.balance after view.moduleAccount denom =
    view.balance before view.moduleAccount denom +
      (if isCosmosOriginated then amountOf coins denom else 0)
  supply : ∀ denom, view.supply after denom + (if isCosmosOriginated then 0 else amountOf coins denom) =
    view.supply before denom

/-- **A send takes the coins.** -/
theorem BankLaws.takeCoins_taken (laws : BankLaws sdk bank view) {isCosmosOriginated : Bool}
    {sender : AccAddress} (user : sender ≠ view.moduleAccount) {coins : List Coin} {before after : β}
    (taken : takeCoins bank isCosmosOriginated sender coins before = .ok after) :
    validCoins coins = true ∧ view.Taken isCosmosOriginated sender coins before after := by
  obtain ⟨locked, sent, taken⟩ := Outcome.bind_eq_ok.mp taken
  have moves := laws.toModule _ _ _ _ (liftBank_eq_ok.mp sent)
  refine ⟨moves.valid, ?_⟩
  have fromSender := moves.balance sender
  have toModule := moves.balance view.moduleAccount
  simp only [if_true, if_neg user] at fromSender
  simp only [if_true, if_neg user.symm] at toModule
  cases isCosmosOriginated with
  | true =>
      obtain rfl := Outcome.ok.inj taken
      exact ⟨fromSender, toModule, moves.supply⟩
  | false =>
      have burns := laws.burns _ _ _ (mustBank_eq_ok.mp taken)
      refine ⟨fun denom => ?_, fun denom => ?_, fun denom => ?_⟩
      · have kept := burns.balance sender denom
        rw [if_neg user, Nat.add_zero] at kept
        rw [kept]
        exact fromSender denom
      · have burned := burns.balance view.moduleAccount denom
        rw [if_pos rfl] at burned
        have locks := toModule denom
        show _ = _ + 0
        omega
      · exact (burns.supply denom).trans (moves.supply denom)

/-- **A cancel gives them back.** -/
theorem BankLaws.giveCoins_taken (laws : BankLaws sdk bank view) {isCosmosOriginated : Bool}
    {sender : AccAddress} (user : sender ≠ view.moduleAccount) {coins : List Coin} {before after : β}
    (given : giveCoins bank isCosmosOriginated sender coins before = .ok after) :
    view.Taken isCosmosOriginated sender coins after before := by
  have paidOut : ∀ middle, view.Moves view.moduleAccount sender coins middle after →
      view.Taken true sender coins after middle := by
    intro middle moves
    have toSender := moves.balance sender
    have fromModule := moves.balance view.moduleAccount
    simp only [if_true, if_neg user] at toSender
    simp only [if_true, if_neg user.symm] at fromModule
    exact ⟨fun denom => (toSender denom).symm, fun denom => (fromModule denom).symm,
      fun denom => (moves.supply denom).symm⟩
  cases isCosmosOriginated with
  | true => exact paidOut before (laws.toAccount _ _ _ _ (liftBank_eq_ok.mp given))
  | false =>
      obtain ⟨minted, created, sent⟩ := Outcome.bind_eq_ok.mp given
      have mints := laws.mints _ _ _ (liftBank_eq_ok.mp created)
      have paid := paidOut minted (laws.toAccount _ _ _ _ (liftBank_eq_ok.mp sent))
      refine ⟨fun denom => ?_, fun denom => ?_, fun denom => ?_⟩
      · have kept := mints.balance sender denom
        rw [if_neg user, Nat.add_zero] at kept
        rw [← kept]
        exact paid.payer denom
      · have created := mints.balance view.moduleAccount denom
        rw [if_pos rfl] at created
        have leaves := paid.held denom
        rw [if_pos rfl] at leaves
        show _ = _ + 0
        omega
      · exact (mints.supply denom).symm.trans (paid.supply denom)

/-- Other accounts than the sender's and the module's keep their balances when coins are taken, -/
theorem BankLaws.takeCoins_others (laws : BankLaws sdk bank view) {isCosmosOriginated : Bool}
    {sender account : AccAddress} (apart : account ≠ sender) (user : account ≠ view.moduleAccount)
    {coins : List Coin} {before after : β}
    (taken : takeCoins bank isCosmosOriginated sender coins before = .ok after) (denom : Bytes) :
    view.balance after account denom = view.balance before account denom := by
  obtain ⟨locked, sent, taken⟩ := Outcome.bind_eq_ok.mp taken
  have kept := (laws.toModule _ _ _ _ (liftBank_eq_ok.mp sent)).balance account denom
  rw [if_neg apart, if_neg user] at kept
  cases isCosmosOriginated with
  | true =>
      obtain rfl := Outcome.ok.inj taken
      exact kept
  | false =>
      have same := (laws.burns _ _ _ (mustBank_eq_ok.mp taken)).balance account denom
      rw [if_neg user] at same
      exact same.trans kept

/-- and when coins are given. -/
theorem BankLaws.giveCoins_others (laws : BankLaws sdk bank view) {isCosmosOriginated : Bool}
    {sender account : AccAddress} (apart : account ≠ sender) (user : account ≠ view.moduleAccount)
    {coins : List Coin} {before after : β}
    (given : giveCoins bank isCosmosOriginated sender coins before = .ok after) (denom : Bytes) :
    view.balance after account denom = view.balance before account denom := by
  have paidOut : ∀ middle, view.Moves view.moduleAccount sender coins middle after →
      view.balance after account denom = view.balance middle account denom := by
    intro middle moves
    have kept := moves.balance account denom
    rwa [if_neg apart, if_neg user] at kept
  cases isCosmosOriginated with
  | true => exact paidOut before (laws.toAccount _ _ _ _ (liftBank_eq_ok.mp given))
  | false =>
      obtain ⟨minted, created, sent⟩ := Outcome.bind_eq_ok.mp given
      have same := (laws.mints _ _ _ (liftBank_eq_ok.mp created)).balance account denom
      rw [if_neg user] at same
      exact (paidOut minted (laws.toAccount _ _ _ _ (liftBank_eq_ok.mp sent))).trans same

/-- Vouchers are only minted where the supply stays an `sdk.Int`. -/
theorem BankLaws.giveCoins_room (laws : BankLaws sdk bank view) {sender : AccAddress}
    {coins : List Coin} {before after : β}
    (given : giveCoins bank false sender coins before = .ok after) :
    ∀ coin ∈ coins, view.supply before coin.denom + amountOf coins coin.denom < 2 ^ 255 := by
  obtain ⟨minted, mints, _⟩ := Outcome.bind_eq_ok.mp given
  exact (laws.mints _ _ _ (liftBank_eq_ok.mp mints)).room

/-- **Vouchers can be given** where there is room for them. -/
theorem BankLaws.giveCoins_voucher (laws : BankLaws sdk bank view) (sender : AccAddress)
    {coins : List Coin} {before : β} (valid : validCoins coins = true)
    (denoms : ∀ coin ∈ coins, sdk.validateDenom coin.denom = true)
    (room : ∀ coin ∈ coins, view.supply before coin.denom + amountOf coins coin.denom < 2 ^ 255) :
    ∃ after, giveCoins bank false sender coins before = .ok after := by
  obtain ⟨minted, mints⟩ := laws.mint coins before valid denoms room
  have created := (laws.mints _ _ _ mints).balance view.moduleAccount
  simp only [if_true] at created
  obtain ⟨after, sent⟩ := laws.payOut sender coins minted valid denoms fun coin _ => by
    rw [created]
    exact Nat.le_add_left _ _
  refine ⟨after, ?_⟩
  show (do
    let balances ← liftBank (bank.mintCoins coins before)
    liftBank (bank.sendCoinsFromModuleToAccount sender coins balances)) = _
  rw [mints]
  exact liftBank_eq_ok.mpr sent

end Bank

section Cancel

variable {β : Type} {sdk : Sdk} {bank : BankKeeper β} {geth : Geth} {view : BankView β}

/-! ### Between the send and the cancel -/

/-- A send or a cancel of another account. -/
def PoolInput.OfOther (sender : AccAddress) : PoolInput β → Prop
  | .addToOutgoingPool other _ _ _ => other ≠ sender
  | .removeFromOutgoingPoolAndRefund _ other => other ≠ sender
  | _ => False

theorem PoolInput.OfOther.allowed {sender : AccAddress} {input : PoolInput β}
    (other : input.OfOther sender) : input.Allowed := by
  cases input with
  | addToOutgoingPool => trivial
  | removeFromOutgoingPoolAndRefund => trivial
  | buildOutgoingTXBatch => exact other.elim
  | cancelOutgoingTXBatch => exact other.elim
  | outgoingTxBatchExecuted => exact other.elim
  | cleanupTimedOutBatches => exact other.elim
  | environment => exact other.elim

/-- The record of a send waits in the pool, and the sender's balances are those after the send. -/
structure Waits (view : BankView β) (sender : AccAddress) (tx : OutgoingTransferTx)
    (sent state : ModuleState β) : Prop where
  stored : state.outgoing.pool.get tx.key = some tx
  index : state.index = sent.index
  balance : ∀ denom, view.balance state.bank sender denom = view.balance sent.bank sender denom

/-- **Others leave the record waiting.** -/
theorem Waits.step (laws : BankLaws sdk bank view) {sender : AccAddress}
    (user : sender ≠ view.moduleAccount) {tx : OutgoingTransferTx} {sent state next : ModuleState β}
    (decoded : sdk.accAddressFromBech32 tx.sender = some sender) (sound : state.outgoing.Sound)
    (waits : Waits view sender tx sent state) {input : PoolInput β} {outputs : List PoolOutput}
    (other : input.OfOther sender)
    (step : poolStep sdk bank geth state input = some (next, outputs)) :
    Waits view sender tx sent next := by
  have unchanged : some (state, []) = some (next, outputs) → Waits view sender tx sent next := by
    intro equal
    obtain ⟨rfl, _⟩ := Prod.mk.inj (Option.some.inj equal)
    exact waits
  cases input with
  | addToOutgoingPool account receiver amount fee =>
      simp only [poolStep] at step
      split at step
      · rename_i id after added
        obtain ⟨_, _, contract, balances, _, taken, _, rfl⟩ := addToOutgoingPool_eq_ok added
        obtain ⟨rfl, _⟩ := Prod.mk.inj (Option.some.inj step)
        obtain ⟨absent, issued⟩ := sound.issue_eq
          (fun id => newOutgoingTransferTx sdk id account receiver contract amount.amount fee.amount)
          (fun _ => rfl)
        refine ⟨?_, waits.index, fun denom =>
          (laws.takeCoins_others other.symm user taken denom).trans (waits.balance denom)⟩
        have apart : tx.key ≠ (newOutgoingTransferTx sdk state.outgoing.nextTxId account receiver
            contract amount.amount fee.amount).key := by
          intro same
          rw [← same, waits.stored] at absent
          cases absent
        show (state.outgoing.issue _).2.pool.get tx.key = some tx
        rw [issued]
        exact (Store.get_set_of_ne _ _ apart).trans waits.stored
      · exact unchanged step
  | removeFromOutgoingPoolAndRefund txId account =>
      simp only [poolStep] at step
      split at step
      · rename_i after removed
        obtain ⟨record, outgoing, coins, balances, found, reads, _, gone, _, given, rfl⟩ :=
          removeFromOutgoingPoolAndRefund_eq_ok removed
        obtain ⟨rfl, _⟩ := Prod.mk.inj (Option.some.inj step)
        obtain ⟨rfl, key, stored⟩ := Outgoing.getUnbatchedTxById_eq_some found
        obtain rfl := sound.poolKeyed key record stored
        obtain ⟨rfl, _⟩ := sound.removeUnbatchedTX_released stored gone
        refine ⟨?_, waits.index, fun denom =>
          (laws.giveCoins_others other.symm user given denom).trans (waits.balance denom)⟩
        have apart : tx.key ≠ record.key := by
          intro same
          have equal : tx = record := by
            rw [← same, waits.stored] at stored
            exact Option.some.inj stored
          rw [← equal, decoded] at reads
          exact other (Option.some.inj reads).symm
        exact (Store.get_delete_of_ne _ apart).trans waits.stored
      · exact unchanged step
  | buildOutgoingTXBatch => exact other.elim
  | cancelOutgoingTXBatch => exact other.elim
  | outgoingTxBatchExecuted => exact other.elim
  | cleanupTimedOutBatches => exact other.elim
  | environment => exact other.elim

/-- The first id is one. -/
theorem one_le_nextTxId {balances : β} {index : DenomIndex} {inputs : List (PoolInput β)}
    {state : ModuleState β} {outputs : List PoolOutput} (addresses : index.Addresses)
    (allowed : ∀ input ∈ inputs, input.Allowed)
    (runs : run (poolStep sdk bank geth) ⟨balances, index, Outgoing.empty, none⟩ inputs =
      some (state, outputs)) : 1 ≤ state.outgoing.nextTxId :=
  (run_invariant PoolInput.Allowed
    (fun past state => PoolInvariant past state ∧ 1 ≤ state.outgoing.nextTxId)
    (fun _ _ _ _ _ allowed both step => ⟨both.1.step allowed step, both.2.trans
      (poolStep_effect both.1.sound both.1.addresses allowed step).2.nextTxId_le⟩)
    allowed ⟨poolInvariant_fresh addresses balances, le_refl _⟩ runs).2

/-- A record that was refunded does not come back. -/
theorem PoolInvariant.getUnbatchedTxById_of_refunded {past : List PoolOutput} {state : ModuleState β}
    (invariant : PoolInvariant past state) {tx : OutgoingTransferTx} (member : tx ∈ refundedTxs past) :
    state.outgoing.getUnbatchedTxById tx.id = none := by
  rw [Option.eq_none_iff_forall_ne_some]
  intro other found
  obtain ⟨sameId, key, stored⟩ := Outgoing.getUnbatchedTxById_eq_some found
  have ids := ((invariant.records.map OutgoingTransferTx.id).nodup_iff).mpr invariant.ids
  rw [List.map_append] at ids
  exact (List.nodup_append.mp ids).2.2 other.id
    (List.mem_map_of_mem (Outgoing.mem_records_of_pool stored)) tx.id
    (List.mem_map_of_mem (List.mem_append_left _ member)) sameId

/-- **An id is cancelled once.** -/
theorem PoolInvariant.cancel_once {past outputs : List PoolOutput} {state after later : ModuleState β}
    (invariant : PoolInvariant past state) {id : Nat} {sender : AccAddress}
    (removed : removeFromOutgoingPoolAndRefund sdk bank id sender state = .ok after)
    {inputs : List (PoolInput β)} (allowed : ∀ input ∈ inputs, input.Allowed)
    (runs : run (poolStep sdk bank geth) after inputs = some (later, outputs)) (account : AccAddress) :
    ∃ reason, removeFromOutgoingPoolAndRefund sdk bank id account later = .error reason := by
  obtain ⟨tx, _, _, _, found, _⟩ := removeFromOutgoingPoolAndRefund_eq_ok removed
  obtain ⟨rfl, _⟩ := Outgoing.getUnbatchedTxById_eq_some found
  have step : poolStep sdk bank geth state (.removeFromOutgoingPoolAndRefund tx.id sender) =
      some (after, [.refunded tx]) := by
    simp only [poolStep, removed]
    rw [found]
    rfl
  have allowedCancel : PoolInput.Allowed (β := β) (.removeFromOutgoingPoolAndRefund tx.id sender) :=
    trivial
  have final := run_invariant_from PoolInput.Allowed (fun _ _ => True) PoolInvariant
    (fun _ _ _ _ _ allowed invariant step _ => invariant.step allowed step) allowed
    (invariant.step allowedCancel step) runs (justified_true _ _)
  have member : tx ∈ refundedTxs ((past ++ [.refunded tx]) ++ outputs) :=
    List.mem_flatMap.mpr ⟨.refunded tx,
      List.mem_append_left _ (List.mem_append_right _ (List.mem_singleton_self _)),
      List.mem_singleton_self tx⟩
  exact removeFromOutgoingPoolAndRefund_of_none (final.getUnbatchedTxById_of_refunded member) account

/-! ### The two calls -/

/-- The record of a send waits after it. -/
theorem sent_waits (laws : BankLaws sdk bank view) {sender : AccAddress}
    (user : sender ≠ view.moduleAccount) {receiver : Bytes} {amount fee : Coin}
    {past : List PoolOutput} {before sent : ModuleState β} {id : Nat}
    (invariant : PoolInvariant past before)
    (added : addToOutgoingPool sdk bank sender receiver amount fee before = .ok (id, sent)) :
    ∃ isCosmosOriginated contract,
      before.index.denomToERC20Lookup amount.denom = .ok (isCosmosOriginated, contract) ∧
      id = before.outgoing.nextTxId ∧ 0 < amount.amount + fee.amount ∧
      view.Taken isCosmosOriginated sender [⟨amount.denom, amount.amount + fee.amount⟩] before.bank
        sent.bank ∧
      sent.index = before.index ∧
      Waits view sender (newOutgoingTransferTx sdk id sender receiver contract amount.amount
        fee.amount) sent sent ∧
      PoolInvariant (past ++ [.added (newOutgoingTransferTx sdk id sender receiver contract
        amount.amount fee.amount)]) sent := by
  obtain ⟨_, isCosmosOriginated, contract, balances, lookup, taken, idIs, rfl⟩ :=
    addToOutgoingPool_eq_ok added
  obtain ⟨valid, taken⟩ := laws.takeCoins_taken user taken
  have issued := (invariant.sound.issue (fun id => newOutgoingTransferTx sdk id sender receiver contract
    amount.amount fee.amount) (fun _ => rfl) (fun _ => rfl)
    (fun _ => invariant.addresses.lookup lookup)).2
  have placed := (invariant.sound.issue_eq (fun id => newOutgoingTransferTx sdk id sender receiver
    contract amount.amount fee.amount) (fun _ => rfl)).2
  obtain rfl : id = before.outgoing.nextTxId := by rw [idIs, placed]
  refine ⟨isCosmosOriginated, contract, lookup, rfl, validCoins_singleton.mp valid, taken, rfl,
    ⟨?_, rfl, fun _ => rfl⟩, invariant.add invariant.addresses issued⟩
  show (before.outgoing.issue _).2.pool.get _ = some _
  rw [placed]
  exact Store.get_set_self _ _ _

/-- What a cancel of a waiting record pays. -/
theorem Waits.given {sender : AccAddress} {tx : OutgoingTransferTx} {sent middle after : ModuleState β}
    (waits : Waits view sender tx sent middle) (sound : middle.outgoing.Sound)
    (owed : 0 < tx.erc20Token.amount + tx.erc20Fee.amount)
    (removed : removeFromOutgoingPoolAndRefund sdk bank tx.id sender middle = .ok after) :
    giveCoins bank (sent.index.erc20ToDenomLookup tx.erc20Token.contract).1 sender
      [⟨gravityDenom tx.erc20Token.contract, tx.erc20Token.amount + tx.erc20Fee.amount⟩] middle.bank =
        .ok after.bank := by
  obtain ⟨record, outgoing, coins, balances, found, _, _, _, made, given, rfl⟩ :=
    removeFromOutgoingPoolAndRefund_eq_ok removed
  rw [sound.getUnbatchedTxById_of_stored waits.stored] at found
  obtain rfl := Option.some.inj found
  obtain rfl := newCoins_eq_ok owed made
  rw [← waits.index]
  exact given

/-- A cancel undoes a send: it succeeds, the sender has what it had before the send, the cancel takes
back what the send changed in the module's balance and in the supply, and no cancel of the id succeeds
afterwards, nor does one of another account. -/
structure CancelUndoes (sdk : Sdk) (bank : BankKeeper β) (geth : Geth) (view : BankView β)
    (sender : AccAddress) (denom : Bytes) (id : Nat) (before sent middle : ModuleState β) : Prop where
  restores : ∃ after, removeFromOutgoingPoolAndRefund sdk bank id sender middle = .ok after ∧
    view.balance after.bank sender denom = view.balance before.bank sender denom ∧
    view.balance after.bank view.moduleAccount denom + view.balance sent.bank view.moduleAccount denom =
      view.balance before.bank view.moduleAccount denom +
        view.balance middle.bank view.moduleAccount denom ∧
    view.supply after.bank denom + view.supply sent.bank denom =
      view.supply before.bank denom + view.supply middle.bank denom ∧
    ∀ inputs later outputs, (∀ input ∈ inputs, input.Allowed) →
      run (poolStep sdk bank geth) after inputs = some (later, outputs) →
      ∀ account, ∃ reason,
        removeFromOutgoingPoolAndRefund sdk bank id account later = .error reason
  onlySender : ∀ account, account ≠ sender →
    ∃ reason, removeFromOutgoingPoolAndRefund sdk bank id account middle = .error reason

/-- **When a cancel undoes a send.** After a run from a fresh store, a send, and any sends and cancels of
others: exactly when the denom is the voucher denom of a contract that is not registered, and there is
still room for the vouchers in the supply. -/
theorem cancel_undoes_iff (laws : BankLaws sdk bank view) {balances : β} {index : DenomIndex}
    {inputs traffic : List (PoolInput β)} {past between : List PoolOutput}
    {before sent middle : ModuleState β} {sender : AccAddress} {receiver : Bytes} {amount fee : Coin}
    {id : Nat} (addresses : index.Addresses) (allowed : ∀ input ∈ inputs, input.Allowed)
    (reached : run (poolStep sdk bank geth) ⟨balances, index, Outgoing.empty, none⟩ inputs =
      some (before, past))
    (registered : ∀ denom contract, before.index.getCosmosOriginatedERC20 denom = some contract →
      validateEthAddress contract = .ok ())
    (user : sender ≠ view.moduleAccount)
    (readsBack : sdk.accAddressFromBech32 (sdk.accAddressString sender) = some sender)
    (added : addToOutgoingPool sdk bank sender receiver amount fee before = .ok (id, sent))
    (others : ∀ input ∈ traffic, input.OfOther sender)
    (runs : run (poolStep sdk bank geth) sent traffic = some (middle, between)) :
    CancelUndoes sdk bank geth view sender amount.denom id before sent middle ↔
      (∃ contract, gravityDenomToERC20 amount.denom = .ok contract ∧
        before.index.getCosmosOriginatedDenom contract = none) ∧
      view.supply middle.bank amount.denom + (amount.amount + fee.amount).toNat < 2 ^ 255 := by
  have invariant := poolInvariant_run addresses allowed reached
  have positive := one_le_nextTxId addresses allowed reached
  obtain ⟨⟨hasSender, _, amountValid, feeValid, _, fits⟩, _⟩ := addToOutgoingPool_eq_ok added
  obtain ⟨isCosmosOriginated, contract, lookup, rfl, owed, taken, sameIndex, waits, afterSend⟩ :=
    sent_waits laws user invariant added
  obtain ⟨now, waiting⟩ : PoolInvariant _ middle ∧ Waits view sender _ sent middle :=
    run_invariant_from (fun input => input.OfOther sender) (fun _ _ => True)
      (fun past state => PoolInvariant past state ∧ Waits view sender _ sent state)
      (fun _ _ _ _ _ other both step _ => ⟨both.1.step other.allowed step,
        both.2.step laws user readsBack both.1.sound other step⟩)
      others ⟨afterSend, waits⟩ runs (justified_true _ _)
  constructor
  · rintro ⟨⟨after, removed, balance, _, supply, _⟩, _⟩
    have given : giveCoins bank (sent.index.erc20ToDenomLookup contract).1 sender
        [⟨gravityDenom contract, amount.amount + fee.amount⟩] middle.bank = .ok after.bank :=
      waiting.given now.sound owed removed
    have refund := laws.giveCoins_taken user given
    have sameDenom : gravityDenom contract = amount.denom := by
      by_contra different
      have paid := refund.payer amount.denom
      have took := taken.payer amount.denom
      rw [amountOf_singleton, if_neg different] at paid
      rw [amountOf_self] at took
      have unchanged := waiting.balance amount.denom
      omega
    rw [sameDenom, sameIndex] at given
    rw [sameDenom] at refund
    -- a registered contract is an address, so its voucher denom is not looked up in the index
    have voucher : gravityDenomToERC20 amount.denom = .ok contract ∧ isCosmosOriginated = false := by
      rcases DenomIndex.denomToERC20Lookup_eq_ok lookup with ⟨notIndexed, shape⟩ | ⟨_, indexed⟩
      · exact ⟨shape, notIndexed⟩
      · have shape := gravityDenomToERC20_gravityDenom (registered _ _ indexed)
        rw [sameDenom] at shape
        unfold DenomIndex.denomToERC20Lookup at lookup
        rw [shape] at lookup
        exact ⟨shape, (Prod.mk.inj (Except.ok.inj lookup)).1.symm⟩
    obtain ⟨shape, rfl⟩ := voucher
    have burned := taken.supply amount.denom
    have minted := refund.supply amount.denom
    rw [amountOf_self] at burned minted
    cases origin : (before.index.erc20ToDenomLookup contract).1 with
    | true =>
        rw [sameIndex, origin] at minted
        simp only [if_true, Bool.false_eq_true, if_false] at minted burned
        omega
    | false =>
        rw [origin] at given
        have room := laws.giveCoins_room given _ List.mem_cons_self
        rw [amountOf_self] at room
        refine ⟨⟨contract, shape, ?_⟩, room⟩
        unfold DenomIndex.erc20ToDenomLookup at origin
        cases found : before.index.getCosmosOriginatedDenom contract with
        | none => rfl
        | some denom => simp [found] at origin
  · rintro ⟨⟨address, shape, unregistered⟩, room⟩
    obtain ⟨sameDenom, _⟩ := (gravityDenomToERC20_eq_ok_iff _ _).mp shape
    unfold DenomIndex.denomToERC20Lookup at lookup
    rw [shape] at lookup
    obtain ⟨rfl, rfl⟩ := Prod.mk.inj (Except.ok.inj lookup)
    have origin : (before.index.erc20ToDenomLookup address).1 = false := by
      unfold DenomIndex.erc20ToDenomLookup
      rw [unregistered]
    obtain ⟨denomOk, nonneg⟩ := Bool.and_eq_true_iff.mp amountValid
    obtain ⟨refunded, given⟩ : ∃ after, giveCoins bank false sender
        [⟨amount.denom, amount.amount + fee.amount⟩] middle.bank = .ok after := by
      refine laws.giveCoins_voucher sender (validCoins_singleton.mpr owed)
        (fun coin member => ?_) (fun coin member => ?_)
      · rwa [List.mem_singleton.mp member]
      · rw [List.mem_singleton.mp member, amountOf_self]
        exact room
    have pays : giveCoins bank (middle.index.erc20ToDenomLookup address).1 sender
        [⟨gravityDenom address, amount.amount + fee.amount⟩] middle.bank = .ok refunded := by
      rw [waiting.index, sameIndex, origin, ← sameDenom]
      exact given
    have found := now.sound.getUnbatchedTxById_of_stored waiting.stored
    have removed := removeFromOutgoingPoolAndRefund_of_stored positive hasSender found rfl
      waiting.stored readsBack rfl (by exact sameDenom ▸ denomOk) (of_decide_eq_true nonneg) rfl fits
      owed pays
    have refund := laws.giveCoins_taken user given
    refine ⟨⟨_, removed, ?_, ?_, ?_, ?_⟩, fun account other => ?_⟩
    · have paid := refund.payer amount.denom
      have took := taken.payer amount.denom
      have unchanged := waiting.balance amount.denom
      show view.balance refunded sender amount.denom = _
      omega
    · have paid := refund.held amount.denom
      have took := taken.held amount.denom
      show view.balance refunded _ _ + _ = _
      omega
    · have minted := refund.supply amount.denom
      have burned := taken.supply amount.denom
      show view.supply refunded _ + _ = _
      omega
    · intro inputs later outputs allowed runs account
      exact now.cancel_once removed allowed runs account
    · exact removeFromOutgoingPoolAndRefund_of_ne found readsBack other

end Cancel

/-! ### A voucher and a Cosmos-originated coin -/

/-- Another account tries to cancel the first send, and to send itself. -/
def exampleTraffic : List (PoolInput Ledger) :=
  [.removeFromOutgoingPoolAndRefund 1 (List.replicate 20 2),
    .addToOutgoingPool (List.replicate 20 2) (ascii "0x2222222222222222222222222222222222222222")
      ⟨gravityDenom exampleContract, 3⟩ ⟨gravityDenom exampleContract, 1⟩]

theorem voucher_send_undone :
    ∃ sent middle between,
      addToOutgoingPool exampleSdk (ledgerBank exampleModuleAccount) (List.replicate 20 1)
        (ascii "0x2222222222222222222222222222222222222222") ⟨gravityDenom exampleContract, 10⟩
        ⟨gravityDenom exampleContract, 1⟩ ⟨exampleLedger, DenomIndex.empty, Outgoing.empty, none⟩ =
          .ok (1, sent) ∧
      run (poolStep exampleSdk (ledgerBank exampleModuleAccount) exampleGeth) sent exampleTraffic =
        some (middle, between) ∧
      sent.bank.supply (gravityDenom exampleContract) = 989 ∧
      CancelUndoes exampleSdk (ledgerBank exampleModuleAccount) exampleGeth
        (ledgerView exampleModuleAccount) (List.replicate 20 1) (gravityDenom exampleContract) 1
        ⟨exampleLedger, DenomIndex.empty, Outgoing.empty, none⟩ sent middle := by
  have computed : ((addToOutgoingPool exampleSdk (ledgerBank exampleModuleAccount) (List.replicate 20 1)
      (ascii "0x2222222222222222222222222222222222222222") ⟨gravityDenom exampleContract, 10⟩
      ⟨gravityDenom exampleContract, 1⟩
      ⟨exampleLedger, DenomIndex.empty, Outgoing.empty, none⟩).value?.bind fun result =>
        (run (poolStep exampleSdk (ledgerBank exampleModuleAccount) exampleGeth) result.2
          exampleTraffic).map fun final =>
            ((result.1, result.2.bank.supply (gravityDenom exampleContract)),
              final.1.bank.supply (gravityDenom exampleContract))) = some ((1, 989), 989) := by
    decide +kernel
  obtain ⟨⟨id, sent⟩, added, ran⟩ := Option.bind_eq_some_iff.mp computed
  obtain ⟨⟨middle, between⟩, runs, figures⟩ := Option.map_eq_some_iff.mp ran
  obtain ⟨⟨rfl, burned⟩, left⟩ : (id = 1 ∧ sent.bank.supply (gravityDenom exampleContract) = 989) ∧
      middle.bank.supply (gravityDenom exampleContract) = 989 := by
    simpa only [Prod.mk.injEq] using figures
  have added := Outcome.value?_eq_some.mp added
  refine ⟨sent, middle, between, added, runs, burned, ?_⟩
  refine (cancel_undoes_iff (ledgerBank_laws exampleSdk exampleModuleAccount)
    (fun _ _ found => by cases found) (fun _ member => absurd member List.not_mem_nil) rfl
    (fun _ _ found => by cases found) (by decide +kernel) (by decide +kernel) added ?_ runs).mpr
    ⟨⟨exampleContract, by decide +kernel, rfl⟩, ?_⟩
  · intro input member
    simp only [exampleTraffic, List.mem_cons, List.not_mem_nil, or_false] at member
    rcases member with rfl | rfl
    · show List.replicate 20 2 ≠ List.replicate 20 1
      decide
    · show List.replicate 20 2 ≠ List.replicate 20 1
      decide
  · show middle.bank.supply (gravityDenom exampleContract) + 11 < 2 ^ 255
    rw [left]
    decide

/-- A denom of the chain. -/
def exampleDenom : Bytes := ascii "unom"

/-- The denom is registered for the contract, and one account has a thousand of it. -/
def exampleRegisteredState : ModuleState Ledger where
  bank := {
    balance := fun account denom =>
      if account = List.replicate 20 1 ∧ denom = exampleDenom then 1000 else 0
    supply := fun denom => if denom = exampleDenom then 1000 else 0
    metadata := fun _ => ⟨[], [], [], []⟩ }
  index := DenomIndex.empty.setCosmosOriginatedDenomToERC20 exampleDenom exampleContract
  outgoing := Outgoing.empty
  lastObservedValset := none

/-- **The coins of a Cosmos-originated send stay locked**: the cancel looks for vouchers. -/
theorem registered_send_not_undone :
    ∃ sent,
      addToOutgoingPool exampleSdk (ledgerBank exampleModuleAccount) (List.replicate 20 1)
        (ascii "0x2222222222222222222222222222222222222222") ⟨exampleDenom, 10⟩ ⟨exampleDenom, 1⟩
        exampleRegisteredState = .ok (1, sent) ∧
      sent.bank.balance exampleModuleAccount exampleDenom = 11 ∧
      removeFromOutgoingPoolAndRefund exampleSdk (ledgerBank exampleModuleAccount) 1
        (List.replicate 20 1) sent = .error (.bank .insufficientFunds) ∧
      ¬ CancelUndoes exampleSdk (ledgerBank exampleModuleAccount) exampleGeth
        (ledgerView exampleModuleAccount) (List.replicate 20 1) exampleDenom 1 exampleRegisteredState
        sent sent := by
  have computed : ((addToOutgoingPool exampleSdk (ledgerBank exampleModuleAccount) (List.replicate 20 1)
      (ascii "0x2222222222222222222222222222222222222222") ⟨exampleDenom, 10⟩ ⟨exampleDenom, 1⟩
      exampleRegisteredState).value?.map fun result =>
        ((result.1, result.2.bank.balance exampleModuleAccount exampleDenom),
          (removeFromOutgoingPoolAndRefund exampleSdk (ledgerBank exampleModuleAccount) 1
            (List.replicate 20 1) result.2).error?)) =
      some ((1, 11), some (.bank .insufficientFunds)) := by
    decide +kernel
  obtain ⟨⟨id, sent⟩, added, figures⟩ := Option.map_eq_some_iff.mp computed
  obtain ⟨⟨rfl, locked⟩, failed⟩ := by simpa only [Prod.mk.injEq] using figures
  have refused : removeFromOutgoingPoolAndRefund exampleSdk (ledgerBank exampleModuleAccount) 1
      (List.replicate 20 1) sent = .error (.bank .insufficientFunds) := Outcome.error?_eq_some.mp failed
  refine ⟨sent, Outcome.value?_eq_some.mp added, locked, refused, fun undoes => ?_⟩
  obtain ⟨after, removed, _⟩ := undoes.restores
  rw [refused] at removed
  cases removed

end NabBridge
