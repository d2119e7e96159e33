/-
**A send is not swallowed.**

`AddToOutgoingPool` takes the coins first, then uses up an id, and only then puts the record into the
pool. `addUnbatchedTX` refuses a record whose place is taken, and that error is dropped: the coins are
gone, the id is returned, and there is no record.

* `takeCoins_paid_iff`: the sender pays, unless it is the module account locking its own coins;
* `issue_entry_iff`: the record is put in exactly where its place is free;
* `sends_kept`: both together, in every state and along every run. A place is taken after a restart, which
  starts the ids at one again while the pool comes back.
-/

import NabBridge.Proof.Refund
import NabBridge.Proof.Identifiers

namespace NabBridge

/-! ### What an id promises -/

/-- A record that was not there is put into the pool, and nothing else changes there. -/
def Outgoing.Gains (before after : Outgoing) (tx : OutgoingTransferTx) : Prop :=
  ∃ key, before.pool.get key = none ∧
    ∀ other, after.pool.get other = if other = key then some tx else before.pool.get other

section Promise

variable {β : Type} (sdk : Sdk) (view : BankView β) (sender : AccAddress) (receiver : Bytes)
  (amount fee : Coin)

/-- **What an id promises**: one record more, with this id, sender, destination, amount and fee, and the
sender has paid amount and fee. -/
structure SendKept (id : Nat) (before after : ModuleState β) : Prop where
  entry : ∃ contract, before.outgoing.Gains after.outgoing
    ⟨id, sdk.accAddressString sender, receiver, ⟨amount.amount, contract⟩, ⟨fee.amount, contract⟩⟩
  paid : ∀ denom, view.balance after.bank sender denom +
    amountOf [⟨amount.denom, amount.amount + fee.amount⟩] denom =
      view.balance before.bank sender denom

/-- The next record of the token with this fee finds its place free, and it is not the module account that
locks coins of its own. -/
def ModuleState.Admits (state : ModuleState β) : Prop :=
  match state.index.denomToERC20Lookup amount.denom with
  | .error _ => True
  | .ok (isCosmosOriginated, contract) =>
      state.outgoing.pool.get (poolKey ⟨fee.amount, contract⟩ state.outgoing.nextTxId) = none ∧
        ¬ (isCosmosOriginated = true ∧ sender = view.moduleAccount)

instance (state : ModuleState β) : Decidable (state.Admits view sender amount fee) := by
  unfold ModuleState.Admits
  split <;> infer_instance

end Promise

/-! ### The coins -/

section Coins

variable {β : Type} {sdk : Sdk} {bank : BankKeeper β} {view : BankView β}

/-- What the module account burns of its own it pays. -/
theorem BankLaws.takeCoins_own (laws : BankLaws sdk bank view) {isCosmosOriginated : Bool}
    {coins : List Coin} {before after : β}
    (taken : takeCoins bank isCosmosOriginated view.moduleAccount coins before = .ok after)
    (denom : Bytes) :
    view.balance after view.moduleAccount denom +
      (if isCosmosOriginated then 0 else amountOf coins denom) =
        view.balance before view.moduleAccount denom := by
  obtain ⟨locked, sent, taken⟩ := Outcome.bind_eq_ok.mp taken
  have moves := (laws.toModule _ _ _ _ (liftBank_eq_ok.mp sent)).balance view.moduleAccount denom
  rw [if_pos rfl] at moves
  have same : view.balance locked view.moduleAccount denom =
      view.balance before view.moduleAccount denom := Nat.add_right_cancel moves
  cases isCosmosOriginated with
  | true =>
      obtain rfl := Outcome.ok.inj taken
      exact same
  | false =>
      have burns := (laws.burns _ _ _ (mustBank_eq_ok.mp taken)).balance view.moduleAccount denom
      rw [if_pos rfl] at burns
      exact burns.trans same

/-- **The sender pays**, unless it is the module account locking its own coins. -/
theorem BankLaws.takeCoins_paid_iff (laws : BankLaws sdk bank view) {isCosmosOriginated : Bool}
    {sender : AccAddress} {coin : Coin} {before after : β}
    (taken : takeCoins bank isCosmosOriginated sender [coin] before = .ok after) :
    (∀ denom, view.balance after sender denom + amountOf [coin] denom =
      view.balance before sender denom) ↔
      ¬ (isCosmosOriginated = true ∧ sender = view.moduleAccount) := by
  by_cases user : sender = view.moduleAccount
  · subst user
    have own := laws.takeCoins_own taken
    cases isCosmosOriginated with
    | false =>
        refine iff_of_true own ?_
        simp
    | true =>
        obtain ⟨locked, sent, _⟩ := Outcome.bind_eq_ok.mp taken
        have positive : 0 < coin.amount :=
          validCoins_singleton.mp (laws.toModule _ _ _ _ (liftBank_eq_ok.mp sent)).valid
        refine iff_of_false (fun paid => ?_) (not_not.mpr ⟨rfl, rfl⟩)
        have here := paid coin.denom
        have kept := own coin.denom
        rw [amountOf_singleton, if_pos rfl] at here
        rw [if_pos rfl, Nat.add_zero] at kept
        omega
  · exact iff_of_true (laws.takeCoins_taken user taken).2.payer fun both => user both.2

end Coins

/-! ### The record -/

namespace Outgoing

theorem issue_fst (outgoing : Outgoing) (record : Nat → OutgoingTransferTx) :
    (outgoing.issue record).1 = outgoing.nextTxId := by
  unfold issue autoIncrementID
  simp only
  split <;> rfl

/-- A record whose place is free is put in, -/
theorem issue_free {outgoing : Outgoing} {record : Nat → OutgoingTransferTx}
    (free : outgoing.pool.get (record outgoing.nextTxId).key = none) :
    outgoing.Gains (outgoing.issue record).2 (record outgoing.nextTxId) := by
  have added := @addUnbatchedTX_of_absent
    { outgoing with lastTxPoolId := some (outgoing.nextTxId + 1) } _ free
  have placed : (outgoing.issue record).2.pool =
      outgoing.pool.set (record outgoing.nextTxId).key (record outgoing.nextTxId) := by
    unfold issue autoIncrementID
    unfold nextTxId at added ⊢
    simp only [added]
  exact ⟨(record outgoing.nextTxId).key, free, fun other => by rw [placed, Store.get_set]⟩

/-- and one whose place is taken is dropped. -/
theorem issue_taken {outgoing : Outgoing} {record : Nat → OutgoingTransferTx}
    (taken : outgoing.pool.get (record outgoing.nextTxId).key ≠ none) :
    (outgoing.issue record).2.pool = outgoing.pool := by
  have refused : addUnbatchedTX { outgoing with lastTxPoolId := some (outgoing.nextTxId + 1) }
      (record outgoing.nextTxId) = .error .duplicate :=
    if_pos ((outgoing.pool.has_eq_true_iff _).mpr (Option.ne_none_iff_exists'.mp taken))
  unfold issue autoIncrementID
  unfold nextTxId at refused
  simp only [refused]

/-- Nothing is gained by a pool that stays as it was. -/
theorem not_gains_of_same {before after : Outgoing} (same : after.pool = before.pool)
    (tx : OutgoingTransferTx) : ¬ before.Gains after tx := by
  rintro ⟨key, absent, gained⟩
  have here := gained key
  rw [same, if_pos rfl, absent] at here
  cases here

end Outgoing

/-! ### Sends -/

section Sends

variable {β : Type} {sdk : Sdk} {bank : BankKeeper β} {view : BankView β}

/-- **A send that returns an id keeps what it promises** exactly where the state admits it. -/
theorem sendKept_iff (laws : BankLaws sdk bank view) {sender : AccAddress} {receiver : Bytes}
    {amount fee : Coin} {id : Nat} {before after : ModuleState β}
    (sent : addToOutgoingPool sdk bank sender receiver amount fee before = .ok (id, after)) :
    SendKept sdk view sender receiver amount fee id before after ↔
      before.Admits view sender amount fee := by
  obtain ⟨_, isCosmosOriginated, contract, balances, lookup, taken, idIs, rfl⟩ :=
    addToOutgoingPool_eq_ok sent
  obtain rfl : id = before.outgoing.nextTxId := idIs.trans (Outgoing.issue_fst _ _)
  have coins := laws.takeCoins_paid_iff taken
  unfold ModuleState.Admits
  rw [lookup]
  constructor
  · rintro ⟨⟨other, gained⟩, paid⟩
    refine ⟨?_, coins.mp paid⟩
    by_contra full
    exact Outgoing.not_gains_of_same (Outgoing.issue_taken full) _ gained
  · rintro ⟨free, user⟩
    exact ⟨⟨contract, Outgoing.issue_free free⟩, coins.mpr user⟩

/-! ### Runs -/

variable {τ : Type} {geth : Geth} {evm : Evm} {others : Contracts τ}

/-- A send is kept if it returns an id, and leaves the node as it was if it does not. -/
def Node.KeepsSend (sdk : Sdk) (bank : BankKeeper β) (view : BankView β) (geth : Geth) (evm : Evm)
    (others : Contracts τ) (node : Node β τ) : NodeInput β τ → Prop
  | .bridge isValidator (.sendToEth sender receiver amount fee) =>
      (∀ id after, addToOutgoingPool sdk bank sender receiver amount fee node.keeper.chain.app =
          .ok (id, after) →
        SendKept sdk view sender receiver amount fee id node.keeper.chain.app after) ∧
      ((∀ result, addToOutgoingPool sdk bank sender receiver amount fee node.keeper.chain.app ≠
          .ok result) →
        ∀ next outputs, nodeStep sdk bank geth evm others node
            (.bridge isValidator (.sendToEth sender receiver amount fee)) = some (next, outputs) →
          next = node)
  | _ => True

/-- A send meets a state that admits it. -/
def Node.AdmitsSend (view : BankView β) (node : Node β τ) : NodeInput β τ → Prop
  | .bridge _ (.sendToEth sender _ amount fee) => node.keeper.chain.app.Admits view sender amount fee
  | _ => True

instance (view : BankView β) (node : Node β τ) (input : NodeInput β τ) :
    Decidable (node.AdmitsSend view input) := by
  rcases input with ⟨_, action⟩
  · rcases action <;> unfold Node.AdmitsSend <;> infer_instance
  all_goals unfold Node.AdmitsSend; infer_instance

/-- A send without an id is rolled back. -/
theorem sendToEth_rolledBack {node next : Node β τ} {isValidator : ValAddress → Bool}
    {sender : AccAddress} {receiver : Bytes} {amount fee : Coin} {outputs : List NodeOutput}
    (failed : ∀ result, addToOutgoingPool sdk bank sender receiver amount fee
      node.keeper.chain.app ≠ .ok result)
    (step : nodeStep sdk bank geth evm others node
      (.bridge isValidator (.sendToEth sender receiver amount fee)) = some (next, outputs)) :
    next = node := by
  by_cases halted : node.halted = true
  · simp [nodeStep, BridgeInput.reading, bridgeStep, Node.bridge, halted] at step
  · have bridged : bridgeStep sdk bank geth node.keeper.params evm others node.bridge
        (.sendToEth sender receiver amount fee) = some (node.bridge, []) := by
      simp only [bridgeStep]
      rw [if_neg (show ¬ node.bridge.halted = true from halted)]
      split
      · next sent => exact absurd sent (failed _)
      · rfl
    simp only [nodeStep, BridgeInput.reading, bridged] at step
    exact (Prod.mk.inj (Option.some.inj step)).1.symm

/-- **A send into a state that admits it is kept.** -/
theorem Node.AdmitsSend.keeps (laws : BankLaws sdk bank view) {node : Node β τ}
    {input : NodeInput β τ} (admits : node.AdmitsSend view input) :
    node.KeepsSend sdk bank view geth evm others input := by
  unfold Node.KeepsSend
  split
  · exact ⟨fun id after sent => (sendKept_iff laws sent).mpr admits,
      fun failed next outputs step => sendToEth_rolledBack failed step⟩
  · trivial

/-- **Sends are not swallowed.** In every state of a node, restored or not, a send that returns an id keeps
what it promises exactly where the state admits it. Along every run whose sends meet states that admit
them, every send that returns an id is kept, and every other one is rolled back. -/
theorem sends_kept (laws : BankLaws sdk bank view) (node : Node β τ) :
    (∀ sender receiver amount fee id after,
      addToOutgoingPool sdk bank sender receiver amount fee node.keeper.chain.app = .ok (id, after) →
      (SendKept sdk view sender receiver amount fee id node.keeper.chain.app after ↔
        node.keeper.chain.app.Admits view sender amount fee)) ∧
    ∀ inputs, StepsMeet (nodeStep sdk bank geth evm others) (Node.AdmitsSend view) node inputs →
      StepsMeet (nodeStep sdk bank geth evm others) (Node.KeepsSend sdk bank view geth evm others) node
        inputs :=
  ⟨fun _ _ _ _ _ _ sent => sendKept_iff laws sent,
    fun _ meets => meets.imp fun _ _ admits => admits.keeps laws⟩

end Sends

/-! ### Two runs -/

/-- The same fee before and after a restart. -/
def exampleSwallowed : List (NodeInput Ledger Unit) :=
  [exampleRegister, exampleBlock 5, .bridge (fun _ => true) (exampleTransfer 10 1), exampleRestartInput]

/-- With another fee the record has a place of its own, although its id is taken. -/
theorem sends_kept_lateRestart :
    StepsMeet exampleNodeStep (Node.KeepsSend exampleSdk (ledgerBank exampleModuleAccount)
      (ledgerView exampleModuleAccount) exampleGeth exampleEvm exampleContracts) exampleNode
      exampleLateRestart :=
  (sends_kept (ledgerBank_laws exampleSdk exampleModuleAccount) exampleNode).2 exampleLateRestart
    (by decide +kernel)

/-- A send of 20 with the fee 1. -/
def exampleSecondSend (state : ModuleState Ledger) : Outcome PoolError PoolPanic (Nat × ModuleState Ledger) :=
  addToOutgoingPool exampleSdk (ledgerBank exampleModuleAccount) (List.replicate 20 1)
    (ascii "0x2222222222222222222222222222222222222222") ⟨gravityDenom exampleContract, 20⟩
    ⟨gravityDenom exampleContract, 1⟩ state

/-- **A send is swallowed**: after the restart the next send with the same fee pays 21, returns the id one
again, and leaves the pool as it was. -/
theorem send_swallowed : ∃ node outputs after,
    run exampleNodeStep exampleNode exampleSwallowed = some (node, outputs) ∧
    exampleSecondSend node.keeper.chain.app = .ok (1, after) ∧
    after.bank.balance (List.replicate 20 1) (gravityDenom exampleContract) + 21 =
      node.keeper.chain.app.bank.balance (List.replicate 20 1) (gravityDenom exampleContract) ∧
    after.outgoing.pool = node.keeper.chain.app.outgoing.pool ∧
    ¬ SendKept exampleSdk (ledgerView exampleModuleAccount) (List.replicate 20 1)
      (ascii "0x2222222222222222222222222222222222222222") ⟨gravityDenom exampleContract, 20⟩
      ⟨gravityDenom exampleContract, 1⟩ 1 node.keeper.chain.app after := by
  have evaluated : (run exampleNodeStep exampleNode exampleSwallowed).any (fun result =>
      (exampleSecondSend result.1.keeper.chain.app).value?.any fun sent => sent.1 = 1 ∧
        sent.2.bank.balance (List.replicate 20 1) (gravityDenom exampleContract) + 21 =
          result.1.keeper.chain.app.bank.balance (List.replicate 20 1)
            (gravityDenom exampleContract) ∧
        sent.2.outgoing.pool = result.1.keeper.chain.app.outgoing.pool) = true := by
    decide +kernel
  obtain ⟨⟨node, outputs⟩, runs, sends⟩ := (Option.any_eq_true _ _).mp evaluated
  obtain ⟨⟨id, after⟩, sent, holds⟩ := (Option.any_eq_true _ _).mp sends
  obtain ⟨rfl, paid, same⟩ := of_decide_eq_true holds
  refine ⟨node, outputs, after, runs, Outcome.value?_eq_some.mp sent, paid, same, fun kept => ?_⟩
  obtain ⟨contract, gained⟩ := kept.entry
  exact Outgoing.not_gains_of_same same _ gained

end NabBridge
