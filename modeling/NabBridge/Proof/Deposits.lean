/-
**What a deposit event says, and what arrived.**

`sendToCosmos` asks the token for a transfer, burns a deposit of wNOM, and writes the amount it was called
with into the event. It looks at no balance: whether the bridge holds as much more depends on the code of the
token alone, which may take a fee, move nothing, or call back.

* `sendToCosmos_eq_ok`: the three parts of an accepted deposit;
* `deposit_backed_iff`: the event is the only deposit of its call, and what it says has arrived exactly where
  the token has moved it.
-/

import NabBridge.Contract.Calls
import NabBridge.Proof.ContractRun

namespace NabBridge

/-- What can be read of the other contracts: the bridge's balance of a token, and the token's supply. -/
structure TokenView (τ : Type) where
  balance : EthAddress → τ → Nat
  supply : EthAddress → τ → Nat

section Deposits

variable {τ : Type} (view : TokenView τ) (evm : Evm) (others : Contracts τ)

namespace Ethereum

/-- **A deposit is backed**: the bridge's balance of the token is up by the amount, or the token is wNOM, the
amount is burned, and the bridge has paid nothing of its own for it. -/
def Backed (token : EthAddress) (amount : Nat) (before after : Ethereum τ) : Prop :=
  view.balance token before.contracts + amount ≤ view.balance token after.contracts ∨
    token = before.gravity.wNomAddress ∧
      view.supply token after.contracts + amount ≤ view.supply token before.contracts ∧
      view.balance token before.contracts ≤ view.balance token after.contracts

/-- The chain while a guarded function runs. -/
def guarded (eth : Ethereum τ) : Ethereum τ :=
  { eth with gravity := { eth.gravity with entered := true } }

/-- What the token's own code makes of a request for a transfer to the bridge. -/
def pull (depth : Nat) (sender token : EthAddress) (amount : Nat) (eth : Ethereum τ) :
    Except GravityRevert (Ethereum τ) :=
  eth.guarded.external (callAt evm others depth) (others.safeTransferFrom token sender amount)

/-- **The token pays in full**: where its code comes back, the bridge has the amount more. -/
def PaysInFull (depth : Nat) (sender token : EthAddress) (amount : Nat) (eth : Ethereum τ) : Prop :=
  ∀ taken, eth.pull evm others depth sender token amount = .ok taken →
    view.balance token eth.contracts + amount ≤ view.balance token taken.contracts

end Ethereum

/-- What is known of wNOM, a burnable ERC20: a transfer mints nothing, and the bridge burns exactly what it
asks to. -/
structure BurnableLaws (token : EthAddress) : Prop where
  transfer : ∀ depth sender amount (eth taken : Ethereum τ),
    eth.pull evm others depth sender token amount = .ok taken →
    view.supply token taken.contracts ≤ view.supply token eth.contracts
  burn : ∀ depth amount (eth after : Ethereum τ),
    eth.external (Ethereum.callAt evm others depth) (others.burn amount) = .ok after →
    view.balance token after.contracts + amount = view.balance token eth.contracts ∧
      view.supply token after.contracts + amount = view.supply token eth.contracts

variable {view evm others}

/-- **The parts of an accepted deposit.** -/
theorem sendToCosmos_eq_ok {depth : Nat} {sender token : EthAddress} {destination : Bytes} {amount : Nat}
    {eth after : Ethereum τ}
    (done : Ethereum.callAt evm others (depth + 1) sender (.sendToCosmos token destination amount) eth =
      .ok after) :
    ∃ taken burned, eth.pull evm others depth sender token amount = .ok taken ∧
      (if token = eth.gravity.wNomAddress then
        taken.external (Ethereum.callAt evm others depth) (others.burn amount) else .ok taken) =
          .ok burned ∧
      after.contracts = burned.contracts := by
  rw [Ethereum.callAt] at done
  obtain ⟨_, _, done⟩ := except_bind_eq_ok.mp done
  obtain ⟨final, dispatched, done⟩ := except_bind_eq_ok.mp done
  obtain rfl := Except.ok.inj done
  rw [Ethereum.dispatch, Ethereum.sendToCosmos] at dispatched
  obtain ⟨_, last, ran, rfl⟩ := Ethereum.nonReentrant_eq_ok dispatched
  obtain ⟨taken, transfer, ran⟩ := except_bind_eq_ok.mp ran
  obtain ⟨burned, burning, emitted⟩ := except_bind_eq_ok.mp ran
  have wNom : taken.gravity.wNomAddress = eth.gravity.wNomAddress := by
    rw [(Ethereum.Nested.external rfl transfer).gravity]
  refine ⟨taken, burned, transfer, ?_, ?_⟩
  · rw [← wNom]
    exact burning
  · rw [Ethereum.emit_eq_ok emitted]

/-- **A deposit event does not overstate what arrived** exactly where the token pays in full. At any depth of
the call stack, for any code of the tokens: an accepted deposit writes one deposit event, the last log of the
call, and all it lets through before are deployments. -/
theorem deposit_backed_iff {depth : Nat} {sender token : EthAddress} {destination : Bytes} {amount : Nat}
    {eth after : Ethereum τ}
    (wNom : token = eth.gravity.wNomAddress → BurnableLaws view evm others token)
    (done : Ethereum.callAt evm others (depth + 1) sender (.sendToCosmos token destination amount) eth =
      .ok after) :
    (∃ nested nonce, after.logs = eth.logs ++ nested ++
        [(.sendToCosmos token sender destination amount nonce, eth.blockNumber)] ∧
      ∀ log ∈ nested, log.1.isDeployment = true) ∧
    (eth.Backed view token amount after ↔
      eth.PaysInFull view evm others depth sender token amount) := by
  constructor
  · obtain ⟨nested, event, logs, deployments, reports⟩ := (Ethereum.callAt_eq_ok done).logs
    exact ⟨nested, event.eventNonce, reports ▸ logs, fun log member => (deployments log member).1⟩
  · obtain ⟨taken, burned, transfer, burning, contracts⟩ := sendToCosmos_eq_ok done
    have full : eth.PaysInFull view evm others depth sender token amount ↔
        view.balance token eth.contracts + amount ≤ view.balance token taken.contracts :=
      ⟨fun pays => pays taken transfer,
        fun arrived other same => Except.ok.inj (transfer.symm.trans same) ▸ arrived⟩
    unfold Ethereum.Backed
    rw [full, contracts]
    split_ifs at burning with own
    · have laws := wNom own
      have minted := laws.transfer depth sender amount eth taken transfer
      obtain ⟨balance, supply⟩ := laws.burn depth amount taken burned burning
      constructor
      · rintro (locked | ⟨_, _, kept⟩)
        · omega
        · omega
      · intro arrived
        exact Or.inr ⟨own, by omega, by omega⟩
    · obtain rfl := Except.ok.inj burning
      exact or_iff_left fun other => own other.1

end Deposits

/-! ### A token with a fee -/

/-- A token that keeps a fee on every transfer, and tries a deposit of its own first. The state is the
bridge's balance and the supply. -/
def feeToken (fee : Nat → Nat) : Contracts (Nat × Nat) where
  safeTransfer _ _ amount eth := .returns [] (eth.contracts.1 - amount, eth.contracts.2)
  safeTransferFrom token _ amount eth :=
    .calls eth.contracts 8 (.sendToCosmos token (List.replicate 32 0) 1) fun _ =>
      .returns [] (eth.contracts.1 + (amount - fee amount), eth.contracts.2)
  burn amount eth :=
    if amount ≤ eth.contracts.1 ∧ amount ≤ eth.contracts.2 then
      .returns [] (eth.contracts.1 - amount, eth.contracts.2 - amount)
    else .reverts
  functionCall _ _ eth := .returns [] eth.contracts
  newCosmosERC20 _ contracts := (6, contracts)

/-- The balance and the supply of such a token. -/
def feeTokenView : TokenView (Nat × Nat) := ⟨fun _ contracts => contracts.1, fun _ contracts => contracts.2⟩

theorem feeToken_burnable (evm : Evm) (fee : Nat → Nat) (token : EthAddress) :
    BurnableLaws feeTokenView evm (feeToken fee) token where
  transfer depth sender amount eth taken pulled := by
    unfold Ethereum.pull Ethereum.external feeToken at pulled
    simp only [Callee.run] at pulled
    split at pulled
    all_goals
      obtain rfl := Except.ok.inj pulled
      exact Nat.le_refl _
  burn depth amount eth after burned := by
    unfold Ethereum.external feeToken at burned
    simp only at burned
    split_ifs at burned with enough
    · obtain rfl := Except.ok.inj burned
      exact ⟨Nat.sub_add_cancel enough.1, Nat.sub_add_cancel enough.2⟩
    · cases burned

/-- A bridge whose wNOM is the contract seven; ten thousand tokens are with others. -/
def depositDeployment : Except GravityRevert (Ethereum (Nat × Nat)) :=
  deployGravity exampleEvm (List.replicate 32 0) 2863311530 (reentrantSet 0 0 0).validators
    (reentrantSet 0 0 0).powers 7 (0, 10000) 100

/-- A deposit of a hundred. -/
def exampleDepositCall (token : EthAddress) : GravityCall := .sendToCosmos token (List.replicate 32 1) 100

/-- A deposit of wNOM without a fee is backed, whatever the token tries: the hundred are burned. -/
theorem deposit_backed_wNom : ∃ start after, depositDeployment = .ok start ∧
    start.call exampleEvm (feeToken fun _ => 0) 9 (exampleDepositCall 7) = .ok after ∧
    after.contracts = (0, 9900) ∧ start.Backed feeTokenView 7 100 after := by
  have evaluated : (depositDeployment.toOption.map fun start => (start.contracts,
      (start.pull exampleEvm (feeToken fun _ => 0) 1023 9 7 100).toOption.map Ethereum.contracts,
      (start.call exampleEvm (feeToken fun _ => 0) 9 (exampleDepositCall 7)).toOption.map
        Ethereum.contracts)) = some ((0, 10000), some (100, 10000), some (0, 9900)) := by
    decide +kernel
  obtain ⟨start, deployed, balances⟩ := Option.map_eq_some_iff.mp evaluated
  obtain ⟨empty, balances⟩ := Prod.mk.inj balances
  obtain ⟨pulled, called⟩ := Prod.mk.inj balances
  obtain ⟨taken, transfer, hundred⟩ := Option.map_eq_some_iff.mp pulled
  obtain ⟨after, done, burned⟩ := Option.map_eq_some_iff.mp called
  have done := except_eq_ok_of_toOption done
  refine ⟨start, after, except_eq_ok_of_toOption deployed, done, burned,
    (deposit_backed_iff (fun _ => feeToken_burnable _ _ 7) done).2.mpr fun other same => ?_⟩
  obtain rfl := Except.ok.inj ((except_eq_ok_of_toOption transfer).symm.trans same)
  show start.contracts.1 + 100 ≤ taken.contracts.1
  rw [empty, hundred]

/-- **A deposit of a token with a fee**: the event says a hundred, and ninety have arrived. -/
theorem deposit_overstated : ∃ start after, depositDeployment = .ok start ∧
    start.call exampleEvm (feeToken fun amount => amount / 10) 9 (exampleDepositCall 5) = .ok after ∧
    (.sendToCosmos 5 9 (List.replicate 32 1) 100 2, 100) ∈ after.logs ∧
    ¬ start.Backed feeTokenView 5 100 after := by
  have evaluated : (depositDeployment.toOption.bind fun start =>
      (start.call exampleEvm (feeToken fun amount => amount / 10) 9 (exampleDepositCall 5)).toOption.map
        fun after => ((start.gravity.wNomAddress, start.contracts.1, after.contracts.1),
          decide ((.sendToCosmos 5 9 (List.replicate 32 1) 100 2, 100) ∈ after.logs))) =
        some ((7, 0, 90), true) := by
    decide +kernel
  obtain ⟨start, deployed, called⟩ := Option.bind_eq_some_iff.mp evaluated
  obtain ⟨after, done, balances⟩ := Option.map_eq_some_iff.mp called
  obtain ⟨balances, logged⟩ := Prod.mk.inj balances
  obtain ⟨wNom, balances⟩ := Prod.mk.inj balances
  obtain ⟨empty, ninety⟩ := Prod.mk.inj balances
  refine ⟨start, after, except_eq_ok_of_toOption deployed, except_eq_ok_of_toOption done,
    of_decide_eq_true logged, ?_⟩
  rintro (locked | ⟨own, _⟩)
  · have locked : start.contracts.1 + 100 ≤ after.contracts.1 := locked
    omega
  · rw [wNom] at own
    exact absurd own (by decide)

end NabBridge
