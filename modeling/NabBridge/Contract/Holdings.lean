/-
**What the bridge holds of a token.**

The bridge keeps no books: what it holds of a token is in the state of the token, which only foreign code
changes. `HoldingLaws` is what a plain ERC20 promises for code that runs while a guarded function waits for
it: a transfer moves the amount, and nothing else moves the bridge's holding down.

`HoldingLaws.callAt` is what follows for a call of any of the five functions: the holding goes up by what the
call's own event reports as deposited, and down by no more than what the call was approved to pay.
-/

import NabBridge.Contract.Calls

namespace NabBridge

/-! ### What calls and events say -/

/-- What a list of payments has of a token. -/
def paymentsOf (token : EthAddress) (payments : List (Nat × EthAddress)) : Nat :=
  ((payments.filter fun payment => payment.2 = token).map Prod.fst).sum

/-- What a batch pays out of a token: the amounts, and the fees. -/
def BatchArgs.paysOf (token : EthAddress) (args : BatchArgs) : Nat :=
  if args.tokenContract = token then args.amounts.sum + args.fees.sum else 0

/-- The reward a validator set has of a token. -/
def ValsetArgs.rewardOf (token : EthAddress) (valset : ValsetArgs) : Nat :=
  if valset.rewardToken = token then valset.rewardAmount else 0

/-- What a logic call pays out of a token. -/
def LogicCallArgs.paysOf (token : EthAddress) (args : LogicCallArgs) : Nat :=
  paymentsOf token (args.transferAmounts.zip args.transferTokenContracts) +
    paymentsOf token (args.feeAmounts.zip args.feeTokenContracts)

/-- What a call is approved to pay out of a token. -/
def GravityCall.paysOf (token : EthAddress) : GravityCall → Nat
  | updateValset newValset _ _ => newValset.rewardOf token
  | submitBatch _ _ args => args.paysOf token
  | submitLogicCall _ _ args => args.paysOf token
  | sendToCosmos _ _ _ => 0
  | deployERC20 _ => 0

/-- The reward a call pays of a token. -/
def GravityCall.rewardOf (token : EthAddress) : GravityCall → Nat
  | updateValset newValset _ _ => newValset.rewardOf token
  | _ => 0

/-- What an event reports as deposited of a token. -/
def GravityEvent.depositOf (token : EthAddress) : GravityEvent → Nat
  | sendToCosmos tokenContract _ _ amount _ => if tokenContract = token then amount else 0
  | _ => 0

/-- What an event reports as paid of a token to whoever submitted a validator set. -/
def GravityEvent.rewardOf (token : EthAddress) : GravityEvent → Nat
  | valsetUpdated _ _ rewardAmount rewardToken _ _ => if rewardToken = token then rewardAmount else 0
  | _ => 0

/-- The deposits of a token in a list of logs. -/
def depositsOf (token : EthAddress) (logs : List (GravityEvent × Nat)) : Nat :=
  (logs.map fun log => log.1.depositOf token).sum

/-- The rewards of a token in a list of logs. -/
def rewardsOf (token : EthAddress) (logs : List (GravityEvent × Nat)) : Nat :=
  (logs.map fun log => log.1.rewardOf token).sum

theorem paymentsOf_cons (token : EthAddress) (payment : Nat × EthAddress)
    (payments : List (Nat × EthAddress)) :
    paymentsOf token (payment :: payments) =
      (if payment.2 = token then payment.1 else 0) + paymentsOf token payments := by
  unfold paymentsOf
  by_cases same : payment.2 = token <;> simp [same]

@[simp] theorem depositsOf_append (token : EthAddress) (first second : List (GravityEvent × Nat)) :
    depositsOf token (first ++ second) = depositsOf token first + depositsOf token second := by
  simp [depositsOf]

@[simp] theorem rewardsOf_append (token : EthAddress) (first second : List (GravityEvent × Nat)) :
    rewardsOf token (first ++ second) = rewardsOf token first + rewardsOf token second := by
  simp [rewardsOf]

/-- Deployments report neither. -/
theorem depositsOf_deployments (token : EthAddress) {logs : List (GravityEvent × Nat)}
    (deployments : ∀ log ∈ logs, log.1.isDeployment = true) :
    depositsOf token logs = 0 ∧ rewardsOf token logs = 0 := by
  have nothing : ∀ log ∈ logs, log.1.depositOf token = 0 ∧ log.1.rewardOf token = 0 := by
    intro log member
    have deployment := deployments log member
    cases event : log.1 with
    | erc20Deployed => exact ⟨rfl, rfl⟩
    | _ => rw [event] at deployment; cases deployment
  have deposits : logs.map (fun log => log.1.depositOf token) = logs.map fun _ => 0 :=
    List.map_congr_left fun log member => (nothing log member).1
  have rewards : logs.map (fun log => log.1.rewardOf token) = logs.map fun _ => 0 :=
    List.map_congr_left fun log member => (nothing log member).2
  exact ⟨by simp [depositsOf, deposits], by simp [rewardsOf, rewards]⟩

/-! ### Plain tokens -/

section Holdings

variable {τ : Type} (evm : Evm) (others : Contracts τ)

/-- **A plain token.** `held` is what the bridge has of it, read off the state of the other contracts: its
balance, or its balance less the supply. While a guarded function waits, a transfer of the token moves the
amount; other tokens, the burner of wNOM, logic contracts and new tokens take nothing from the holding. -/
structure HoldingLaws (held : τ → Int) (token : EthAddress) : Prop where
  pays : ∀ depth recipient amount (eth after : Ethereum τ), eth.gravity.entered = true →
    eth.external (Ethereum.callAt evm others depth) (others.safeTransfer token recipient amount) =
      .ok after → held eth.contracts ≤ held after.contracts + amount
  receives : ∀ depth sender amount (eth after : Ethereum τ), eth.gravity.entered = true →
    eth.external (Ethereum.callAt evm others depth) (others.safeTransferFrom token sender amount) =
      .ok after → held eth.contracts + amount ≤ held after.contracts
  otherPays : ∀ depth other recipient amount (eth after : Ethereum τ), eth.gravity.entered = true →
    other ≠ token →
    eth.external (Ethereum.callAt evm others depth) (others.safeTransfer other recipient amount) =
      .ok after → held eth.contracts ≤ held after.contracts
  otherReceives : ∀ depth other sender amount (eth after : Ethereum τ), eth.gravity.entered = true →
    other ≠ token →
    eth.external (Ethereum.callAt evm others depth) (others.safeTransferFrom other sender amount) =
      .ok after → held eth.contracts ≤ held after.contracts
  burns : ∀ depth amount (eth after : Ethereum τ), eth.gravity.entered = true →
    eth.external (Ethereum.callAt evm others depth) (others.burn amount) = .ok after →
      held eth.contracts ≤ held after.contracts
  runs : ∀ depth address payload (eth : Ethereum τ) (result : Bytes × Ethereum τ),
    eth.gravity.entered = true →
    (others.functionCall address payload eth).run (Ethereum.callAt evm others depth) eth = .ok result →
      held eth.contracts ≤ held result.2.contracts
  deploys : ∀ args contracts, held contracts ≤ held (others.newCosmosERC20 args contracts).2

variable {evm others} {held : τ → Int} {token : EthAddress} {depth : Nat}

/-- A transfer of any token by the bridge. -/
theorem HoldingLaws.transfer (laws : HoldingLaws evm others held token) {other recipient : EthAddress}
    {amount : Nat} {eth after : Ethereum τ} (entered : eth.gravity.entered = true)
    (sent : eth.external (Ethereum.callAt evm others depth)
      (others.safeTransfer other recipient amount) = .ok after) :
    held eth.contracts ≤ held after.contracts + (if other = token then amount else 0 : Nat) := by
  by_cases same : other = token
  · subst same
    rw [if_pos rfl]
    exact laws.pays depth recipient amount eth after entered sent
  · rw [if_neg same]
    have kept := laws.otherPays depth other recipient amount eth after entered same sent
    omega

/-- The transfers of a batch, and the sum of its fees. -/
theorem HoldingLaws.payBatch (laws : HoldingLaws evm others held token) {other : EthAddress}
    {amounts : List Nat} {destinations : List EthAddress} {fees : List Nat} {totalFee : Nat}
    {eth : Ethereum τ} {result : Nat × Ethereum τ} (entered : eth.gravity.entered = true)
    (lengths : amounts.length = fees.length)
    (paid : eth.payBatch others (Ethereum.callAt evm others depth) other amounts destinations fees
      totalFee = .ok result) :
    result.1 = totalFee + fees.sum ∧
      held eth.contracts ≤
        held result.2.contracts + (if other = token then amounts.sum else 0 : Nat) := by
  induction amounts generalizing destinations fees totalFee eth with
  | nil =>
      obtain rfl : fees = [] := List.length_eq_zero_iff.mp lengths.symm
      rw [Ethereum.payBatch] at paid
      obtain rfl := Except.ok.inj paid
      simp
  | cons amount amounts ih =>
      cases destinations with
      | nil => simp [Ethereum.payBatch] at paid
      | cons destination destinations =>
          cases fees with
          | nil => cases lengths
          | cons fee fees =>
              rw [Ethereum.payBatch] at paid
              obtain ⟨middle, sent, paid⟩ := except_bind_eq_ok.mp paid
              obtain ⟨_, _, paid⟩ := except_bind_eq_ok.mp paid
              have guarded := (Ethereum.Nested.external entered sent).entered.trans entered
              have first := laws.transfer entered sent
              obtain ⟨total, rest⟩ := ih guarded (Nat.succ.inj lengths) paid
              refine ⟨by rw [total, List.sum_cons]; omega, ?_⟩
              rw [List.sum_cons]
              split_ifs at first rest ⊢ <;> omega

theorem HoldingLaws.payTokens (laws : HoldingLaws evm others held token) {recipient : EthAddress}
    {amounts : List Nat} {tokens : List EthAddress} {eth after : Ethereum τ}
    (entered : eth.gravity.entered = true)
    (paid : eth.payTokens others (Ethereum.callAt evm others depth) recipient amounts tokens =
      .ok after) :
    held eth.contracts ≤ held after.contracts + (paymentsOf token (amounts.zip tokens) : Nat) := by
  induction amounts generalizing tokens eth with
  | nil =>
      rw [Ethereum.payTokens.eq_2 _ _ _ _ _ _ (by simp)] at paid
      obtain rfl := Except.ok.inj paid
      simp [paymentsOf]
  | cons amount amounts ih =>
      cases tokens with
      | nil =>
          rw [Ethereum.payTokens.eq_2 _ _ _ _ _ _ (by simp)] at paid
          obtain rfl := Except.ok.inj paid
          simp [paymentsOf]
      | cons other tokens =>
          rw [Ethereum.payTokens] at paid
          obtain ⟨middle, sent, paid⟩ := except_bind_eq_ok.mp paid
          have guarded := (Ethereum.Nested.external entered sent).entered.trans entered
          have first := laws.transfer entered sent
          have rest := ih guarded paid
          rw [List.zip_cons_cons, paymentsOf_cons]
          dsimp only
          push_cast at first rest ⊢
          omega

theorem HoldingLaws.payReward (laws : HoldingLaws evm others held token) {sender : EthAddress}
    {newValset : ValsetArgs} {eth after : Ethereum τ} (entered : eth.gravity.entered = true)
    (paid : eth.payReward others (Ethereum.callAt evm others depth) sender newValset = .ok after) :
    held eth.contracts ≤ held after.contracts + newValset.rewardOf token := by
  unfold Ethereum.payReward at paid
  split_ifs at paid
  · exact laws.transfer entered paid
  · obtain rfl := Except.ok.inj paid
    omega

/-- A deposit of any token. -/
theorem HoldingLaws.take (laws : HoldingLaws evm others held token) {other sender : EthAddress}
    {amount : Nat} {eth taken after : Ethereum τ} (entered : eth.gravity.entered = true)
    (transfer : eth.external (Ethereum.callAt evm others depth)
      (others.safeTransferFrom other sender amount) = .ok taken)
    (burned : taken.burnWNom others (Ethereum.callAt evm others depth) other amount = .ok after) :
    held eth.contracts + (if other = token then amount else 0 : Nat) ≤ held after.contracts := by
  have guarded := (Ethereum.Nested.external entered transfer).entered.trans entered
  have kept : held taken.contracts ≤ held after.contracts := by
    unfold Ethereum.burnWNom at burned
    split_ifs at burned
    · exact laws.burns depth amount taken after guarded burned
    · obtain rfl := Except.ok.inj burned
      exact le_rfl
  by_cases same : other = token
  · subst same
    rw [if_pos rfl]
    exact (laws.receives depth sender amount eth taken entered transfer).trans kept
  · rw [if_neg same]
    have arrived := laws.otherReceives depth other sender amount eth taken entered same transfer
    omega

/-! ### The five functions -/

theorem HoldingLaws.updateValset (laws : HoldingLaws evm others held token) {sender : EthAddress}
    {newValset currentValset : ValsetArgs} {signatures : Signatures} {eth after : Ethereum τ}
    (done : eth.updateValset evm others (Ethereum.callAt evm others depth) sender newValset currentValset
      signatures = .ok after) :
    held eth.contracts ≤ held after.contracts + newValset.rewardOf token := by
  obtain ⟨_, last, ran, rfl⟩ := Ethereum.nonReentrant_eq_ok done
  obtain ⟨_, _, ran⟩ := except_bind_eq_ok.mp ran
  obtain ⟨_, _, ran⟩ := except_bind_eq_ok.mp ran
  obtain ⟨_, _, ran⟩ := except_bind_eq_ok.mp ran
  obtain ⟨_, _, ran⟩ := except_bind_eq_ok.mp ran
  obtain ⟨_, _, ran⟩ := except_bind_eq_ok.mp ran
  obtain ⟨middle, reward, emitted⟩ := except_bind_eq_ok.mp ran
  have paid := laws.payReward rfl reward
  rw [Ethereum.emit_eq_ok emitted]
  exact paid

theorem HoldingLaws.submitBatch (laws : HoldingLaws evm others held token) {sender : EthAddress}
    {currentValset : ValsetArgs} {signatures : Signatures} {args : BatchArgs} {eth after : Ethereum τ}
    (done : eth.submitBatch evm others (Ethereum.callAt evm others depth) sender currentValset signatures
      args = .ok after) :
    held eth.contracts ≤ held after.contracts + args.paysOf token := by
  obtain ⟨_, last, ran, rfl⟩ := Ethereum.nonReentrant_eq_ok done
  obtain ⟨_, _, ran⟩ := except_bind_eq_ok.mp ran
  obtain ⟨_, _, ran⟩ := except_bind_eq_ok.mp ran
  obtain ⟨_, _, ran⟩ := except_bind_eq_ok.mp ran
  obtain ⟨_, _, ran⟩ := except_bind_eq_ok.mp ran
  obtain ⟨_, formed, ran⟩ := except_bind_eq_ok.mp ran
  obtain ⟨_, _, ran⟩ := except_bind_eq_ok.mp ran
  obtain ⟨paid, payments, ran⟩ := except_bind_eq_ok.mp ran
  obtain ⟨middle, fees, emitted⟩ := except_bind_eq_ok.mp ran
  obtain ⟨total, amounts⟩ := laws.payBatch rfl (require_eq_ok formed).2 payments
  have fee := laws.transfer (Ethereum.Nested.payBatch rfl payments).entered fees
  rw [total, Nat.zero_add] at fee
  rw [Ethereum.emit_eq_ok emitted, BatchArgs.paysOf]
  dsimp only at amounts fee ⊢
  split_ifs at amounts fee ⊢ <;> push_cast at * <;> omega

theorem HoldingLaws.submitLogicCall (laws : HoldingLaws evm others held token) {sender : EthAddress}
    {currentValset : ValsetArgs} {signatures : Signatures} {args : LogicCallArgs}
    {eth after : Ethereum τ}
    (done : eth.submitLogicCall evm others (Ethereum.callAt evm others depth) sender currentValset
      signatures args = .ok after) :
    held eth.contracts ≤ held after.contracts + args.paysOf token := by
  obtain ⟨_, last, ran, rfl⟩ := Ethereum.nonReentrant_eq_ok done
  obtain ⟨_, _, ran⟩ := except_bind_eq_ok.mp ran
  obtain ⟨_, _, ran⟩ := except_bind_eq_ok.mp ran
  obtain ⟨_, _, ran⟩ := except_bind_eq_ok.mp ran
  obtain ⟨_, _, ran⟩ := except_bind_eq_ok.mp ran
  obtain ⟨_, _, ran⟩ := except_bind_eq_ok.mp ran
  obtain ⟨_, _, ran⟩ := except_bind_eq_ok.mp ran
  obtain ⟨_, _, ran⟩ := except_bind_eq_ok.mp ran
  obtain ⟨sent, transfers, ran⟩ := except_bind_eq_ok.mp ran
  obtain ⟨result, foreign, ran⟩ := except_bind_eq_ok.mp ran
  obtain ⟨middle, fees, emitted⟩ := except_bind_eq_ok.mp ran
  have guarded : sent.gravity.entered = true := (Ethereum.Nested.payTokens rfl transfers).entered
  have transferred := laws.payTokens rfl transfers
  have called := laws.runs _ _ _ _ _ guarded foreign
  have paid := laws.payTokens ((Ethereum.Nested.run guarded foreign).entered.trans guarded) fees
  rw [Ethereum.emit_eq_ok emitted, LogicCallArgs.paysOf]
  dsimp only at transferred called paid ⊢
  push_cast
  omega

theorem HoldingLaws.sendToCosmos (laws : HoldingLaws evm others held token)
    {sender tokenContract : EthAddress} {destination : Bytes} {amount : Nat} {eth after : Ethereum τ}
    (done : eth.sendToCosmos others (Ethereum.callAt evm others depth) sender tokenContract destination
      amount = .ok after) :
    held eth.contracts + (if tokenContract = token then amount else 0 : Nat) ≤ held after.contracts := by
  obtain ⟨_, last, ran, rfl⟩ := Ethereum.nonReentrant_eq_ok done
  obtain ⟨taken, transfer, ran⟩ := except_bind_eq_ok.mp ran
  obtain ⟨middle, burned, emitted⟩ := except_bind_eq_ok.mp ran
  have arrived := laws.take rfl transfer burned
  rw [Ethereum.emit_eq_ok emitted]
  exact arrived

theorem HoldingLaws.deployERC20 (laws : HoldingLaws evm others held token) {args : DeployERC20Args}
    {eth after : Ethereum τ} (done : eth.deployERC20 others args = .ok after) :
    held eth.contracts ≤ held after.contracts := by
  rw [Ethereum.emit_eq_ok done]
  exact laws.deploys args eth.contracts

/-- **What a call does to the holding**: what its logs report as deposited comes in, and no more goes out
than it was approved to pay. -/
theorem HoldingLaws.callAt (laws : HoldingLaws evm others held token) {sender : EthAddress}
    {call : GravityCall} {eth after : Ethereum τ}
    (done : Ethereum.callAt evm others depth sender call eth = .ok after) :
    ∃ new, after.logs = eth.logs ++ new ∧ rewardsOf token new = call.rewardOf token ∧
      held eth.contracts + depositsOf token new ≤ held after.contracts + call.paysOf token := by
  obtain ⟨nested, event, logs, deployments, reports⟩ := (Ethereum.callAt_eq_ok done).logs
  obtain ⟨noDeposits, noRewards⟩ := depositsOf_deployments token fun log member =>
    (deployments log member).1
  have deposits : depositsOf token (nested ++ [(event, eth.blockNumber)]) = event.depositOf token := by
    rw [depositsOf_append, noDeposits, Nat.zero_add]
    simp [depositsOf]
  have rewards : rewardsOf token (nested ++ [(event, eth.blockNumber)]) = event.rewardOf token := by
    rw [rewardsOf_append, noRewards, Nat.zero_add]
    simp [rewardsOf]
  refine ⟨nested ++ [(event, eth.blockNumber)], by rw [logs, List.append_assoc], ?_⟩
  rw [deposits, rewards]
  cases depth with
  | zero => cases done
  | succ depth =>
  rw [Ethereum.callAt] at done
  obtain ⟨_, _, done⟩ := except_bind_eq_ok.mp done
  obtain ⟨final, dispatched, done⟩ := except_bind_eq_ok.mp done
  obtain rfl := Except.ok.inj done
  cases call with
  | updateValset newValset currentValset signatures =>
      rw [reports]
      exact ⟨rfl, by simpa [GravityEvent.depositOf, GravityCall.paysOf] using laws.updateValset dispatched⟩
  | submitBatch currentValset signatures args =>
      rw [reports]
      exact ⟨rfl, by simpa [GravityEvent.depositOf, GravityCall.paysOf] using laws.submitBatch dispatched⟩
  | submitLogicCall currentValset signatures args =>
      obtain ⟨returnData, reports⟩ := reports
      rw [reports]
      exact ⟨rfl,
        by simpa [GravityEvent.depositOf, GravityCall.paysOf] using laws.submitLogicCall dispatched⟩
  | sendToCosmos tokenContract destination amount =>
      rw [reports]
      exact ⟨rfl, by simpa [GravityEvent.depositOf, GravityCall.paysOf] using laws.sendToCosmos dispatched⟩
  | deployERC20 args =>
      obtain ⟨erc20, reports⟩ := reports
      rw [reports]
      exact ⟨rfl, by simpa [GravityEvent.depositOf, GravityCall.paysOf] using laws.deployERC20 dispatched⟩

end Holdings

end NabBridge
