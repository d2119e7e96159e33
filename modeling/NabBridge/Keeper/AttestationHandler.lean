/-
**The attestation handler.**

`handle` applies an observed event to the module: a deposit unlocks or mints coins, an executed batch
is settled, a deployed ERC20 is entered into the index, and a validator set is recorded and its reward
minted. An error is logged by the caller and its changes are discarded; a panic halts the chain.
-/

import NabBridge.Keeper.Batch

namespace NabBridge

/-- The errors of the handler. -/
inductive HandleError where
  /-- `invalid receiver address` -/
  | invalidReceiver (text : Bytes)
  /-- `transfer vouchers` -/
  | transferVouchers (reason : BankError)
  /-- `mint vouchers coins: %s` -/
  | mintVouchers (coins : List Coin) (reason : BankError)
  /-- `ERC20 %s already exists for denom %s` -/
  | erc20Exists (erc20 denom : Bytes)
  /-- `denom not found %s` -/
  | denomNotFound (denom : Bytes)
  /-- `ERC20 name %s does not match denom display %s`; the text shows the description. -/
  | nameMismatch (name description : Bytes)
  /-- `ERC20 symbol %s does not match denom display %s` -/
  | symbolMismatch (symbol display : Bytes)
  /-- `ERC20 decimals %d does not match denom decimals %d` -/
  | decimalsMismatch (claimed decimals : Nat)
  deriving DecidableEq, Repr

/-- The panics of the handler. -/
inductive HandlePanic where
  | coin (reason : CoinPanic)
  | bank (reason : BankPanic)
  | pool (reason : PoolPanic)
  /-- `Can not use Ethereum originated token as reward!` -/
  | ethereumOriginatedReward
  /-- `Invalid event type for attestations %s` -/
  | invalidEventType
  deriving DecidableEq, Repr

/-- A coin whose construction may panic. -/
def handleCoin {α : Type} : Outcome Empty CoinPanic α → Outcome HandleError HandlePanic α
  | .ok value => .ok value
  | .error reason => reason.elim
  | .panic reason => .panic (.coin reason)

/-- A bank call whose error is wrapped. -/
def handleBank {α : Type} (wrap : BankError → HandleError) :
    Outcome BankError BankPanic α → Outcome HandleError HandlePanic α
  | .ok value => .ok value
  | .error reason => .error (wrap reason)
  | .panic reason => .panic (.bank reason)

/-- The receiver of a deposit. -/
def handleReceiver (sdk : Sdk) (text : Bytes) : Outcome HandleError HandlePanic AccAddress :=
  match sdk.accAddressFromBech32 text with
  | none => .error (.invalidReceiver text)
  | some account => .ok account

/-- The denom a deposit of an Ethereum-originated token is minted in. -/
def depositDenom (params : Params) (denom : Bytes) : Bytes :=
  let swapPair := params.erc20ToDenomPermanentSwap
  if swapPair.erc20 ≠ [] ∧ swapPair.denom ≠ [] ∧ denom = moduleName ++ swapPair.erc20 then
    swapPair.denom
  else denom

/-- The decimals of a denom: the exponent of its display unit, zero when there is none. -/
def Metadata.decimals (metadata : Metadata) : Nat :=
  ((metadata.denomUnits.find? fun unit => unit.1 = metadata.display).map Prod.snd).getD 0

section Handle

variable {β : Type} (sdk : Sdk) (bank : BankKeeper β) (params : Params)

/-- `MsgSendToCosmosClaim` -/
def handleSendToCosmos (claim : MsgSendToCosmosClaim) (state : ModuleState β) :
    Outcome HandleError HandlePanic (ModuleState β) :=
  match state.index.erc20ToDenomLookup claim.tokenContract with
  | (true, denom) => do
      let coin ← handleCoin (newCoin sdk denom claim.amount)
      let account ← handleReceiver sdk claim.cosmosReceiver
      let balances ← handleBank .transferVouchers
        (bank.sendCoinsFromModuleToAccount account [coin] state.bank)
      pure { state with bank := balances }
  | (false, denom) => do
      let coin ← handleCoin (newCoin sdk (depositDenom params denom) claim.amount)
      let balances ← handleBank (.mintVouchers [coin]) (bank.mintCoins [coin] state.bank)
      let account ← handleReceiver sdk claim.cosmosReceiver
      let balances ← handleBank .transferVouchers
        (bank.sendCoinsFromModuleToAccount account [coin] balances)
      pure { state with bank := balances }

/-- `MsgBatchSendToEthClaim` -/
def handleBatchSendToEth (claim : MsgBatchSendToEthClaim) (state : ModuleState β) :
    Outcome HandleError HandlePanic (ModuleState β) :=
  match state.outgoing.outgoingTxBatchExecuted claim.tokenContract claim.batchNonce with
  | .ok outgoing => .ok { state with outgoing := outgoing }
  | .error reason => reason.elim
  | .panic reason => .panic (.pool reason)

/-- `MsgERC20DeployedClaim` -/
def handleERC20Deployed (claim : MsgERC20DeployedClaim) (state : ModuleState β) :
    Outcome HandleError HandlePanic (ModuleState β) :=
  match state.index.getCosmosOriginatedERC20 claim.cosmosDenom with
  | some existing => .error (.erc20Exists existing claim.cosmosDenom)
  | none =>
      let metadata := bank.getDenomMetaData state.bank claim.cosmosDenom
      if metadata.base = [] then .error (.denomNotFound claim.cosmosDenom)
      else if claim.name ≠ metadata.display then
        .error (.nameMismatch claim.name metadata.description)
      else if claim.symbol ≠ metadata.display then
        .error (.symbolMismatch claim.symbol metadata.display)
      else if metadata.decimals ≠ claim.decimals % 2 ^ 32 then
        .error (.decimalsMismatch claim.decimals metadata.decimals)
      else
        .ok { state with
          index := state.index.setCosmosOriginatedDenomToERC20 claim.cosmosDenom claim.tokenContract }

/-- `MsgValsetUpdatedClaim`. The error of minting the reward is dropped. -/
def handleValsetUpdated (claim : MsgValsetUpdatedClaim) (state : ModuleState β) :
    Outcome HandleError HandlePanic (ModuleState β) :=
  let state := { state with
    lastObservedValset :=
      some ⟨claim.valsetNonce, claim.members, 0, claim.rewardAmount, claim.rewardToken⟩ }
  match claim.rewardAmount with
  | none => .panic (.coin .nilAmount)
  | some amount =>
      if amount > 0 ∧ claim.rewardToken ≠ zeroAddress then
        match state.index.erc20ToDenomLookup claim.rewardToken with
        | (true, denom) => do
            let coin ← handleCoin (newCoin sdk denom (some amount))
            match bank.mintCoins [coin] state.bank with
            | .ok balances => pure { state with bank := balances }
            | .error _ => pure state
            | .panic reason => .panic (.bank reason)
        | (false, _) => .panic .ethereumOriginatedReward
      else pure state

/-- `AttestationHandler.Handle`; the attestation itself is not read. -/
def handle (_att : Attestation) (claim : EthereumClaim) (state : ModuleState β) :
    Outcome HandleError HandlePanic (ModuleState β) :=
  match claim with
  | .sendToCosmos claim => handleSendToCosmos sdk bank params claim state
  | .batchSendToEth claim => handleBatchSendToEth claim state
  | .erc20Deployed claim => handleERC20Deployed bank claim state
  | .valsetUpdated claim => handleValsetUpdated sdk bank claim state
  | .logicCallExecuted _ => .panic .invalidEventType

end Handle

/-! ### What a handled claim leaves alone -/

/-- The records and the index after a claim: a batch claim settles its batch, a deployed ERC20 is
entered, and the other claims change neither. -/
def HandleEffect {β : Type} (claim : EthereumClaim) (before after : ModuleState β) : Prop :=
  match claim with
  | .batchSendToEth msg =>
      before.outgoing.outgoingTxBatchExecuted msg.tokenContract msg.batchNonce =
        .ok after.outgoing ∧ after.index = before.index
  | .erc20Deployed msg => after.outgoing = before.outgoing ∧
      after.index =
        before.index.setCosmosOriginatedDenomToERC20 msg.cosmosDenom msg.tokenContract
  | _ => after.outgoing = before.outgoing ∧ after.index = before.index

section Effect

variable {β : Type} {sdk : Sdk} {bank : BankKeeper β} {params : Params} {state after : ModuleState β}

theorem handleSendToCosmos_effect {claim : MsgSendToCosmosClaim}
    (done : handleSendToCosmos sdk bank params claim state = .ok after) :
    after = { state with bank := after.bank } := by
  unfold handleSendToCosmos at done
  split at done
  · obtain ⟨coin, _, done⟩ := Outcome.bind_eq_ok.mp done
    obtain ⟨account, _, done⟩ := Outcome.bind_eq_ok.mp done
    obtain ⟨balances, _, done⟩ := Outcome.bind_eq_ok.mp done
    obtain rfl := Outcome.ok.inj done
    rfl
  · obtain ⟨coin, _, done⟩ := Outcome.bind_eq_ok.mp done
    obtain ⟨minted, _, done⟩ := Outcome.bind_eq_ok.mp done
    obtain ⟨account, _, done⟩ := Outcome.bind_eq_ok.mp done
    obtain ⟨balances, _, done⟩ := Outcome.bind_eq_ok.mp done
    obtain rfl := Outcome.ok.inj done
    rfl

theorem handleERC20Deployed_effect {claim : MsgERC20DeployedClaim}
    (done : handleERC20Deployed bank claim state = .ok after) :
    state.index.getCosmosOriginatedERC20 claim.cosmosDenom = none ∧
    after = { state with
      index :=
        state.index.setCosmosOriginatedDenomToERC20 claim.cosmosDenom claim.tokenContract } := by
  unfold handleERC20Deployed at done
  split at done
  · cases done
  · rename_i absent
    simp only at done
    split_ifs at done
    exact ⟨absent, (Outcome.ok.inj done).symm⟩

theorem handleValsetUpdated_effect {claim : MsgValsetUpdatedClaim}
    (done : handleValsetUpdated sdk bank claim state = .ok after) :
    after = { state with
      bank := after.bank
      lastObservedValset := some ⟨claim.valsetNonce, claim.members, 0, claim.rewardAmount,
        claim.rewardToken⟩ } := by
  unfold handleValsetUpdated at done
  simp only at done
  split at done
  · cases done
  · split_ifs at done
    · split at done
      · obtain ⟨coin, _, done⟩ := Outcome.bind_eq_ok.mp done
        split at done
        · obtain rfl := Outcome.ok.inj done
          rfl
        · obtain rfl := Outcome.ok.inj done
          rfl
        · cases done
      · cases done
    · obtain rfl := Outcome.ok.inj done
      rfl

theorem handle_effect {att : Attestation} {claim : EthereumClaim}
    (done : handle sdk bank params att claim state = .ok after) : HandleEffect claim state after := by
  cases claim with
  | sendToCosmos msg =>
      rw [handleSendToCosmos_effect done]
      exact ⟨rfl, rfl⟩
  | batchSendToEth msg =>
      simp only [handle, handleBatchSendToEth] at done
      split at done
      · obtain rfl := Outcome.ok.inj done
        rename_i executed
        exact ⟨executed, rfl⟩
      · rename_i reason _
        exact reason.elim
      · cases done
  | erc20Deployed msg =>
      rw [(handleERC20Deployed_effect done).2]
      exact ⟨rfl, rfl⟩
  | logicCallExecuted msg => cases done
  | valsetUpdated msg =>
      rw [handleValsetUpdated_effect done]
      exact ⟨rfl, rfl⟩

/-- The panics that come from the pool and the batches. -/
def HandlePanic.IsPool : HandlePanic → Prop
  | .pool _ => True
  | _ => False

theorem handleCoin_meets {α : Type} (outcome : Outcome Empty CoinPanic α) :
    (handleCoin outcome).Meets (fun _ => True) fun reason => ¬ reason.IsPool := by
  cases outcome with
  | ok value => trivial
  | error reason => exact reason.elim
  | panic reason => exact id

theorem handleBank_meets {α : Type} (wrap : BankError → HandleError)
    (outcome : Outcome BankError BankPanic α) :
    (handleBank wrap outcome).Meets (fun _ => True) fun reason => ¬ reason.IsPool := by
  cases outcome with
  | ok value => trivial
  | error reason => trivial
  | panic reason => exact id

theorem handleReceiver_meets (text : Bytes) :
    (handleReceiver sdk text).Meets (fun _ => True) fun reason => ¬ reason.IsPool := by
  unfold handleReceiver
  split <;> trivial

/-- **Only a batch claim reaches the batches**: no other claim ends in one of their panics. -/
theorem handle_meets_of_not_batch {att : Attestation} {claim : EthereumClaim}
    (other : ∀ msg, claim ≠ .batchSendToEth msg) :
    (handle sdk bank params att claim state).Meets (fun _ => True) fun reason => ¬ reason.IsPool := by
  cases claim with
  | batchSendToEth msg => exact absurd rfl (other msg)
  | sendToCosmos msg =>
      show (handleSendToCosmos sdk bank params msg state).Meets _ _
      unfold handleSendToCosmos
      split
      · refine (handleCoin_meets _).bind fun coin _ => ?_
        refine (handleReceiver_meets _).bind fun account _ => ?_
        exact (handleBank_meets _ _).bind fun balances _ => trivial
      · refine (handleCoin_meets _).bind fun coin _ => ?_
        refine (handleBank_meets _ _).bind fun balances _ => ?_
        refine (handleReceiver_meets _).bind fun account _ => ?_
        exact (handleBank_meets _ _).bind fun balances _ => trivial
  | erc20Deployed msg =>
      show (handleERC20Deployed bank msg state).Meets _ _
      unfold handleERC20Deployed
      split
      · trivial
      · simp only
        split_ifs <;> trivial
  | logicCallExecuted msg => exact id
  | valsetUpdated msg =>
      show (handleValsetUpdated sdk bank msg state).Meets _ _
      unfold handleValsetUpdated
      simp only
      split
      · exact id
      · split_ifs
        · split
          · refine (handleCoin_meets _).bind fun coin _ => ?_
            split
            · trivial
            · trivial
            · exact id
          · exact id
        · trivial

end Effect

end NabBridge
