/-
**The end blocker.**

At the end of a block the module counts votes, cancels the batches that have timed out, makes a new
validator set when one is due, and prunes old validator sets and attestations, in this order.

Slashing and the clean-up of logic calls, which the source runs before and between these, change
nothing of the state here. A panic halts the chain; the block is not committed.
-/

import NabBridge.Keeper.AttestationHandler

namespace NabBridge

/-- The module's part of the chain. -/
structure Chain (β : Type) where
  oracle : Oracle
  app : ModuleState β
  valsets : ValsetStore
  deriving DecidableEq

/-- What the end blocker reads from the rest of the chain. -/
structure EndBlockEnv where
  staking : StakingPowers
  blockHeight : Nat
  keys : DelegateKeys
  /-- `GetBondedValidatorsByPower` -/
  bondedValidatorsByPower : List ValAddress
  /-- The parameter `ValsetReward`. -/
  valsetReward : Coin
  /-- The parameter `SignedValsetsWindow`. -/
  signedValsetsWindow : Nat
  /-- A validator started unbonding in this block. -/
  unbonding : Bool
  /-- `PowerDiff` of the current and the latest set is above 0.05. -/
  powerDiffers : Bool

/-- The panics of the end blocker. -/
inductive EndBlockPanic where
  | tally (reason : OraclePanic HandlePanic)
  | cleanup (reason : PoolPanic)
  | valsets (reason : ValsetRequestPanic)
  deriving DecidableEq, Repr

/-- What `GetCurrentValset` is made from in this block. -/
def EndBlockEnv.valsetSources (env : EndBlockEnv) (latestValsetNonce : Nat) : ValsetSources where
  bondedValidatorsByPower := env.bondedValidatorsByPower
  lastValidatorPower := env.staking.lastValidatorPower
  valsetReward := env.valsetReward
  latestValsetNonce := latestValsetNonce
  blockHeight := env.blockHeight

section EndBlocker

variable {β : Type} (sdk : Sdk) (bank : BankKeeper β) (geth : Geth) (params : Params)

/-- `createValsets`: the new set with its checkpoint, if one is made. -/
def createValsets (env : EndBlockEnv) (index : DenomIndex) (store : ValsetStore) :
    Outcome Empty ValsetRequestPanic (Option (Valset × Bytes) × ValsetStore) :=
  let sources := env.valsetSources store.latestValsetNonce
  let make := do
    let (made, store) ← setValsetRequest sdk geth params.gravityId env.keys index sources store
    pure (some made, store)
  match store.valsets.get (getValsetKey store.latestValsetNonce) with
  | none => make
  | some _ =>
      if env.unbonding then make
      else
        match getCurrentValset sdk env.keys index sources with
        | .error reason => reason.elim
        | .panic reason => .panic (.valset reason)
        | .ok _ => if env.powerDiffers then make else .ok (none, store)

/-- `pruneValsets` -/
def pruneValsets (env : EndBlockEnv) (lastObservedValset : Option Valset) (store : ValsetStore) :
    ValsetStore :=
  match lastObservedValset with
  | none => store
  | some lastObserved =>
      if env.blockHeight < env.signedValsetsWindow then store
      else
        let earliestToPrune := env.blockHeight - env.signedValsetsWindow
        store.valsets.values.foldl
          (fun current set =>
            if set.nonce < lastObserved.nonce ∧ set.height < earliestToPrune then
              { current with valsets := current.valsets.delete (getValsetKey set.nonce) }
            else current)
          store

/-- What an end blocker reports: the events it applied, and the validator set it made. -/
structure EndBlockReport where
  observations : List (Observation HandleError)
  valset : Option Valset
  deriving DecidableEq

/-- The checkpoint of a new validator set is put among the past ones. -/
def Outgoing.recordValset (outgoing : Outgoing) : Option (Valset × Bytes) → Outgoing
  | none => outgoing
  | some (_, checkpoint) => outgoing.setPastEthSignatureCheckpoint checkpoint

/-- `EndBlocker` -/
def endBlocker (env : EndBlockEnv) (chain : Chain β) :
    Outcome Empty EndBlockPanic (Chain β × EndBlockReport) :=
  match attestationTally sdk env.staking (handle sdk bank params) env.blockHeight chain.oracle
      chain.app with
  | .error reason => reason.elim
  | .panic reason => .panic (.tally reason)
  | .ok ctx =>
  match ctx.app.outgoing.cleanupTimedOutBatches
      ctx.oracle.lastObservedEthereumBlockHeight.ethereumBlockHeight with
  | .error reason => reason.elim
  | .panic reason => .panic (.cleanup reason)
  | .ok outgoing =>
  match createValsets sdk geth params env ctx.app.index chain.valsets with
  | .error reason => reason.elim
  | .panic reason => .panic (.valsets reason)
  | .ok (made, store) =>
      .ok ({ oracle := pruneAttestations sdk ctx.oracle
             app := { ctx.app with outgoing := outgoing.recordValset made }
             valsets := pruneValsets env ctx.app.lastObservedValset store },
        { observations := ctx.observations, valset := made.map Prod.fst })

variable {sdk bank geth params}

/-- **The parts of a block that ends**: a tally, a clean-up, and perhaps a new validator set. -/
theorem endBlocker_eq_ok {env : EndBlockEnv} {chain after : Chain β} {report : EndBlockReport}
    (ended : endBlocker sdk bank geth params env chain = .ok (after, report)) :
    ∃ ctx outgoing made store,
      attestationTally sdk env.staking (handle sdk bank params) env.blockHeight chain.oracle
        chain.app = .ok ctx ∧
      ctx.app.outgoing.cleanupTimedOutBatches
        ctx.oracle.lastObservedEthereumBlockHeight.ethereumBlockHeight = .ok outgoing ∧
      createValsets sdk geth params env ctx.app.index chain.valsets = .ok (made, store) ∧
      after = { oracle := pruneAttestations sdk ctx.oracle
                app := { ctx.app with outgoing := outgoing.recordValset made }
                valsets := pruneValsets env ctx.app.lastObservedValset store } ∧
      report = { observations := ctx.observations, valset := made.map Prod.fst } := by
  unfold endBlocker at ended
  split at ended
  · rename_i reason _
    exact reason.elim
  · cases ended
  · rename_i ctx counted
    split at ended
    · rename_i reason _
      exact reason.elim
    · cases ended
    · rename_i outgoing cleaned
      split at ended
      · rename_i reason _
        exact reason.elim
      · cases ended
      · rename_i made store created
        obtain ⟨rfl, rfl⟩ := Prod.mk.inj (Outcome.ok.inj ended)
        exact ⟨ctx, outgoing, made, store, counted, cleaned, created, rfl, rfl⟩

theorem endBlocker_eq_panic_tally {env : EndBlockEnv} {chain : Chain β}
    {reason : OraclePanic HandlePanic}
    (panics : endBlocker sdk bank geth params env chain = .panic (.tally reason)) :
    attestationTally sdk env.staking (handle sdk bank params) env.blockHeight chain.oracle
      chain.app = .panic reason := by
  unfold endBlocker at panics
  split at panics
  · rename_i reason' _
    exact reason'.elim
  · rename_i counted
    rw [counted]
    cases panics
    rfl
  · split at panics
    · rename_i reason' _
      exact reason'.elim
    · cases panics
    · split at panics
      · rename_i reason' _
        exact reason'.elim
      · cases panics
      · cases panics

end EndBlocker

end NabBridge
