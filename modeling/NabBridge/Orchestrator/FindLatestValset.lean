/-
**The search for the installed validator set.**

`submitBatch` and its siblings want the current validator set spelled out, and the contract stores only a
hash of it. The relayer looks for the last `ValsetUpdatedEvent`, from the newest block back, 5000 blocks at
a time; neighbouring ranges share a block. What it finds it compares with what the Cosmos chain has under
the same nonce, which mostly gives warnings.
-/

import NabBridge.Keeper.Valset
import NabBridge.Orchestrator.Events

namespace NabBridge.Orchestrator

/-- The panics of the search. -/
inductive FindPanic where
  /-- `Could not find the last validator set for contract {}, probably not a valid Gravity contract!` -/
  | notFound
  | event (reason : EventPanic)
  | conversion (reason : Panic)
  /-- `assert_eq!(cosmos_valset.nonce, ethereum_valset.nonce)` -/
  | nonces (cosmos ethereum : Nat)
  deriving DecidableEq, Repr

/-- `BLOCKS_TO_SEARCH` -/
def blocksToSearch : Nat := 5000

/-- `get_valset`: the answer of `ValsetRequest`, converted. -/
def getValset (crates : Crates) (valsets : Store StoreKey NabBridge.Valset) (nonce : Nat) :
    Result (Option Valset) :=
  match valsets.get (getValsetKey nonce) with
  | none => .ok none
  | some valset => do
      let converted ← Valset.ofProto crates valset
      pure (some converted)

/-- `check_if_valsets_differ`: what is not a panic is a warning. -/
def checkIfValsetsDiffer (cosmosValset : Option Valset) (ethereumValset : Valset) :
    Outcome GravityError FindPanic Unit :=
  match cosmosValset with
  | none => .ok ()
  | some cosmosValset =>
      if cosmosValset ≠ ethereumValset ∧ cosmosValset.nonce ≠ ethereumValset.nonce then
        .panic (.nonces cosmosValset.nonce ethereumValset.nonce)
      else .ok ()

/-- What is done with an event that was found and parsed. -/
def foundValset (crates : Crates) (valsets : Store StoreKey NabBridge.Valset)
    (event : ValsetUpdatedEvent) : Outcome GravityError FindPanic Valset :=
  let latestEthValset : Valset :=
    ⟨event.valsetNonce, event.members, event.rewardAmount, event.rewardToken⟩
  match getValset crates valsets latestEthValset.nonce with
  | .error reason => .error reason
  | .panic reason => .panic (.conversion reason)
  | .ok cosmosChainValset => do
      checkIfValsetsDiffer cosmosChainValset latestEthValset
      pure latestEthValset

/-- The loop of `find_latest_valset`. `checkForEvents` gives the logs of a range of blocks, the oldest
first. -/
def findValsetFrom (crates : Crates) (valsets : Store StoreKey NabBridge.Valset)
    (checkForEvents : Nat → Nat → List Log) (currentBlock : Nat) :
    Outcome GravityError FindPanic Valset :=
  if currentBlock > 0 then
    let endSearch := if currentBlock < blocksToSearch then 0 else currentBlock - blocksToSearch
    match (checkForEvents endSearch currentBlock).reverse with
    | [] => findValsetFrom crates valsets checkForEvents endSearch
    | event :: _ =>
        match ValsetUpdatedEvent.fromLog event with
        | .ok event => foundValset crates valsets event
        -- an event that cannot be parsed is reported, and the search goes on before its range
        | .error _ => findValsetFrom crates valsets checkForEvents endSearch
        | .panic reason => .panic (.event reason)
  else .panic .notFound
termination_by currentBlock
decreasing_by all_goals unfold blocksToSearch; split_ifs <;> omega

/-- `find_latest_valset` -/
def findLatestValset (crates : Crates) (valsets : Store StoreKey NabBridge.Valset)
    (checkForEvents : Nat → Nat → List Log) (latestBlock : Nat) :
    Outcome GravityError FindPanic Valset :=
  findValsetFrom crates valsets checkForEvents latestBlock

end NabBridge.Orchestrator
