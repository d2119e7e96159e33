/-
**The main loop of the oracle**, beside the module and the contract.

The loop keeps the block up to which it has reported everything. An iteration searches the logs from there
to a recent block, asks the module for the nonce of the last event the validator reported, sends a
transaction with the claims of what is new, and asks again. The transaction may be executed at any time, or
never, whatever the loop was told about it. That the answer has changed is taken for a sign that the
transaction went through, and the cursor moves on.

In between, everything else happens in any order: transactions and blocks on Ethereum, votes, tallies and
restarts in the module, failing requests, crashes.
-/

import NabBridge.Orchestrator.OracleResync
import NabBridge.Proof.OracleRun
import NabBridge.System.Oracle

namespace NabBridge

open Orchestrator

/-- `get_block_delay`: how far the oracle stays behind the newest block. -/
def getBlockDelay : Nat → Nat
  -- proof of work
  | 1 | 3 | 6 | 7 => 6
  -- a single signer
  | 2018 | 15 | 31337 => 0
  -- proof of authority
  | 4 | 5 => 10
  | _ => 6

/-- Where the loop stands. -/
inductive OraclePhase where
  /-- `get_last_checked_block` has not asked the module yet. -/
  | resync
  /-- `get_last_checked_block` searches for the event with the nonce the module told. -/
  | searching (lastEventNonce : Nat)
  /-- The start of an iteration. -/
  | waiting (lastCheckedBlock : Nat)
  /-- `check_for_events` has its logs. -/
  | fetched (lastCheckedBlock latestBlock : Nat) (logs : RoundLogs)
  /-- `check_for_events` has its claims, none of which the validator had reported when it asked. -/
  | claimed (lastCheckedBlock latestBlock lastEventNonce : Nat) (claims : List ProtoClaim)
  /-- `send_ethereum_claims` has returned. -/
  | sent (lastCheckedBlock latestBlock lastEventNonce : Nat) (claims : List ProtoClaim)
  deriving DecidableEq

/-- The block an iteration goes back to when it fails. -/
def OraclePhase.lastCheckedBlock? : OraclePhase → Option Nat
  | resync => none
  | searching _ => none
  | waiting lastCheckedBlock => some lastCheckedBlock
  | fetched lastCheckedBlock _ _ => some lastCheckedBlock
  | claimed lastCheckedBlock _ _ _ => some lastCheckedBlock
  | sent lastCheckedBlock _ _ _ => some lastCheckedBlock

/-- The loop, the module, the contract, and the transactions that were sent but not executed yet. -/
structure OracleLoop (σ τ : Type) where
  module : Oracle × σ
  ethereum : Ethereum τ
  inFlight : List (List ProtoClaim)
  phase : OraclePhase

/-- What the loop itself can do next. -/
inductive LoopAction where
  /-- The program is started again. -/
  | crash
  /-- `get_last_event_nonce_with_retry` -/
  | resync
  /-- The search of `get_last_checked_block`, from the newest block on. -/
  | search (latestBlock : Nat)
  /-- The searches of `check_for_events`, with the newest block. -/
  | fetch (netVersion latestBlock : Nat)
  /-- The first `get_last_event_nonce_for_validator`. -/
  | ask
  /-- `send_ethereum_claims`; the transaction may not get through. -/
  | send (delivered : Bool)
  /-- The second `get_last_event_nonce_for_validator`. -/
  | askAgain
  /-- A request fails, and the iteration with it. -/
  | fail
  deriving DecidableEq

/-- What can happen next. -/
inductive LoopInput (σ ε π τ : Type) where
  | ethereum (input : EthereumInput τ)
  | module (input : OracleInput σ ε π)
  /-- A transaction in flight is executed, in a block of the module's chain. -/
  | execute (position blockHeight : Nat)
  /-- A transaction in flight is lost. -/
  | lose (position : Nat)
  | action (action : LoopAction)

section Loop

variable {σ ε π τ : Type} (evm : Evm) (others : Contracts τ) (crates : OracleCrates)
  (sdk : Sdk) (unmarshalInt : Bytes → Option (Option Int)) (ourAddress : Bytes)
  (orchestratorValidator : AccAddress → Option ValAddress) (validator : ValAddress)

/-- `LastEventNonceByAddr`, for the validator behind the orchestrator. -/
def OracleLoop.lastEventNonce (state : OracleLoop σ τ) : Nat :=
  state.module.1.getLastEventNonceByValidator validator

/-- The five searches of a range of blocks. -/
def OracleLoop.searches (state : OracleLoop σ τ) (startingBlock latestBlock : Nat) : RoundLogs :=
  roundLogs evm (logsBetween state.ethereum.logs startingBlock latestBlock)

/-- What the loop does: where it stands next, and the transaction it sends, if any. -/
def oracleLoopAction (state : OracleLoop σ τ) :
    LoopAction → Option (OraclePhase × Option (List ProtoClaim))
  | .crash => some (.resync, none)
  | .resync =>
      match state.phase with
      | .resync => some (.searching (state.lastEventNonce validator), none)
      | _ => none
  | .search latestBlock =>
      match state.phase with
      | .searching lastEventNonce =>
          match getLastCheckedBlock crates (state.searches evm) latestBlock lastEventNonce with
          | .ok block => some (.waiting block, none)
          | _ => some (.resync, none)
      | _ => none
  | .fetch netVersion latestBlock =>
      match state.phase with
      | .waiting lastCheckedBlock =>
          -- a block that is mined gets no more logs
          if latestBlock < state.ethereum.blockNumber then
            if latestBlock < getBlockDelay netVersion then some (.resync, none)
            else
              let latestBlock := latestBlock - getBlockDelay netVersion
              some (.fetched lastCheckedBlock latestBlock
                (state.searches evm lastCheckedBlock latestBlock), none)
          else none
      | _ => none
  | .ask =>
      match state.phase with
      | .fetched lastCheckedBlock latestBlock logs =>
          match checkForEvents crates ourAddress (state.lastEventNonce validator) logs with
          | .ok [] => some (.waiting latestBlock, none)
          | .ok claims =>
              some (.claimed lastCheckedBlock latestBlock (state.lastEventNonce validator) claims, none)
          | .error _ => some (.waiting lastCheckedBlock, none)
          | .panic _ => some (.resync, none)
      | _ => none
  | .send delivered =>
      match state.phase with
      | .claimed lastCheckedBlock latestBlock lastEventNonce claims =>
          some (.sent lastCheckedBlock latestBlock lastEventNonce claims,
            if delivered then some claims else none)
      | _ => none
  | .askAgain =>
      match state.phase with
      | .sent lastCheckedBlock latestBlock lastEventNonce _ =>
          if state.lastEventNonce validator = lastEventNonce then some (.waiting lastCheckedBlock, none)
          else some (.waiting latestBlock, none)
      | _ => none
  | .fail =>
      match state.phase.lastCheckedBlock? with
      | some lastCheckedBlock => some (.waiting lastCheckedBlock, none)
      | none => none

/-- One step. The outputs are the claims of the loop's transactions that the module accepted. -/
def oracleLoopStep (state : OracleLoop σ τ) :
    LoopInput σ ε π τ → Option (OracleLoop σ τ × List ProtoClaim)
  | .ethereum input => some ({ state with ethereum := state.ethereum.next evm others input }, [])
  | .module input =>
      match oracleStep sdk state.module input with
      | some (module, _) => some ({ state with module := module }, [])
      | none => none
  | .execute position blockHeight =>
      match state.inFlight[position]? with
      | some claims =>
          let inFlight := state.inFlight.eraseIdx position
          match acceptClaims unmarshalInt sdk orchestratorValidator blockHeight state.module.1 claims with
          | some oracle =>
              some ({ state with module := (oracle, state.module.2), inFlight := inFlight }, claims)
          -- one claim fails, and the transaction with it
          | none => some ({ state with inFlight := inFlight }, [])
      | none => none
  | .lose position => some ({ state with inFlight := state.inFlight.eraseIdx position }, [])
  | .action action =>
      match oracleLoopAction evm crates ourAddress validator state action with
      | some (phase, sent) =>
          some ({ state with phase := phase, inFlight := state.inFlight ++ sent.toList }, [])
      | none => none

end Loop

end NabBridge
