/-
**Resyncing the oracle.**

An oracle that starts asks the Cosmos chain for the nonce of the last event it has reported, and searches
Ethereum for the block of this event, from the newest block back, 5000 blocks at a time; neighbouring ranges
share a block. The validator set with nonce zero is logged by the contract's constructor, so no event lies
before it. A search that fails is repeated in the source; here it succeeds.
-/

import NabBridge.Orchestrator.FindLatestValset

namespace NabBridge.Orchestrator

/-- The panics of the resync. -/
inductive ResyncPanic where
  /-- `Could not find the last event relayed by {}, Last Event nonce is {} but no event matching that could
  be found!` -/
  | lastEvent (lastEventNonce : Nat)
  /-- `You have reached the end of block history without finding the Gravity contract deploy event! ...` -/
  | endOfHistory
  /-- `unwrap` of the block number -/
  | blockNumber
  | event (reason : EventPanic)
  deriving DecidableEq, Repr

/-- A search that ends with a block, or goes on. -/
abbrev ResyncResult := Outcome Empty ResyncPanic (Option Nat)

section Range

variable (lastEventNonce : Nat)

/-- The loop over the events of one kind. An event that cannot be parsed is reported and skipped. -/
def findEvent {α : Type} (fromLog : Log → EventResult α) (eventNonce : α → Nat) : List Log → ResyncResult
  | [] => .ok none
  | event :: rest =>
      match fromLog event with
      | .ok parsed =>
          match event.blockNumber with
          | some block =>
              if eventNonce parsed = lastEventNonce then .ok (some block)
              else findEvent fromLog eventNonce rest
          | none => findEvent fromLog eventNonce rest
      | .error _ => findEvent fromLog eventNonce rest
      | .panic reason => .panic (.event reason)

/-- The loop over the validator sets, the newest first. -/
def findValsetEvent : List Log → ResyncResult
  | [] => .ok none
  | event :: rest =>
      match ValsetUpdatedEvent.fromLog event with
      | .ok valset =>
          -- the first event of the contract, which is also where to start without any report
          if valset.eventNonce = lastEventNonce ∧ event.blockNumber.isSome ∨
              valset.valsetNonce = 0 ∧ lastEventNonce = 1 then
            match event.blockNumber with
            | some block => .ok (some block)
            | none => .panic .blockNumber
          else if valset.valsetNonce = 0 ∧ lastEventNonce > 1 then .panic (.lastEvent lastEventNonce)
          else findValsetEvent rest
      | .error _ => findValsetEvent rest
      | .panic reason => .panic (.event reason)

/-- The next search, if this one goes on. -/
def ResyncResult.otherwise (first next : ResyncResult) : ResyncResult :=
  first >>= fun found =>
    match found with
    | some block => .ok (some block)
    | none => next

/-- One range of blocks. -/
def searchRange (crates : OracleCrates) (logs : RoundLogs) : ResyncResult :=
  (findEvent lastEventNonce TransactionBatchExecutedEvent.fromLog (·.eventNonce) logs.batches).otherwise <|
    (findEvent lastEventNonce (SendToCosmosEvent.fromLog crates) (·.eventNonce) logs.deposits).otherwise <|
    (findEvent lastEventNonce Erc20DeployedEvent.fromLog (·.eventNonce) logs.erc20Deployed).otherwise <|
    (findEvent lastEventNonce LogicCallExecutedEvent.fromLog (·.eventNonce)
      logs.logicCallExecuted).otherwise <|
    findValsetEvent lastEventNonce logs.valsets.reverse

end Range

/-- The loop of `get_last_checked_block`. `checkForEvents` is the five searches of a range of blocks. -/
def resyncFrom (crates : OracleCrates) (checkForEvents : Nat → Nat → RoundLogs) (lastEventNonce : Nat)
    (currentBlock : Nat) : Outcome Empty ResyncPanic Nat :=
  if currentBlock > 0 then
    let endSearch := if currentBlock < blocksToSearch then 0 else currentBlock - blocksToSearch
    match searchRange lastEventNonce crates (checkForEvents endSearch currentBlock) with
    | .ok (some block) => .ok block
    | .ok none => resyncFrom crates checkForEvents lastEventNonce endSearch
    | .error reason => .error reason
    | .panic reason => .panic reason
  else .panic .endOfHistory
termination_by currentBlock
decreasing_by all_goals unfold blocksToSearch; split_ifs <;> omega

/-- `get_last_checked_block`, with the newest block and the nonce that the Cosmos chain reports. -/
def getLastCheckedBlock (crates : OracleCrates) (checkForEvents : Nat → Nat → RoundLogs)
    (latestBlock lastEventNonce : Nat) : Outcome Empty ResyncPanic Nat :=
  -- zero: nothing has been reported yet, and the first event has nonce one
  resyncFrom crates checkForEvents (if lastEventNonce = 0 then 1 else lastEventNonce) latestBlock

end NabBridge.Orchestrator
