/-
**The relayer finds the installed validator set.**

* `Installed`: the contract's checkpoint is that of the last set it has logged, in every history;
* `findValsetFrom_eq`: the search, range by range, ends at the last logged set;
* `find_latest_valset_checkpoint`: **what the relayer finds hashes to the contract's checkpoint.**

The Cosmos chain's answer is compared with the find; `Answers` is what the comparison rests on.
-/

import NabBridge.Orchestrator.FindLatestValset
import NabBridge.Orchestrator.Relayer
import NabBridge.Proof.ContractRun
import NabBridge.Proof.Encoders
import NabBridge.Proof.LogParsing

namespace NabBridge

open Orchestrator

/-! ### The last logged set -/

/-- The validator set an event reports. -/
def GravityEvent.installed? : GravityEvent → Option ValsetArgs
  | valsetUpdated newValsetNonce _ rewardAmount rewardToken validators powers =>
      some ⟨validators, powers, newValsetNonce, rewardAmount, rewardToken⟩
  | _ => none

/-- The contract's checkpoint is that of the last set among its logs. -/
def Ethereum.Installed {τ : Type} (evm : Evm) (eth : Ethereum τ) : Prop :=
  ∃ valset, (eth.logs.filterMap fun log => log.1.installed?).getLast? = some valset ∧
    eth.gravity.lastValsetCheckpoint = makeCheckpoint evm valset eth.gravity.gravityId

section Contract

variable {τ : Type} {evm : Evm}

theorem filterMap_installed_of_deployments {logs : List (GravityEvent × Nat)} {block : Nat}
    (deployments : ∀ log ∈ logs, log.1.isDeployment = true ∧ log.2 = block) :
    logs.filterMap (fun log => log.1.installed?) = [] := by
  refine List.filterMap_eq_nil_iff.mpr fun log member => ?_
  have deployment := (deployments log member).1
  cases event : log.1 with
  | erc20Deployed => rfl
  | _ => rw [event] at deployment; cases deployment

theorem Ethereum.Installed.accepts {sender : EthAddress} {call : GravityCall}
    {before after : Ethereum τ} (installed : before.Installed evm)
    (accepts : Ethereum.Accepts evm sender call before after) : after.Installed evm := by
  obtain ⟨valset, last, checkpoint⟩ := installed
  obtain ⟨nested, event, logs, deployments, reports⟩ := accepts.logs
  unfold Ethereum.Installed
  rw [logs, List.filterMap_append, List.filterMap_append,
    filterMap_installed_of_deployments deployments, List.append_nil, accepts.gravity]
  cases call with
  | updateValset newValset currentValset signatures =>
      rw [reports]
      exact ⟨newValset, by simp [GravityEvent.installed?], rfl⟩
  | submitBatch =>
      rw [reports]
      exact ⟨valset, by simpa [GravityEvent.installed?] using last, checkpoint⟩
  | submitLogicCall =>
      obtain ⟨_, reports⟩ := reports
      rw [reports]
      exact ⟨valset, by simpa [GravityEvent.installed?] using last, checkpoint⟩
  | sendToCosmos =>
      rw [reports]
      exact ⟨valset, by simpa [GravityEvent.installed?] using last, checkpoint⟩
  | deployERC20 =>
      obtain ⟨_, reports⟩ := reports
      rw [reports]
      exact ⟨valset, by simpa [GravityEvent.installed?] using last, checkpoint⟩

theorem installed_after {gravityId : Bytes} {powerThreshold : Nat} {validators : List EthAddress}
    {powers : List Nat} {wNomAddress : EthAddress} {contracts : τ} {blockNumber : Nat}
    {start : Ethereum τ}
    (deployed : deployGravity evm gravityId powerThreshold validators powers wNomAddress contracts
      blockNumber = .ok start) (others : Contracts τ) (inputs : List (EthereumInput τ)) :
    (start.after evm others inputs).Installed evm := by
  refine Ethereum.after_keeps (Ethereum.Installed evm) (fun _ _ kept => kept) (fun _ _ kept => kept)
    (fun _ _ _ _ kept accepts => kept.accepts accepts) ?_ inputs
  obtain ⟨_, _, _, rfl⟩ := deployGravity_eq_ok deployed
  exact ⟨⟨validators, powers, 0, 0, 0⟩, rfl, rfl⟩

end Contract

/-! ### The search -/

section Search

variable {evm : Evm} {crates : Crates} {valsets : Store StoreKey NabBridge.Valset}
  {logs : List (GravityEvent × Nat)} {log : GravityEvent × Nat}

/-- The logs of validator sets in a range of blocks. -/
def valsetLogs (evm : Evm) (logs : List (GravityEvent × Nat)) (startingBlock latestBlock : Nat) :
    List Log :=
  searchLogs evm (logsBetween logs startingBlock latestBlock)
    "ValsetUpdatedEvent(uint256,uint256,uint256,address,address[],uint256[])"

theorem valsetLogs_eq (startingBlock latestBlock : Nat) :
    valsetLogs evm logs startingBlock latestBlock =
      ((logs.filter fun log => (valsetOf? log).isSome).filter fun log =>
        startingBlock ≤ log.2 ∧ log.2 ≤ latestBlock).map fun log => eventLog evm log.1 log.2 := by
  rw [valsetLogs, searchLogs, logsBetween, List.filter_comm]
  refine congrArg (List.map _) (congrArg (List.filter _) (List.filter_congr fun log _ => ?_))
  obtain ⟨event, block⟩ := log
  cases event <;> simp [GravityEvent.signature, valsetOf?]

/-- The last logged set, as the last log of its kind. -/
theorem exists_last_valsetLog {valset : ValsetArgs}
    (last : (logs.filterMap fun log => log.1.installed?).getLast? = some valset) : ∃ log,
    (logs.filter fun log => (valsetOf? log).isSome).getLast? = some log ∧
      log.1.installed? = some valset := by
  induction logs using List.reverseRecOn with
  | nil => cases last
  | append_singleton rest log ih =>
      rw [List.filterMap_append] at last
      rw [List.filter_append]
      obtain ⟨event, block⟩ := log
      cases event with
      | valsetUpdated newValsetNonce eventNonce rewardAmount rewardToken validators powers =>
          refine ⟨(.valsetUpdated newValsetNonce eventNonce rewardAmount rewardToken validators powers,
            block), by simp [valsetOf?], ?_⟩
          simpa [GravityEvent.installed?] using last
      | _ =>
          obtain ⟨log, found, installed⟩ := ih (by simpa [GravityEvent.installed?] using last)
          exact ⟨log, by simpa [valsetOf?] using found, installed⟩

/-- **The search ends at the last logged set**: in the first range that reaches it, it is the last. -/
theorem findValsetFrom_eq {event : ValsetUpdatedEvent} {currentBlock : Nat}
    (sorted : logs.Pairwise fun first second => first.2 ≤ second.2)
    (last : (logs.filter fun log => (valsetOf? log).isSome).getLast? = some log)
    (parsed : ValsetUpdatedEvent.fromLog (eventLog evm log.1 log.2) = .ok event)
    (reached : log.2 ≤ currentBlock) (positive : 0 < currentBlock) :
    findValsetFrom crates valsets (valsetLogs evm logs) currentBlock =
      foundValset crates valsets event := by
  obtain ⟨earlier, all⟩ := List.getLast?_eq_some_iff.mp last
  induction currentBlock using Nat.strong_induction_on with
  | _ currentBlock ih =>
      rw [findValsetFrom, if_pos positive]
      generalize endIs : (if currentBlock < blocksToSearch then 0 else currentBlock - blocksToSearch) =
        endSearch
      have below : endSearch < currentBlock := by
        rw [← endIs]
        unfold blocksToSearch
        split_ifs <;> omega
      simp only [valsetLogs_eq, all]
      by_cases inside : endSearch ≤ log.2
      · rw [List.filter_append, List.filter_cons_of_pos (by simpa using ⟨inside, reached⟩),
          List.filter_nil, List.map_append, List.reverse_append]
        simp only [List.map_cons, List.map_nil, List.reverse_singleton, List.singleton_append, parsed]
      · -- the sets before the last one are in its block or before it
        have old : ∀ other ∈ earlier, other.2 ≤ log.2 := by
          have order := sorted.filter (fun log => (valsetOf? log).isSome)
          rw [all, List.pairwise_append] at order
          exact fun other member => order.2.2 other member log (List.mem_singleton_self log)
        have nothing : (earlier ++ [log]).filter
            (fun log => endSearch ≤ log.2 ∧ log.2 ≤ currentBlock) = [] := by
          refine List.filter_eq_nil_iff.mpr fun other member => ?_
          have := (List.mem_append.mp member).elim (old other) fun own => by
            rw [List.mem_singleton.mp own]
          simp
          omega
        rw [nothing]
        exact ih endSearch below (by omega) (by omega)

end Search

/-! ### The find -/

/-- What the relayer relies on in the Cosmos chain: a validator set is stored under its own nonce, and can
be converted. -/
structure AnswersValsets (crates : Crates) (valsets : Store StoreKey NabBridge.Valset) : Prop where
  keyed : ∀ nonce valset, valsets.get (getValsetKey nonce) = some valset → valset.nonce = nonce
  converts : ∀ key valset, valsets.get key = some valset →
    ∃ converted, Valset.ofProto crates valset = .ok converted

section Find

variable {crates : Crates} {valsets : Store StoreKey NabBridge.Valset}

theorem nonce_of_ofProto {valset : NabBridge.Valset} {converted : Orchestrator.Valset}
    (done : Valset.ofProto crates valset = .ok converted) : converted.nonce = valset.nonce := by
  obtain ⟨_, _, done⟩ := Outcome.bind_eq_ok.mp done
  obtain ⟨_, _, done⟩ := Outcome.bind_eq_ok.mp done
  rw [← Outcome.ok.inj done]

/-- The comparison with the Cosmos chain does not change the find. -/
theorem foundValset_eq_ok (answers : AnswersValsets crates valsets) (event : ValsetUpdatedEvent) :
    foundValset crates valsets event =
      .ok ⟨event.valsetNonce, event.members, event.rewardAmount, event.rewardToken⟩ := by
  rw [foundValset, getValset]
  cases stored : valsets.get (getValsetKey event.valsetNonce) with
  | none => rfl
  | some valset =>
      obtain ⟨converted, done⟩ := answers.converts _ valset stored
      have nonce : converted.nonce = event.valsetNonce :=
        (nonce_of_ofProto done).trans (answers.keyed _ valset stored)
      simp only [done, Outcome.ok_bind, Outcome.pure_eq, checkIfValsetsDiffer]
      rw [if_neg fun differ => differ.2 nonce]
      rfl

/-- **The translation back is lossless.** -/
theorem encodeValsetStruct_valsetOf? {log : GravityEvent × Nat} {event : ValsetUpdatedEvent}
    {valset : ValsetArgs} (inRange : log.1.InRange) (kind : valsetOf? log = some event)
    (installed : log.1.installed? = some valset) :
    encodeValsetStruct ⟨event.valsetNonce, event.members, event.rewardAmount, event.rewardToken⟩ =
      valset := by
  obtain ⟨reported, block⟩ := log
  cases reported with
  | valsetUpdated newValsetNonce eventNonce rewardAmount rewardToken validators powers =>
      cases kind
      cases installed
      have lengths : validators.length = powers.length := inRange.2.2.2.1
      have members : (valsetMembers validators powers).map (fun member => member.ethAddress.getD 0) =
          validators := by
        exact List.ext_getElem (by simp [valsetMembers, lengths]) fun i _ _ => by simp [valsetMembers]
      have memberPowers : (valsetMembers validators powers).map (fun member => member.power) =
          powers := by
        exact List.ext_getElem (by simp [valsetMembers, lengths]) fun i _ _ => by simp [valsetMembers]
      have token : (if rewardToken = 0 then none else some rewardToken).getD 0 = rewardToken := by
        split_ifs with zero
        · exact zero.symm
        · rfl
      rw [encodeValsetStruct, Orchestrator.Valset.filterEmptyAddresses]
      simp only [members, memberPowers, token]
  | _ => cases kind

/-- **The relayer finds the installed validator set.** For every history of the contract whose sets have
nonces, powers and sizes of 64 bits: the search comes to an end, without its last panic, and what it
returns, encoded for a call of the contract, has the checkpoint that the contract stores. -/
theorem find_latest_valset_checkpoint {evm : Evm} {τ : Type} (answers : AnswersValsets crates valsets)
    {gravityId : Bytes} {powerThreshold : Nat} {validators : List EthAddress} {powers : List Nat}
    {wNomAddress : EthAddress} {contracts : τ} {blockNumber : Nat} {start : Ethereum τ}
    (deployed : deployGravity evm gravityId powerThreshold validators powers wNomAddress contracts
      blockNumber = .ok start) (others : Contracts τ) (inputs : List (EthereumInput τ))
    (afterGenesis : 0 < (start.after evm others inputs).blockNumber)
    (small : ∀ log ∈ (start.after evm others inputs).logs, (valsetOf? log).isSome → Parses log) :
    let eth := start.after evm others inputs
    ∃ valset, findLatestValset crates valsets (valsetLogs evm eth.logs) eth.blockNumber = .ok valset ∧
      makeCheckpoint evm (encodeValsetStruct valset) eth.gravity.gravityId =
        eth.gravity.lastValsetCheckpoint := by
  intro eth
  have well : eth.WellLogged := wellLogged_after deployed others inputs
  obtain ⟨args, logged, checkpoint⟩ := installed_after deployed others inputs
  obtain ⟨log, last, installed⟩ := exists_last_valsetLog logged
  have member : log ∈ eth.logs :=
    (List.mem_filter.mp (List.mem_of_getLast? last)).1
  have inRange : log.1.InRange := logs_inRange_after deployed others inputs log member
  obtain ⟨event, kind⟩ := Option.isSome_iff_exists.mp
    (by simpa using (List.mem_filter.mp (List.mem_of_getLast? last)).2 : (valsetOf? log).isSome)
  have parses := small log member (by rw [kind]; rfl)
  have parsed := (valset_fromLog_iff evm inRange kind).mpr ⟨Eq.refl event, parses⟩
  refine ⟨_, (findValsetFrom_eq well.blocks last parsed (well.past log member) afterGenesis).trans
    (foundValset_eq_ok answers event), ?_⟩
  rw [encodeValsetStruct_valsetOf? inRange kind installed, checkpoint]

end Find

/-! ### A search -/

/-- What the Cosmos chain has under nonce 1. -/
def exampleStoredValsets : Store StoreKey NabBridge.Valset :=
  Store.empty.set (getValsetKey 1) (exampleValset (hexOfAddress 9))

theorem exampleStoredValsets_answers : AnswersValsets exampleCrates exampleStoredValsets := by
  have stored : ∀ key valset, exampleStoredValsets.get key = some valset →
      key = getValsetKey 1 ∧ valset = exampleValset (hexOfAddress 9) := by
    intro key valset found
    rcases Store.of_get_set found with same | absent
    · exact same
    · cases absent
  have converted : (Valset.ofProto exampleCrates (exampleValset (hexOfAddress 9))).value?.isSome := by
    decide +kernel
  refine ⟨fun nonce valset found => ?_, fun key valset found => ?_⟩
  · obtain ⟨same, rfl⟩ := stored _ _ found
    exact (uint64Bytes_injective (List.cons.inj same).2).symm
  · obtain ⟨_, rfl⟩ := stored _ _ found
    obtain ⟨value, done⟩ := Option.isSome_iff_exists.mp converted
    exact ⟨value, Outcome.value?_eq_some.mp done⟩

theorem find_latest_valset_reentrant : ∃ start, reentrantDeployment = .ok start ∧
    let eth := start.after exampleEvm reentrantContracts reentrantInputs
    ∃ valset, findLatestValset exampleCrates exampleStoredValsets (valsetLogs exampleEvm eth.logs)
        eth.blockNumber = .ok valset ∧
      makeCheckpoint exampleEvm (encodeValsetStruct valset) eth.gravity.gravityId =
        eth.gravity.lastValsetCheckpoint := by
  have small : (reentrantDeployment.toOption.map fun start =>
      let eth := start.after exampleEvm reentrantContracts reentrantInputs
      decide (0 < eth.blockNumber ∧ ∀ log ∈ eth.logs, (valsetOf? log).isSome → Parses log)) =
      some true := by
    decide +kernel
  obtain ⟨start, deployed, small⟩ := Option.map_eq_some_iff.mp small
  obtain ⟨afterGenesis, small⟩ := of_decide_eq_true small
  have deployed := except_eq_ok_of_toOption deployed
  exact ⟨start, deployed, find_latest_valset_checkpoint exampleStoredValsets_answers deployed
    reentrantContracts reentrantInputs afterGenesis small⟩

-- a nonce the chain has no set for
example : getValset exampleCrates exampleStoredValsets 2 = .ok none := by decide +kernel

end NabBridge
