/-
**The resync finds its block.**

* `findEvent_searchLogs`, `findValsetEvent_skip`: what the loops do with the logs of one kind;
* `searchRange_eq`: a range of blocks that ends after the wanted event holds it or is left behind it;
* `last_checked_block_exact`: **the resync ends at the block of the wanted event.**
-/

import NabBridge.Orchestrator.OracleResync
import NabBridge.Proof.OracleRounds

namespace NabBridge

open Orchestrator

/-! ### The loops -/

section Loops

variable {evm : Evm} {crates : OracleCrates} {lastEventNonce : Nat} {logs : List (GravityEvent × Nat)}

/-- **A loop over the events of one kind** ends at the event with the wanted nonce. `view` is the event a log
is parsed to, where it is one of the kind. -/
theorem findEvent_searchLogs {α : Type} {parse : Log → EventResult α} {eventNonce : α → Nat}
    {view : GravityEvent × Nat → Option α} {signature : String}
    (kind : ∀ log, log.1.signature = signature ↔ (view log).isSome)
    (reads : ∀ log ∈ logs, ∀ event, view log = some event →
      parse (eventLog evm log.1 log.2) = .ok event ∧ eventNonce event = log.1.eventNonce) :
    findEvent lastEventNonce parse eventNonce (searchLogs evm logs signature) =
      .ok ((logs.find? fun log => (view log).isSome ∧ log.1.eventNonce = lastEventNonce).map Prod.snd) := by
  induction logs with
  | nil => rfl
  | cons log rest ih =>
      have later := ih fun other member => reads other (List.mem_cons_of_mem _ member)
      unfold searchLogs at later ⊢
      cases seen : view log with
      | none =>
          have other : ¬ log.1.signature = signature := by
            rw [kind, seen]
            simp
          rw [List.filter_cons_of_neg (by simpa using other), later,
            List.find?_cons_of_neg (by simp [seen])]
      | some event =>
          have same : log.1.signature = signature := (kind log).mpr (by rw [seen]; rfl)
          obtain ⟨parsed, nonce⟩ := reads log List.mem_cons_self event seen
          rw [List.filter_cons_of_pos (by simpa using same), List.map_cons, findEvent, parsed]
          by_cases wanted : log.1.eventNonce = lastEventNonce
          · rw [List.find?_cons_of_pos (by simp [seen, wanted])]
            exact if_pos (nonce.trans wanted)
          · rw [List.find?_cons_of_neg (by simp [wanted]), ← later]
            exact if_neg fun found => wanted (nonce.symm.trans found)

/-- **The loop over the validator sets** skips a set that is neither wanted nor the first. -/
theorem findValsetEvent_skip {rest : List (GravityEvent × Nat)}
    (skipped : ∀ log ∈ logs, ∀ event, valsetOf? log = some event →
      ValsetUpdatedEvent.fromLog (eventLog evm log.1 log.2) = .ok event ∧
        event.eventNonce ≠ lastEventNonce ∧ event.valsetNonce ≠ 0) :
    findValsetEvent lastEventNonce (searchLogs evm (logs ++ rest)
        "ValsetUpdatedEvent(uint256,uint256,uint256,address,address[],uint256[])") =
      findValsetEvent lastEventNonce (searchLogs evm rest
        "ValsetUpdatedEvent(uint256,uint256,uint256,address,address[],uint256[])") := by
  induction logs with
  | nil => rfl
  | cons log others ih =>
      have later := ih fun other member => skipped other (List.mem_cons_of_mem _ member)
      unfold searchLogs at later ⊢
      rw [List.cons_append]
      cases seen : valsetOf? log with
      | none =>
          have other := (valset_signature_iff log).not.mpr (by rw [seen]; decide)
          rw [List.filter_cons_of_neg (by simpa using other), later]
      | some event =>
          have same := (valset_signature_iff log).mpr (by rw [seen]; rfl)
          obtain ⟨parsed, unwanted, positive⟩ := skipped log List.mem_cons_self event seen
          rw [List.filter_cons_of_pos (by simpa using same), List.map_cons, findValsetEvent, parsed]
          simp only [unwanted, positive, false_and, or_self, if_false]
          exact later

theorem findValsetEvent_found {log : GravityEvent × Nat} {rest : List (GravityEvent × Nat)}
    {event : ValsetUpdatedEvent} (kind : valsetOf? log = some event)
    (parsed : ValsetUpdatedEvent.fromLog (eventLog evm log.1 log.2) = .ok event)
    (wanted : event.eventNonce = lastEventNonce) :
    findValsetEvent lastEventNonce (searchLogs evm (log :: rest)
      "ValsetUpdatedEvent(uint256,uint256,uint256,address,address[],uint256[])") = .ok (some log.2) := by
  have same := (valset_signature_iff log).mpr (by rw [kind]; rfl)
  rw [searchLogs, List.filter_cons_of_pos (by simpa using same), List.map_cons, findValsetEvent, parsed]
  exact if_pos (Or.inl ⟨wanted, rfl⟩)

theorem searchLogs_reverse (signature : String) :
    (searchLogs evm logs signature).reverse = searchLogs evm logs.reverse signature := by
  rw [searchLogs, searchLogs, List.filter_reverse, List.map_reverse]

end Loops

/-! ### Histories -/

/-- **A history of the contract** with `m` events: gapless event nonces, in the order of the blocks; the first
is the validator set of the constructor, whose nonce is zero, and later sets have positive nonces; every log
can be parsed, so none is of a logic call. -/
structure ResyncHistory (m : Nat) (history : List (GravityEvent × Nat)) : Prop where
  gapless : history.map (fun log => log.1.eventNonce) = List.range' 1 m
  blocks : history.Pairwise fun first second => first.2 ≤ second.2
  inRange : ∀ log ∈ history, log.1.InRange
  parses : ∀ log ∈ history, Parses log
  deployed : ∃ log ∈ history, ∃ event, valsetOf? log = some event ∧ log.1.eventNonce = 1 ∧
    event.valsetNonce = 0
  later : ∀ log ∈ history, ∀ event, valsetOf? log = some event → 1 < log.1.eventNonce →
    event.valsetNonce ≠ 0

namespace ResyncHistory

variable {m : Nat} {history : List (GravityEvent × Nat)}

theorem mem_nonces (valid : ResyncHistory m history) (nonce : Nat) :
    (∃ log ∈ history, log.1.eventNonce = nonce) ↔ 1 ≤ nonce ∧ nonce ≤ m := by
  have member : nonce ∈ history.map (fun log => log.1.eventNonce) ↔ nonce ∈ List.range' 1 m := by
    rw [valid.gapless]
  rw [List.mem_map, List.mem_range'_1] at member
  rw [member]
  omega

/-- An event is determined by its nonce. -/
theorem unique (valid : ResyncHistory m history) {first second : GravityEvent × Nat}
    (member : first ∈ history) (member' : second ∈ history)
    (same : first.1.eventNonce = second.1.eventNonce) : first = second := by
  have distinct : (history.map fun log => log.1.eventNonce).Nodup := by
    rw [valid.gapless]
    exact List.nodup_range'
  exact List.inj_on_of_nodup_map distinct member member' same

/-- An event of a later block has a higher nonce. -/
theorem nonce_lt (valid : ResyncHistory m history) {first second : GravityEvent × Nat}
    (member : first ∈ history) (member' : second ∈ history) (below : first.2 < second.2) :
    first.1.eventNonce < second.1.eventNonce := by
  have increasing : history.Pairwise fun log other =>
      log.2 < other.2 → log.1.eventNonce < other.1.eventNonce := by
    refine (increasing_of_gapless valid.gapless).imp ?_
    exact fun nonces _ => nonces
  refine increasing.forall_of_forall_of_flip (fun log _ under => absurd under (lt_irrefl _)) ?_ member
    member' below
  exact valid.blocks.imp fun blocks under => absurd blocks (not_le.mpr under)

end ResyncHistory

/-! ### A range of blocks -/

/-- The events a log can be parsed to have its nonce. -/
theorem eventNonce_of_view (crates : OracleCrates) (log : GravityEvent × Nat) :
    (∀ event, batchOf? log = some event → event.eventNonce = log.1.eventNonce) ∧
      (∀ event, depositOf? crates log = some event → event.eventNonce = log.1.eventNonce) ∧
      (∀ event, deploymentOf? log = some event → event.eventNonce = log.1.eventNonce) ∧
      ∀ event, logicCallOf? log = some event → event.eventNonce = log.1.eventNonce := by
  obtain ⟨event, block⟩ := log
  cases event <;> simp [batchOf?, depositOf?, deploymentOf?, logicCallOf?, GravityEvent.eventNonce]

theorem eventNonce_of_valsetOf? {log : GravityEvent × Nat} {event : ValsetUpdatedEvent}
    (seen : valsetOf? log = some event) : event.eventNonce = log.1.eventNonce := by
  obtain ⟨reported, block⟩ := log
  cases reported with
  | valsetUpdated => cases seen; rfl
  | _ => cases seen

section Range

variable {evm : Evm} {crates : OracleCrates} {m : Nat} {history : List (GravityEvent × Nat)}
  {wanted : GravityEvent × Nat} {startingBlock latestBlock : Nat}

theorem mem_logsBetween {log : GravityEvent × Nat} :
    log ∈ logsBetween history startingBlock latestBlock ↔
      log ∈ history ∧ startingBlock ≤ log.2 ∧ log.2 ≤ latestBlock := by
  simp [logsBetween]

/-- The wanted event among the events of a kind in a range that does not end before it. -/
theorem find?_wanted (valid : ResyncHistory m history) (member : wanted ∈ history)
    (reached : wanted.2 ≤ latestBlock) {α : Type} (view : GravityEvent × Nat → Option α) :
    (logsBetween history startingBlock latestBlock).find?
        (fun log => (view log).isSome ∧ log.1.eventNonce = wanted.1.eventNonce) =
      if startingBlock ≤ wanted.2 ∧ (view wanted).isSome then some wanted else none := by
  split_ifs with inside
  · cases found : (logsBetween history startingBlock latestBlock).find?
        (fun log => (view log).isSome ∧ log.1.eventNonce = wanted.1.eventNonce) with
    | none =>
        have unseen := List.find?_eq_none.mp found wanted
          (mem_logsBetween.mpr ⟨member, inside.1, reached⟩)
        exact absurd (decide_eq_true ⟨inside.2, rfl⟩) unseen
    | some log =>
        have same : (view log).isSome ∧ log.1.eventNonce = wanted.1.eventNonce := by
          simpa using List.find?_some found
        rw [valid.unique (mem_logsBetween.mp (List.mem_of_find?_eq_some found)).1 member same.2]
  · refine List.find?_eq_none.mpr fun log there same => inside ?_
    obtain ⟨inHistory, above, _⟩ := mem_logsBetween.mp there
    obtain ⟨seen, nonce⟩ := of_decide_eq_true same
    obtain rfl := valid.unique inHistory member nonce
    exact ⟨above, seen⟩

/-- **The events of a kind in a range** that does not end before the wanted event. -/
theorem findEvent_wanted (valid : ResyncHistory m history) (member : wanted ∈ history)
    (reached : wanted.2 ≤ latestBlock) {α : Type} {parse : Log → EventResult α} {eventNonce : α → Nat}
    {view : GravityEvent × Nat → Option α} {signature : String}
    (kind : ∀ log, log.1.signature = signature ↔ (view log).isSome)
    (reads : ∀ log ∈ history, ∀ event, view log = some event →
      parse (eventLog evm log.1 log.2) = .ok event ∧ eventNonce event = log.1.eventNonce) :
    findEvent wanted.1.eventNonce parse eventNonce
        (searchLogs evm (logsBetween history startingBlock latestBlock) signature) =
      .ok (if startingBlock ≤ wanted.2 ∧ (view wanted).isSome then some wanted.2 else none) := by
  rw [findEvent_searchLogs kind fun log there => reads log (mem_logsBetween.mp there).1,
    find?_wanted valid member reached]
  split_ifs
  · rfl
  · rfl

theorem valset_reads (evm : Evm) (valid : ResyncHistory m history) {log : GravityEvent × Nat}
    (member : log ∈ history) {event : ValsetUpdatedEvent} (seen : valsetOf? log = some event) :
    ValsetUpdatedEvent.fromLog (eventLog evm log.1 log.2) = .ok event ∧
      event.eventNonce = log.1.eventNonce :=
  ⟨(valset_fromLog_iff evm (valid.inRange log member) seen).mpr ⟨rfl, valid.parses log member⟩,
    eventNonce_of_valsetOf? seen⟩

/-- A validator set after the wanted event is skipped. -/
theorem valset_skipped (valid : ResyncHistory m history) {log : GravityEvent × Nat} (member : log ∈ history)
    (after : wanted.1.eventNonce < log.1.eventNonce) (positive : 1 ≤ wanted.1.eventNonce)
    {event : ValsetUpdatedEvent} (seen : valsetOf? log = some event) :
    ValsetUpdatedEvent.fromLog (eventLog evm log.1 log.2) = .ok event ∧
      event.eventNonce ≠ wanted.1.eventNonce ∧ event.valsetNonce ≠ 0 := by
  obtain ⟨parsed, nonce⟩ := valset_reads evm valid member seen
  exact ⟨parsed, nonce ▸ ne_of_gt after, valid.later log member event seen (positive.trans_lt after)⟩

/-- The validator sets of a range, the wanted one among them. -/
theorem valset_in_range (valid : ResyncHistory m history) (member : wanted ∈ history)
    (reached : wanted.2 ≤ latestBlock) (inside : startingBlock ≤ wanted.2) {event : ValsetUpdatedEvent}
    (kind : valsetOf? wanted = some event) :
    findValsetEvent wanted.1.eventNonce (searchLogs evm (logsBetween history startingBlock latestBlock)
        "ValsetUpdatedEvent(uint256,uint256,uint256,address,address[],uint256[])").reverse =
      .ok (some wanted.2) := by
  have positive := ((valid.mem_nonces wanted.1.eventNonce).mp ⟨wanted, member, rfl⟩).1
  have increasing := (increasing_of_gapless valid.gapless).filter
    (fun log => startingBlock ≤ log.2 ∧ log.2 ≤ latestBlock)
  obtain ⟨before, after, parts⟩ := List.append_of_mem
    (mem_logsBetween.mpr ⟨member, inside, reached⟩ : wanted ∈ logsBetween history startingBlock latestBlock)
  -- from the newest back, the sets after the wanted one come first
  rw [searchLogs_reverse, parts, List.reverse_append, List.reverse_cons, List.append_assoc,
    findValsetEvent_skip, List.singleton_append]
  · obtain ⟨parsed, nonce⟩ := valset_reads evm valid member kind
    exact findValsetEvent_found kind parsed nonce
  · intro log there other seen
    have later := List.mem_reverse.mp there
    have inRange : log ∈ logsBetween history startingBlock latestBlock := by
      rw [parts]
      exact List.mem_append_right _ (List.mem_cons_of_mem _ later)
    have inHistory : log ∈ history := (mem_logsBetween.mp inRange).1
    rw [logsBetween] at parts
    rw [parts] at increasing
    have above := (List.pairwise_cons.mp (List.pairwise_append.mp increasing).2.1).1 log later
    exact valset_skipped valid inHistory above positive seen

/-- The validator sets of a range that is behind the wanted event. -/
theorem valset_behind (valid : ResyncHistory m history) (member : wanted ∈ history)
    (behind : wanted.2 < startingBlock) :
    findValsetEvent wanted.1.eventNonce (searchLogs evm (logsBetween history startingBlock latestBlock)
        "ValsetUpdatedEvent(uint256,uint256,uint256,address,address[],uint256[])").reverse = .ok none := by
  have positive := ((valid.mem_nonces wanted.1.eventNonce).mp ⟨wanted, member, rfl⟩).1
  rw [searchLogs_reverse, ← List.append_nil (List.reverse _), findValsetEvent_skip]
  · rfl
  · intro log there event seen
    obtain ⟨inHistory, above, _⟩ := mem_logsBetween.mp (List.mem_reverse.mp there)
    have after := valid.nonce_lt member inHistory (behind.trans_le above)
    exact valset_skipped valid inHistory after positive seen

/-- **One range** that does not end before the wanted event. -/
theorem searchRange_eq (valid : ResyncHistory m history)
    (accounts : ∀ bytes : Bytes, bytes.length = 20 → (crates.cosmosFromBytes bytes).isSome)
    (member : wanted ∈ history) (reached : wanted.2 ≤ latestBlock) :
    searchRange wanted.1.eventNonce crates
        (roundLogs evm (logsBetween history startingBlock latestBlock)) =
      .ok (if startingBlock ≤ wanted.2 then some wanted.2 else none) := by
  have parses : ∀ log ∈ history, log.1.InRange ∧ Parses log :=
    fun log there => ⟨valid.inRange log there, valid.parses log there⟩
  unfold searchRange roundLogs
  rw [findEvent_wanted valid member reached batch_signature_iff fun log there event seen =>
      ⟨(batch_fromLog_iff evm (parses log there).1 seen).mpr ⟨rfl, (parses log there).2⟩,
        (eventNonce_of_view crates log).1 event seen⟩,
    findEvent_wanted valid member reached (deposit_signature_iff crates) fun log there event seen =>
      ⟨(deposit_fromLog_iff evm accounts (parses log there).1 seen).mpr ⟨rfl, (parses log there).2⟩,
        (eventNonce_of_view crates log).2.1 event seen⟩,
    findEvent_wanted valid member reached deployed_signature_iff fun log there event seen =>
      ⟨(deployed_fromLog_iff evm (parses log there).1 seen).mpr ⟨rfl, (parses log there).2⟩,
        (eventNonce_of_view crates log).2.2.1 event seen⟩,
    findEvent_wanted valid member reached logicCall_signature_iff fun log there event seen =>
      ⟨(logicCall_fromLog_iff evm seen).mpr ⟨rfl, (parses log there).2⟩,
        (eventNonce_of_view crates log).2.2.2 event seen⟩]
  by_cases inside : startingBlock ≤ wanted.2
  · rw [if_pos inside]
    obtain ⟨event, block⟩ := wanted
    cases event with
    | transactionBatchExecuted => simp [ResyncResult.otherwise, batchOf?, inside]
    | sendToCosmos => simp [ResyncResult.otherwise, batchOf?, depositOf?, inside]
    | erc20Deployed => simp [ResyncResult.otherwise, batchOf?, depositOf?, deploymentOf?, inside]
    | logicCall => exact absurd (valid.parses _ member) id
    | valsetUpdated =>
        simp only [ResyncResult.otherwise, batchOf?, depositOf?, deploymentOf?, logicCallOf?,
          Option.isSome_none, Bool.false_eq_true, and_false, if_false, Outcome.ok_bind]
        exact valset_in_range valid member reached inside rfl
  · simp only [ResyncResult.otherwise, inside, false_and, if_false, Outcome.ok_bind]
    exact valset_behind valid member (not_le.mp inside)

end Range

/-! ### The resync -/

section Resync

variable {evm : Evm} {crates : OracleCrates} {m : Nat} {history : List (GravityEvent × Nat)}

/-- **The search, range by range**, from a block at or after the wanted event. -/
theorem resyncFrom_eq (valid : ResyncHistory m history)
    (accounts : ∀ bytes : Bytes, bytes.length = 20 → (crates.cosmosFromBytes bytes).isSome)
    {wanted : GravityEvent × Nat} (member : wanted ∈ history) {currentBlock : Nat}
    (reached : wanted.2 ≤ currentBlock) (positive : 0 < currentBlock) :
    resyncFrom crates (fun startingBlock latestBlock =>
        roundLogs evm (logsBetween history startingBlock latestBlock)) wanted.1.eventNonce currentBlock =
      .ok wanted.2 := by
  induction currentBlock using Nat.strong_induction_on with
  | _ currentBlock ih =>
      rw [resyncFrom, if_pos positive]
      generalize endIs : (if currentBlock < blocksToSearch then 0 else currentBlock - blocksToSearch) =
        endSearch
      have below : endSearch < currentBlock := by
        rw [← endIs]
        unfold blocksToSearch
        split_ifs <;> omega
      simp only [searchRange_eq valid accounts member reached]
      by_cases inside : endSearch ≤ wanted.2
      · rw [if_pos inside]
      · rw [if_neg inside]
        exact ih endSearch below (by omega) (by omega)

/-- **The resync finds the right block.** For every history of the contract, every newest block at or after
its last event, and every last event nonce `n ≤ m` that the Cosmos chain reports: `get_last_checked_block`
ends, without a panic, at the block of the event with nonce `n`, or of the first event where `n` is zero. The
genesis block holds no transactions. -/
theorem last_checked_block_exact (valid : ResyncHistory m history)
    (accounts : ∀ bytes : Bytes, bytes.length = 20 → (crates.cosmosFromBytes bytes).isSome)
    {latestBlock lastEventNonce : Nat} (afterGenesis : 0 < latestBlock)
    (past : ∀ log ∈ history, log.2 ≤ latestBlock) (known : lastEventNonce ≤ m) :
    ∃ log ∈ history, log.1.eventNonce = max lastEventNonce 1 ∧
      getLastCheckedBlock crates (fun startingBlock endingBlock =>
        roundLogs evm (logsBetween history startingBlock endingBlock)) latestBlock lastEventNonce =
          .ok log.2 := by
  obtain ⟨first, there, _, _, one, _⟩ := valid.deployed
  have events := ((valid.mem_nonces first.1.eventNonce).mp ⟨first, there, rfl⟩).2
  obtain ⟨wanted, member, nonce⟩ := (valid.mem_nonces (max lastEventNonce 1)).mpr
    ⟨le_max_right _ _, by omega⟩
  have asked : (if lastEventNonce = 0 then 1 else lastEventNonce) = wanted.1.eventNonce := by
    rw [nonce]
    split_ifs <;> omega
  refine ⟨wanted, member, nonce, ?_⟩
  rw [getLastCheckedBlock, asked]
  exact resyncFrom_eq valid accounts member (past wanted member) afterGenesis

end Resync

/-! ### The contract's own histories -/

section Contract

variable {τ : Type} {evm : Evm} {validators : List EthAddress} {powers : List Nat} {blockNumber : Nat}

/-- The first log is the constructor's, and validator sets after it have positive nonces. -/
def SetsFollow (validators : List EthAddress) (powers : List Nat) (blockNumber : Nat) (eth : Ethereum τ) :
    Prop :=
  ∃ later, eth.logs = (.valsetUpdated 0 1 0 0 validators powers, blockNumber) :: later ∧
    ∀ log ∈ later, ∀ event, valsetOf? log = some event → event.valsetNonce ≠ 0

theorem SetsFollow.accepts {sender : EthAddress} {call : GravityCall} {before after : Ethereum τ}
    (follow : SetsFollow validators powers blockNumber before)
    (accepts : Ethereum.Accepts evm sender call before after) :
    SetsFollow validators powers blockNumber after := by
  obtain ⟨later, logs, positive⟩ := follow
  obtain ⟨nested, reported, grown, deployments, reports⟩ := accepts.logs
  refine ⟨later ++ nested ++ [(reported, before.blockNumber)], by rw [grown, logs]; rfl, ?_⟩
  intro log member event seen
  rw [List.append_assoc] at member
  rcases List.mem_append.mp member with old | new
  · exact positive log old event seen
  rcases List.mem_append.mp new with inside | own
  · obtain ⟨deployment, block⟩ := log
    have isDeployment := (deployments _ inside).1
    cases deployment with
    | valsetUpdated => cases isDeployment
    | _ => cases seen
  · obtain rfl := List.mem_singleton.mp own
    cases call with
    | updateValset newValset currentValset signatures =>
        have higher := accepts.passes.1
        rw [reports] at seen
        obtain rfl := Option.some.inj seen
        exact Nat.ne_of_gt (Nat.zero_lt_of_lt higher)
    | submitLogicCall =>
        obtain ⟨_, reports⟩ := reports
        rw [reports] at seen
        cases seen
    | deployERC20 =>
        obtain ⟨_, reports⟩ := reports
        rw [reports] at seen
        cases seen
    | _ =>
        rw [reports] at seen
        cases seen

/-- **The logs of a deployed contract are such a history** if all of them can be parsed. -/
theorem resyncHistory_after {gravityId : Bytes} {powerThreshold : Nat} {wNomAddress : EthAddress}
    {contracts : τ} {start : Ethereum τ}
    (deployed : deployGravity evm gravityId powerThreshold validators powers wNomAddress contracts
      blockNumber = .ok start) (others : Contracts τ) (inputs : List (EthereumInput τ))
    (parses : ∀ log ∈ (start.after evm others inputs).logs, Parses log) :
    ResyncHistory (start.after evm others inputs).logs.length (start.after evm others inputs).logs := by
  have well := wellLogged_after deployed others inputs
  have follow : SetsFollow validators powers blockNumber (start.after evm others inputs) := by
    refine Ethereum.after_keeps (SetsFollow validators powers blockNumber) (fun _ _ kept => kept)
      (fun _ _ kept => kept) (fun _ _ _ _ kept accepts => kept.accepts accepts) ?_ inputs
    obtain ⟨_, _, _, rfl⟩ := deployGravity_eq_ok deployed
    exact ⟨[], rfl, fun _ member => absurd member List.not_mem_nil⟩
  refine ⟨well.nonces, well.blocks, logs_inRange_after deployed others inputs, parses, ?_, ?_⟩
  · obtain ⟨later, logs, _⟩ := follow
    rw [logs]
    exact ⟨_, List.mem_cons_self, _, rfl, rfl, rfl⟩
  · obtain ⟨later, logs, positive⟩ := follow
    rw [logs]
    intro log member event seen second
    rcases List.mem_cons.mp member with rfl | there
    · exact absurd second (lt_irrefl 1)
    · exact positive log there event seen

end Contract

theorem exampleHistory_valid : ResyncHistory 4 exampleHistory where
  gapless := by rfl
  blocks := by decide
  inRange := by decide +kernel
  parses := by decide +kernel
  deployed := ⟨_, List.mem_cons_self, _, rfl, rfl, rfl⟩
  later := by
    intro log member event seen second
    rcases List.mem_cons.mp member with rfl | there
    · exact absurd second (by decide)
    · have others : ∀ log ∈ exampleHistory.tail, valsetOf? log = none := by decide +kernel
      rw [others log there] at seen
      cases seen

theorem last_checked_block_example : ∃ log ∈ exampleHistory, log.1.eventNonce = max 3 1 ∧
    getLastCheckedBlock exampleOracleCrates (fun startingBlock endingBlock =>
      roundLogs exampleEvm (logsBetween exampleHistory startingBlock endingBlock)) 12000 3 = .ok log.2 :=
  last_checked_block_exact exampleHistory_valid (fun _ _ => rfl) (by decide) (by decide) (by decide)

end NabBridge
