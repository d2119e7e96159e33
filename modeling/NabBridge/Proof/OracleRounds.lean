/-
**A round of the oracle.**

A round searches the contract's logs by event, parses them, leaves out what the module has seen from the
validator, and sends the rest as one transaction, in the order of their event nonces.

* `checkForEvents_eq_ok_iff`: what a round sends, exactly when it sends anything;
* `acceptClaims_iff`: when the module accepts the claims of a gapless row of logs;
* `round_accepted_iff`: **a round is accepted whole** exactly when every log of the range can be parsed
  and every new one is in what the module can hold;
* `oracle_not_wedged_iff`: the same for every history of the contract, log by log and as rounds.

The code outside of this repository is in `OracleCrates.Lawful` and `ModuleReads`.
-/

import NabBridge.Proof.ContractRun
import NabBridge.Proof.LogParsing
import NabBridge.Types.Batch

namespace NabBridge

open Orchestrator

/-! ### Searches -/

section Searches

variable {α : Type} {evm : Evm}

/-- **What a search is parsed to.** `view` is the event a log should be parsed to, where it is one of the
events searched for. -/
theorem mapM_searchLogs_iff {parse : Log → EventResult α} {view : GravityEvent × Nat → Option α}
    {signature : String} {logs : List (GravityEvent × Nat)}
    (kind : ∀ log, log.1.signature = signature ↔ (view log).isSome)
    (parses : ∀ log ∈ logs, ∀ event, view log = some event → ∀ result,
      parse (eventLog evm log.1 log.2) = .ok result ↔ result = event ∧ Parses log)
    (events : List α) : (searchLogs evm logs signature).mapM parse = .ok events ↔
      events = logs.filterMap view ∧ ∀ log ∈ logs, (view log).isSome → Parses log := by
  induction logs generalizing events with
  | nil =>
      rw [searchLogs, List.filter_nil, List.map_nil, List.mapM_nil, Outcome.pure_eq, Outcome.ok.injEq,
        eq_comm]
      simp
  | cons log rest ih =>
      have later := ih
        fun other member => parses other (List.mem_cons_of_mem _ member)
      unfold searchLogs at later ⊢
      rw [List.forall_mem_cons]
      cases seen : view log with
      | none =>
          have other : ¬ log.1.signature = signature := by
            rw [kind, seen]
            simp
          rw [List.filter_cons_of_neg (by simpa using other), later, List.filterMap_cons_none seen]
          simp
      | some event =>
          have same : log.1.signature = signature := (kind log).mpr (by rw [seen]; rfl)
          rw [List.filter_cons_of_pos (by simpa using same), List.map_cons, List.mapM_cons,
            Outcome.bind_eq_ok, List.filterMap_cons_some seen]
          constructor
          · rintro ⟨head, first, mapped⟩
            obtain ⟨others, second, made⟩ := Outcome.bind_eq_ok.mp mapped
            obtain ⟨rfl, here⟩ := (parses log List.mem_cons_self event seen head).mp first
            obtain ⟨rfl, there⟩ := (later others).mp second
            exact ⟨(Outcome.ok.inj made).symm, fun _ => here, there⟩
          · rintro ⟨rfl, here, there⟩
            exact ⟨event, (parses log List.mem_cons_self event seen event).mpr ⟨rfl, here rfl⟩,
              Outcome.bind_eq_ok.mpr ⟨_, (later _).mpr ⟨rfl, there⟩, rfl⟩⟩

end Searches

theorem batch_signature_iff (log : GravityEvent × Nat) :
    log.1.signature = "TransactionBatchExecutedEvent(uint256,address,uint256)" ↔
      (batchOf? log).isSome := by
  obtain ⟨event, block⟩ := log
  cases event <;> simp [GravityEvent.signature, batchOf?]

theorem deposit_signature_iff (crates : OracleCrates) (log : GravityEvent × Nat) :
    log.1.signature = "SendToCosmosEvent(address,address,bytes32,uint256,uint256)" ↔
      (depositOf? crates log).isSome := by
  obtain ⟨event, block⟩ := log
  cases event <;> simp [GravityEvent.signature, depositOf?]

theorem deployed_signature_iff (log : GravityEvent × Nat) :
    log.1.signature = "ERC20DeployedEvent(string,address,string,string,uint8,uint256)" ↔
      (deploymentOf? log).isSome := by
  obtain ⟨event, block⟩ := log
  cases event <;> simp [GravityEvent.signature, deploymentOf?]

theorem valset_signature_iff (log : GravityEvent × Nat) :
    log.1.signature =
        "ValsetUpdatedEvent(uint256,uint256,uint256,address,address[],uint256[])" ↔
      (valsetOf? log).isSome := by
  obtain ⟨event, block⟩ := log
  cases event <;> simp [GravityEvent.signature, valsetOf?]

theorem logicCall_signature_iff (log : GravityEvent × Nat) :
    log.1.signature = "LogicCallEvent(bytes32,uint256,bytes,uint256)" ↔
      (logicCallOf? log).isSome := by
  obtain ⟨event, block⟩ := log
  cases event <;> simp [GravityEvent.signature, logicCallOf?]

/-- The five searches cover the logs. -/
theorem forall_by_search (crates : OracleCrates) {logs : List (GravityEvent × Nat)}
    (property : GravityEvent × Nat → Prop) :
    ((∀ log ∈ logs, (valsetOf? log).isSome → property log) ∧
      (∀ log ∈ logs, (batchOf? log).isSome → property log) ∧
      (∀ log ∈ logs, (depositOf? crates log).isSome → property log) ∧
      (∀ log ∈ logs, (deploymentOf? log).isSome → property log) ∧
      ∀ log ∈ logs, (logicCallOf? log).isSome → property log) ↔ ∀ log ∈ logs, property log := by
  constructor
  · rintro ⟨valsets, batches, deposits, deployments, logicCalls⟩ ⟨event, block⟩ member
    cases event with
    | transactionBatchExecuted => exact batches _ member rfl
    | sendToCosmos => exact deposits _ member rfl
    | erc20Deployed => exact deployments _ member rfl
    | valsetUpdated => exact valsets _ member rfl
    | logicCall => exact logicCalls _ member rfl
  · intro each
    exact ⟨fun log member _ => each log member, fun log member _ => each log member,
      fun log member _ => each log member, fun log member _ => each log member,
      fun log member _ => each log member⟩

/-! ### The order of the claims -/

section Order

variable {α : Type} {crates : OracleCrates} {ourAddress : Bytes}

/-- A claim under its event nonce. -/
def noncedClaim (crates : OracleCrates) (ourAddress : Bytes) (log : GravityEvent × Nat) :
    Nat × ProtoClaim := (log.1.eventNonce, wireClaim crates ourAddress log)

/-- **What the loop over one kind of events writes.** -/
theorem insertClaims_eq_ok_iff {eventNonceOf : α → Nat} {claimOf : α → EventResult ProtoClaim}
    {view : GravityEvent × Nat → Option α} (lastEventNonce : Nat) {logs : List (GravityEvent × Nat)}
    (claims : ∀ log ∈ logs, ∀ event, view log = some event →
      eventNonceOf event = log.1.eventNonce ∧ ∀ claim,
        claimOf event = .ok claim ↔ claim = wireClaim crates ourAddress log ∧ log.2 < 2 ^ 64 - 1)
    (msgs after : Store Nat ProtoClaim) :
    insertClaims eventNonceOf claimOf msgs
        (filterByEventNonce eventNonceOf lastEventNonce (logs.filterMap view)) = .ok after ↔
      after = ((logs.filter fun log => (view log).isSome ∧ lastEventNonce < log.1.eventNonce).map
        (noncedClaim crates ourAddress)).foldl (fun current pair => current.set pair.1 pair.2) msgs ∧
      ∀ log ∈ logs, (view log).isSome → lastEventNonce < log.1.eventNonce → log.2 < 2 ^ 64 - 1 := by
  unfold filterByEventNonce insertClaims
  induction logs generalizing msgs with
  | nil =>
      rw [List.filterMap_nil, List.filter_nil, List.foldlM_nil, Outcome.pure_eq, Outcome.ok.injEq,
        eq_comm]
      simp
  | cons log rest ih =>
      have later := ih
        fun other member => claims other (List.mem_cons_of_mem _ member)
      rw [List.forall_mem_cons]
      cases seen : view log with
      | none =>
          rw [List.filterMap_cons_none seen, later, List.filter_cons_of_neg (by simp [seen])]
          simp
      | some event =>
          obtain ⟨nonce, claimIs⟩ := claims log List.mem_cons_self event seen
          rw [List.filterMap_cons_some seen]
          by_cases new : lastEventNonce < log.1.eventNonce
          · rw [List.filter_cons_of_pos (by simpa [nonce] using new),
              List.filter_cons_of_pos (by simpa [seen] using new), List.map_cons, List.foldl_cons,
              List.foldlM_cons, Outcome.bind_eq_ok]
            constructor
            · rintro ⟨msgs', written, rounds⟩
              obtain ⟨claim, claimed, made⟩ := Outcome.bind_eq_ok.mp written
              obtain ⟨rfl, small⟩ := (claimIs claim).mp claimed
              obtain rfl := Outcome.ok.inj made
              rw [nonce] at rounds
              obtain ⟨rfl, there⟩ := (later _).mp rounds
              exact ⟨rfl, fun _ _ => small, there⟩
            · rintro ⟨rfl, here, there⟩
              refine ⟨_, Outcome.bind_eq_ok.mpr ⟨_, (claimIs _).mpr ⟨rfl, here rfl new⟩, rfl⟩, ?_⟩
              rw [nonce]
              exact (later _).mpr ⟨rfl, there⟩
          · rw [List.filter_cons_of_neg (by simpa [nonce] using new),
              List.filter_cons_of_neg (by simpa [seen] using new), later]
            exact and_congr_right fun _ => ⟨fun there => ⟨fun _ old => absurd old new, there⟩,
              fun both => both.2⟩

theorem downcast_bind_eq_ok {value : Nat} {next : Nat → EventResult α} {result : α} :
    (downcastUint256 value >>= next) = .ok result ↔ value < 2 ^ 64 - 1 ∧ next value = .ok result := by
  rw [downcastUint256, u64Max]
  split_ifs with large
  · simp only [Outcome.panic_bind, reduceCtorEq, false_iff, not_and]
    omega
  · rw [Outcome.ok_bind]
    exact ⟨fun continues => ⟨not_le.mp large, continues⟩, fun both => both.2⟩

theorem batch_claim_iff (crates : OracleCrates) (ourAddress : Bytes) {log : GravityEvent × Nat} {event : TransactionBatchExecutedEvent}
    (kind : batchOf? log = some event) : event.eventNonce = log.1.eventNonce ∧ ∀ claim,
      event.claim crates ourAddress = .ok claim ↔
        claim = wireClaim crates ourAddress log ∧ log.2 < 2 ^ 64 - 1 := by
  obtain ⟨reported, block⟩ := log
  cases reported with
  | transactionBatchExecuted batchNonce token eventNonce =>
      cases kind
      refine ⟨rfl, fun claim => downcast_bind_eq_ok.trans ?_⟩
      rw [Outcome.pure_eq, Outcome.ok.injEq, and_comm, eq_comm]
      rfl
  | _ => cases kind

theorem deployed_claim_iff (crates : OracleCrates) (ourAddress : Bytes) {log : GravityEvent × Nat} {event : Erc20DeployedEvent}
    (kind : deploymentOf? log = some event) : event.eventNonce = log.1.eventNonce ∧ ∀ claim,
      event.claim crates ourAddress = .ok claim ↔
        claim = wireClaim crates ourAddress log ∧ log.2 < 2 ^ 64 - 1 := by
  obtain ⟨reported, block⟩ := log
  cases reported with
  | erc20Deployed cosmosDenom tokenContract name symbol decimals eventNonce =>
      cases kind
      refine ⟨rfl, fun claim => downcast_bind_eq_ok.trans ?_⟩
      rw [Outcome.pure_eq, Outcome.ok.injEq, and_comm, eq_comm]
      rfl
  | _ => cases kind

theorem logicCall_claim_iff (crates : OracleCrates) (ourAddress : Bytes) {log : GravityEvent × Nat} {event : LogicCallExecutedEvent}
    (kind : logicCallOf? log = some event) : event.eventNonce = log.1.eventNonce ∧ ∀ claim,
      event.claim ourAddress = .ok claim ↔
        claim = wireClaim crates ourAddress log ∧ log.2 < 2 ^ 64 - 1 := by
  obtain ⟨reported, block⟩ := log
  cases reported with
  | logicCall invalidationId invalidationNonce returnData eventNonce =>
      cases kind
      refine ⟨rfl, fun claim => downcast_bind_eq_ok.trans ?_⟩
      rw [Outcome.pure_eq, Outcome.ok.injEq, and_comm, eq_comm]
      rfl
  | _ => cases kind

theorem map_toProto_valsetMembers (validators : List EthAddress) (powers : List Nat) :
    (valsetMembers validators powers).map (ValsetMember.toProto crates) =
      List.zipWith (fun validator power => ⟨power, crates.ethAddressString validator⟩) validators
        powers := by
  rw [valsetMembers, List.map_zipWith]
  rfl

theorem valset_claim_iff (crates : OracleCrates) (ourAddress : Bytes) {log : GravityEvent × Nat} {event : ValsetUpdatedEvent}
    (kind : valsetOf? log = some event) : event.eventNonce = log.1.eventNonce ∧ ∀ claim,
      event.claim crates ourAddress = .ok claim ↔
        claim = wireClaim crates ourAddress log ∧ log.2 < 2 ^ 64 - 1 := by
  obtain ⟨reported, block⟩ := log
  cases reported with
  | valsetUpdated newValsetNonce eventNonce rewardAmount rewardToken validators powers =>
      cases kind
      have token : (if rewardToken = 0 then none else some rewardToken).getD 0 = rewardToken := by
        split_ifs with zero
        · exact zero.symm
        · rfl
      refine ⟨rfl, fun claim => downcast_bind_eq_ok.trans ?_⟩
      rw [Outcome.pure_eq, Outcome.ok.injEq, and_comm, eq_comm, map_toProto_valsetMembers, token]
      rfl
  | _ => cases kind

end Order

/-! ### What the round rests on -/

/-- What the oracle relies on in `deep_space`: 20 bytes are an account, and an account has a spelling. -/
structure Orchestrator.OracleCrates.Lawful (crates : OracleCrates) : Prop where
  accounts : ∀ bytes : Bytes, bytes.length = 20 → ∃ account text,
    crates.cosmosFromBytes bytes = some account ∧ crates.toBech32 account = some text

section Round

variable {crates : OracleCrates} {ourAddress : Bytes}

theorem deposit_claim_iff (lawful : crates.Lawful) (ourAddress : Bytes) {log : GravityEvent × Nat}
    {event : SendToCosmosEvent} (inRange : log.1.InRange) (kind : depositOf? crates log = some event) :
    event.eventNonce = log.1.eventNonce ∧ ∀ claim, event.claim crates ourAddress = .ok claim ↔
      claim = wireClaim crates ourAddress log ∧ log.2 < 2 ^ 64 - 1 := by
  obtain ⟨reported, block⟩ := log
  cases reported with
  | sendToCosmos tokenContract sender destination amount eventNonce =>
      cases kind
      obtain ⟨account, text, known, spelled⟩ := lawful.accounts (destination.drop 12)
        (by rw [List.length_drop, inRange.1])
      refine ⟨rfl, fun claim => downcast_bind_eq_ok.trans ?_⟩
      rw [wireClaim, known, Option.getD_some, Option.bind_some, spelled, Option.getD_some]
      show _ ∧ Outcome.ok _ = _ ↔ _
      rw [Outcome.ok.injEq, and_comm, eq_comm]
  | _ => cases kind

/-- The claims of the new logs, in the order of their event nonces. -/
def newClaims (crates : OracleCrates) (ourAddress : Bytes) (lastEventNonce : Nat)
    (logs : List (GravityEvent × Nat)) : List ProtoClaim :=
  (logs.filter fun log => lastEventNonce < log.1.eventNonce).map (wireClaim crates ourAddress)

/-- The claims of the new logs of one kind, under their event nonces. -/
def newOfKind (crates : OracleCrates) (ourAddress : Bytes) (lastEventNonce : Nat)
    (logs : List (GravityEvent × Nat)) (kind : GravityEvent × Nat → Bool) : List (Nat × ProtoClaim) :=
  (logs.filter fun log => kind log ∧ lastEventNonce < log.1.eventNonce).map
    (noncedClaim crates ourAddress)

/-- **Five lists become one**: written by kind, the claims come out in the order of the logs. -/
theorem values_by_kind (crates : OracleCrates) (ourAddress : Bytes) (lastEventNonce : Nat)
    {logs : List (GravityEvent × Nat)}
    (order : logs.Pairwise fun first second => first.1.eventNonce < second.1.eventNonce) :
    ((newOfKind crates ourAddress lastEventNonce logs (fun log => (depositOf? crates log).isSome) ++
      (newOfKind crates ourAddress lastEventNonce logs (fun log => (batchOf? log).isSome) ++
      (newOfKind crates ourAddress lastEventNonce logs (fun log => (deploymentOf? log).isSome) ++
      (newOfKind crates ourAddress lastEventNonce logs (fun log => (logicCallOf? log).isSome) ++
      newOfKind crates ourAddress lastEventNonce logs (fun log => (valsetOf? log).isSome))))).foldl
        (fun current pair => current.set pair.1 pair.2) Store.empty).values =
      newClaims crates ourAddress lastEventNonce logs := by
  have sorted : ((logs.filter fun log => lastEventNonce < log.1.eventNonce).map
      (noncedClaim crates ourAddress)).Pairwise fun first second => first.1 < second.1 :=
    List.pairwise_map.mpr (order.filter _)
  rw [Store.values, Store.entries_foldl_set sorted, List.map_map]
  · rfl
  · intro pair
    simp only [List.mem_append, newOfKind, List.mem_map, List.mem_filter, decide_eq_true_eq]
    constructor
    · rintro (⟨log, ⟨there, _, new⟩, rfl⟩ | ⟨log, ⟨there, _, new⟩, rfl⟩ | ⟨log, ⟨there, _, new⟩, rfl⟩ |
        ⟨log, ⟨there, _, new⟩, rfl⟩ | ⟨log, ⟨there, _, new⟩, rfl⟩) <;> exact ⟨log, ⟨there, new⟩, rfl⟩
    · rintro ⟨⟨event, block⟩, ⟨there, new⟩, rfl⟩
      cases event with
      | sendToCosmos => exact Or.inl ⟨_, ⟨there, rfl, new⟩, rfl⟩
      | transactionBatchExecuted => exact Or.inr (Or.inl ⟨_, ⟨there, rfl, new⟩, rfl⟩)
      | erc20Deployed => exact Or.inr (Or.inr (Or.inl ⟨_, ⟨there, rfl, new⟩, rfl⟩))
      | logicCall => exact Or.inr (Or.inr (Or.inr (Or.inl ⟨_, ⟨there, rfl, new⟩, rfl⟩)))
      | valsetUpdated => exact Or.inr (Or.inr (Or.inr (Or.inr ⟨_, ⟨there, rfl, new⟩, rfl⟩)))

/-- **What a round sends**, and when it sends anything: every log of the range has to parse, and the
blocks of the new ones to fit. -/
theorem checkForEvents_eq_ok_iff (evm : Evm) (lawful : crates.Lawful) (ourAddress : Bytes)
    (lastEventNonce : Nat)
    {logs : List (GravityEvent × Nat)} (inRange : ∀ log ∈ logs, log.1.InRange)
    (order : logs.Pairwise fun first second => first.1.eventNonce < second.1.eventNonce)
    (claims : List ProtoClaim) :
    checkForEvents crates ourAddress lastEventNonce (roundLogs evm logs) = .ok claims ↔
      claims = newClaims crates ourAddress lastEventNonce logs ∧ (∀ log ∈ logs, Parses log) ∧
        ∀ log ∈ logs, lastEventNonce < log.1.eventNonce → log.2 < 2 ^ 64 - 1 := by
  have accounts : ∀ bytes : Bytes, bytes.length = 20 → (crates.cosmosFromBytes bytes).isSome := by
    intro bytes length
    obtain ⟨account, _, known, _⟩ := lawful.accounts bytes length
    rw [known]
    rfl
  have valsets := mapM_searchLogs_iff valset_signature_iff
    fun log (member : log ∈ logs) event kind result =>
      valset_fromLog_iff evm (inRange log member) kind
  have batches := mapM_searchLogs_iff batch_signature_iff
    fun log (member : log ∈ logs) event kind result =>
      batch_fromLog_iff evm (inRange log member) kind
  have deposits := mapM_searchLogs_iff (deposit_signature_iff crates)
    fun log (member : log ∈ logs) event kind result =>
      deposit_fromLog_iff evm accounts (inRange log member) kind
  have deployments := mapM_searchLogs_iff deployed_signature_iff
    fun log (member : log ∈ logs) event kind result =>
      deployed_fromLog_iff evm (inRange log member) kind
  have logicCalls := mapM_searchLogs_iff logicCall_signature_iff
    fun log (_ : log ∈ logs) event kind result => logicCall_fromLog_iff evm kind
  have depositClaims := insertClaims_eq_ok_iff lastEventNonce
    fun log (member : log ∈ logs) event kind =>
      deposit_claim_iff lawful ourAddress (inRange log member) kind
  have batchClaims := insertClaims_eq_ok_iff lastEventNonce
    fun log (_ : log ∈ logs) event kind => batch_claim_iff crates ourAddress kind
  have deploymentClaims := insertClaims_eq_ok_iff lastEventNonce
    fun log (_ : log ∈ logs) event kind => deployed_claim_iff crates ourAddress kind
  have logicCallClaims := insertClaims_eq_ok_iff lastEventNonce
    fun log (_ : log ∈ logs) event kind => logicCall_claim_iff crates ourAddress kind
  have valsetClaims := insertClaims_eq_ok_iff lastEventNonce
    fun log (_ : log ∈ logs) event kind => valset_claim_iff crates ourAddress kind
  have merged := values_by_kind crates ourAddress lastEventNonce order
  simp only [List.foldl_append] at merged
  rw [← forall_by_search crates Parses, ← forall_by_search crates
    fun log => lastEventNonce < log.1.eventNonce → log.2 < 2 ^ 64 - 1]
  constructor
  · intro round
    obtain ⟨_, valsetsAre, round⟩ := Outcome.bind_eq_ok.mp round
    obtain ⟨rfl, valsetsParse⟩ := (valsets _).mp valsetsAre
    obtain ⟨_, batchesAre, round⟩ := Outcome.bind_eq_ok.mp round
    obtain ⟨rfl, batchesParse⟩ := (batches _).mp batchesAre
    obtain ⟨_, depositsAre, round⟩ := Outcome.bind_eq_ok.mp round
    obtain ⟨rfl, depositsParse⟩ := (deposits _).mp depositsAre
    obtain ⟨_, deploymentsAre, round⟩ := Outcome.bind_eq_ok.mp round
    obtain ⟨rfl, deploymentsParse⟩ := (deployments _).mp deploymentsAre
    obtain ⟨_, logicCallsAre, round⟩ := Outcome.bind_eq_ok.mp round
    obtain ⟨rfl, logicCallsParse⟩ := (logicCalls _).mp logicCallsAre
    obtain ⟨_, depositsSent, round⟩ := Outcome.bind_eq_ok.mp round
    obtain ⟨rfl, depositsFit⟩ := (depositClaims _ _).mp depositsSent
    obtain ⟨_, batchesSent, round⟩ := Outcome.bind_eq_ok.mp round
    obtain ⟨rfl, batchesFit⟩ := (batchClaims _ _).mp batchesSent
    obtain ⟨_, deploymentsSent, round⟩ := Outcome.bind_eq_ok.mp round
    obtain ⟨rfl, deploymentsFit⟩ := (deploymentClaims _ _).mp deploymentsSent
    obtain ⟨_, logicCallsSent, round⟩ := Outcome.bind_eq_ok.mp round
    obtain ⟨rfl, logicCallsFit⟩ := (logicCallClaims _ _).mp logicCallsSent
    obtain ⟨_, valsetsSent, made⟩ := Outcome.bind_eq_ok.mp round
    obtain ⟨rfl, valsetsFit⟩ := (valsetClaims _ _).mp valsetsSent
    exact ⟨(Outcome.ok.inj made).symm.trans merged,
      ⟨valsetsParse, batchesParse, depositsParse, deploymentsParse, logicCallsParse⟩,
      valsetsFit, batchesFit, depositsFit, deploymentsFit, logicCallsFit⟩
  · rintro ⟨rfl, ⟨valsetsParse, batchesParse, depositsParse, deploymentsParse, logicCallsParse⟩,
      valsetsFit, batchesFit, depositsFit, deploymentsFit, logicCallsFit⟩
    refine Outcome.bind_eq_ok.mpr ⟨_, (valsets _).mpr ⟨rfl, valsetsParse⟩, ?_⟩
    refine Outcome.bind_eq_ok.mpr ⟨_, (batches _).mpr ⟨rfl, batchesParse⟩, ?_⟩
    refine Outcome.bind_eq_ok.mpr ⟨_, (deposits _).mpr ⟨rfl, depositsParse⟩, ?_⟩
    refine Outcome.bind_eq_ok.mpr ⟨_, (deployments _).mpr ⟨rfl, deploymentsParse⟩, ?_⟩
    refine Outcome.bind_eq_ok.mpr ⟨_, (logicCalls _).mpr ⟨rfl, logicCallsParse⟩, ?_⟩
    refine Outcome.bind_eq_ok.mpr ⟨_, (depositClaims _ _).mpr ⟨rfl, depositsFit⟩, ?_⟩
    refine Outcome.bind_eq_ok.mpr ⟨_, (batchClaims _ _).mpr ⟨rfl, batchesFit⟩, ?_⟩
    refine Outcome.bind_eq_ok.mpr ⟨_, (deploymentClaims _ _).mpr ⟨rfl, deploymentsFit⟩, ?_⟩
    refine Outcome.bind_eq_ok.mpr ⟨_, (logicCallClaims _ _).mpr ⟨rfl, logicCallsFit⟩, ?_⟩
    exact Outcome.bind_eq_ok.mpr ⟨_, (valsetClaims _ _).mpr ⟨rfl, valsetsFit⟩, congrArg _ merged⟩

end Round

/-! ### The module's side -/

section Module

/-- What the module makes of the texts the orchestrator writes: an address passes the check of the
module, an account is read, so is the orchestrator's own address, and a number is read where an
`sdk.Int` holds it. -/
structure ModuleReads (crates : OracleCrates) (sdk : Sdk) (unmarshalInt : Bytes → Option (Option Int))
    (ourAddress : Bytes) (account : AccAddress) : Prop where
  addresses : ∀ address, validateEthAddress (crates.ethAddressString address) = .ok ()
  receivers : ∀ receiver text, crates.toBech32 receiver = some text →
    (sdk.accAddressFromBech32 text).isSome
  ours : sdk.accAddressFromBech32 ourAddress = some account
  amounts : ∀ value : Nat, value < 2 ^ 255 → unmarshalInt (decimal value) = some (some (value : Int))
  tooLarge : ∀ value : Nat, ¬ value < 2 ^ 255 → unmarshalInt (decimal value) = none

variable {crates : OracleCrates} {sdk : Sdk} {unmarshalInt : Bytes → Option (Option Int)}
  {ourAddress : Bytes} {account : AccAddress} {orchestratorValidator : AccAddress → Option ValAddress}
  {blockHeight : Nat}

theorem checkAccAddress_ok {text : Bytes} (reads : (sdk.accAddressFromBech32 text).isSome) :
    checkAccAddress sdk text = .ok () := if_pos reads

theorem checkEthAddress_ok {wrap : AddressError → ClaimError} {text : Bytes}
    (valid : validateEthAddress text = .ok ()) : checkEthAddress wrap text = .ok () := by
  rw [checkEthAddress, valid]
  rfl

theorem checkNonZero_ok {reason : ClaimError} {value : Nat} (positive : 0 < value) :
    checkNonZero reason value = .ok () := if_neg positive.ne'

theorem forM_checkEthAddress {wrap : AddressError → ClaimError} {members : List BridgeValidator}
    (valid : ∀ member ∈ members, validateEthAddress member.ethereumAddress = .ok ()) :
    (members.forM fun member => checkEthAddress wrap member.ethereumAddress) = .ok () := by
  induction members with
  | nil => rfl
  | cons member rest ih =>
      rw [List.forM_eq_forM, List.forM_cons, checkEthAddress_ok (valid member List.mem_cons_self)]
      exact ih fun other there => valid other (List.mem_cons_of_mem _ there)

/-- **The claim of a log that parses** decodes and passes `ValidateBasic`, as long as the module can
hold its amount. -/
theorem decode_wireClaim (lawful : crates.Lawful)
    (reads : ModuleReads crates sdk unmarshalInt ourAddress account) {log : GravityEvent × Nat}
    (inRange : log.1.InRange) (positive : 0 < log.1.eventNonce) (parses : Parses log)
    (holds : log.1.amount < 2 ^ 255) : ∃ claim,
      (wireClaim crates ourAddress log).decode unmarshalInt = some claim ∧
      claim.validateBasic sdk = .ok () ∧ claim.orchestrator = ourAddress ∧
      claim.getEventNonce = log.1.eventNonce := by
  have ours : (sdk.accAddressFromBech32 ourAddress).isSome := by
    rw [reads.ours]
    rfl
  obtain ⟨event, block⟩ := log
  cases event with
  | transactionBatchExecuted batchNonce token eventNonce =>
      refine ⟨_, rfl, ?_, rfl, rfl⟩
      have nonce : 0 < eventNonce := positive
      simp only [EthereumClaim.validateBasic, MsgBatchSendToEthClaim.validateBasic,
        checkNonZero_ok nonce, checkNonZero_ok inRange.1, checkEthAddress_ok (reads.addresses token),
        checkAccAddress_ok ours]
      rfl
  | sendToCosmos tokenContract sender destination amount eventNonce =>
      obtain ⟨receiver, text, known, spelled⟩ := lawful.accounts (destination.drop 12)
        (by rw [List.length_drop, inRange.1])
      refine ⟨_, congrArg (Option.map _) (reads.amounts amount holds), ?_, rfl, rfl⟩
      have nonce : 0 < eventNonce := positive
      simp only [EthereumClaim.validateBasic, MsgSendToCosmosClaim.validateBasic, known,
        Option.bind_some, spelled, Option.getD_some,
        checkAccAddress_ok (reads.receivers receiver text spelled),
        checkEthAddress_ok (reads.addresses sender), checkEthAddress_ok (reads.addresses tokenContract),
        checkAccAddress_ok ours, checkNonZero_ok nonce]
      rfl
  | erc20Deployed cosmosDenom tokenContract name symbol decimals eventNonce =>
      obtain ⟨_, denom, nameReads, symbolReads⟩ := parses
      refine ⟨_, if_pos ⟨denom.2, nameReads.2, symbolReads.2⟩, ?_, rfl, rfl⟩
      have nonce : 0 < eventNonce := positive
      simp only [EthereumClaim.validateBasic, MsgERC20DeployedClaim.validateBasic,
        checkEthAddress_ok (reads.addresses tokenContract), checkAccAddress_ok ours,
        checkNonZero_ok nonce]
      rfl
  | valsetUpdated newValsetNonce eventNonce rewardAmount rewardToken validators powers =>
      refine ⟨_, congrArg (Option.map _) (reads.amounts rewardAmount holds), ?_, rfl, rfl⟩
      have nonce : 0 < eventNonce := positive
      simp only [EthereumClaim.validateBasic, MsgValsetUpdatedClaim.validateBasic,
        checkAccAddress_ok ours, checkNonZero_ok nonce, checkEthAddress_ok (reads.addresses rewardToken)]
      refine forM_checkEthAddress fun member there => ?_
      obtain ⟨i, inside, rfl⟩ := List.getElem_of_mem there
      rw [List.getElem_zipWith]
      exact reads.addresses _
  | logicCall => cases parses

/-- An amount the module cannot hold is not decoded. -/
theorem decode_wireClaim_eq_none
    (reads : ModuleReads crates sdk unmarshalInt ourAddress account) {log : GravityEvent × Nat}
    (large : ¬ log.1.amount < 2 ^ 255) :
    (wireClaim crates ourAddress log).decode unmarshalInt = none := by
  obtain ⟨event, block⟩ := log
  cases event with
  | sendToCosmos tokenContract sender destination amount eventNonce =>
      exact congrArg (Option.map _) (reads.tooLarge amount large)
  | valsetUpdated newValsetNonce eventNonce rewardAmount rewardToken validators powers =>
      exact congrArg (Option.map _) (reads.tooLarge rewardAmount large)
  | transactionBatchExecuted => exact absurd (Nat.two_pow_pos 255) large
  | erc20Deployed => exact absurd (Nat.two_pow_pos 255) large
  | logicCall => exact absurd (Nat.two_pow_pos 255) large

/-- A vote of a validator for the event after its last one. -/
theorem attest_next {π : Type} {claim : EthereumClaim} {oracle : Oracle} {validator : ValAddress}
    (valid : claim.validateBasic sdk = .ok ())
    (claimer : sdk.accAddressFromBech32 claim.orchestrator = some account)
    (known : orchestratorValidator account = some validator)
    (next : claim.getEventNonce = oracle.getLastEventNonceByValidator validator + 1) :
    attest (π := π) sdk orchestratorValidator blockHeight claim oracle =
      .ok (oracle.recordVote sdk claim ((oracle.attestationFor sdk blockHeight claim).addVote validator)
        validator, (oracle.attestationFor sdk blockHeight claim).addVote validator) := by
  have isClaimer : claim.getClaimer sdk = some account := by
    rw [EthereumClaim.getClaimer, valid]
    exact claimer
  unfold attest
  rw [isClaimer]
  simp only [known, next, ne_eq, not_true_eq_false, if_false]

/-- **When the module accepts the claim of the next log**, and what that leaves behind. -/
theorem acceptClaim_next (blockHeight : Nat) (lawful : crates.Lawful)
    (reads : ModuleReads crates sdk unmarshalInt ourAddress account)
    {validator : ValAddress} (known : orchestratorValidator account = some validator)
    {log : GravityEvent × Nat} (inRange : log.1.InRange) (parses : Parses log) {oracle : Oracle}
    (next : log.1.eventNonce = oracle.getLastEventNonceByValidator validator + 1) :
    (log.1.amount < 2 ^ 255 → ∃ after,
      acceptClaim unmarshalInt sdk orchestratorValidator blockHeight oracle
        (wireClaim crates ourAddress log) = some after ∧
      after.getLastEventNonceByValidator validator = log.1.eventNonce) ∧
    (¬ log.1.amount < 2 ^ 255 → acceptClaim unmarshalInt sdk orchestratorValidator blockHeight oracle
      (wireClaim crates ourAddress log) = none) := by
  constructor
  · intro holds
    obtain ⟨claim, decoded, valid, ours, nonce⟩ :=
      decode_wireClaim lawful reads inRange (by omega) parses holds
    refine ⟨oracle.recordVote sdk claim
      ((oracle.attestationFor sdk blockHeight claim).addVote validator) validator, ?_, ?_⟩
    · unfold acceptClaim
      simp only [decoded, valid]
      rw [attest_next valid (ours ▸ reads.ours) known (nonce.trans next)]
      rfl
    · rw [Oracle.recordVote, Oracle.getLastEventNonceByValidator_set, if_pos rfl, nonce]
  · intro large
    unfold acceptClaim
    simp only [decode_wireClaim_eq_none reads large]

/-- **The claims of a gapless row of logs** are all accepted exactly when the module can hold all their
amounts. -/
theorem acceptClaims_iff (blockHeight : Nat) (lawful : crates.Lawful)
    (reads : ModuleReads crates sdk unmarshalInt ourAddress account)
    {validator : ValAddress} (known : orchestratorValidator account = some validator)
    {logs : List (GravityEvent × Nat)} (inRange : ∀ log ∈ logs, log.1.InRange)
    (parses : ∀ log ∈ logs, Parses log) (oracle : Oracle)
    (contiguous : logs.map (fun log => log.1.eventNonce) =
      List.range' (oracle.getLastEventNonceByValidator validator + 1) logs.length) :
    (∃ after, acceptClaims unmarshalInt sdk orchestratorValidator blockHeight oracle
        (logs.map (wireClaim crates ourAddress)) = some after ∧
      after.getLastEventNonceByValidator validator =
        oracle.getLastEventNonceByValidator validator + logs.length) ↔
      ∀ log ∈ logs, log.1.amount < 2 ^ 255 := by
  induction logs generalizing oracle with
  | nil =>
      refine ⟨fun _ _ member => absurd member List.not_mem_nil, fun _ => ⟨oracle, rfl, rfl⟩⟩
  | cons log rest ih =>
      rw [List.map_cons, List.length_cons, List.range'_succ, List.cons.injEq] at contiguous
      obtain ⟨next, later⟩ := contiguous
      have first := acceptClaim_next blockHeight lawful reads known (inRange log List.mem_cons_self) (parses log List.mem_cons_self) next
      rw [List.map_cons, acceptClaims, List.foldlM_cons, List.forall_mem_cons]
      by_cases holds : log.1.amount < 2 ^ 255
      · obtain ⟨middle, accepted, now⟩ := first.1 holds
        have rests := ih
          (fun other member => inRange other (List.mem_cons_of_mem _ member))
          (fun other member => parses other (List.mem_cons_of_mem _ member)) middle
          (by rw [now, next]; exact later)
        rw [accepted, Option.bind_eq_bind, Option.bind_some, List.length_cons, ← rests, now, next]
        have sum : oracle.getLastEventNonceByValidator validator + 1 + rest.length =
            oracle.getLastEventNonceByValidator validator + (rest.length + 1) := by omega
        rw [sum]
        exact ⟨fun done => ⟨holds, done⟩, fun both => both.2⟩
      · rw [first.2 holds]
        refine ⟨fun accepted => ?_, fun both => absurd both.1 holds⟩
        obtain ⟨_, bad, _⟩ := accepted
        cases bad

/-! ### A round -/

theorem eventNonce_wireClaim (log : GravityEvent × Nat) :
    (wireClaim crates ourAddress log).eventNonce = log.1.eventNonce := by
  obtain ⟨event, block⟩ := log
  cases event <;> rfl

/-- The new logs of a gapless history. -/
theorem nonces_of_new {history : List (GravityEvent × Nat)} {m n : Nat}
    (gapless : history.map (fun log => log.1.eventNonce) = List.range' 1 m) (later : n ≤ m) :
    (history.filter fun log => n < log.1.eventNonce).map (fun log => log.1.eventNonce) =
      List.range' (n + 1) (m - n) := by
  have split : List.range' 1 m = List.range' 1 n ++ List.range' (n + 1) (m - n) := by
    rw [← Nat.add_comm 1 n, List.range'_append_1, Nat.add_sub_cancel' later]
  have old : (List.range' 1 n).filter (fun nonce => n < nonce) = [] := by
    refine List.filter_eq_nil_iff.mpr fun nonce member => ?_
    have := List.mem_range'_1.mp member
    simp
    omega
  have new : (List.range' (n + 1) (m - n)).filter (fun nonce => n < nonce) =
      List.range' (n + 1) (m - n) := by
    refine List.filter_eq_self.mpr fun nonce member => ?_
    have := List.mem_range'_1.mp member
    simp
    omega
  have mapped := List.filter_map (f := fun log : GravityEvent × Nat => log.1.eventNonce)
    (p := fun nonce => decide (n < nonce)) (l := history)
  rw [gapless, split, List.filter_append, old, new, List.nil_append] at mapped
  exact mapped.symm

section Histories

variable {evm : Evm} {validator : ValAddress} {history : List (GravityEvent × Nat)}
  {m n startingBlock latestBlock : Nat} {oracle : Oracle}

/-- A round accepted whole: one claim for each of the events `n + 1..m`, with its fields, in the order of
their nonces, and the module counts them all. -/
def AcceptedWhole (evm : Evm) (crates : OracleCrates) (sdk : Sdk)
    (unmarshalInt : Bytes → Option (Option Int)) (ourAddress : Bytes)
    (orchestratorValidator : AccAddress → Option ValAddress) (blockHeight : Nat)
    (validator : ValAddress) (history fetched : List (GravityEvent × Nat)) (oracle : Oracle)
    (n m : Nat) : Prop :=
  ∃ claims after,
    checkForEvents crates ourAddress n (roundLogs evm fetched) = .ok claims ∧
    claims = (history.filter fun log => n < log.1.eventNonce).map (wireClaim crates ourAddress) ∧
    claims.map ProtoClaim.eventNonce = List.range' (n + 1) (m - n) ∧
    acceptClaims unmarshalInt sdk orchestratorValidator blockHeight oracle claims = some after ∧
    after.getLastEventNonceByValidator validator = m

/-- The logs of a gapless history are in the order of their nonces. -/
theorem increasing_of_gapless
    (gapless : history.map (fun log => log.1.eventNonce) = List.range' 1 m) :
    history.Pairwise fun first second => first.1.eventNonce < second.1.eventNonce := by
  have sorted : (history.map fun log => log.1.eventNonce).Pairwise (· < ·) := by
    rw [gapless]
    exact List.pairwise_lt_range'
  exact List.pairwise_map.mp sorted

/-- A range that holds every new log gives the new logs. -/
theorem new_of_fetched
    (fetched : ∀ log ∈ history, n < log.1.eventNonce →
      log ∈ logsBetween history startingBlock latestBlock) :
    (logsBetween history startingBlock latestBlock).filter (fun log => n < log.1.eventNonce) =
      history.filter fun log => n < log.1.eventNonce := by
  rw [logsBetween, List.filter_filter]
  refine List.filter_congr fun log member => ?_
  have inside := fun isNew => (List.mem_filter.mp (fetched log member isNew)).2
  by_cases isNew : n < log.1.eventNonce
  · simpa [isNew] using inside isNew
  · simp [isNew]

/-- **When a round is accepted whole.** -/
theorem acceptedWhole_iff (lawful : crates.Lawful)
    (reads : ModuleReads crates sdk unmarshalInt ourAddress account)
    (known : orchestratorValidator account = some validator)
    (inRange : ∀ log ∈ history, log.1.InRange)
    (gapless : history.map (fun log => log.1.eventNonce) = List.range' 1 m)
    (fetched : ∀ log ∈ history, n < log.1.eventNonce →
      log ∈ logsBetween history startingBlock latestBlock)
    (last : oracle.getLastEventNonceByValidator validator = n) (later : n < m) :
    AcceptedWhole evm crates sdk unmarshalInt ourAddress orchestratorValidator blockHeight validator
        history (logsBetween history startingBlock latestBlock) oracle n m ↔
      (∀ log ∈ logsBetween history startingBlock latestBlock, Parses log) ∧
        ∀ log ∈ history, n < log.1.eventNonce → Claimable log := by
  have among : ∀ log ∈ logsBetween history startingBlock latestBlock, log ∈ history :=
    fun log member => (List.mem_filter.mp member).1
  have nonces := nonces_of_new gapless later.le
  have count : (history.filter fun log => n < log.1.eventNonce).length = m - n := by
    rw [← List.length_map (fun log : GravityEvent × Nat => log.1.eventNonce), nonces,
      List.length_range']
  have round := checkForEvents_eq_ok_iff evm lawful ourAddress n (fun log member => inRange log (among log member))
    ((increasing_of_gapless gapless).filter _)
  unfold newClaims at round
  rw [new_of_fetched fetched] at round
  have accepted := fun parses : ∀ log ∈ history.filter (fun log => n < log.1.eventNonce), Parses log =>
    acceptClaims_iff blockHeight lawful reads known
      (fun log member => inRange log (List.mem_filter.mp member).1) parses oracle
      (by rw [last, nonces, count])
  rw [last, count, Nat.add_sub_cancel' later.le] at accepted
  have isNew : ∀ log ∈ history.filter (fun log => n < log.1.eventNonce),
      log ∈ history ∧ n < log.1.eventNonce := fun log member => by
    simpa using List.mem_filter.mp member
  constructor
  · rintro ⟨claims, after, sent, rfl, _, executed, ends⟩
    obtain ⟨_, parses, blocks⟩ := (round _).mp sent
    have amounts := (accepted fun log member =>
      parses log (fetched log (isNew log member).1 (isNew log member).2)).mp ⟨after, executed, ends⟩
    refine ⟨parses, fun log member unseen => ⟨amounts log ?_, blocks log (fetched log member unseen)
      unseen⟩⟩
    exact List.mem_filter.mpr ⟨member, decide_eq_true unseen⟩
  · rintro ⟨parses, claimable⟩
    obtain ⟨after, executed, ends⟩ := (accepted fun log member =>
      parses log (fetched log (isNew log member).1 (isNew log member).2)).mpr
        fun log member => (claimable log (isNew log member).1 (isNew log member).2).1
    refine ⟨_, after, (round _).mpr ⟨rfl, parses, fun log member unseen =>
      (claimable log (among log member) unseen).2⟩, rfl, ?_, executed, ends⟩
    rw [List.map_map, ← nonces]
    exact List.map_congr_left fun log _ => eventNonce_wireClaim log

end Histories

/-- **A round of claims is accepted whole.** For a gapless history of the contract and a range that holds
every event the module has not seen from the validator: the round sends one claim for each of these
events, with its fields, in the order of their nonces, and the module counts them all, exactly when every
log of the range parses and every new one is claimable. -/
theorem round_accepted_iff {evm : Evm} (lawful : crates.Lawful)
    (reads : ModuleReads crates sdk unmarshalInt ourAddress account)
    {validator : ValAddress} (known : orchestratorValidator account = some validator)
    {history : List (GravityEvent × Nat)} {m n startingBlock latestBlock : Nat}
    (inRange : ∀ log ∈ history, log.1.InRange)
    (gapless : history.map (fun log => log.1.eventNonce) = List.range' 1 m)
    (fetched : ∀ log ∈ history, n < log.1.eventNonce →
      log ∈ logsBetween history startingBlock latestBlock) {oracle : Oracle}
    (last : oracle.getLastEventNonceByValidator validator = n) (later : n < m) :
    AcceptedWhole evm crates sdk unmarshalInt ourAddress orchestratorValidator blockHeight validator
        history (logsBetween history startingBlock latestBlock) oracle n m ↔
      (∀ log ∈ logsBetween history startingBlock latestBlock, Parses log) ∧
        ∀ log ∈ history, n < log.1.eventNonce → Claimable log :=
  acceptedWhole_iff lawful reads known inRange gapless fetched last later

/-! ### Every history -/

/-- A log that becomes a claim of its own: the round that has it next sends it, and the module counts
it. -/
def BecomesClaim (evm : Evm) (crates : OracleCrates) (sdk : Sdk)
    (unmarshalInt : Bytes → Option (Option Int)) (ourAddress : Bytes)
    (orchestratorValidator : AccAddress → Option ValAddress) (validator : ValAddress)
    (log : GravityEvent × Nat) : Prop :=
  ∀ oracle : Oracle, ∀ blockHeight,
    log.1.eventNonce = oracle.getLastEventNonceByValidator validator + 1 → ∃ after,
      checkForEvents crates ourAddress (oracle.getLastEventNonceByValidator validator)
        (roundLogs evm [log]) = .ok [wireClaim crates ourAddress log] ∧
      acceptClaim unmarshalInt sdk orchestratorValidator blockHeight oracle
        (wireClaim crates ourAddress log) = some after

theorem becomesClaim_iff (evm : Evm) (lawful : crates.Lawful)
    (reads : ModuleReads crates sdk unmarshalInt ourAddress account)
    {validator : ValAddress} (known : orchestratorValidator account = some validator)
    {log : GravityEvent × Nat} (inRange : log.1.InRange) (positive : 0 < log.1.eventNonce) :
    BecomesClaim evm crates sdk unmarshalInt ourAddress orchestratorValidator validator log ↔
      Parses log ∧ Claimable log := by
  have alone := fun lastEventNonce => checkForEvents_eq_ok_iff evm lawful ourAddress lastEventNonce
    (List.forall_mem_singleton.mpr inRange) (List.pairwise_singleton _ log)
  simp only [List.forall_mem_singleton] at alone
  have sends : ∀ lastEventNonce, lastEventNonce < log.1.eventNonce →
      newClaims crates ourAddress lastEventNonce [log] = [wireClaim crates ourAddress log] := by
    intro lastEventNonce new
    simp [newClaims, new]
  constructor
  · intro becomes
    -- the oracle of a validator that has voted up to the event
    obtain ⟨after, sent, accepted⟩ := becomes
      (Oracle.empty.setLastEventNonceByValidator validator (log.1.eventNonce - 1)) 0 (by
        rw [Oracle.getLastEventNonceByValidator_set, if_pos rfl]
        omega)
    rw [Oracle.getLastEventNonceByValidator_set, if_pos rfl] at sent
    obtain ⟨_, parses, block⟩ := (alone _ _).mp sent
    refine ⟨parses, ?_, block (by omega)⟩
    by_contra large
    rw [acceptClaim, decode_wireClaim_eq_none reads large] at accepted
    cases accepted
  · rintro ⟨parses, holds, block⟩ oracle blockHeight next
    obtain ⟨after, accepted, _⟩ := (acceptClaim_next blockHeight lawful reads known inRange
      parses next).1 holds
    exact ⟨after, (alone _ _).mpr ⟨(sends _ (by omega)).symm, parses, fun _ => block⟩, accepted⟩

/-- **When no event wedges the oracle.** For every history of the contract: each of its logs becomes a
claim that the module accepts, and from every nonce on a round over all blocks is accepted whole, exactly
when all its logs parse and are claimable. -/
theorem oracle_not_wedged_iff {evm : Evm} {τ : Type} (lawful : crates.Lawful)
    (reads : ModuleReads crates sdk unmarshalInt ourAddress account)
    {validator : ValAddress} (known : orchestratorValidator account = some validator)
    {gravityId : Bytes} {powerThreshold : Nat} {validators : List EthAddress} {powers : List Nat}
    {wNomAddress : EthAddress} {contracts : τ} {blockNumber : Nat} {start : Ethereum τ}
    (deployed : deployGravity evm gravityId powerThreshold validators powers wNomAddress contracts
      blockNumber = .ok start) (others : Contracts τ) (inputs : List (EthereumInput τ)) :
    let eth := start.after evm others inputs
    ((∀ log ∈ eth.logs,
      BecomesClaim evm crates sdk unmarshalInt ourAddress orchestratorValidator validator log) ∧
      ∀ n < eth.logs.length, ∀ oracle : Oracle, oracle.getLastEventNonceByValidator validator = n →
        ∀ blockHeight, AcceptedWhole evm crates sdk unmarshalInt ourAddress orchestratorValidator
          blockHeight validator eth.logs (logsBetween eth.logs 0 eth.blockNumber) oracle n
          eth.logs.length) ↔
      ∀ log ∈ eth.logs, Parses log ∧ Claimable log := by
  intro eth
  have well : eth.WellLogged := wellLogged_after deployed others inputs
  have inRange : ∀ log ∈ eth.logs, log.1.InRange := logs_inRange_after deployed others inputs
  have positive : ∀ log ∈ eth.logs, 0 < log.1.eventNonce := by
    intro log member
    have nonce : log.1.eventNonce ∈ eth.logs.map fun log => log.1.eventNonce :=
      List.mem_map_of_mem member
    rw [well.nonces] at nonce
    exact (List.mem_range'_1.mp nonce).1
  have becomes := fun log member => becomesClaim_iff evm lawful reads known (inRange log member) (positive log member)
  constructor
  · intro both log member
    exact (becomes log member).mp (both.1 log member)
  · intro each
    refine ⟨fun log member => (becomes log member).mpr (each log member), ?_⟩
    intro n below oracle last blockHeight
    refine (acceptedWhole_iff lawful reads known inRange well.nonces ?_ last below).mpr
      ⟨fun log member => (each log (List.mem_filter.mp member).1).1,
        fun log member _ => (each log member).2⟩
    intro log member _
    exact List.mem_filter.mpr ⟨member, by simpa using well.past log member⟩

end Module

/-! ### Two rounds -/

/-- Addresses in lower case, and the spellings of `exampleAddresses`. -/
def exampleOracleCrates : OracleCrates where
  ethAddressString := hexOfAddress
  cosmosFromBytes bytes := some bytes
  toBech32 account := some (((exampleAddresses.find? fun address => address.2.2 = account).map
    fun address => address.1).getD account)

/-- The codec that reads what `exampleOracleCrates` writes. -/
def exampleOracleSdk : Sdk :=
  { exampleSdk with
    accAddressFromBech32 := fun text => some ((exampleSdk.accAddressFromBech32 text).getD text) }

/-- Decimal text of at most 255 bits. -/
def exampleUnmarshalInt (text : Bytes) : Option (Option Int) :=
  if ofDecimal text < 2 ^ 255 then some (some (ofDecimal text : Int)) else none

example : exampleUnmarshalInt (ascii "12") = some (some 12) := by decide +kernel

/-- The first of `exampleAddresses`. -/
def exampleOrchestrator : Bytes := ascii "cosmos1qyqszqgpqyqszqgpqyqszqgpqyqszqgpjnp7du"

theorem exampleOracleCrates_lawful : exampleOracleCrates.Lawful where
  accounts bytes _ := ⟨bytes, _, rfl, rfl⟩

theorem exampleModuleReads : ModuleReads exampleOracleCrates exampleOracleSdk exampleUnmarshalInt
    exampleOrchestrator (List.replicate 20 1) where
  addresses := validateEthAddress_hexOfAddress
  receivers _ _ _ := rfl
  ours := by decide +kernel
  amounts value small := by
    rw [exampleUnmarshalInt, ofDecimal_decimal, if_pos small]
  tooLarge value large := by
    rw [exampleUnmarshalInt, ofDecimal_decimal, if_neg large]

/-- The deployment, a deposit and a batch in one block, and a token in the next. -/
def exampleHistory : List (GravityEvent × Nat) :=
  [(.valsetUpdated 0 1 0 0 [9] [3000000000], 5),
    (.sendToCosmos 7 8 (List.replicate 12 0 ++ List.replicate 20 2) 500 2, 6),
    (.transactionBatchExecuted 3 7 3, 6),
    (.erc20Deployed (ascii "unom") 6 (ascii "Nom") (ascii "NOM") 18 4, 7)]

theorem round_accepted_example :
    AcceptedWhole exampleEvm exampleOracleCrates exampleOracleSdk exampleUnmarshalInt
      exampleOrchestrator (fun _ => some (List.replicate 20 1)) 30 (List.replicate 20 1) exampleHistory
      (logsBetween exampleHistory 0 10) Oracle.empty 0 4 :=
  Iff.mpr (round_accepted_iff exampleOracleCrates_lawful exampleModuleReads (by rfl)
    (by decide +kernel) (by decide +kernel) (by decide +kernel) (by decide +kernel) (by decide))
    (by decide +kernel)

/-- **An executed logic call stops every round that sees it**: its parser is not implemented. -/
theorem round_panics_of_logicCall :
    let history : List (GravityEvent × Nat) :=
      [(.valsetUpdated 0 1 0 0 [9] [3000000000], 5), (.logicCall (List.replicate 32 1) 1 [] 2, 6)]
    (∀ log ∈ history, log.1.InRange) ∧
    history.map (fun log => log.1.eventNonce) = List.range' 1 2 ∧
    (∀ log ∈ history, 0 < log.1.eventNonce → log ∈ logsBetween history 0 10) ∧
    Oracle.empty.getLastEventNonceByValidator (List.replicate 20 1) = 0 ∧
    checkForEvents exampleOracleCrates exampleOrchestrator 0
      (roundLogs exampleEvm (logsBetween history 0 10)) = .panic .unimplemented := by
  decide +kernel

/-- Deploys a token with the given denom. -/
def exampleDeploysToken (cosmosDenom : Bytes) : List (EthereumInput Unit) :=
  [directly 9 (.deployERC20 ⟨cosmosDenom, ascii "Nom", ascii "NOM", 18⟩), .blocks 3]

theorem oracle_not_wedged_example : ∃ start, reentrantDeployment = .ok start ∧
    ∀ log ∈ (start.after exampleEvm reentrantContracts (exampleDeploysToken (ascii "unom"))).logs,
      BecomesClaim exampleEvm exampleOracleCrates exampleOracleSdk exampleUnmarshalInt
        exampleOrchestrator (fun _ => some (List.replicate 20 1)) (List.replicate 20 1) log := by
  have claimable : (reentrantDeployment.toOption.map fun start => decide
      (∀ log ∈ (start.after exampleEvm reentrantContracts (exampleDeploysToken (ascii "unom"))).logs,
        Parses log ∧ Claimable log)) = some true := by
    decide +kernel
  obtain ⟨start, deployed, claimable⟩ := Option.map_eq_some_iff.mp claimable
  have deployed := except_eq_ok_of_toOption deployed
  refine ⟨start, deployed, And.left (Iff.mpr (oracle_not_wedged_iff
    exampleOracleCrates_lawful exampleModuleReads (by rfl) deployed reentrantContracts
    (exampleDeploysToken (ascii "unom"))) (of_decide_eq_true claimable))⟩

/-- **A token with a bad denom wedges the oracle**: anyone can deploy it, and every round that sees the
log fails. -/
theorem oracle_wedged_by_deployERC20 : ∃ start, reentrantDeployment = .ok start ∧
    let eth := start.after exampleEvm reentrantContracts (exampleDeploysToken [0xff])
    eth.logs.map (fun log => log.1.eventNonce) = [1, 2] ∧
    ∀ n < 2, checkForEvents exampleOracleCrates exampleOrchestrator n
      (roundLogs exampleEvm (logsBetween eth.logs 0 eth.blockNumber)) = .error (.notUtf8 [0xff]) := by
  have wedged : (reentrantDeployment.toOption.map fun start =>
      let eth := start.after exampleEvm reentrantContracts (exampleDeploysToken [0xff])
      decide (eth.logs.map (fun log => log.1.eventNonce) = [1, 2] ∧
        ∀ n < 2, checkForEvents exampleOracleCrates exampleOrchestrator n
          (roundLogs exampleEvm (logsBetween eth.logs 0 eth.blockNumber)) =
            .error (.notUtf8 [0xff]))) = some true := by
    decide +kernel
  obtain ⟨start, deployed, wedged⟩ := Option.map_eq_some_iff.mp wedged
  exact ⟨start, except_eq_ok_of_toOption deployed, of_decide_eq_true wedged⟩

-- nothing is new after the last event
example : newClaims exampleOracleCrates exampleOrchestrator 4 exampleHistory = [] := by
  decide +kernel

end NabBridge
