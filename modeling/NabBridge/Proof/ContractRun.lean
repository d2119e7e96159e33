/-
**Runs of the contract.**

From the deployment on, any list of transactions and new blocks, with any foreign code. The bridge
may be entered at any point of that code, also from the tokens and the logic contracts it calls
itself.

* `event_nonces_gapless`: the logs are numbered `1, 2, 3, …`;
* `replay_protection`: nonces go up, so nothing is executed twice, and a reverted call leaves no trace;
* `valset_custody`: the stored checkpoint is that of the last installed validator set, and that set
  has approved what was accepted after it.

Each is an invariant that changes of the other contracts, new blocks and accepted calls keep
(`Ethereum.after_keeps`).
-/

import NabBridge.Lib.Nonces
import NabBridge.Lib.Run
import NabBridge.Proof.ForgedQuorum
import NabBridge.Proof.Preimages

namespace NabBridge

variable {τ : Type} {evm : Evm}

/-! ### A run with reentrant tokens -/

/-- A token that, whenever it is transferred, first tries to deposit and then deploys a token. -/
def reentrantToken (eth : Ethereum Unit) : Callee Unit :=
  .calls eth.contracts 8 (.sendToCosmos 7 (List.replicate 32 0) 1) fun _ =>
    .calls eth.contracts 8 (.deployERC20 ⟨ascii "unom", ascii "NOM", ascii "NOM", 18⟩) fun _ =>
      .returns [] eth.contracts

/-- Every contract is such a token. -/
def reentrantContracts : Contracts Unit where
  safeTransfer _ _ _ := reentrantToken
  safeTransferFrom _ _ _ := reentrantToken
  burn _ := reentrantToken
  functionCall _ _ := reentrantToken
  newCosmosERC20 _ contracts := (6, contracts)

/-- The validator of `exampleEvm` holds all power. -/
def reentrantSet (nonce rewardAmount : Nat) (rewardToken : EthAddress) : ValsetArgs :=
  ⟨[hexToAddress (ascii "0xd041c41EA1bf0F006ADBb6d2c9ef9D425dE5eaD7")], [maxUint32], nonce,
    rewardAmount, rewardToken⟩

def reentrantSignatures : Signatures := ⟨[27], [List.replicate 32 0], [List.replicate 32 0]⟩

def reentrantDeployment : Except GravityRevert (Ethereum Unit) :=
  deployGravity exampleEvm (List.replicate 32 0) 2863311530 (reentrantSet 0 0 0).validators
    (reentrantSet 0 0 0).powers 0 () 100

/-- A transaction that only calls the bridge. -/
def directly (sender : EthAddress) (call : GravityCall) : EthereumInput Unit :=
  .transaction fun eth => .calls eth.contracts sender call fun
    | .ok after => .returns [] after.contracts
    | .error _ => .reverts

/-- A validator set with a reward, a batch, the same batch again, and a logic call. -/
def reentrantInputs : List (EthereumInput Unit) :=
  let batch : GravityCall := .submitBatch (reentrantSet 1 5 7) reentrantSignatures
    ⟨[20, 30], [2, 3], [1, 1], 1, 7, 200⟩
  [directly 9 (.updateValset (reentrantSet 1 5 7) (reentrantSet 0 0 0) reentrantSignatures),
    directly 9 batch, .blocks 3, directly 9 batch,
    directly 9 (.submitLogicCall (reentrantSet 1 5 7) reentrantSignatures
      ⟨[4], [7], [], [], 5, [], 300, List.replicate 32 1, 2⟩)]

/-! ### Event nonces -/

theorem wellLogged_of_deployed {gravityId : Bytes} {powerThreshold : Nat}
    {validators : List EthAddress} {powers : List Nat} {wNomAddress : EthAddress} {contracts : τ}
    {blockNumber : Nat} {eth : Ethereum τ}
    (deployed : deployGravity evm gravityId powerThreshold validators powers wNomAddress contracts
      blockNumber = .ok eth) : eth.WellLogged := by
  obtain ⟨_, _, _, rfl⟩ := deployGravity_eq_ok deployed
  refine ⟨rfl, rfl, List.pairwise_singleton _ _, fun log member => ?_⟩
  rw [List.mem_singleton.mp member]

theorem wellLogged_after {gravityId : Bytes} {powerThreshold : Nat} {validators : List EthAddress}
    {powers : List Nat} {wNomAddress : EthAddress} {contracts : τ} {blockNumber : Nat}
    {start : Ethereum τ}
    (deployed : deployGravity evm gravityId powerThreshold validators powers wNomAddress contracts
      blockNumber = .ok start) (others : Contracts τ) (inputs : List (EthereumInput τ)) :
    (start.after evm others inputs).WellLogged := by
  refine Ethereum.after_keeps Ethereum.WellLogged (fun _ _ well => well.congr rfl rfl rfl) ?_
    (fun _ _ _ _ well accepts => accepts.wellLogged well) (wellLogged_of_deployed deployed) inputs
  intro eth count well
  exact ⟨well.nonces, well.lastEventNonce, well.blocks,
    fun log member => (well.past log member).trans (Nat.le_add_right _ _)⟩

/-- Every log holds values of its Solidity types. -/
theorem logs_inRange_after {gravityId : Bytes} {powerThreshold : Nat} {validators : List EthAddress}
    {powers : List Nat} {wNomAddress : EthAddress} {contracts : τ} {blockNumber : Nat}
    {start : Ethereum τ}
    (deployed : deployGravity evm gravityId powerThreshold validators powers wNomAddress contracts
      blockNumber = .ok start) (others : Contracts τ) (inputs : List (EthereumInput τ)) :
    ∀ log ∈ (start.after evm others inputs).logs, log.1.InRange := by
  refine Ethereum.after_keeps (fun eth => ∀ log ∈ eth.logs, log.1.InRange) (fun _ _ kept => kept)
    (fun _ _ kept => kept) (fun sender call eth after kept accepts log member => ?_) ?_ inputs
  · exact (accepts.events log member).elim (kept log) id
  · obtain ⟨_, inRange, lengths, rfl⟩ := deployGravity_eq_ok deployed
    intro log member
    rw [List.mem_singleton.mp member]
    exact ⟨by decide, by decide, by decide, lengths, inRange.1, inRange.2.2.1⟩

/-- The logs are never rewritten. -/
theorem Ethereum.logs_prefix (evm : Evm) (others : Contracts τ) (start : Ethereum τ)
    (inputs : List (EthereumInput τ)) :
    start.logs <+: (start.after evm others inputs).logs := by
  refine Ethereum.after_keeps (fun eth => start.logs <+: eth.logs) (fun _ _ old => old)
    (fun _ _ old => old) (fun sender call eth after old accepts => ?_) List.prefix_rfl inputs
  obtain ⟨nested, event, logs, _⟩ := accepts.logs
  rw [logs, List.append_assoc]
  exact old.trans (List.prefix_append _ _)

/-- **Gapless event nonces.** After any transactions, the event nonces of the logs are `1, 2, 3, …`
in the order of emission, starting with the constructor's event. -/
theorem event_nonces_gapless {gravityId : Bytes} {powerThreshold : Nat}
    {validators : List EthAddress} {powers : List Nat} {wNomAddress : EthAddress} {contracts : τ}
    {blockNumber : Nat} {start : Ethereum τ}
    (deployed : deployGravity evm gravityId powerThreshold validators powers wNomAddress contracts
      blockNumber = .ok start) (others : Contracts τ) (inputs : List (EthereumInput τ)) :
    (start.after evm others inputs).logs.map (fun log => log.1.eventNonce) =
        List.range' 1 (start.after evm others inputs).logs.length ∧
      (start.after evm others inputs).logs.head? =
        some (.valsetUpdated 0 1 0 0 validators powers, blockNumber) := by
  have well := wellLogged_after deployed others inputs
  obtain ⟨later, logs⟩ := Ethereum.logs_prefix evm others start inputs
  obtain ⟨_, _, _, rfl⟩ := deployGravity_eq_ok deployed
  exact ⟨well.nonces, by rw [← logs]; rfl⟩

/-- The tokens deployed in the middle of other calls are numbered in between. -/
theorem event_nonces_gapless_reentrant : ∃ start,
    reentrantDeployment = .ok start ∧
    (start.after exampleEvm reentrantContracts reentrantInputs).logs.length = 10 ∧
    (start.after exampleEvm reentrantContracts reentrantInputs).logs.map
      (fun log => log.1.eventNonce) = List.range' 1 10 := by
  have length : (reentrantDeployment.toOption.map fun start =>
      (start.after exampleEvm reentrantContracts reentrantInputs).logs.length) = some 10 := by
    decide +kernel
  obtain ⟨start, deployed, length⟩ := Option.map_eq_some_iff.mp length
  have deployed := except_eq_ok_of_toOption deployed
  have gapless := (event_nonces_gapless deployed reentrantContracts reentrantInputs).1
  rw [length] at gapless
  exact ⟨start, deployed, length, gapless⟩

/-! ### Replays -/

/-- The batches that were executed: token and nonce. -/
def executedBatchNonces (accepted : List (EthAddress × GravityCall)) : List (EthAddress × Nat) :=
  accepted.filterMap fun
    | (_, .submitBatch _ _ args) => some (args.tokenContract, args.batchNonce)
    | _ => none

/-- The logic calls that were executed: invalidation id and nonce. -/
def executedLogicCallNonces (accepted : List (EthAddress × GravityCall)) : List (Bytes × Nat) :=
  accepted.filterMap fun
    | (_, .submitLogicCall _ _ args) => some (args.invalidationId, args.invalidationNonce)
    | _ => none

/-- What a call adds to a selection of the accepted calls that passes over deployments. -/
theorem filterMap_accepted {α : Type} {select : EthAddress × GravityCall → Option α}
    (passesOver : ∀ entry, entry.2.isDeployment = true → select entry = none) {sender : EthAddress}
    {call : GravityCall} {before after : Ethereum τ}
    (accepts : before.Accepts evm sender call after) :
    after.accepted.filterMap select =
      before.accepted.filterMap select ++ (select (sender, call)).toList := by
  obtain ⟨nested, accepted, deployments⟩ := accepts.accepted
  have none : nested.filterMap select = [] :=
    List.filterMap_eq_nil_iff.mpr fun entry member => passesOver entry (deployments entry member)
  rw [accepted, List.filterMap_append, List.filterMap_append, none, List.append_nil,
    List.filterMap_cons, List.filterMap_nil]
  cases select (sender, call) <;> rfl

/-- The marks of the contract are above everything it executed. -/
structure ReplayInvariant (eth : Ethereum τ) : Prop where
  batches : Rising eth.gravity.lastBatchNonces (executedBatchNonces eth.accepted)
  logicCalls : Rising eth.gravity.invalidationMapping (executedLogicCallNonces eth.accepted)

/-- **An accepted call** executes what lies above the mark, and moves the mark there. -/
theorem ReplayInvariant.accepts {sender : EthAddress} {call : GravityCall}
    {before after : Ethereum τ} (invariant : ReplayInvariant before)
    (accepts : before.Accepts evm sender call after) : ReplayInvariant after := by
  have batches : executedBatchNonces after.accepted = _ :=
    filterMap_accepted (fun entry deployment => by
      obtain ⟨_, call⟩ := entry
      cases call with
      | deployERC20 => rfl
      | _ => cases deployment) accepts
  have logicCalls : executedLogicCallNonces after.accepted = _ :=
    filterMap_accepted (fun entry deployment => by
      obtain ⟨_, call⟩ := entry
      cases call with
      | deployERC20 => rfl
      | _ => cases deployment) accepts
  refine ⟨?_, ?_⟩
  · rw [batches, accepts.gravity]
    cases call with
    | submitBatch currentValset signatures args => exact invariant.batches.issue accepts.passes.1
    | updateValset => rw [Option.toList, List.append_nil]; exact invariant.batches
    | submitLogicCall => rw [Option.toList, List.append_nil]; exact invariant.batches
    | sendToCosmos => rw [Option.toList, List.append_nil]; exact invariant.batches
    | deployERC20 => rw [Option.toList, List.append_nil]; exact invariant.batches
  · rw [logicCalls, accepts.gravity]
    cases call with
    | submitLogicCall currentValset signatures args =>
        exact invariant.logicCalls.issue accepts.passes.1
    | updateValset => rw [Option.toList, List.append_nil]; exact invariant.logicCalls
    | submitBatch => rw [Option.toList, List.append_nil]; exact invariant.logicCalls
    | sendToCosmos => rw [Option.toList, List.append_nil]; exact invariant.logicCalls
    | deployERC20 => rw [Option.toList, List.append_nil]; exact invariant.logicCalls

/-- **Replay protection.** After any transactions: for each token the executed batch nonces went up,
for each invalidation id the executed invalidation nonces went up, and none was executed twice. At
any point of any transaction, whoever makes a call that reverts goes on with the chain as it was. -/
theorem replay_protection {gravityId : Bytes} {powerThreshold : Nat}
    {validators : List EthAddress} {powers : List Nat} {wNomAddress : EthAddress} {contracts : τ}
    {blockNumber : Nat} {start : Ethereum τ}
    (deployed : deployGravity evm gravityId powerThreshold validators powers wNomAddress contracts
      blockNumber = .ok start) (others : Contracts τ) (inputs : List (EthereumInput τ)) :
    let eth := start.after evm others inputs
    (executedBatchNonces eth.accepted).Pairwise
        (fun first second => first.1 = second.1 → first.2 < second.2) ∧
      (executedLogicCallNonces eth.accepted).Pairwise
        (fun first second => first.1 = second.1 → first.2 < second.2) ∧
      (executedBatchNonces eth.accepted).Nodup ∧ (executedLogicCallNonces eth.accepted).Nodup ∧
      ∀ depth sender call reason (before : Ethereum τ),
        Ethereum.callAt evm others depth sender call before = .error reason →
        ∀ next, (Callee.calls before.contracts sender call next).run
            (Ethereum.callAt evm others depth) before =
          (next (.error reason)).run (Ethereum.callAt evm others depth) before := by
  have invariant : ReplayInvariant (start.after evm others inputs) := by
    refine Ethereum.after_keeps ReplayInvariant (fun _ _ kept => ⟨kept.batches, kept.logicCalls⟩)
      (fun _ _ kept => ⟨kept.batches, kept.logicCalls⟩)
      (fun _ _ _ _ kept accepts => kept.accepts accepts) ?_ inputs
    obtain ⟨_, _, _, rfl⟩ := deployGravity_eq_ok deployed
    exact ⟨Rising.empty _, Rising.empty _⟩
  refine ⟨invariant.batches.increasing, invariant.logicCalls.increasing, invariant.batches.nodup,
    invariant.logicCalls.nodup, fun depth sender call reason before reverted next => ?_⟩
  rw [Callee.run, reverted]

/-- The second submission of the batch has no effect. -/
theorem replay_protection_reentrant : ∃ start,
    reentrantDeployment = .ok start ∧
    executedBatchNonces (start.after exampleEvm reentrantContracts reentrantInputs).accepted =
      [(7, 1)] ∧
    executedLogicCallNonces (start.after exampleEvm reentrantContracts reentrantInputs).accepted =
      [(List.replicate 32 1, 2)] ∧
    (executedBatchNonces
      (start.after exampleEvm reentrantContracts reentrantInputs).accepted).Nodup := by
  have executed : (reentrantDeployment.toOption.map fun start =>
      (executedBatchNonces (start.after exampleEvm reentrantContracts reentrantInputs).accepted,
        executedLogicCallNonces
          (start.after exampleEvm reentrantContracts reentrantInputs).accepted)) =
      some ([(7, 1)], [(List.replicate 32 1, 2)]) := by
    decide +kernel
  obtain ⟨start, deployed, executed⟩ := Option.map_eq_some_iff.mp executed
  obtain ⟨batches, logicCalls⟩ := Prod.mk.inj executed
  have deployed := except_eq_ok_of_toOption deployed
  have safe := replay_protection deployed reentrantContracts reentrantInputs
  exact ⟨start, deployed, batches, logicCalls, safe.2.2.1⟩

/-! ### Validator sets -/

/-- The validator set a call installs. -/
def GravityCall.installs : GravityCall → Option ValsetArgs
  | updateValset newValset _ _ => some newValset
  | _ => none

/-- The validator sets that were installed, the one of the constructor first. -/
def installedValsets (initial : ValsetArgs) (accepted : List (EthAddress × GravityCall)) :
    List ValsetArgs :=
  initial :: accepted.filterMap fun entry => entry.2.installs

/-- The validator set that is installed. -/
def installedValset (initial : ValsetArgs) (accepted : List (EthAddress × GravityCall)) :
    ValsetArgs :=
  (accepted.filterMap fun entry => entry.2.installs).getLastD initial

/-- Distinct entries of the signature arrays pass `verifySig` for a hash, and have together more than
the threshold of the powers of a validator set. -/
def Quorum (evm : Evm) (powerThreshold : Nat) (valset : ValsetArgs) (signatures : Signatures)
    (theHash : Bytes) : Prop :=
  ∃ counted : List Nat, counted.Nodup ∧
    (∀ i ∈ counted, Verifies evm theHash valset.validators signatures.v signatures.r signatures.s i) ∧
    powerThreshold < (counted.map (powerAt valset.powers)).sum

/-- The call names the given validator set, and a quorum of it has signed the call's object. -/
def GravityCall.ApprovedBy (evm : Evm) (gravityId : Bytes) (powerThreshold : Nat)
    (valset : ValsetArgs) : GravityCall → Prop
  | updateValset newValset currentValset signatures =>
      currentValset = valset ∧
        Quorum evm powerThreshold valset signatures (makeCheckpoint evm newValset gravityId)
  | submitBatch currentValset signatures args =>
      currentValset = valset ∧
        Quorum evm powerThreshold valset signatures (batchHash evm args gravityId)
  | submitLogicCall currentValset signatures args =>
      currentValset = valset ∧
        Quorum evm powerThreshold valset signatures (logicCallHash evm args gravityId)
  | sendToCosmos _ _ _ => True
  | deployERC20 _ => True

/-- A call was approved by the validator set installed after the calls before it. -/
def ApprovedAfter (evm : Evm) (gravityId : Bytes) (powerThreshold : Nat) (initial : ValsetArgs)
    (past : List (EthAddress × GravityCall)) (entry : EthAddress × GravityCall) : Prop :=
  entry.2.ApprovedBy evm gravityId powerThreshold (installedValset initial past)

theorem checkQuorum_eq_ok {gravity : GravityState} {valset : ValsetArgs} {signatures : Signatures}
    {theHash : Bytes} (passed : checkQuorum evm gravity valset signatures theHash = .ok ()) :
    Quorum evm gravity.powerThreshold valset signatures theHash := by
  unfold checkQuorum at passed
  cases checked : checkValidatorSignatures evm valset.validators valset.powers signatures.v
      signatures.r signatures.s theHash gravity.powerThreshold with
  | error reason => rw [checked] at passed; cases passed
  | ok value => exact checkValidatorSignatures_eq_ok checked

/-- **The custody of the validator set**: the storage is that of the last installed set, each
installed set has a higher nonce than those before it, and every accepted call was approved by the
set installed at its time. -/
structure CustodyInvariant (evm : Evm) (gravityId : Bytes) (powerThreshold : Nat)
    (initial : ValsetArgs) (eth : Ethereum τ) : Prop where
  sameId : eth.gravity.gravityId = gravityId
  sameThreshold : eth.gravity.powerThreshold = powerThreshold
  inRange : (installedValset initial eth.accepted).InRange
  checkpoint : eth.gravity.lastValsetCheckpoint =
    makeCheckpoint evm (installedValset initial eth.accepted) gravityId
  nonce : eth.gravity.lastValsetNonce = (installedValset initial eth.accepted).valsetNonce
  increasing : (installedValsets initial eth.accepted).Pairwise
    fun first second => first.valsetNonce < second.valsetNonce
  highest : ∀ valset ∈ installedValsets initial eth.accepted,
    valset.valsetNonce ≤ eth.gravity.lastValsetNonce
  approved : Justified (ApprovedAfter evm gravityId powerThreshold initial) [] eth.accepted

section Custody

variable {gravityId : Bytes} {powerThreshold : Nat} {initial : ValsetArgs}

theorem installs_of_isDeployment {entry : EthAddress × GravityCall}
    (deployment : entry.2.isDeployment = true) : entry.2.installs = none := by
  obtain ⟨_, call⟩ := entry
  cases call with
  | deployERC20 => rfl
  | _ => cases deployment

theorem installedValset_append (past new : List (EthAddress × GravityCall)) :
    installedValset initial (past ++ new) = installedValset (installedValset initial past) new := by
  unfold installedValset
  rw [List.filterMap_append]
  cases new.filterMap fun entry => entry.2.installs with
  | nil => rw [List.append_nil]; rfl
  | cons head tail => simp

theorem installedValset_nested {nested : List (EthAddress × GravityCall)}
    (deployments : ∀ entry ∈ nested, entry.2.isDeployment = true) :
    installedValset initial nested = initial := by
  unfold installedValset
  rw [List.filterMap_eq_nil_iff.mpr fun entry member =>
    installs_of_isDeployment (deployments entry member)]
  rfl

/-- Deployments need no approval. -/
theorem justified_nested {past nested : List (EthAddress × GravityCall)}
    (deployments : ∀ entry ∈ nested, entry.2.isDeployment = true) :
    Justified (ApprovedAfter evm gravityId powerThreshold initial) past nested := by
  induction nested generalizing past with
  | nil => trivial
  | cons entry rest ih =>
      refine ⟨?_, ih fun other member => deployments other (List.mem_cons_of_mem _ member)⟩
      have deployment := deployments entry List.mem_cons_self
      obtain ⟨_, call⟩ := entry
      cases call with
      | deployERC20 => trivial
      | _ => cases deployment

variable {eth : Ethereum τ}

/-- **The checkpoint equality identifies the validator set**, if the hash is collision free. -/
theorem CustodyInvariant.current (invariant : CustodyInvariant evm gravityId powerThreshold initial eth)
    (collisionFree : Function.Injective evm.keccak256) (id : gravityId.length = 32)
    {valset : ValsetArgs} (range : valset.InRange)
    (same : makeCheckpoint evm valset eth.gravity.gravityId = eth.gravity.lastValsetCheckpoint) :
    valset = installedValset initial eth.accepted := by
  rw [invariant.sameId, invariant.checkpoint] at same
  exact ValsetArgs.preimage_inj id range invariant.inRange (collisionFree same)

/-- What passes the checks of the contract is approved by the installed validator set. -/
theorem CustodyInvariant.approves (invariant : CustodyInvariant evm gravityId powerThreshold initial eth)
    (collisionFree : Function.Injective evm.keccak256) (id : gravityId.length = 32)
    {valset : ValsetArgs} {signatures : Signatures} {theHash : Bytes} (range : valset.InRange)
    (approves : eth.gravity.Approves evm valset signatures theHash) :
    valset = installedValset initial eth.accepted ∧
      Quorum evm powerThreshold (installedValset initial eth.accepted) signatures theHash := by
  have same := invariant.current collisionFree id range approves.checkpoint
  have quorum := checkQuorum_eq_ok approves.quorum
  rw [invariant.sameThreshold, same] at quorum
  exact ⟨same, quorum⟩

theorem CustodyInvariant.approvedBy
    (invariant : CustodyInvariant evm gravityId powerThreshold initial eth)
    (collisionFree : Function.Injective evm.keccak256) (id : gravityId.length = 32)
    {call : GravityCall} (range : call.InRange) (passes : call.Passes evm eth) :
    call.ApprovedBy evm gravityId powerThreshold (installedValset initial eth.accepted) := by
  cases call with
  | updateValset newValset currentValset signatures =>
      have approved := invariant.approves collisionFree id range.2.1 passes.2.2
      rwa [invariant.sameId] at approved
  | submitBatch currentValset signatures args =>
      have approved := invariant.approves collisionFree id range.1 passes.2.2
      rwa [invariant.sameId] at approved
  | submitLogicCall currentValset signatures args =>
      have approved := invariant.approves collisionFree id range.1 passes.2.2
      rwa [invariant.sameId] at approved
  | sendToCosmos => trivial
  | deployERC20 => trivial

theorem GravityCall.actions_constants (call : GravityCall) (gravity : GravityState) :
    (call.actions evm gravity).gravityId = gravity.gravityId ∧
      (call.actions evm gravity).powerThreshold = gravity.powerThreshold := by
  cases call <;> exact ⟨rfl, rfl⟩

/-- A call that installs no validator set leaves the checkpoint as it is. -/
theorem GravityCall.actions_of_not_installs {call : GravityCall} (none : call.installs = none)
    (evm : Evm) (gravity : GravityState) :
    (call.actions evm gravity).lastValsetCheckpoint = gravity.lastValsetCheckpoint ∧
      (call.actions evm gravity).lastValsetNonce = gravity.lastValsetNonce := by
  cases call with
  | updateValset => cases none
  | _ => exact ⟨rfl, rfl⟩

/-- **An accepted call keeps the custody.** -/
theorem CustodyInvariant.accepts
    (invariant : CustodyInvariant evm gravityId powerThreshold initial eth)
    (collisionFree : Function.Injective evm.keccak256) (id : gravityId.length = 32)
    {sender : EthAddress} {call : GravityCall} {after : Ethereum τ}
    (accepts : eth.Accepts evm sender call after) :
    CustodyInvariant evm gravityId powerThreshold initial after := by
  obtain ⟨nested, accepted, deployments⟩ := accepts.accepted
  have approvedBy := invariant.approvedBy collisionFree id accepts.inRange accepts.passes
  have before : installedValset initial (eth.accepted ++ nested) =
      installedValset initial eth.accepted := by
    rw [installedValset_append, installedValset_nested deployments]
  have approved :
      Justified (ApprovedAfter evm gravityId powerThreshold initial) [] after.accepted := by
    rw [accepted, justified_append, justified_append]
    refine ⟨⟨invariant.approved, justified_nested deployments⟩, ?_, trivial⟩
    rw [List.nil_append, ApprovedAfter, before]
    exact approvedBy
  have all : installedValsets initial after.accepted =
      installedValsets initial eth.accepted ++ call.installs.toList := by
    unfold installedValsets
    rw [filterMap_accepted (fun _ => installs_of_isDeployment) accepts]
    rfl
  have last : installedValset initial after.accepted =
      call.installs.getD (installedValset initial eth.accepted) := by
    rw [accepted, installedValset_append, before]
    unfold installedValset
    cases installs : call.installs <;> simp [installs]
  have sameId : after.gravity.gravityId = gravityId := by
    rw [accepts.gravity, ← invariant.sameId]
    exact (call.actions_constants _).1
  have sameThreshold : after.gravity.powerThreshold = powerThreshold := by
    rw [accepts.gravity, ← invariant.sameThreshold]
    exact (call.actions_constants _).2
  cases installs : call.installs with
  | none =>
      obtain ⟨checkpoint, nonce⟩ := GravityCall.actions_of_not_installs installs evm eth.gravity
      rw [installs, Option.getD_none] at last
      rw [installs, Option.toList_none, List.append_nil] at all
      have sameNonce : after.gravity.lastValsetNonce = eth.gravity.lastValsetNonce := by
        rw [accepts.gravity]
        exact nonce
      refine ⟨sameId, sameThreshold, last ▸ invariant.inRange, ?_, ?_, all ▸ invariant.increasing, ?_,
        approved⟩
      · rw [last, ← invariant.checkpoint, accepts.gravity]
        exact checkpoint
      · rw [last, ← invariant.nonce, sameNonce]
      · rw [all, sameNonce]
        exact invariant.highest
  | some newValset =>
      rw [installs, Option.getD_some] at last
      rw [installs, Option.toList_some] at all
      cases call with
      | updateValset installed currentValset signatures =>
          obtain rfl := Option.some.inj installs
          -- the caller's current set is the installed one, so its nonce is the stored one
          have higher : eth.gravity.lastValsetNonce < installed.valsetNonce := by
            rw [invariant.nonce, ← approvedBy.1]
            exact accepts.passes.1
          have sameNonce : after.gravity.lastValsetNonce = installed.valsetNonce := by
            rw [accepts.gravity]
            rfl
          refine ⟨sameId, sameThreshold, last ▸ accepts.inRange.1, ?_, ?_, ?_, ?_, approved⟩
          · rw [last, accepts.gravity, ← invariant.sameId]
            rfl
          · rw [last, sameNonce]
          · rw [all, List.pairwise_append]
            refine ⟨invariant.increasing, List.pairwise_singleton _ _, fun old inside new isNew => ?_⟩
            rw [List.mem_singleton.mp isNew]
            exact lt_of_le_of_lt (invariant.highest old inside) higher
          · rw [all, sameNonce]
            intro valset member
            rcases List.mem_append.mp member with old | new
            · exact le_of_lt (lt_of_le_of_lt (invariant.highest valset old) higher)
            · rw [List.mem_singleton.mp new]
      | submitBatch => cases installs
      | submitLogicCall => cases installs
      | sendToCosmos => cases installs
      | deployERC20 => cases installs

end Custody

/-- **Valset chain of custody.** After any transactions, if the hash is collision free: the stored
checkpoint is that of the last installed validator set, whose nonce is the stored one; the nonces of
the installed sets went up, so none was installed twice; and every validator set, batch and logic call
that was accepted was approved by a quorum of the set installed right before. -/
theorem valset_custody {gravityId : Bytes} {powerThreshold : Nat} {validators : List EthAddress}
    {powers : List Nat} {wNomAddress : EthAddress} {contracts : τ} {blockNumber : Nat}
    {start : Ethereum τ} (collisionFree : Function.Injective evm.keccak256)
    (deployed : deployGravity evm gravityId powerThreshold validators powers wNomAddress contracts
      blockNumber = .ok start) (others : Contracts τ) (inputs : List (EthereumInput τ)) :
    let eth := start.after evm others inputs
    let initial : ValsetArgs := ⟨validators, powers, 0, 0, 0⟩
    eth.gravity.lastValsetCheckpoint =
        makeCheckpoint evm (installedValset initial eth.accepted) eth.gravity.gravityId ∧
      (installedValset initial eth.accepted).valsetNonce = eth.gravity.lastValsetNonce ∧
      (installedValsets initial eth.accepted).Pairwise
        (fun first second => first.valsetNonce < second.valsetNonce) ∧
      (installedValsets initial eth.accepted).Nodup ∧
      Justified (ApprovedAfter evm eth.gravity.gravityId eth.gravity.powerThreshold initial) []
        eth.accepted := by
  have invariant : CustodyInvariant evm gravityId powerThreshold ⟨validators, powers, 0, 0, 0⟩
      (start.after evm others inputs) := by
    obtain ⟨id, inRange, _, rfl⟩ := deployGravity_eq_ok deployed
    refine Ethereum.after_keeps
      (CustodyInvariant evm gravityId powerThreshold ⟨validators, powers, 0, 0, 0⟩)
      (fun _ _ kept => ⟨kept.sameId, kept.sameThreshold, kept.inRange, kept.checkpoint, kept.nonce,
        kept.increasing, kept.highest, kept.approved⟩)
      (fun _ _ kept => ⟨kept.sameId, kept.sameThreshold, kept.inRange, kept.checkpoint, kept.nonce,
        kept.increasing, kept.highest, kept.approved⟩)
      (fun _ _ _ _ kept accepts => kept.accepts collisionFree id accepts) ?_ inputs
    refine ⟨rfl, rfl, inRange, rfl, rfl, List.pairwise_singleton _ _, fun valset member => ?_, trivial⟩
    rw [List.mem_singleton.mp member]
  dsimp only
  rw [invariant.sameId, invariant.sameThreshold]
  refine ⟨invariant.checkpoint, invariant.nonce.symm, invariant.increasing, ?_, invariant.approved⟩
  refine invariant.increasing.imp fun {first second} higher same => ?_
  rw [same] at higher
  exact lt_irrefl _ higher

/-- The second validator set is installed, with a reward whose token calls back. -/
theorem valset_custody_reentrant : ∃ start,
    reentrantDeployment = .ok start ∧
    (start.after exampleEvm reentrantContracts reentrantInputs).gravity.lastValsetNonce = 1 ∧
    (installedValset (reentrantSet 0 0 0)
      (start.after exampleEvm reentrantContracts reentrantInputs).accepted).valsetNonce = 1 := by
  have nonce : (reentrantDeployment.toOption.map fun start =>
      (start.after exampleEvm reentrantContracts reentrantInputs).gravity.lastValsetNonce) =
        some 1 := by
    decide +kernel
  obtain ⟨start, deployed, nonce⟩ := Option.map_eq_some_iff.mp nonce
  have deployed := except_eq_ok_of_toOption deployed
  have custody := valset_custody Function.injective_id deployed reentrantContracts
    reentrantInputs
  exact ⟨start, deployed, nonce, custody.2.1.trans nonce⟩

end NabBridge
