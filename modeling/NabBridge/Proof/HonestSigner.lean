/-
**An honest signer is not convicted.**

A signer signs the encodings of what its module tells it is pending, and nothing else. What is pending is
stored, the encoding is what the module has hashed for the checkpoint, and the checkpoint of whatever was
stored is on record. So evidence with one of the signer's signatures is refused, at any later time.

* `Node.StoredInTrace`: every stored object was reported when it was stored;
* `confirmBytes_of_signedIn`: what is signed in a turn encodes a stored object;
* `honest_signer_not_convicted`: **no evidence with a signature of the signer is accepted**, if signatures
  cannot be forged.
-/

import NabBridge.Proof.Archive
import NabBridge.Proof.EthSigner

namespace NabBridge

open Orchestrator

/-! ### What is stored was reported -/

/-- Every stored object is in the history. -/
def Node.StoredInTrace {β τ : Type} (trace : List NodeOutput) (node : Node β τ) : Prop :=
  ∀ record, node.keeper.Stores record → record ∈ storedObjects trace

section Traces

variable {β τ : Type} {sdk : Sdk} {bank : BankKeeper β} {geth : Geth} {evm : Evm}
  {others : Contracts τ}

theorem Node.storedInTrace_fresh (params : Params) (balances : β) (eth : Ethereum τ) :
    (⟨KeeperState.fresh params balances, eth, false⟩ : Node β τ).StoredInTrace [] := by
  intro record stored
  cases record <;> cases stored

theorem mem_storedObjects_bridge {made : List BridgeOutput} {object : EthereumSigned} {output : BridgeOutput}
    (member : output ∈ made) (reports : (NodeOutput.bridge output).stored = some object) :
    object ∈ storedObjects (made.map .bridge) :=
  List.mem_filterMap.mpr ⟨_, List.mem_map_of_mem member, reports⟩

/-- **What is stored after a step** was stored before it, or is reported. -/
theorem BridgeEffect.stores {gravityID : Bytes} {before after : KeeperState β}
    {made : List BridgeOutput} (effect : BridgeEffect geth gravityID before.chain made after.chain)
    (calls : before.logicCalls.Within after.logicCalls) {record : EthereumSigned}
    (found : after.Stores record) :
    before.Stores record ∨ record ∈ storedObjects (made.map .bridge) := by
  cases record with
  | logicCall value => exact Or.inl (calls _ _ found)
  | batch value =>
      cases effect with
      | quiet outgoing valsets silent => exact Or.inl (outgoing.batches _ _ found)
      | sent tx outgoing valsets reported =>
          unfold KeeperState.Stores at found
          rw [outgoing.batches] at found
          exact Or.inl found
      | batchStored batch outgoing valsets reported =>
          unfold KeeperState.Stores at found
          rw [outgoing.batches] at found
          rcases Store.of_get_set found with ⟨_, rfl⟩ | earlier
          · exact Or.inr (mem_storedObjects_bridge (reported ▸ List.mem_singleton_self _) rfl)
          · exact Or.inl earlier
      | valsetStored new shuffled stored earlier outgoing recorded stores valsets silent reported =>
          unfold KeeperState.Stores at found
          rw [recorded] at found
          exact Or.inl (outgoing.batches _ _ found)
  | valset value =>
      cases effect with
      | quiet outgoing valsets silent => exact Or.inl (valsets.valsets _ _ found)
      | sent tx outgoing valsets reported =>
          unfold KeeperState.Stores at found
          rw [valsets] at found
          exact Or.inl found
      | batchStored batch outgoing valsets reported =>
          unfold KeeperState.Stores at found
          rw [valsets] at found
          exact Or.inl found
      | valsetStored new shuffled stored earlier outgoing recorded stores valsets silent reported =>
          have inStored := valsets.valsets _ _ found
          rw [stores.store] at inStored
          rcases Store.of_get_set inStored with ⟨_, rfl⟩ | before
          · have inside : BridgeOutput.valsetStored new.1 ∈ made :=
              reported ▸ List.mem_append_right _ (List.mem_singleton_self _)
            exact Or.inr (mem_storedObjects_bridge inside rfl)
          · exact Or.inl before

theorem NodeEffect.stores {input : NodeInput β τ} {before after : KeeperState β}
    {outputs : List NodeOutput} (effect : NodeEffect sdk geth input before outputs after)
    (continues : input.Continues) {record : EthereumSigned} (found : after.Stores record) :
    before.Stores record ∨ record ∈ storedObjects outputs := by
  cases effect with
  | bridge made effect calls keys params reported => exact reported ▸ effect.stores calls found
  | logicCallStored call checkpoint computed outgoing valsets calls keys params reported =>
      cases record with
      | valset value =>
          unfold KeeperState.Stores at found
          rw [valsets] at found
          exact Or.inl found
      | batch value =>
          unfold KeeperState.Stores at found
          rw [outgoing] at found
          exact Or.inl found
      | logicCall value =>
          unfold KeeperState.Stores at found
          rw [calls] at found
          rcases Store.of_get_set found with ⟨_, rfl⟩ | earlier
          · subst reported
            exact Or.inr (List.mem_singleton_self _)
          · exact Or.inl earlier
  | registered text validator orchestrator ethAddress parsed unset state silent =>
      subst state
      cases record <;> exact Or.inl found
  | setParams params set valid state silent =>
      subst state
      cases record <;> exact Or.inl found
  | restarted valsetReward attestations delegateKeys restart effect silent =>
      rw [restart] at continues
      exact continues.elim
  | aside chain calls keys params silent =>
      cases record with
      | logicCall value => exact Or.inl (calls _ _ found)
      | valset value =>
          unfold KeeperState.Stores at found
          rw [chain] at found
          exact Or.inl found
      | batch value =>
          unfold KeeperState.Stores at found
          rw [chain] at found
          exact Or.inl found

theorem Node.StoredInTrace.step {past : List NodeOutput} {node next : Node β τ} {input : NodeInput β τ}
    {outputs : List NodeOutput} (stored : node.StoredInTrace past) (continues : input.Continues)
    (step : nodeStep sdk bank geth evm others node input = some (next, outputs)) :
    next.StoredInTrace (past ++ outputs) := by
  intro record found
  rw [storedObjects_append, List.mem_append]
  exact ((nodeStep_effect step).stores continues found).imp_left (stored record)

end Traces

/-! ### What is signed -/

section Signed

variable {β τ : Type} {sdk : Sdk} {geth : Geth} {crates : SignerCrates} {signer : EthSigner}
  {gravityId : Bytes} {node : Node β τ}

theorem converted_eq_ok {α : Type} {result : Result α} {value : α} :
    converted result = .ok value ↔ result = .ok value := by
  cases result <;> simp [converted]

theorem answered_eq_ok {α : Type} {result : Except QueryError α} {value : α} :
    answered result = .ok value ↔ result = .ok value := by
  cases result <;> simp [answered]

/-- A query that succeeds has read the address. -/
theorem requestAddress_bind_eq_ok {α : Type} {address : Bytes} {answer : AccAddress → α} {value : α}
    (asked : (requestAddress sdk address >>= fun addr => pure (answer addr)) = .ok value) :
    ∃ account, value = answer account := by
  cases parsed : requestAddress sdk address with
  | error reason =>
      rw [parsed] at asked
      cases asked
  | ok account =>
      rw [parsed] at asked
      cases asked
      exact ⟨account, rfl⟩

/-- **What is signed in a turn encodes a stored object.** -/
theorem confirmBytes_of_signedIn (keyed : node.Keyed) {kind : SignedKind} {messages : List Bytes}
    (signed : signer.signedIn sdk crates gravityId node.keeper kind = .ok messages) {message : Bytes}
    (member : message ∈ messages) :
    ∃ record, node.keeper.Stores record ∧ confirmBytes crates.toCrates gravityId record = .ok message := by
  cases kind with
  | valset =>
      obtain ⟨valsets, queried, signed⟩ := Outcome.bind_eq_ok.mp signed
      obtain rfl := Outcome.ok.inj signed
      obtain ⟨valset, inside, rfl⟩ := List.mem_map.mp member
      obtain ⟨pending, answer, conversions⟩ := Outcome.bind_eq_ok.mp queried
      obtain ⟨value, there, read⟩ :=
        Outcome.exists_of_mem_mapM (converted_eq_ok.mp conversions) inside
      obtain ⟨account, rfl⟩ := requestAddress_bind_eq_ok (answered_eq_ok.mp answer)
      have stored : EthereumSigned.valset value ∈ node.keeper.objects .valset :=
        List.mem_map_of_mem (List.mem_of_mem_filter (List.mem_of_mem_take there))
      refine ⟨.valset value, (keyed.mem_objects.mp stored).2, ?_⟩
      rw [confirmBytes, read]
      rfl
  | batch =>
      obtain ⟨found, queried, signed⟩ := Outcome.bind_eq_ok.mp signed
      obtain rfl := Outcome.ok.inj signed
      obtain ⟨batch, inside, rfl⟩ := List.mem_map.mp member
      obtain rfl := Option.mem_toList.mp inside
      obtain ⟨pending, answer, conversions⟩ := Outcome.bind_eq_ok.mp queried
      obtain ⟨account, rfl⟩ := requestAddress_bind_eq_ok (answered_eq_ok.mp answer)
      cases head : node.keeper.chain.app.outgoing.getOutgoingTxBatches.find? fun batch =>
          node.keeper.confirms.Lacks account (.batch batch) with
      | none =>
          rw [head] at conversions
          cases conversions
      | some value =>
          rw [head] at conversions
          obtain ⟨read, tried, same⟩ := Outcome.bind_eq_ok.mp conversions
          obtain rfl := Option.some.inj (Outcome.ok.inj same)
          have stored : EthereumSigned.batch value ∈ node.keeper.objects .batch :=
            List.mem_map_of_mem (List.mem_of_find?_eq_some head)
          refine ⟨.batch value, (keyed.mem_objects.mp stored).2, ?_⟩
          rw [confirmBytes, converted_eq_ok.mp tried]
          rfl
  | logicCall =>
      obtain ⟨found, queried, signed⟩ := Outcome.bind_eq_ok.mp signed
      obtain rfl := Outcome.ok.inj signed
      obtain ⟨call, inside, rfl⟩ := List.mem_map.mp member
      obtain rfl := Option.mem_toList.mp inside
      obtain ⟨pending, answer, conversions⟩ := Outcome.bind_eq_ok.mp queried
      obtain ⟨account, rfl⟩ := requestAddress_bind_eq_ok (answered_eq_ok.mp answer)
      cases head : node.keeper.logicCalls.getOutgoingLogicCalls.find? fun logic =>
          node.keeper.confirms.Lacks account (.logicCall logic) with
      | none =>
          rw [head] at conversions
          cases conversions
      | some value =>
          rw [head] at conversions
          obtain ⟨read, tried, same⟩ := Outcome.bind_eq_ok.mp conversions
          obtain rfl := Option.some.inj (Outcome.ok.inj same)
          have stored : EthereumSigned.logicCall value ∈ node.keeper.objects .logicCall :=
            List.mem_map_of_mem (List.mem_of_find?_eq_some head)
          refine ⟨.logicCall value, (keyed.mem_objects.mp stored).2, ?_⟩
          rw [confirmBytes, converted_eq_ok.mp tried]
          rfl

end Signed

/-! ### Runs -/

/-- What is asked of an action: the state is not exported and imported, and the gravity id stays. -/
def SigningInput.Keeps {β τ : Type} (gravityID : Bytes) : SigningInput β τ → Prop
  | .node input => input.Keeps gravityID
  | .turn _ => True

theorem NodeInput.Keeps.continues {β τ : Type} {gravityID : Bytes} {input : NodeInput β τ}
    (keeps : input.Keeps gravityID) : input.Continues := by
  cases input with
  | restart valsetReward attestations delegateKeys => exact keeps.elim
  | _ => trivial

/-- **Signatures cannot be forged**: whatever recovers to the signer's address was made by the signer, of
something it has signed. -/
def SigningNode.Unforgeable {β τ : Type} (geth : Geth) (signer : EthSigner) (state : SigningNode β τ) :
    Prop :=
  ∀ checkpoint signature, SignedBy geth checkpoint signature signer.ourEthAddress →
    ∃ message ∈ state.signed, checkpoint = geth.keccak256 message

/-- **The invariant**: what was signed has the checkpoint of something that was stored, as long as the
orchestrator can read what is stored. -/
structure SignerInvariant {β τ : Type} (geth : Geth) (crates : Crates) (gravityID : Bytes)
    (past : List NodeOutput) (state : SigningNode β τ) : Prop where
  numbered : Numbered state.node
  keyed : state.node.Keyed
  archive : ArchiveInvariant geth gravityID past state.node
  stored : state.node.StoredInTrace past
  signed : (∀ object ∈ storedObjects past, object.Legible crates) → ∀ message ∈ state.signed,
    ∃ object ∈ storedObjects past, object.getCheckpoint geth gravityID = .ok (geth.keccak256 message)

section Runs

variable {β τ : Type} {sdk : Sdk} {bank : BankKeeper β} {geth : Geth} {evm : Evm}
  {others : Contracts τ} {crates : SignerCrates} {signer : EthSigner} {gravityId : Bytes}

theorem SignerInvariant.step (packs : geth.PacksAbi) (lawful : crates.toCrates.Lawful)
    {gravityID : Bytes} (short : gravityId.length ≤ 32) (fits : gravityID.length ≤ 32)
    (same : rightPad 32 gravityId = rightPad 32 gravityID) {past : List NodeOutput}
    {state next : SigningNode β τ} {input : SigningInput β τ} {outputs : List NodeOutput}
    (keeps : input.Keeps gravityID) (here : SignerInvariant geth crates.toCrates gravityID past state)
    (step : signingStep sdk bank geth evm others crates signer gravityId state input =
      some (next, outputs)) :
    SignerInvariant geth crates.toCrates gravityID (past ++ outputs) next := by
  cases input with
  | node input =>
      obtain ⟨⟨node, made⟩, taken, equal⟩ := Option.map_eq_some_iff.mp step
      obtain ⟨rfl, rfl⟩ := Prod.mk.inj equal
      have numbered := here.numbered.step taken
      refine ⟨numbered, here.keyed.step numbered keeps.continues taken, here.archive.step keeps taken,
        here.stored.step keeps.continues taken, fun legible message member => ?_⟩
      rw [storedObjects_append] at legible ⊢
      obtain ⟨object, earlier, computed⟩ := here.signed
        (fun object member => legible object (List.mem_append_left _ member)) message member
      exact ⟨object, List.mem_append_left _ earlier, computed⟩
  | turn kind =>
      simp only [signingStep] at step
      split at step
      · rename_i messages signed
        obtain ⟨rfl, rfl⟩ := Prod.mk.inj (Option.some.inj step)
        rw [List.append_nil]
        refine ⟨here.numbered, here.keyed, here.archive, here.stored, fun legible message member => ?_⟩
        rcases List.mem_append.mp member with earlier | now
        · exact here.signed legible message earlier
        · obtain ⟨record, stored, confirmed⟩ := confirmBytes_of_signedIn here.keyed signed now
          have reported := here.stored record stored
          exact ⟨record, reported, checkpoint_of_confirmBytes packs lawful short fits same
            (legible record reported) confirmed⟩
      · obtain ⟨rfl, rfl⟩ := Prod.mk.inj (Option.some.inj step)
        rw [List.append_nil]
        exact here

/-- **An honest signer is not convicted.** In every interleaving of everything that can happen to the module
with turns of the signer, without a restart and with one gravity id: if whatever was stored can be read by
the orchestrator, and signatures cannot be forged, then evidence with a signature of the signer is refused,
for every object and every signature. -/
theorem honest_signer_not_convicted (packs : geth.PacksAbi) (lawful : crates.toCrates.Lawful)
    {params : Params} (short : gravityId.length ≤ 32) (fits : params.gravityId.length ≤ 32)
    (same : rightPad 32 gravityId = rightPad 32 params.gravityId) {balances : β} {eth : Ethereum τ}
    {inputs : List (SigningInput β τ)} {final : SigningNode β τ} {outputs : List NodeOutput}
    (keeps : ∀ input ∈ inputs, input.Keeps params.gravityId)
    (runs : run (signingStep sdk bank geth evm others crates signer gravityId)
      ⟨⟨KeeperState.fresh params balances, eth, false⟩, []⟩ inputs = some (final, outputs))
    (legible : ∀ object ∈ storedObjects outputs, object.Legible crates.toCrates)
    (unforgeable : final.Unforgeable geth signer) (env : EvidenceEnv) (subject : EthereumSigned)
    {checkpoint signature : Bytes}
    (computed : subject.getCheckpoint geth final.node.keeper.params.gravityId = .ok checkpoint)
    (signs : SignedBy geth checkpoint signature signer.ourEthAddress) :
    checkBadSignatureEvidence geth final.node.keeper.params.gravityId final.node.keeper.keys env
      final.node.keeper.chain.app.outgoing subject signature = .error .checkpointExists := by
  have initially : SignerInvariant geth crates.toCrates params.gravityId []
      (⟨⟨KeeperState.fresh params balances, eth, false⟩, []⟩ : SigningNode β τ) :=
    ⟨numbered_fresh params balances eth, Node.keyed_fresh params balances eth,
      ⟨rfl, fun _ member => absurd member List.not_mem_nil⟩,
      Node.storedInTrace_fresh params balances eth,
      fun _ _ member => absurd member List.not_mem_nil⟩
  have invariant := run_invariant (fun input => input.Keeps params.gravityId)
    (SignerInvariant geth crates.toCrates params.gravityId)
    (fun _ _ _ _ _ allowed holds step => holds.step packs lawful short fits same allowed step)
    keeps initially runs
  obtain ⟨message, signed, rfl⟩ := unforgeable checkpoint signature signs
  obtain ⟨object, stored, hashed⟩ := invariant.signed legible message signed
  obtain ⟨recorded, again, archived⟩ := invariant.archive.recorded object stored
  obtain rfl := Outcome.ok.inj (hashed.symm.trans again)
  exact checkBadSignatureEvidence_of_archived computed archived signature

end Runs

/-! ### A signer of one validator set -/

/-- go-ethereum with signatures of one message. -/
def exampleStrictGeth (message : Bytes) : Geth :=
  { exampleGeth with
    sigToPub := fun digest signature =>
      if digest = signaturePrefix ++ message then exampleGeth.sigToPub digest signature else none }

theorem exampleStrictGeth_signs (message : Bytes) :
    SignedBy (exampleStrictGeth message) message exampleSignature exampleSigner.ourEthAddress := by
  have recovered : exampleGeth.sigToPub [] (normalizeRecoveryId (List.replicate 63 0 ++ [1, 27])) =
      some 1 := by decide +kernel
  refine ⟨by decide +kernel, List.replicate 63 0 ++ [1, 27], by decide +kernel, by decide, ?_⟩
  show (if signaturePrefix ++ message = signaturePrefix ++ message then _ else none) = _
  rw [if_pos rfl]
  exact recovered

theorem exampleStrictGeth_message {message checkpoint signature : Bytes} {address : EthAddress}
    (signs : SignedBy (exampleStrictGeth message) checkpoint signature address) :
    checkpoint = message := by
  obtain ⟨_, sigBytes, _, _, recovered⟩ := signs
  by_contra different
  change (if signaturePrefix ++ checkpoint = signaturePrefix ++ message then _ else none) = _ at recovered
  rw [if_neg fun same => different (List.append_cancel_left same)] at recovered
  cases recovered

/-- The machine with a signer, in which one message has been signed with the key of the address one. -/
def exampleSigningStep (message : Bytes) : SigningNode Ledger Unit → SigningInput Ledger Unit →
    Option (SigningNode Ledger Unit × List NodeOutput) :=
  signingStep exampleSdk (ledgerBank exampleModuleAccount) (exampleStrictGeth message) exampleEvm
    exampleContracts exampleSignerCrates exampleSigner exampleParams.gravityId

/-- The validator registers, a validator set is made, and the signer signs it. -/
def exampleSigningInputs : List (SigningInput Ledger Unit) :=
  [.node exampleRegister, .node (exampleBlock 5), .turn .valset]

/-- What the signer signs; the messages do not depend on signatures. -/
def exampleSignedMessage : Bytes :=
  ((run (exampleSigningStep []) ⟨exampleNode, []⟩ exampleSigningInputs).bind fun result =>
    result.1.signed.head?).getD []

/-- There is a message that is signed when it is the one that can be signed, of a stored object. -/
theorem exampleSigningInputs_run : ∃ message,
    (run (exampleSigningStep message) ⟨exampleNode, []⟩ exampleSigningInputs).any (fun result =>
      result.1.signed = [message] ∧
      (∀ object ∈ storedObjects result.2, object.Legible exampleCrates) ∧
      ∃ object ∈ storedObjects result.2,
        object.getCheckpoint (exampleStrictGeth message) result.1.node.keeper.params.gravityId =
          .ok message) = true :=
  ⟨exampleSignedMessage, by decide +kernel⟩

/-- The validator set cannot be used against its signer, though the signature is the signer's. -/
theorem honest_signer_not_convicted_once : ∃ message final outputs subject,
    run (exampleSigningStep message) ⟨exampleNode, []⟩ exampleSigningInputs = some (final, outputs) ∧
    subject ∈ storedObjects outputs ∧
    SignedBy (exampleStrictGeth message) message exampleSignature exampleSigner.ourEthAddress ∧
    ∀ env, checkBadSignatureEvidence (exampleStrictGeth message) final.node.keeper.params.gravityId
      final.node.keeper.keys env final.node.keeper.chain.app.outgoing subject exampleSignature =
        .error .checkpointExists := by
  obtain ⟨message, reached⟩ := exampleSigningInputs_run
  obtain ⟨⟨final, outputs⟩, runs, holds⟩ := (Option.any_eq_true _ _).mp reached
  obtain ⟨signed, legible, subject, stored, computed⟩ := of_decide_eq_true holds
  have signs := exampleStrictGeth_signs message
  refine ⟨message, final, outputs, subject, runs, stored, signs, fun env => ?_⟩
  have keeps : ∀ input ∈ exampleSigningInputs, input.Keeps exampleParams.gravityId := by
    intro input member
    simp only [exampleSigningInputs, List.mem_cons, List.not_mem_nil, or_false] at member
    rcases member with rfl | rfl | rfl <;> trivial
  have unforgeable : final.Unforgeable (exampleStrictGeth message) exampleSigner :=
    fun checkpoint signature made =>
      ⟨message, signed ▸ List.mem_singleton_self _, exampleStrictGeth_message made⟩
  exact honest_signer_not_convicted (fun _ _ => ⟨[0, 0, 0, 0], rfl, rfl⟩) exampleCrates_lawful
    (by decide) (by decide) rfl keeps runs legible unforgeable env subject computed signs

end NabBridge
