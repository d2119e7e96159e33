/-
**The relayer submits the oldest batch first.**

A batch is stored under its contract and its nonce, big-endian, so the batches of a contract lie in the
order of their nonces wherever the others are, and what the query leaves out of a descending walk is
older than what it returns. The orchestrator groups by the address it has read, which is one contract where
contracts are spelled in one way; a list grows at its end, and is turned around.

* `StoredBatches`: batches under their keys, with the fees of their token, in one spelling;
* `latest_descending`: what the orchestrator reads, from the newest to the oldest of each token;
* `getBatchesAndSignatures_list`: a list, as a part of what was read;
* `Submissions`: a walk, with whatever else happens to the contract that leaves the token's nonce;
* `batches_oldest_first`: the order of a list, and why it matters.
-/

import NabBridge.Contract.Calls
import NabBridge.Orchestrator.BatchRelaying
import NabBridge.Proof.Outgoing
import NabBridge.Proof.Submission

namespace NabBridge

/-! ### The page -/

/-- Batches are stored under their own keys and have their fees in their token; a contract that can be read
is spelled in one way. -/
structure Outgoing.StoredBatches (crates : Orchestrator.Crates) (spelling : EthAddress → Bytes)
    (outgoing : Outgoing) : Prop where
  keyed : outgoing.batches.All fun key batch => key = batch.key
  fees : outgoing.batches.All fun _ batch =>
    ∀ tx ∈ batch.transactions, tx.erc20Fee.contract = batch.tokenContract
  canonical : outgoing.batches.All fun _ batch =>
    ∀ address, crates.ethAddress batch.tokenContract = some address →
      batch.tokenContract = spelling address

namespace Outgoing

variable {crates : Orchestrator.Crates} {spelling : EthAddress → Bytes} {outgoing : Outgoing}

/-- **The invariant of the pool and the batches** says as much, but for the spelling. -/
theorem Sound.storedBatches (sound : outgoing.Sound)
    (canonical : outgoing.batches.All fun _ batch =>
      ∀ address, crates.ethAddress batch.tokenContract = some address →
        batch.tokenContract = spelling address) :
    outgoing.StoredBatches crates spelling where
  keyed := sound.batchKeyed
  fees key batch found tx member :=
    (sound.oneContract tx (List.mem_append_right _ (mem_batched found member))).trans
      (sound.batchToken key batch found tx member)
  canonical := canonical

theorem mem_outgoingTxBatches {batch : OutgoingTxBatch} (member : batch ∈ outgoing.outgoingTxBatches) :
    batch ∈ outgoing.batches.values :=
  List.mem_reverse.mp (List.mem_of_mem_take member)

/-- The batches of a contract are stored in the order of their nonces. -/
theorem StoredBatches.values_sorted (stored : outgoing.StoredBatches crates spelling) :
    outgoing.batches.values.Pairwise fun first second =>
      first.tokenContract = second.tokenContract → first.batchNonce < second.batchNonce := by
  refine List.pairwise_map.mpr
    (outgoing.batches.sorted.imp_of_mem fun {first second} member member' less same => ?_)
  rw [stored.keyed _ _ ((outgoing.batches.mem_entries_iff _ _).mp member),
    stored.keyed _ _ ((outgoing.batches.mem_entries_iff _ _).mp member'), OutgoingTxBatch.key,
    OutgoingTxBatch.key, same] at less
  exact (getOutgoingTxBatchKey_strictMono _).lt_iff_lt.mp less

/-- **The query** walks the batches of a contract from the newest on. -/
theorem StoredBatches.page_descending (stored : outgoing.StoredBatches crates spelling) :
    outgoing.outgoingTxBatches.Pairwise fun first second =>
      first.tokenContract = second.tokenContract → second.batchNonce < first.batchNonce := by
  refine List.Pairwise.sublist (List.take_sublist _ _) (List.pairwise_reverse.mpr ?_)
  exact stored.values_sorted.imp fun later same => later same.symm

end Outgoing

namespace Orchestrator

section Reading

variable {crates : Crates} {spelling : EthAddress → Bytes} {outgoing : Outgoing}

theorem tryFrom_transaction_fee {input : OutgoingTransferTx} {tx : BatchTransaction}
    (converted : BatchTransaction.tryFrom crates input = .ok tx) :
    crates.ethAddress input.erc20Fee.contract = some tx.erc20Fee.tokenContractAddress := by
  obtain ⟨_, _, converted⟩ := Outcome.bind_eq_ok.mp converted
  obtain ⟨_, _, converted⟩ := Outcome.bind_eq_ok.mp converted
  obtain ⟨_, _, converted⟩ := Outcome.bind_eq_ok.mp converted
  obtain ⟨fee, read, converted⟩ := Outcome.bind_eq_ok.mp converted
  obtain rfl := Outcome.ok.inj converted
  obtain ⟨_, _, read⟩ := Outcome.bind_eq_ok.mp read
  obtain ⟨address, parsed, read⟩ := Outcome.bind_eq_ok.mp read
  obtain rfl := Outcome.ok.inj read
  unfold parseEthAddress at parsed
  split at parsed
  · cases parsed
  · rename_i found
    rw [found, Outcome.ok.inj parsed]

/-- The running total keeps the token of the first fee. -/
theorem pushTransaction_token {contract : Bytes} {input : OutgoingTransferTx}
    (fee : input.erc20Fee.contract = contract) {state : List BatchTransaction × Option Erc20Token}
    (total : ∀ total ∈ state.2, crates.ethAddress contract = some total.tokenContractAddress) :
    (pushTransaction crates state input).Meets
      (fun after => ∀ total ∈ after.2, crates.ethAddress contract = some total.tokenContractAddress)
      fun _ => True := by
  unfold pushTransaction
  cases converted : BatchTransaction.tryFrom crates input with
  | error reason => trivial
  | panic reason => trivial
  | ok tx =>
      have token := tryFrom_transaction_fee converted
      rw [fee] at token
      obtain ⟨done, running⟩ := state
      cases running with
      | none =>
          rintro _ ⟨⟩
          exact token
      | some earlier =>
          dsimp only [Outcome.ok_bind, addFee]
          cases crates.add earlier.amount tx.erc20Fee.amount with
          | none => trivial
          | some amount =>
              rintro _ ⟨⟩
              exact total earlier rfl

/-- **A batch that was read** has the nonce of the stored one, and its token by the address. -/
theorem tryFrom_batch_spec {input : OutgoingTxBatch} {batch : TransactionBatch}
    (fees : ∀ tx ∈ input.transactions, tx.erc20Fee.contract = input.tokenContract)
    (converted : TransactionBatch.tryFrom crates input = .ok batch) :
    batch.nonce = input.batchNonce ∧
      crates.ethAddress input.tokenContract = some batch.tokenContract := by
  unfold TransactionBatch.tryFrom at converted
  obtain ⟨⟨transactions, runningTotalFee⟩, looped, converted⟩ := Outcome.bind_eq_ok.mp converted
  have token : (input.transactions.foldlM (pushTransaction crates) ([], none)).Meets
      (fun state => ∀ total ∈ state.2,
        crates.ethAddress input.tokenContract = some total.tokenContractAddress) fun _ => True :=
    Outcome.Meets.foldlM (fun state tx member total => pushTransaction_token (fees tx member) total)
      fun _ absent => by cases absent
  cases runningTotalFee with
  | none => cases converted
  | some totalFee =>
      obtain rfl := Outcome.ok.inj converted
      exact ⟨rfl, token.ok looped totalFee rfl⟩

/-- **What the orchestrator reads**: the batches of a token from the newest to the oldest. -/
theorem latest_descending (stored : outgoing.StoredBatches crates spelling)
    {latestBatches : List TransactionBatch}
    (answered : getLatestTransactionBatches crates outgoing = .ok latestBatches) :
    latestBatches.Pairwise fun first second =>
      first.tokenContract = second.tokenContract → second.nonce < first.nonce := by
  have read : ∀ input ∈ outgoing.outgoingTxBatches, ∀ batch,
      TransactionBatch.tryFrom crates input = .ok batch →
      batch.nonce = input.batchNonce ∧
        crates.ethAddress input.tokenContract = some batch.tokenContract := by
    intro input member batch converted
    obtain ⟨key, found⟩ := (outgoing.batches.mem_values_iff input).mp (Outgoing.mem_outgoingTxBatches member)
    exact tryFrom_batch_spec (stored.fees key input found) converted
  have pairs : latestBatches.map (fun batch => (some batch.tokenContract, batch.nonce)) =
      outgoing.outgoingTxBatches.map fun input =>
        (crates.ethAddress input.tokenContract, input.batchNonce) := by
    refine Outcome.map_of_mapM_eq_ok (fun input member batch converted => ?_) answered
    obtain ⟨nonce, token⟩ := read input member batch converted
    rw [nonce, token]
  have descending : (outgoing.outgoingTxBatches.map fun input =>
      (crates.ethAddress input.tokenContract, input.batchNonce)).Pairwise
      fun first second => first.1 = second.1 → second.2 < first.2 := by
    refine List.pairwise_map.mpr
      (stored.page_descending.imp_of_mem fun {first second} member member' later same => later ?_)
    -- both have been read, so both are spelled as their common address is
    obtain ⟨batch, _, converted⟩ := Outcome.exists_of_mapM_eq_ok answered member
    obtain ⟨key, found⟩ := (outgoing.batches.mem_values_iff first).mp (Outgoing.mem_outgoingTxBatches member)
    obtain ⟨key', found'⟩ :=
      (outgoing.batches.mem_values_iff second).mp (Outgoing.mem_outgoingTxBatches member')
    have token := (read first member batch converted).2
    rw [stored.canonical key first found _ token,
      stored.canonical key' second found' _ (same.symm.trans token)]
  rw [← pairs] at descending
  exact (List.pairwise_map.mp descending).imp fun later same => later (congrArg some same)

end Reading

/-! ### The lists -/

section Collecting

variable (clarity : Clarity) (currentValset : Valset) (gravityId : Bytes)
  (getTransactionBatchSignatures : Nat → EthAddress → RelayResult (List BatchConfirmResponse))

/-- The batch has enough signatures, and these are they. -/
def SubmittableBatch.Signed (entry : SubmittableBatch) : Prop :=
  getTransactionBatchSignatures entry.batch.nonce entry.batch.tokenContract = .ok entry.sigs ∧
    ∃ ordered, currentValset.orderSigs clarity
      (encodeTxBatchConfirmHashed clarity gravityId entry.batch) entry.sigs = .ok ordered

/-- A batch with its signatures, where they are enough. -/
def signedBatch (batch : TransactionBatch) : Option SubmittableBatch :=
  match getTransactionBatchSignatures batch.nonce batch.tokenContract with
  | .ok sigs =>
      match currentValset.orderSigs clarity (encodeTxBatchConfirmHashed clarity gravityId batch) sigs with
      | .ok _ => some ⟨batch, sigs⟩
      | _ => none
  | _ => none

variable {clarity currentValset gravityId getTransactionBatchSignatures}

theorem signedBatch_eq_some_iff {batch : TransactionBatch} {entry : SubmittableBatch} :
    signedBatch clarity currentValset gravityId getTransactionBatchSignatures batch = some entry ↔
      entry.batch = batch ∧
        entry.Signed clarity currentValset gravityId getTransactionBatchSignatures := by
  unfold signedBatch SubmittableBatch.Signed
  constructor
  · intro signed
    split at signed
    · rename_i sigs answered
      split at signed
      · rename_i ordered enough
        obtain rfl := Option.some.inj signed
        exact ⟨rfl, answered, ordered, enough⟩
      · cases signed
    · cases signed
  · rintro ⟨rfl, answered, ordered, enough⟩
    rw [answered]
    dsimp only
    rw [enough]

/-- **One turn of the loop** appends the batch to the list of its token, where it is signed. -/
theorem addPossibleBatch_list {possibleBatches after : PossibleBatches} {batch : TransactionBatch}
    (added : addPossibleBatch clarity currentValset gravityId getTransactionBatchSignatures
      possibleBatches batch = .ok after) (token : EthAddress) :
    (after.get token).getD [] = (possibleBatches.get token).getD [] ++
      ((signedBatch clarity currentValset gravityId getTransactionBatchSignatures batch).toList.filter
        fun entry => entry.batch.tokenContract = token) := by
  unfold addPossibleBatch at added
  unfold signedBatch
  cases answered : getTransactionBatchSignatures batch.nonce batch.tokenContract with
  | error reason =>
      rw [answered] at added
      obtain rfl := Outcome.ok.inj added
      simp
  | panic reason =>
      rw [answered] at added
      cases added
  | ok sigs =>
      rw [answered] at added
      dsimp only at added ⊢
      cases ordered : currentValset.orderSigs clarity
          (encodeTxBatchConfirmHashed clarity gravityId batch) sigs with
      | error reason =>
          rw [ordered] at added
          obtain rfl := Outcome.ok.inj added
          simp
      | panic reason =>
          rw [ordered] at added
          cases added
      | ok sorted =>
          rw [ordered] at added
          obtain rfl := Outcome.ok.inj added
          by_cases same : token = batch.tokenContract
          · subst same
            simp
          · rw [Store.get_set_of_ne _ _ same]
            simp [Ne.symm same]

/-- **The loop**: what is appended to the list of a token is what is signed of the token. -/
theorem foldlM_addPossibleBatch {latestBatches : List TransactionBatch}
    {possibleBatches after : PossibleBatches}
    (added : latestBatches.foldlM
      (addPossibleBatch clarity currentValset gravityId getTransactionBatchSignatures)
      possibleBatches = .ok after) (token : EthAddress) :
    (after.get token).getD [] = (possibleBatches.get token).getD [] ++
      ((latestBatches.filterMap
        (signedBatch clarity currentValset gravityId getTransactionBatchSignatures)).filter
          fun entry => entry.batch.tokenContract = token) := by
  induction latestBatches generalizing possibleBatches with
  | nil =>
      obtain rfl := Outcome.ok.inj added
      simp
  | cons batch rest ih =>
      rw [List.foldlM_cons] at added
      obtain ⟨middle, first, added⟩ := Outcome.bind_eq_ok.mp added
      rw [ih added, addPossibleBatch_list first, List.append_assoc, ← List.filter_append]
      congr 2
      rw [List.filterMap_cons]
      cases signedBatch clarity currentValset gravityId getTransactionBatchSignatures batch <;> rfl

/-- **A list** is what is signed of its token, turned around. -/
theorem getBatchesAndSignatures_list {outgoing : Outgoing} {possibleBatches : PossibleBatches}
    (built : getBatchesAndSignatures clarity currentValset gravityId getTransactionBatchSignatures
      outgoing = .ok possibleBatches)
    {token : EthAddress} {list : List SubmittableBatch}
    (found : possibleBatches.get token = some list) :
    ∃ latestBatches, getLatestTransactionBatches clarity.toCrates outgoing = .ok latestBatches ∧
      list = ((latestBatches.filterMap
        (signedBatch clarity currentValset gravityId getTransactionBatchSignatures)).filter
          fun entry => entry.batch.tokenContract = token).reverse := by
  unfold getBatchesAndSignatures at built
  cases answered : getLatestTransactionBatches clarity.toCrates outgoing with
  | error reason =>
      rw [answered] at built
      obtain rfl := Outcome.ok.inj built
      cases found
  | panic reason =>
      rw [answered] at built
      cases built
  | ok latestBatches =>
      rw [answered] at built
      obtain ⟨collected, looped, built⟩ := Outcome.bind_eq_ok.mp built
      obtain rfl := Outcome.ok.inj built
      rw [Store.get_mapValues] at found
      obtain ⟨grown, there, rfl⟩ := Option.map_eq_some_iff.mp found
      have appended := foldlM_addPossibleBatch looped token
      rw [there, Option.getD_some, Store.get_empty, Option.getD_none, List.nil_append] at appended
      exact ⟨latestBatches, rfl, by rw [appended]⟩

/-- No turn of the loop panics where nobody has to panic over a confirmation. -/
theorem addPossibleBatch_safe
    (answers : ∀ nonce token reason, getTransactionBatchSignatures nonce token ≠ .panic reason)
    (safe : ∀ batch : TransactionBatch, ∀ sigs,
      getTransactionBatchSignatures batch.nonce batch.tokenContract = .ok sigs →
      RelaySafe clarity (encodeTxBatchConfirmHashed clarity gravityId batch) sigs)
    (possibleBatches : PossibleBatches) (batch : TransactionBatch) :
    (addPossibleBatch clarity currentValset gravityId getTransactionBatchSignatures possibleBatches
      batch).Meets (fun _ => True) fun _ => False := by
  unfold addPossibleBatch
  cases answered : getTransactionBatchSignatures batch.nonce batch.tokenContract with
  | error reason => trivial
  | panic reason => exact answers _ _ reason answered
  | ok sigs =>
      dsimp only
      cases ordered : currentValset.orderSigs clarity
          (encodeTxBatchConfirmHashed clarity gravityId batch) sigs with
      | ok sorted => trivial
      | error reason => trivial
      | panic reason =>
          unfold Valset.orderSigs at ordered
          split at ordered
          · cases ordered
          · rename_i panicked
            exact (safe batch sigs answered).status currentValset _ panicked
          · split_ifs at ordered

/-- **The lists are built** where no sum of fees overflows and nobody has to panic over a confirmation. -/
theorem getBatchesAndSignatures_returns {outgoing : Outgoing}
    (reads : ∀ reason, getLatestTransactionBatches clarity.toCrates outgoing ≠ .panic reason)
    (answers : ∀ nonce token reason, getTransactionBatchSignatures nonce token ≠ .panic reason)
    (safe : ∀ batch : TransactionBatch, ∀ sigs,
      getTransactionBatchSignatures batch.nonce batch.tokenContract = .ok sigs →
      RelaySafe clarity (encodeTxBatchConfirmHashed clarity gravityId batch) sigs) :
    ∃ possibleBatches, getBatchesAndSignatures clarity currentValset gravityId
      getTransactionBatchSignatures outgoing = .ok possibleBatches := by
  unfold getBatchesAndSignatures
  cases answered : getLatestTransactionBatches clarity.toCrates outgoing with
  | error reason => exact ⟨_, rfl⟩
  | panic reason => exact absurd answered (reads reason)
  | ok latestBatches =>
      dsimp only
      have meets : (latestBatches.foldlM (addPossibleBatch clarity currentValset gravityId
          getTransactionBatchSignatures) Store.empty).Meets (fun _ => True) fun _ => False :=
        Outcome.Meets.foldlM (fun possibleBatches batch _ _ =>
          addPossibleBatch_safe answers safe possibleBatches batch) trivial
      cases looped : latestBatches.foldlM (addPossibleBatch clarity currentValset gravityId
          getTransactionBatchSignatures) Store.empty with
      | ok collected => exact ⟨_, rfl⟩
      | error reason => exact reason.elim
      | panic reason => exact (meets.panic looped).elim

end Collecting

/-! ### The walk -/

section Walk

variable {market : BatchMarket} {ethereumBlockHeight latestEthereumBatch : Nat}

/-- What is handed over is of the list. -/
theorem mem_of_mem_submitBatches {batches : List SubmittableBatch} {entry : SubmittableBatch}
    (member : entry ∈ submitBatches market ethereumBlockHeight latestEthereumBatch batches) :
    entry ∈ batches := by
  induction batches with
  | nil => exact member
  | cons first rest ih =>
      rw [submitBatches] at member
      split_ifs at member
      · split at member
        · exact List.mem_cons_of_mem _ (ih member)
        · split at member
          · cases member
          · split_ifs at member
            · rcases List.mem_cons.mp member with rfl | later
              · exact List.mem_cons_self
              · exact List.mem_cons_of_mem _ (ih later)
            · exact List.mem_cons_of_mem _ (ih member)
      · exact List.mem_cons_of_mem _ (ih member)

/-- The walk over the front of a list is the front of the walk. -/
theorem submitBatches_append (earlier later : List SubmittableBatch) :
    submitBatches market ethereumBlockHeight latestEthereumBatch earlier <+:
      submitBatches market ethereumBlockHeight latestEthereumBatch (earlier ++ later) := by
  induction earlier with
  | nil => exact List.nil_prefix
  | cons first rest ih =>
      rw [List.cons_append, submitBatches, submitBatches]
      split_ifs
      · split
        · exact ih
        · split
          · exact List.nil_prefix
          · split_ifs
            · exact (List.prefix_cons_inj first).mpr ih
            · exact ih
      · exact ih

theorem sendEthTransactionBatch_eq_some {clarity : Clarity} {currentValset : Valset} {gravityId : Bytes}
    {beforeNonce currentBlockHeight : Nat} {entry : SubmittableBatch} {call : GravityCall}
    (sent : sendEthTransactionBatch clarity currentValset gravityId beforeNonce currentBlockHeight entry =
      .ok (some call)) :
    ∃ valset signatures, call = .submitBatch valset signatures entry.batch.batchArgs := by
  unfold sendEthTransactionBatch at sent
  split_ifs at sent
  · cases sent
  · cases sent
  · obtain ⟨payload, encoded, sent⟩ := Outcome.bind_eq_ok.mp sent
    obtain rfl := Option.some.inj (Outcome.ok.inj sent)
    obtain ⟨sigData, _, encoded⟩ := Outcome.bind_eq_ok.mp encoded
    exact ⟨_, _, (Outcome.ok.inj encoded).symm⟩

end Walk

/-! ### The contract meanwhile -/

section Submissions

variable {τ : Type} (evm : Evm) (others : Contracts τ) (clarity : Clarity) (currentValset : Valset)
  (gravityId : Bytes) (sender token : EthAddress)

/-- **The batches that are handed over, one after the other**: a call that is sent is accepted, or nothing
comes of it. In between there can be anything that leaves the token's nonce, the relayer's batches of other
tokens among it. -/
inductive Submissions : List SubmittableBatch → Ethereum τ → Ethereum τ → Prop where
  | done (eth : Ethereum τ) : Submissions [] eth eth
  | meanwhile {batches : List SubmittableBatch} {before middle after : Ethereum τ} :
      middle.gravity.lastBatchNonces token = before.gravity.lastBatchNonces token →
      Submissions batches middle after → Submissions batches before after
  | failed {entry : SubmittableBatch} {batches : List SubmittableBatch} {before after : Ethereum τ} :
      Submissions batches before after → Submissions (entry :: batches) before after
  | accepted {entry : SubmittableBatch} {batches : List SubmittableBatch}
      {beforeNonce currentBlockHeight : Nat} {call : GravityCall} {before middle after : Ethereum τ} :
      sendEthTransactionBatch clarity currentValset gravityId beforeNonce currentBlockHeight entry =
        .ok (some call) →
      before.call evm others sender call = .ok middle →
      Submissions batches middle after → Submissions (entry :: batches) before after

variable {evm others clarity currentValset gravityId sender token}

/-- **An accepted batch** raises the nonce of its token to its own, and leaves those of other tokens. -/
theorem lastBatchNonces_of_accepted {entry : SubmittableBatch} {beforeNonce currentBlockHeight : Nat}
    {call : GravityCall} {before after : Ethereum τ}
    (sent : sendEthTransactionBatch clarity currentValset gravityId beforeNonce currentBlockHeight entry =
      .ok (some call))
    (called : before.call evm others sender call = .ok after) :
    after.gravity.lastBatchNonces =
      Function.update before.gravity.lastBatchNonces entry.batch.tokenContract entry.batch.nonce := by
  obtain ⟨valset, signatures, rfl⟩ := sendEthTransactionBatch_eq_some sent
  rw [(Ethereum.call_eq_ok called).gravity]
  rfl

/-- **Submissions of older batches** leave the nonce below. -/
theorem Submissions.stays_below {batches : List SubmittableBatch} {before after : Ethereum τ}
    (submissions : Submissions evm others clarity currentValset gravityId sender token batches before after)
    {nonce : Nat} (older : ∀ entry ∈ batches, entry.batch.nonce < nonce)
    (below : before.gravity.lastBatchNonces token < nonce) :
    after.gravity.lastBatchNonces token < nonce := by
  induction submissions with
  | done eth => exact below
  | meanwhile same _ ih => exact ih older (same ▸ below)
  | failed _ ih => exact ih (fun entry member => older entry (List.mem_cons_of_mem _ member)) below
  | accepted sent called _ ih =>
      refine ih (fun entry member => older entry (List.mem_cons_of_mem _ member)) ?_
      rw [lastBatchNonces_of_accepted sent called, Function.update_apply]
      split_ifs
      · exact older _ List.mem_cons_self
      · exact below

/-- The relayer's walk over another token's list is nothing more to this one than something else. -/
theorem Submissions.other_token {entry : SubmittableBatch} {beforeNonce currentBlockHeight : Nat}
    {call : GravityCall} {batches : List SubmittableBatch} {before middle after : Ethereum τ}
    (sent : sendEthTransactionBatch clarity currentValset gravityId beforeNonce currentBlockHeight entry =
      .ok (some call))
    (called : before.call evm others sender call = .ok middle)
    (other : token ≠ entry.batch.tokenContract)
    (submissions : Submissions evm others clarity currentValset gravityId sender token batches
      middle after) :
    Submissions evm others clarity currentValset gravityId sender token batches before after := by
  refine .meanwhile ?_ submissions
  rw [lastBatchNonces_of_accepted sent called, Function.update_of_ne other]

end Submissions

/-! ### Oldest first -/

/-- Distinct batches of a token, from the oldest to the newest. -/
structure OldestFirst (token : EthAddress) (list : List SubmittableBatch) : Prop where
  token : ∀ entry ∈ list, entry.batch.tokenContract = token
  distinct : (list.map SubmittableBatch.batch).Nodup
  increasing : list.Pairwise fun first second => first.batch.nonce < second.batch.nonce

section Order

variable {clarity : Clarity} {spelling : EthAddress → Bytes} {outgoing : Outgoing}
  {currentValset : Valset} {gravityId : Bytes}
  {getTransactionBatchSignatures : Nat → EthAddress → RelayResult (List BatchConfirmResponse)}
  {possibleBatches : PossibleBatches}

/-- **A list is in order.** -/
theorem getBatchesAndSignatures_oldestFirst (stored : outgoing.StoredBatches clarity.toCrates spelling)
    (built : getBatchesAndSignatures clarity currentValset gravityId getTransactionBatchSignatures
      outgoing = .ok possibleBatches)
    {token : EthAddress} {list : List SubmittableBatch}
    (found : possibleBatches.get token = some list) : OldestFirst token list := by
  obtain ⟨latestBatches, answered, rfl⟩ := getBatchesAndSignatures_list built found
  have ofToken : ∀ entry ∈ ((latestBatches.filterMap
      (signedBatch clarity currentValset gravityId getTransactionBatchSignatures)).filter
        fun entry => entry.batch.tokenContract = token), entry.batch.tokenContract = token :=
    fun entry member => of_decide_eq_true (List.mem_filter.mp member).2
  have descending : (latestBatches.filterMap
      (signedBatch clarity currentValset gravityId getTransactionBatchSignatures)).Pairwise
        fun first second => first.batch.tokenContract = second.batch.tokenContract →
          second.batch.nonce < first.batch.nonce := by
    refine (latest_descending stored answered).filterMap _ ?_
    intro first second later entry signed entry' signed'
    rw [(signedBatch_eq_some_iff.mp signed).1, (signedBatch_eq_some_iff.mp signed').1]
    exact later
  have increasing := List.pairwise_reverse.mpr ((descending.filter fun entry =>
    entry.batch.tokenContract = token).imp_of_mem fun {first second} member member' later =>
      later ((ofToken first member).trans (ofToken second member').symm))
  refine ⟨fun entry member => ofToken entry (List.mem_reverse.mp member), ?_, increasing⟩
  exact List.pairwise_map.mpr (increasing.imp fun less same =>
    absurd (congrArg TransactionBatch.nonce same) (ne_of_lt less))

/-- **What a list holds**: the batches of the query that are of its token and signed. -/
theorem mem_getBatchesAndSignatures_iff
    (built : getBatchesAndSignatures clarity currentValset gravityId getTransactionBatchSignatures
      outgoing = .ok possibleBatches)
    {token : EthAddress} {list : List SubmittableBatch}
    (found : possibleBatches.get token = some list) (entry : SubmittableBatch) :
    entry ∈ list ↔
      (∃ input ∈ outgoing.outgoingTxBatches,
        TransactionBatch.tryFrom clarity.toCrates input = .ok entry.batch) ∧
      entry.batch.tokenContract = token ∧
      entry.Signed clarity currentValset gravityId getTransactionBatchSignatures := by
  obtain ⟨latestBatches, answered, rfl⟩ := getBatchesAndSignatures_list built found
  have read : entry.batch ∈ latestBatches ↔ ∃ input ∈ outgoing.outgoingTxBatches,
      TransactionBatch.tryFrom clarity.toCrates input = .ok entry.batch := by
    refine ⟨Outcome.exists_of_mem_mapM answered, fun ⟨input, member, converted⟩ => ?_⟩
    obtain ⟨batch, inside, converted'⟩ := Outcome.exists_of_mapM_eq_ok answered member
    rwa [Outcome.ok.inj (converted.symm.trans converted')]
  rw [List.mem_reverse, List.mem_filter, List.mem_filterMap, decide_eq_true_iff, ← read]
  constructor
  · rintro ⟨⟨batch, inside, signed⟩, ofToken⟩
    obtain ⟨rfl, enough⟩ := signedBatch_eq_some_iff.mp signed
    exact ⟨inside, ofToken, enough⟩
  · rintro ⟨inside, ofToken, signed⟩
    exact ⟨⟨entry.batch, inside, signedBatch_eq_some_iff.mpr ⟨rfl, signed⟩⟩, ofToken⟩

/-- **The relayer submits the oldest batch first.** The list of a token holds its signed batches of the
query, each once, in the order of their nonces; and when the walk comes to a batch, what it has handed over
before leaves the contract's nonce below the batch's, if that is where it was. -/
theorem batches_oldest_first (stored : outgoing.StoredBatches clarity.toCrates spelling)
    (built : getBatchesAndSignatures clarity currentValset gravityId getTransactionBatchSignatures
      outgoing = .ok possibleBatches)
    {token : EthAddress} {list : List SubmittableBatch}
    (found : possibleBatches.get token = some list) :
    OldestFirst token list ∧
    (∀ entry, entry ∈ list ↔
      (∃ input ∈ outgoing.outgoingTxBatches,
        TransactionBatch.tryFrom clarity.toCrates input = .ok entry.batch) ∧
      entry.batch.tokenContract = token ∧
      entry.Signed clarity currentValset gravityId getTransactionBatchSignatures) ∧
    ∀ (market : BatchMarket) (ethereumBlockHeight latestEthereumBatch : Nat)
      (earlier : List SubmittableBatch) (entry : SubmittableBatch) (later : List SubmittableBatch),
      list = earlier ++ entry :: later →
      submitBatches market ethereumBlockHeight latestEthereumBatch earlier <+:
        submitBatches market ethereumBlockHeight latestEthereumBatch list ∧
      ∀ (τ : Type) (evm : Evm) (others : Contracts τ) (sender : EthAddress) (before after : Ethereum τ),
        Submissions evm others clarity currentValset gravityId sender token
          (submitBatches market ethereumBlockHeight latestEthereumBatch earlier) before after →
        before.gravity.lastBatchNonces token < entry.batch.batchArgs.batchNonce →
        after.gravity.lastBatchNonces entry.batch.batchArgs.tokenContract <
          entry.batch.batchArgs.batchNonce := by
  have order := getBatchesAndSignatures_oldestFirst stored built found
  refine ⟨order, mem_getBatchesAndSignatures_iff built found, ?_⟩
  rintro market ethereumBlockHeight latestEthereumBatch earlier entry later rfl
  refine ⟨submitBatches_append earlier _, ?_⟩
  intro τ evm others sender before after submissions below
  have token : entry.batch.batchArgs.tokenContract = token :=
    order.token entry (List.mem_append_right _ List.mem_cons_self)
  rw [token]
  refine submissions.stays_below (fun other member => ?_) below
  exact (List.pairwise_append.mp order.increasing).2.2 other (mem_of_mem_submitBatches member) entry
    List.mem_cons_self

end Order

end Orchestrator

/-! ### Four batches of two tokens -/

/-- A batch of a token, with one transfer. -/
def exampleStoredBatch (token : EthAddress) (batchNonce : Nat) : OutgoingTxBatch :=
  ⟨batchNonce, 900, [⟨batchNonce, ascii "sender", hexOfAddress 5, ⟨10, hexOfAddress token⟩,
    ⟨1, hexOfAddress token⟩⟩], hexOfAddress token, batchNonce⟩

/-- Batches of the token nine in between those of another one. -/
def exampleStoredBatches : Outgoing :=
  [exampleStoredBatch 9 4, exampleStoredBatch 7 2, exampleStoredBatch 9 1, exampleStoredBatch 9 3].foldl
    Outgoing.storeBatchUnsafe Outgoing.empty

theorem exampleStoredBatches_stored :
    exampleStoredBatches.StoredBatches exampleCrates hexOfAddress := by
  have each : exampleStoredBatches.batches.All fun key batch =>
      ∃ token batchNonce, batch = exampleStoredBatch token batchNonce ∧ key = batch.key :=
    (((((Store.all_empty _).set ⟨9, 4, rfl, rfl⟩).set ⟨7, 2, rfl, rfl⟩).set ⟨9, 1, rfl, rfl⟩).set
      ⟨9, 3, rfl, rfl⟩)
  refine ⟨fun key batch found => ?_, fun key batch found => ?_, fun key batch found => ?_⟩
  · obtain ⟨token, batchNonce, rfl, keyed⟩ := each key batch found
    exact keyed
  · obtain ⟨token, batchNonce, rfl, keyed⟩ := each key batch found
    exact List.forall_mem_singleton.mpr rfl
  · obtain ⟨token, batchNonce, rfl, keyed⟩ := each key batch found
    intro address read
    rw [exampleStoredBatch, exampleCrates_lawful.ethAddress _ (validateEthAddress_hexOfAddress token),
      hexToAddress_hexOfAddress] at read
    rw [exampleStoredBatch, Option.some.inj read]

/-- The validator of the address one has signed every batch but the third. -/
def exampleBatchSignatures (nonce : Nat) (token : EthAddress) :
    Orchestrator.RelayResult (List Orchestrator.BatchConfirmResponse) :=
  .ok (if nonce = 3 then [] else [⟨nonce, [], token, 1, ⟨27, 1, 0⟩⟩])

/-- A market in which everything is worth it. -/
def exampleBatchMarket : Orchestrator.BatchMarket where
  batchMarketEnabled := false
  wethContractAddress := 0
  estimateTxBatchCost _ := some ⟨1, 1⟩
  getUniswapPrice _ _ := none
  mul first second := some (first * second)

/-- The lists of a relayer with these batches. -/
def examplePossibleBatches : Outcome Empty Orchestrator.RelayPanic Orchestrator.PossibleBatches :=
  Orchestrator.getBatchesAndSignatures exampleClarity (exampleInstalled 3000000000) (ascii "foo")
    exampleBatchSignatures exampleStoredBatches

/-- A batch of the token nine with its signature, as it is in a list. -/
def exampleEntry (nonce : Nat) : Orchestrator.SubmittableBatch where
  batch := ⟨nonce, 900, [⟨nonce, ascii "sender", 5, ⟨10, 9⟩, ⟨1, 9⟩⟩], ⟨1, 9⟩, 9⟩
  sigs := [⟨nonce, [], 9, 1, ⟨27, 1, 0⟩⟩]

/-- The relayer's call for a batch of the token nine. -/
def exampleSent (nonce : Nat) : Outcome Orchestrator.OrderError Orchestrator.RelayPanic (Option GravityCall) :=
  Orchestrator.sendEthTransactionBatch exampleClarity (exampleInstalled 3000000000) (ascii "foo") 0 100
    (exampleEntry nonce)

/-- The list of the token nine is the first and the fourth batch, and the first is accepted. -/
theorem batches_oldest_first_example : ∃ possibleBatches after,
    examplePossibleBatches = .ok possibleBatches ∧
    possibleBatches.get 9 = some [exampleEntry 1, exampleEntry 4] ∧
    Orchestrator.OldestFirst 9 [exampleEntry 1, exampleEntry 4] ∧
    Orchestrator.submitBatches exampleBatchMarket 100 0 [exampleEntry 1] = [exampleEntry 1] ∧
    Orchestrator.Submissions recoveringEvm exampleContracts exampleClarity (exampleInstalled 3000000000)
      (ascii "foo") 5 9 [exampleEntry 1] (exampleRelayEthereum 3000000000) after ∧
    after.gravity.lastBatchNonces 9 = 1 ∧
    after.gravity.lastBatchNonces (exampleEntry 4).batch.batchArgs.tokenContract <
      (exampleEntry 4).batch.batchArgs.batchNonce := by
  have lists : examplePossibleBatches.value?.any (fun possibleBatches =>
      possibleBatches.get 9 = some [exampleEntry 1, exampleEntry 4]) = true := by decide +kernel
  obtain ⟨possibleBatches, returned, found⟩ := (Option.any_eq_true _ _).mp lists
  have built := Outcome.value?_eq_some.mp returned
  have found := of_decide_eq_true found
  have calls : (exampleSent 1).value?.any (fun payload => payload.any fun call =>
      ((exampleRelayEthereum 3000000000).call recoveringEvm exampleContracts 5 call).toOption.any
        fun after => after.gravity.lastBatchNonces 9 = 1) = true := by decide +kernel
  obtain ⟨payload, sent, accepted⟩ := (Option.any_eq_true _ _).mp calls
  obtain ⟨call, rfl, reached⟩ := (Option.any_eq_true _ _).mp accepted
  obtain ⟨after, called, nonce⟩ := (Option.any_eq_true _ _).mp reached
  have handed : Orchestrator.submitBatches exampleBatchMarket 100 0 [exampleEntry 1] =
      [exampleEntry 1] := by decide +kernel
  have submissions : Orchestrator.Submissions recoveringEvm exampleContracts exampleClarity
      (exampleInstalled 3000000000) (ascii "foo") 5 9 [exampleEntry 1]
      (exampleRelayEthereum 3000000000) after :=
    .accepted (Outcome.value?_eq_some.mp sent) (except_eq_ok_of_toOption called) (.done after)
  obtain ⟨order, _, walk⟩ :=
    Orchestrator.batches_oldest_first exampleStoredBatches_stored built found
  have below := (walk exampleBatchMarket 100 0 [exampleEntry 1] (exampleEntry 4) [] rfl).2 Unit
    recoveringEvm exampleContracts 5 (exampleRelayEthereum 3000000000) after
    (handed.symm ▸ submissions) (by decide)
  exact ⟨possibleBatches, after, built, found, order, handed, submissions, of_decide_eq_true nonce, below⟩

end NabBridge
