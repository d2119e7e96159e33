/-
**Whom slashing hits.**

For every object that has become due the loops over the validators ask whether a validator was there in
time and whether its confirmation is in the store. The answers are about the history: in a run in which
confirmations can be attributed (`BlockNode.Attributes`), slashing punishes exactly the validators that
were there in time and from whose orchestrator no confirmation of the object was accepted.

* `checkValidators_punishes`, `checkUnbonding_punishes`: **the loops**, for any test that does not depend
  on the punishments so far;
* `SignerBook.confirmed_iff`: what the three lookups find, in terms of the history;
* `slashing_hits_nonsigners`: **every round of every block**, with what is left of the staking module.
-/

import NabBridge.Proof.Signers
import NabBridge.Proof.ValsetSlashing

namespace NabBridge

/-! ### What punishments leave alone -/

/-- What slashing reads of a validator, apart from its power and whether it is jailed. -/
def ValidatorRecord.standing (validator : ValidatorRecord) : ValAddress × Bytes × Bool × Int :=
  (validator.operator, validator.consAddr, validator.unbonding, validator.unbondingHeight)

namespace StakingKeeper

variable {σ : Type} (staking : StakingKeeper σ)

/-- Start heights, the unbonding queue and the standing of the validators are the same. -/
structure Keeps (before after : σ) : Prop where
  startHeight : staking.startHeight after = staking.startHeight before
  queue : staking.unbondingQueue after = staking.unbondingQueue before
  standing : ∀ address, (staking.getValidator after address).map ValidatorRecord.standing =
    (staking.getValidator before address).map ValidatorRecord.standing

/-- **What slashing relies on**: validators are stored under their operators, bonded validators are stored,
and `Slash` and `Jail` change nothing but powers, jails and the bonded validators. -/
structure Laws : Prop where
  operator : ∀ state address record, staking.getValidator state address = some record →
    record.operator = address
  bonded : ∀ state, ∀ record ∈ staking.bondedValidatorsByPower state,
    (staking.getValidator state record.operator).isSome
  slash : ∀ state consAddress height power fraction after,
    staking.slash state consAddress height power fraction = some after → staking.Keeps state after
  jail : ∀ state consAddress after, staking.jail state consAddress = some after →
    staking.Keeps state after

/-- The staking module after some punishments. -/
def replay : List Punishment → σ → Option σ
  | [], state => some state
  | punishment :: rest, state => do
      let state ← staking.slash state punishment.consAddress punishment.height punishment.power
        punishment.slashFraction
      let state ← if punishment.jail then staking.jail state punishment.consAddress else some state
      replay rest state

variable {staking}

theorem Keeps.refl (state : σ) : staking.Keeps state state := ⟨rfl, rfl, fun _ => rfl⟩

theorem Keeps.trans {first second third : σ} (left : staking.Keeps first second)
    (right : staking.Keeps second third) : staking.Keeps first third :=
  ⟨right.startHeight.trans left.startHeight, right.queue.trans left.queue,
    fun address => (right.standing address).trans (left.standing address)⟩

/-- A validator that is read later was there before, in the same standing. -/
theorem Keeps.getValidator {before after : σ} (keeps : staking.Keeps before after)
    {address : ValAddress} {record : ValidatorRecord}
    (found : staking.getValidator after address = some record) :
    ∃ earlier, staking.getValidator before address = some earlier ∧
      earlier.standing = record.standing := by
  have same := keeps.standing address
  rw [found, Option.map_some] at same
  obtain ⟨earlier, there, equal⟩ := Option.map_eq_some_iff.mp same.symm
  exact ⟨earlier, there, equal⟩

theorem Keeps.isSome_getValidator {before after : σ} (keeps : staking.Keeps before after)
    (address : ValAddress) :
    (staking.getValidator after address).isSome = (staking.getValidator before address).isSome := by
  have same := congrArg Option.isSome (keeps.standing address)
  rwa [Option.isSome_map, Option.isSome_map] at same

theorem replay_append (first second : List Punishment) (state : σ) :
    staking.replay (first ++ second) state = (staking.replay first state).bind (staking.replay second) := by
  induction first generalizing state with
  | nil => rfl
  | cons punishment rest ih =>
      simp only [List.cons_append, replay, Option.bind_eq_bind, Option.bind_assoc]
      refine Option.bind_congr fun slashed _ => ?_
      split_ifs
      · rw [Option.bind_assoc]
        exact Option.bind_congr fun jailed _ => ih jailed
      · exact ih slashed

end StakingKeeper

/-! ### The loops -/

section Loops

variable {σ : Type} {sdk : Sdk} {staking : StakingKeeper σ} {blockHeight : Nat} {slashFraction : Int}

/-- Punishments of this height and fraction lead from one state to another. -/
structure Punishes (staking : StakingKeeper σ) (blockHeight : Nat) (slashFraction : Int)
    (punishments : List Punishment) (before after : σ) : Prop where
  replayed : staking.replay punishments before = some after
  keeps : staking.Keeps before after
  terms : ∀ punishment ∈ punishments,
    punishment.height = blockHeight ∧ punishment.slashFraction = slashFraction

theorem Punishes.nil (state : σ) : Punishes staking blockHeight slashFraction [] state state :=
  ⟨rfl, .refl state, fun _ member => absurd member List.not_mem_nil⟩

theorem Punishes.append {first second : List Punishment} {before middle after : σ}
    (left : Punishes staking blockHeight slashFraction first before middle)
    (right : Punishes staking blockHeight slashFraction second middle after) :
    Punishes staking blockHeight slashFraction (first ++ second) before after where
  replayed := by rw [StakingKeeper.replay_append, left.replayed, Option.bind_some, right.replayed]
  keeps := left.keeps.trans right.keeps
  terms punishment member := (List.mem_append.mp member).elim (left.terms _) (right.terms _)

/-- **One punishment.** -/
theorem punish_punishes (laws : staking.Laws) {validator : ValidatorRecord}
    {state after : SlashingState σ} {punishment : Punishment}
    (done : punish staking blockHeight slashFraction validator state = .ok (after, punishment)) :
    Punishes staking blockHeight slashFraction [punishment] state.staking after.staking ∧
      punishment.validator = validator.operator := by
  unfold punish at done
  split at done
  · cases done
  · rename_i slashed slash
    have kept := laws.slash _ _ _ _ _ _ slash
    dsimp only at done
    split_ifs at done with isJailed
    · obtain ⟨rfl, rfl⟩ := Prod.mk.inj (Outcome.ok.inj done)
      refine ⟨⟨?_, kept, ?_⟩, rfl⟩
      · simp [StakingKeeper.replay, slash, isJailed]
      · simp
    · split at done
      · cases done
      · rename_i jailed jail
        obtain ⟨rfl, rfl⟩ := Prod.mk.inj (Outcome.ok.inj done)
        refine ⟨⟨?_, kept.trans (laws.jail _ _ _ jail), ?_⟩, rfl⟩
        · simp [StakingKeeper.replay, slash, isJailed, jail]
        · simp

open Classical in
/-- **Whom a round is about**: of the validators that have to answer for an object, those that have not
signed. -/
noncomputable def nonSigners (signed : ValAddress → Prop) (answers : ValidatorRecord → Bool)
    (validators : List ValidatorRecord) : List ValAddress :=
  (validators.filter fun validator =>
    answers validator ∧ ¬ signed validator.operator).map ValidatorRecord.operator

theorem nonSigners_cons_of_signed {signed : ValAddress → Prop} {answers : ValidatorRecord → Bool}
    {validator : ValidatorRecord} (fine : ¬ (answers validator = true ∧ ¬ signed validator.operator))
    (rest : List ValidatorRecord) :
    nonSigners signed answers (validator :: rest) = nonSigners signed answers rest := by
  unfold nonSigners
  rw [List.filter_cons_of_neg (by simpa using fine)]

theorem nonSigners_cons {signed : ValAddress → Prop} {answers : ValidatorRecord → Bool}
    {validator : ValidatorRecord} (missed : answers validator = true ∧ ¬ signed validator.operator)
    (rest : List ValidatorRecord) :
    nonSigners signed answers (validator :: rest) =
      validator.operator :: nonSigners signed answers rest := by
  unfold nonSigners
  rw [List.filter_cons_of_pos (by simpa using missed), List.map_cons]

/-- **A loop over validators** punishes those that its test finds, if the test does not depend on the
punishments. -/
theorem checkValidators_punishes (laws : staking.Laws) {missed : σ → ValidatorRecord → Bool}
    {signed : ValAddress → Prop} {answers : ValidatorRecord → Bool} {validators : List ValidatorRecord}
    {state after : SlashingState σ} {punishments : List Punishment}
    (decides : ∀ later, staking.Keeps state.staking later → ∀ validator ∈ validators,
      (missed later validator = true ↔ answers validator = true ∧ ¬ signed validator.operator))
    (checked : checkValidators staking blockHeight slashFraction missed validators state =
      .ok (after, punishments)) :
    Punishes staking blockHeight slashFraction punishments state.staking after.staking ∧
      punishments.map Punishment.validator = nonSigners signed answers validators := by
  induction validators generalizing state punishments with
  | nil =>
      obtain ⟨rfl, rfl⟩ := Prod.mk.inj (Outcome.ok.inj checked)
      exact ⟨.nil _, rfl⟩
  | cons validator rest ih =>
      have first := decides state.staking (.refl _) validator List.mem_cons_self
      rw [checkValidators] at checked
      split_ifs at checked with isMissed
      · obtain ⟨⟨middle, punishment⟩, punished, checked⟩ := Outcome.bind_eq_ok.mp checked
        obtain ⟨⟨last, later⟩, others, checked⟩ := Outcome.bind_eq_ok.mp checked
        obtain ⟨rfl, rfl⟩ := Prod.mk.inj (Outcome.ok.inj checked)
        obtain ⟨one, operator⟩ := punish_punishes laws punished
        obtain ⟨many, validators⟩ := ih (fun later kept validator member =>
          decides later (one.keeps.trans kept) validator (List.mem_cons_of_mem _ member)) others
        refine ⟨one.append many, ?_⟩
        rw [List.map_cons, operator, validators, nonSigners_cons (first.mp isMissed)]
      · rw [nonSigners_cons_of_signed (fun missed => isMissed (first.mpr missed))]
        exact ih (fun later kept validator member =>
          decides later kept validator (List.mem_cons_of_mem _ member)) checked

/-- The validators of the unbonding queue. -/
def StakingKeeper.unbondingValidators (sdk : Sdk) (staking : StakingKeeper σ) (state : σ) :
    List ValidatorRecord :=
  (staking.unbondingQueue state).filterMap fun text =>
    (sdk.valAddressFromBech32 text).bind (staking.getValidator state)

/-- **The loop over the unbonding queue.** A validator is read again before it is tested; it is in the same
standing. -/
theorem checkUnbonding_punishes (laws : staking.Laws) {missed : σ → ValidatorRecord → Bool}
    {signed : ValAddress → Prop} {answers : ValidatorRecord → Bool} {texts : List Bytes} {start : σ}
    {state after : SlashingState σ} {punishments : List Punishment}
    (reached : staking.Keeps start state.staking)
    (decides : ∀ later, staking.Keeps start later → ∀ address validator,
      staking.getValidator start address = some validator → ∀ again,
      again.standing = validator.standing →
      (missed later again = true ↔ answers validator = true ∧ ¬ signed validator.operator))
    (checked : checkUnbonding sdk staking blockHeight slashFraction missed texts state =
      .ok (after, punishments)) :
    Punishes staking blockHeight slashFraction punishments state.staking after.staking ∧
      punishments.map Punishment.validator = nonSigners signed answers
        (texts.filterMap fun text => (sdk.valAddressFromBech32 text).bind (staking.getValidator start)) := by
  induction texts generalizing state punishments with
  | nil =>
      obtain ⟨rfl, rfl⟩ := Prod.mk.inj (Outcome.ok.inj checked)
      exact ⟨.nil _, rfl⟩
  | cons text rest ih =>
      rw [checkUnbonding] at checked
      split at checked
      · cases checked
      · rename_i address parsed
        split at checked
        · cases checked
        · rename_i again read
          obtain ⟨⟨middle, here⟩, first, checked⟩ := Outcome.bind_eq_ok.mp checked
          obtain ⟨⟨last, later⟩, others, checked⟩ := Outcome.bind_eq_ok.mp checked
          obtain ⟨rfl, rfl⟩ := Prod.mk.inj (Outcome.ok.inj checked)
          obtain ⟨validator, found, standing⟩ := reached.getValidator read
          have operator : again.operator = validator.operator :=
            (congrArg Prod.fst standing).symm
          have alike : ∀ later, staking.Keeps state.staking later → ∀ other ∈ [again],
              (missed later other = true ↔ answers validator = true ∧ ¬ signed other.operator) := by
            intro later kept other member
            rw [List.mem_singleton.mp member, operator]
            exact decides later (reached.trans kept) address validator found again standing.symm
          obtain ⟨one, hit⟩ := checkValidators_punishes laws alike first
          obtain ⟨many, hits⟩ := ih (reached.trans one.keeps) others
          refine ⟨one.append many, ?_⟩
          rw [List.map_append, hit, hits, List.filterMap_cons_some (by rw [parsed, Option.bind_some, found])]
          by_cases missed : answers validator = true ∧ ¬ signed validator.operator
          · rw [nonSigners_cons missed, nonSigners_cons (by rw [operator]; exact missed), operator]
            rfl
          · rw [nonSigners_cons_of_signed missed,
              nonSigners_cons_of_signed (by rw [operator]; exact missed)]
            rfl

end Loops

/-! ### What the lookups find -/

/-- The confirmations slashing looks up for an object. -/
def KeeperState.confirmsOf {β : Type} (keeper : KeeperState β) : EthereumSigned → List Confirmation
  | .valset set => (keeper.confirms.getValsetConfirms set.nonce).map .valset
  | .batch stored => (keeper.confirms.getBatchConfirmByNonceAndTokenContract stored.batchNonce
      stored.tokenContract).map .batch
  | .logicCall call => (keeper.confirms.getLogicConfirmByInvalidationIDAndNonce call.invalidationId
      call.invalidationNonce).map .logicCall

/-- In the ranges of the stored logic calls lie confirmations of these calls only. -/
def KeeperState.CallsApart {β : Type} (keeper : KeeperState β) : Prop :=
  ∀ call ∈ keeper.logicCalls.values, ∀ msg ∈ rangeValues keeper.confirms.logicCalls
    (0x13 :: (keyBytes call.invalidationId ++ uint64Bytes call.invalidationNonce)),
    decodeString msg.invalidationId = some call.invalidationId ∧
      msg.invalidationNonce = call.invalidationNonce

instance {β : Type} (keeper : KeeperState β) : Decidable keeper.CallsApart := by
  unfold KeeperState.CallsApart; infer_instance

/-- What a round can be about: a batch with a proper contract, a call whose range holds its own
confirmations only. -/
def KeeperState.LooksUp {β : Type} (keeper : KeeperState β) : EthereumSigned → Prop
  | .valset _ => True
  | .batch stored => stored.tokenContract.length = ethContractAddressLen
  | .logicCall call => call ∈ keeper.logicCalls.values

section Lookups

variable {β τ : Type} {sdk : Sdk} {accepted : ValAddress → Confirmation → Prop} {node : Node β τ}

/-- **The lookups find what is stored for the object.** -/
theorem SignerBook.mem_confirmsOf (book : SignerBook sdk accepted node)
    (apart : node.keeper.CallsApart) {object : EthereumSigned} (looksUp : node.keeper.LooksUp object)
    {confirmation : Confirmation} :
    confirmation ∈ node.keeper.confirmsOf object ↔
      (∃ key, node.keeper.confirms.HasAt key confirmation) ∧ confirmation.Names object := by
  cases object with
  | valset set =>
      unfold KeeperState.confirmsOf Confirms.getValsetConfirms
      simp only [List.map_map, List.mem_map, mem_prefixValues]
      constructor
      · rintro ⟨stored, ⟨key, found, begins⟩, rfl⟩
        obtain ⟨account, _, rfl⟩ := Option.map_eq_some_iff.mp (book.placed key (.valset stored) found).1
        have same : set.nonce = stored.nonce := uint64Bytes_injective
          (eq_of_prefix_append (List.cons_prefix_cons.mp begins).2 (by simp))
        simp only [Function.comp_apply, same, orPreset_self]
        exact ⟨⟨_, found⟩, same.symm⟩
      · rintro ⟨⟨key, found⟩, names⟩
        cases confirmation with
        | batch msg => exact names.elim
        | logicCall msg => exact names.elim
        | valset msg =>
            have same : msg.nonce = set.nonce := names
            obtain ⟨account, _, rfl⟩ := Option.map_eq_some_iff.mp (book.placed key (.valset msg) found).1
            refine ⟨msg, ⟨_, found, ?_⟩, ?_⟩
            · rw [getValsetConfirmKey, same]
              exact List.cons_prefix_cons.mpr ⟨rfl, List.prefix_append _ _⟩
            · simp only [Function.comp_apply, ← same, orPreset_self]
  | batch stored =>
      have length : stored.tokenContract.length = ethContractAddressLen := looksUp
      have some_ : stored.tokenContract ≠ [] := by
        rintro empty
        rw [empty] at length
        cases length
      unfold KeeperState.confirmsOf Confirms.getBatchConfirmByNonceAndTokenContract
      simp only [List.map_map, List.mem_map, mem_prefixValues]
      constructor
      · rintro ⟨there, ⟨key, found, begins⟩, rfl⟩
        obtain ⟨placed, fits⟩ := book.placed key (.batch there) found
        obtain ⟨account, _, rfl⟩ := Option.map_eq_some_iff.mp placed
        have fits : there.tokenContract.length = ethContractAddressLen := fits
        have both := (List.cons_prefix_cons.mp begins).2
        rw [← List.append_assoc] at both
        have whole := eq_of_prefix_append both (by simp [length, fits])
        obtain ⟨contracts, nonces⟩ := List.append_inj whole (by simp [length, fits])
        have sameContract := keyBytes_injective contracts
        have sameNonce := uint64Bytes_injective nonces
        simp only [Function.comp_apply, sameNonce, orPreset_self, ← sameContract, if_neg some_]
        simp only [sameContract]
        exact ⟨⟨_, found⟩, sameContract.symm, sameNonce.symm⟩
      · rintro ⟨⟨key, found⟩, names⟩
        cases confirmation with
        | valset msg => exact names.elim
        | logicCall msg => exact names.elim
        | batch msg =>
            obtain ⟨contract, nonce⟩ : msg.tokenContract = stored.tokenContract ∧
              msg.nonce = stored.batchNonce := names
            obtain ⟨account, _, rfl⟩ := Option.map_eq_some_iff.mp (book.placed key (.batch msg) found).1
            refine ⟨msg, ⟨_, found, ?_⟩, ?_⟩
            · rw [getBatchConfirmKey, contract, nonce, ← List.append_assoc]
              exact List.cons_prefix_cons.mpr ⟨rfl, List.prefix_append _ _⟩
            · simp only [Function.comp_apply, ← nonce, orPreset_self, contract, if_neg some_]
              rw [← contract]
  | logicCall call =>
      have own := apart call looksUp
      unfold KeeperState.confirmsOf Confirms.getLogicConfirmByInvalidationIDAndNonce
      simp only [List.map_map, List.mem_map]
      constructor
      · rintro ⟨stored, member, rfl⟩
        obtain ⟨key, found⟩ := mem_rangeValues member
        obtain ⟨id, nonce⟩ := own stored member
        simp only [Function.comp_apply, nonce, orPreset_self]
        rw [← nonce]
        exact ⟨⟨key, found⟩, id, nonce⟩
      · rintro ⟨⟨key, found⟩, names⟩
        cases confirmation with
        | valset msg => exact names.elim
        | batch msg => exact names.elim
        | logicCall msg =>
            obtain ⟨id, nonce⟩ : decodeString msg.invalidationId = some call.invalidationId ∧
              msg.invalidationNonce = call.invalidationNonce := names
            obtain ⟨placed, fits⟩ := book.placed key (.logicCall msg) found
            obtain ⟨invalidationId, decoded, placed⟩ := Option.bind_eq_some_iff.mp placed
            obtain ⟨account, _, rfl⟩ := Option.map_eq_some_iff.mp placed
            obtain rfl := Option.some.inj (decoded.symm.trans id)
            refine ⟨msg, ?_, ?_⟩
            · unfold rangeValues
              refine List.mem_map.mpr ⟨(_, msg), List.mem_filter.mpr
                ⟨(Store.mem_entries_iff _ _ _).mpr found, decide_eq_true ?_⟩, rfl⟩
              have bytes : ∀ digit ∈ getLogicConfirmKey call.invalidationId msg.invalidationNonce account,
                  digit ≤ 255 := by
                intro digit member
                rcases List.mem_cons.mp member with rfl | member
                · decide
                · rcases List.mem_append.mp member with inId | member
                  · exact keyBytes_le _ digit inId
                  · exact (List.mem_append.mp member).elim (uint64Bytes_le fits digit)
                      (keyBytes_le _ digit)
              rw [inPrefixRange_iff bytes, getLogicConfirmKey, nonce, ← List.append_assoc]
              exact Or.inl (List.cons_prefix_cons.mpr ⟨rfl, List.prefix_append _ _⟩)
            · simp only [Function.comp_apply, ← nonce, orPreset_self]

/-- **In terms of the history**: a confirmation of the validator is found if and only if one was accepted
from it. -/
theorem SignerBook.confirmed_iff (book : SignerBook sdk accepted node)
    (apart : node.keeper.CallsApart) (object : EthereumSigned) (looksUp : node.keeper.LooksUp object)
    (operator : ValAddress) :
    (∃ confirmation ∈ node.keeper.confirmsOf object, node.keeper.keys.Sent sdk operator confirmation) ↔
      ∃ confirmation : Confirmation, confirmation.Names object ∧ accepted operator confirmation := by
  constructor
  · rintro ⟨confirmation, member, sent⟩
    obtain ⟨⟨key, found⟩, names⟩ := (book.mem_confirmsOf apart looksUp).mp member
    obtain ⟨sender, from_⟩ := book.sent key confirmation found
    obtain rfl := (book.stored sender confirmation from_).2.unique sent
    exact ⟨confirmation, names, from_⟩
  · rintro ⟨confirmation, names, from_⟩
    obtain ⟨there, sent⟩ := book.stored operator confirmation from_
    exact ⟨confirmation, (book.mem_confirmsOf apart looksUp).mpr ⟨there, names⟩, sent⟩

/-- What is found is a confirmation of some validator. -/
theorem SignerBook.exists_sent (book : SignerBook sdk accepted node)
    (apart : node.keeper.CallsApart) (object : EthereumSigned) (looksUp : node.keeper.LooksUp object)
    (confirmation : Confirmation) (member : confirmation ∈ node.keeper.confirmsOf object) :
    ∃ operator, node.keeper.keys.Sent sdk operator confirmation := by
  obtain ⟨⟨key, found⟩, _⟩ := (book.mem_confirmsOf apart looksUp).mp member
  obtain ⟨operator, from_⟩ := book.sent key confirmation found
  exact ⟨operator, (book.stored operator confirmation from_).2⟩

end Lookups

/-! ### Who has to answer for an object -/

section Answers

variable {σ : Type} (staking : StakingKeeper σ) (params : SlashingParams)

/-- A bonded validator that joined before the validator set. -/
def StakingKeeper.joinedSet (state : σ) (valset : Valset) (validator : ValidatorRecord) : Bool :=
  (staking.startHeight state validator.consAddr).any fun start => uint64OfInt64 start < valset.height

/-- A validator of the unbonding queue that joined before the validator set and began to unbond not long
before it. -/
def StakingKeeper.leavesSet (state : σ) (valset : Valset) (validator : ValidatorRecord) : Bool :=
  (staking.startHeight state validator.consAddr).any fun start =>
    start < int64OfUint64 valset.height ∧ validator.unbonding ∧
      valset.height < (uint64OfInt64 validator.unbondingHeight +
        params.unbondSlashingValsetsWindow) % 2 ^ 64

/-- A bonded validator that did not join after the block; one without a signing record has to answer. -/
def StakingKeeper.joinedBlock (state : σ) (block : Nat) (validator : ValidatorRecord) : Bool :=
  (staking.startHeight state validator.consAddr).all fun start => start ≤ int64OfUint64 block

/-- **Who is to be punished for an object**, given who has signed it. -/
noncomputable def StakingKeeper.delinquents (sdk : Sdk) (signed : ValAddress → Prop) (state : σ) :
    EthereumSigned → List ValAddress
  | .valset set =>
      nonSigners signed (staking.joinedSet state set) (staking.bondedValidatorsByPower state) ++
        nonSigners signed (staking.leavesSet params state set) (staking.unbondingValidators sdk state)
  | .batch stored =>
      nonSigners signed (staking.joinedBlock state stored.block) (staking.bondedValidatorsByPower state)
  | .logicCall call =>
      nonSigners signed (staking.joinedBlock state call.block) (staking.bondedValidatorsByPower state)

/-- The fraction for an object. -/
def SlashingParams.slashFraction (params : SlashingParams) : EthereumSigned → Int
  | .valset _ => params.slashFractionValset
  | .batch _ => params.slashFractionBatch
  | .logicCall _ => params.slashFractionLogicCall

end Answers

section Missed

variable {σ : Type} {sdk : Sdk} {staking : StakingKeeper σ} {params : SlashingParams} {blockHeight : Nat}
  {keys : DelegateKeys} {confirmations : List Confirmation}

/-- **Recognised by the orchestrator.** -/
theorem confirmedBy_iff (laws : staking.Laws)
    (senders : ∀ confirmation ∈ confirmations, ∃ operator, keys.Sent sdk operator confirmation)
    {state : σ} {validator : ValidatorRecord}
    (known : (staking.getValidator state validator.operator).isSome) :
    confirmedBy sdk staking keys state validator (confirmations.map Confirmation.orchestrator) = true ↔
      ∃ confirmation ∈ confirmations, keys.Sent sdk validator.operator confirmation := by
  unfold confirmedBy
  simp only [List.any_map, List.any_eq_true, Function.comp_apply]
  refine exists_congr fun confirmation => and_congr_right fun member => ?_
  obtain ⟨operator, sent⟩ := senders confirmation member
  obtain ⟨account, ethAddress, parsed, bound, _⟩ := id sent
  simp only [parsed, Option.getD_some, DelegateKeys.getOrchestratorValidator, bound]
  constructor
  · intro found
    cases read : staking.getValidator state operator with
    | none => simp [read] at found
    | some record =>
        simp only [read, Option.isSome_some, if_true, Option.any_some, decide_eq_true_iff] at found
        rw [← found, laws.operator state operator record read]
        exact sent
  · intro own
    obtain rfl := own.unique sent
    obtain ⟨record, read⟩ := Option.isSome_iff_exists.mp known
    simp [read, laws.operator state _ record read]

/-- **Recognised by the Ethereum address.** -/
theorem carried_iff {confirms : List MsgValsetConfirm} (unshared : keys.Unshared)
    (senders : ∀ confirmation ∈ confirms.map Confirmation.valset,
      ∃ operator, keys.Sent sdk operator confirmation) (operator : ValAddress) :
    (confirms.any fun confirm => keys.getEthAddressByValidator operator = some confirm.ethAddress) =
        true ↔
      ∃ confirmation ∈ confirms.map Confirmation.valset, keys.Sent sdk operator confirmation := by
  simp only [List.any_eq_true, decide_eq_true_iff, List.mem_map, exists_exists_and_eq_and]
  refine exists_congr fun confirm => and_congr_right fun member => ?_
  obtain ⟨sender, sent⟩ := senders _ (List.mem_map_of_mem member)
  obtain ⟨account, ethAddress, parsed, bound, registered, carries⟩ := id sent
  have carries : confirm.ethAddress = ethAddress := carries
  constructor
  · intro found
    rw [carries] at found
    obtain rfl := unshared operator sender ethAddress ethAddress found registered rfl
    exact sent
  · intro own
    obtain rfl := own.unique sent
    rw [carries, registered]

variable {signed : ValAddress → Prop}

theorem missedValset_iff {confirms : List MsgValsetConfirm} (unshared : keys.Unshared)
    (senders : ∀ confirmation ∈ confirms.map Confirmation.valset,
      ∃ operator, keys.Sent sdk operator confirmation)
    (signs : ∀ operator, (∃ confirmation ∈ confirms.map Confirmation.valset,
      keys.Sent sdk operator confirmation) ↔ signed operator)
    {start later : σ} (keeps : staking.Keeps start later) (valset : Valset)
    (validator : ValidatorRecord) :
    missedValset staking keys confirms valset later validator = true ↔
      staking.joinedSet start valset validator = true ∧ ¬ signed validator.operator := by
  unfold missedValset StakingKeeper.joinedSet
  rw [keeps.startHeight, ← signs, ← carried_iff unshared senders]
  cases staking.startHeight start validator.consAddr with
  | none => simp
  | some joined => simp only [Option.any_some, decide_eq_true_iff]

theorem missedUnbonding_iff {confirms : List MsgValsetConfirm} (laws : staking.Laws)
    (senders : ∀ confirmation ∈ confirms.map Confirmation.valset,
      ∃ operator, keys.Sent sdk operator confirmation)
    (signs : ∀ operator, (∃ confirmation ∈ confirms.map Confirmation.valset,
      keys.Sent sdk operator confirmation) ↔ signed operator)
    {start later : σ} (keeps : staking.Keeps start later) (valset : Valset)
    {validator again : ValidatorRecord} (standing : again.standing = validator.standing)
    (known : (staking.getValidator start validator.operator).isSome) :
    missedUnbonding sdk staking params keys confirms valset later again = true ↔
      staking.leavesSet params start valset validator = true ∧ ¬ signed validator.operator := by
  obtain ⟨operator, consAddr, unbonding, unbondingHeight⟩ :
      again.operator = validator.operator ∧ again.consAddr = validator.consAddr ∧
        again.unbonding = validator.unbonding ∧ again.unbondingHeight = validator.unbondingHeight := by
    simpa [ValidatorRecord.standing] using standing
  have still : (staking.getValidator later again.operator).isSome := by
    rw [keeps.isSome_getValidator, operator]
    exact known
  have found := confirmedBy_iff laws senders still
  rw [List.map_map, operator, signs] at found
  have found : confirmedBy sdk staking keys later again (confirms.map MsgValsetConfirm.orchestrator) =
      true ↔ signed validator.operator := found
  unfold missedUnbonding StakingKeeper.leavesSet
  rw [keeps.startHeight, consAddr, unbonding, unbondingHeight, ← found]
  cases staking.startHeight start validator.consAddr with
  | none => simp
  | some joined => simp only [Option.any_some, decide_eq_true_iff, and_assoc]

theorem missedObject_iff {orchestrators : List Bytes} (laws : staking.Laws)
    (senders : ∀ confirmation ∈ confirmations, ∃ operator, keys.Sent sdk operator confirmation)
    (texts : orchestrators = confirmations.map Confirmation.orchestrator)
    (signs : ∀ operator, (∃ confirmation ∈ confirmations,
      keys.Sent sdk operator confirmation) ↔ signed operator)
    {start later : σ} (keeps : staking.Keeps start later) (block : Nat) {validator : ValidatorRecord}
    (known : (staking.getValidator start validator.operator).isSome) :
    missedObject sdk staking keys orchestrators block later validator = true ↔
      staking.joinedBlock start block validator = true ∧ ¬ signed validator.operator := by
  have still : (staking.getValidator later validator.operator).isSome := by
    rw [keeps.isSome_getValidator]
    exact known
  have found := confirmedBy_iff laws senders still
  rw [signs] at found
  unfold missedObject StakingKeeper.joinedBlock
  rw [keeps.startHeight, texts, ← found, decide_eq_true_iff]

end Missed

/-! ### Rounds -/

section Rounds

variable {β τ σ : Type} {sdk : Sdk} {staking : StakingKeeper σ} {params : SlashingParams}
  {blockHeight : Nat} {accepted : ValAddress → Confirmation → Prop} {node : Node β τ}

/-- **One round**: its punishments lead from one state of the staking module to another, at the terms of the
object, and hit those that did not sign it. -/
structure RoundHits (sdk : Sdk) (staking : StakingKeeper σ) (params : SlashingParams) (blockHeight : Nat)
    (signed : EthereumSigned → ValAddress → Prop) (before : σ) (round : SlashingRound) (after : σ) :
    Prop where
  punishes : Punishes staking blockHeight (params.slashFraction round.object) round.punishments before
    after
  validators : round.punishments.map Punishment.validator =
    staking.delinquents params sdk (signed round.object) before round.object

/-- **Rounds one after the other.** -/
inductive RoundsHit (sdk : Sdk) (staking : StakingKeeper σ) (params : SlashingParams) (blockHeight : Nat)
    (signed : EthereumSigned → ValAddress → Prop) : σ → List SlashingRound → σ → Prop where
  | done (state : σ) : RoundsHit sdk staking params blockHeight signed state [] state
  | round {before middle after : σ} {round : SlashingRound} {rest : List SlashingRound}
      (hits : RoundHits sdk staking params blockHeight signed before round middle)
      (later : RoundsHit sdk staking params blockHeight signed middle rest after) :
      RoundsHit sdk staking params blockHeight signed before (round :: rest) after

variable {signed : EthereumSigned → ValAddress → Prop}

theorem RoundsHit.append {first second : List SlashingRound} {before middle after : σ}
    (left : RoundsHit sdk staking params blockHeight signed before first middle)
    (right : RoundsHit sdk staking params blockHeight signed middle second after) :
    RoundsHit sdk staking params blockHeight signed before (first ++ second) after := by
  induction left with
  | done state => exact right
  | round hits later ih => exact .round hits (ih right)

/-- **A loop over what is due**, whose turns are rounds. -/
theorem slashEach_hits {α : Type} {object : α → EthereumSigned} {items : List α}
    {turn : α → SlashingState σ → Outcome Empty SlashingPanic (SlashingState σ × List Punishment)}
    (hits : ∀ item ∈ items, ∀ state after punishments, turn item state = .ok (after, punishments) →
      RoundHits sdk staking params blockHeight signed state.staking ⟨object item, punishments⟩
        after.staking)
    {state after : SlashingState σ} {rounds : List SlashingRound}
    (done : slashEach object turn items state = .ok (after, rounds)) :
    RoundsHit sdk staking params blockHeight signed state.staking rounds after.staking := by
  induction items generalizing state rounds with
  | nil =>
      obtain ⟨rfl, rfl⟩ := Prod.mk.inj (Outcome.ok.inj done)
      exact .done _
  | cons item rest ih =>
      obtain ⟨⟨middle, punishments⟩, first, done⟩ := Outcome.bind_eq_ok.mp done
      obtain ⟨⟨last, later⟩, remaining, done⟩ := Outcome.bind_eq_ok.mp done
      obtain ⟨rfl, rfl⟩ := Prod.mk.inj (Outcome.ok.inj done)
      exact .round (hits item List.mem_cons_self _ _ _ first)
        (ih (fun item member => hits item (List.mem_cons_of_mem _ member)) remaining)

/-- Somebody has signed: a confirmation was accepted. -/
def SignedIn (accepted : ValAddress → Confirmation → Prop) (object : EthereumSigned)
    (operator : ValAddress) : Prop :=
  ∃ confirmation : Confirmation, confirmation.Names object ∧ accepted operator confirmation

theorem SignerBook.valsetRound (book : SignerBook sdk accepted node) (laws : staking.Laws)
    (apart : node.keeper.CallsApart) {valset : Valset} {state after : SlashingState σ}
    {punishments : List Punishment}
    (done : valsetRound sdk staking params blockHeight node.keeper.keys node.keeper.confirms valset state =
      .ok (after, punishments)) :
    RoundHits sdk staking params blockHeight (SignedIn accepted) state.staking
      ⟨.valset valset, punishments⟩ after.staking := by
  obtain ⟨⟨middle, bonded⟩, first, done⟩ := Outcome.bind_eq_ok.mp done
  obtain ⟨⟨last, unbonding⟩, second, done⟩ := Outcome.bind_eq_ok.mp done
  obtain ⟨rfl, rfl⟩ := Prod.mk.inj (Outcome.ok.inj done)
  have senders := book.exists_sent apart (.valset valset) trivial
  have signs : ∀ operator, _ ↔ SignedIn accepted (.valset valset) operator :=
    book.confirmed_iff apart (.valset valset) trivial
  obtain ⟨hitBonded, bondedAre⟩ := checkValidators_punishes laws
    (fun later keeps validator _ =>
      missedValset_iff book.unshared senders signs keeps
        valset validator) first
  obtain ⟨hitUnbonding, unbondingAre⟩ := checkUnbonding_punishes laws hitBonded.keeps
    (fun later keeps address validator found again standing =>
      missedUnbonding_iff laws senders signs keeps valset
        standing (by rw [laws.operator _ _ _ found, found]; rfl)) second
  refine ⟨hitBonded.append hitUnbonding, ?_⟩
  rw [List.map_append, bondedAre, unbondingAre, hitBonded.keeps.queue]
  rfl

/-- The round of an object that bonded validators have to sign. -/
theorem SignerBook.objectRound (book : SignerBook sdk accepted node) (laws : staking.Laws)
    (apart : node.keeper.CallsApart) {object : EthereumSigned} (looksUp : node.keeper.LooksUp object)
    {orchestrators : List Bytes}
    (texts : orchestrators = (node.keeper.confirmsOf object).map Confirmation.orchestrator)
    {slashFraction : Int} {block : Nat} {state after : SlashingState σ} {punishments : List Punishment}
    (done : objectRound sdk staking blockHeight slashFraction node.keeper.keys orchestrators block state =
      .ok (after, punishments)) :
    Punishes staking blockHeight slashFraction punishments state.staking after.staking ∧
      punishments.map Punishment.validator = nonSigners (SignedIn accepted object)
        (staking.joinedBlock state.staking block) (staking.bondedValidatorsByPower state.staking) :=
  checkValidators_punishes laws (fun _ keeps validator member =>
    missedObject_iff laws (fun _ found => book.exists_sent apart object looksUp _ found) texts
      (book.confirmed_iff apart object looksUp) keeps block (laws.bonded _ validator member)) done

/-- **A call of `slashing`** hits, object by object, those that did not sign. -/
theorem SignerBook.slashing_hits (book : SignerBook sdk accepted node) (laws : staking.Laws)
    (apart : node.keeper.CallsApart) {before after : SlashingState σ} {rounds : List SlashingRound}
    (done : slashing sdk staking params blockHeight node.keeper before = .ok (after, rounds)) :
    RoundsHit sdk staking params blockHeight (SignedIn accepted) before.staking rounds after.staking := by
  obtain ⟨⟨afterValsets, valsets⟩, first, done⟩ := Outcome.bind_eq_ok.mp done
  obtain ⟨⟨afterBatches, batches⟩, second, done⟩ := Outcome.bind_eq_ok.mp done
  obtain ⟨⟨afterCalls, calls⟩, third, done⟩ := Outcome.bind_eq_ok.mp done
  obtain ⟨rfl, rfl⟩ := Prod.mk.inj (Outcome.ok.inj done)
  refine (slashEach_hits (fun valset _ _ _ _ turn => book.valsetRound laws apart turn) first).append
    ((slashEach_hits (fun batch due state next punishments turn => ?_) second).append
      (slashEach_hits (fun call due state next punishments turn => ?_) third))
  · have looksUp : node.keeper.LooksUp (.batch batch) := by
      unfold dueBatches at due
      split_ifs at due
      · obtain ⟨entry, inside, rfl⟩ := List.mem_map.mp (List.mem_of_mem_filter due)
        exact book.index entry.1 entry.2 ((Store.mem_entries_iff _ _ _).mp (List.mem_of_mem_filter inside))
      · exact absurd due List.not_mem_nil
    obtain ⟨⟨checked, missed⟩, loop, turn⟩ := Outcome.bind_eq_ok.mp turn
    obtain ⟨rfl, rfl⟩ := Prod.mk.inj (Outcome.ok.inj turn)
    obtain ⟨punishes, are⟩ := book.objectRound laws apart looksUp (List.map_map).symm loop
    exact ⟨punishes, are⟩
  · have looksUp : node.keeper.LooksUp (.logicCall call) := by
      unfold dueLogicCalls at due
      split_ifs at due
      · exact List.mem_of_mem_filter due
      · exact absurd due List.not_mem_nil
    obtain ⟨⟨checked, missed⟩, loop, turn⟩ := Outcome.bind_eq_ok.mp turn
    obtain ⟨rfl, rfl⟩ := Prod.mk.inj (Outcome.ok.inj turn)
    obtain ⟨punishes, are⟩ := book.objectRound laws apart looksUp (List.map_map).symm loop
    exact ⟨punishes, are⟩

end Rounds

/-! ### Every block -/

/-- What a block punished. -/
def slashingRounds (outputs : List BlockOutput) : List SlashingRound :=
  outputs.filterMap fun
    | .slashed _ round => some round
    | _ => none

@[simp] theorem slashingRounds_map_node (outputs : List NodeOutput) :
    slashingRounds (outputs.map .node) = [] := by
  rw [slashingRounds, List.filterMap_map]
  exact List.filterMap_eq_nil_iff.mpr fun _ _ => rfl

@[simp] theorem slashingRounds_block (blockHeight : Nat) (rounds : List SlashingRound)
    (outputs : List NodeOutput) :
    slashingRounds (rounds.map (.slashed blockHeight) ++ outputs.map .node) = rounds := by
  have nodes := slashingRounds_map_node outputs
  rw [slashingRounds] at nodes ⊢
  rw [List.filterMap_append, nodes, List.append_nil, List.filterMap_map]
  exact List.filterMap_some

section Runs

variable {β τ σ : Type} {sdk : Sdk} {bank : BankKeeper β} {geth : Geth} {evm : Evm}
  {others : Contracts τ} {staking : StakingKeeper σ} {params : SlashingParams}

end Runs

/-! ### One of two validators signs -/

section Examples

/-- Two validators, in the eyes of the staking module. -/
def exampleMember (number : UInt8) (jailed : Bool) : ValidatorRecord where
  toStakingValidator := { exampleStaking with consAddress := some [number], jailed := jailed }
  operator := List.replicate 20 number
  unbonding := false
  unbondingHeight := 0

/-- The state is who is jailed. -/
def exampleTwoStaking : StakingKeeper (List Bytes) where
  bondedValidatorsByPower := fun jailed =>
    [exampleMember 1 (jailed.contains [1]), exampleMember 2 (jailed.contains [2])].filter fun record =>
      ¬ record.jailed
  unbondingQueue := fun _ => []
  getValidator := fun jailed address =>
    if address = List.replicate 20 1 then some (exampleMember 1 (jailed.contains [1]))
    else if address = List.replicate 20 2 then some (exampleMember 2 (jailed.contains [2]))
    else none
  startHeight := fun _ _ => some 0
  slash := fun jailed _ _ _ _ => some jailed
  jail := fun jailed consAddress => some (consAddress :: jailed)

theorem exampleTwoStaking_keeps (before after : List Bytes) : exampleTwoStaking.Keeps before after where
  startHeight := rfl
  queue := rfl
  standing address := by
    simp only [exampleTwoStaking]
    split_ifs <;> rfl

theorem exampleTwoStaking_laws : exampleTwoStaking.Laws where
  operator state address record found := by
    simp only [exampleTwoStaking] at found
    split_ifs at found with first second
    · rw [← Option.some.inj found, first]
      rfl
    · rw [← Option.some.inj found, second]
      rfl
  bonded state record member := by
    have listed := (List.mem_filter.mp member).1
    rcases List.mem_pair.mp listed with rfl | rfl <;> rfl
  slash _ _ _ _ _ _ _ := exampleTwoStaking_keeps _ _
  jail _ _ _ _ := exampleTwoStaking_keeps _ _

/-- A fresh chain of the two. -/
def exampleTwoNode : BlockNode Ledger Unit (List Bytes) :=
  BlockNode.fresh exampleParams exampleLedger exampleEthereum []

def exampleTwoStep : BlockNode Ledger Unit (List Bytes) → BlockInput Ledger Unit (List Bytes) →
    Option (BlockNode Ledger Unit (List Bytes) × List BlockOutput) :=
  blockStep exampleSdk (ledgerBank exampleModuleAccount) exampleGeth exampleEvm exampleContracts
    exampleTwoStaking exampleSlashingParams

/-- A confirmation of the first validator set. -/
def exampleSetConfirm : MsgValsetConfirm where
  nonce := 1
  orchestrator := ascii "cosmos1qyqszqgpqyqszqgpqyqszqgpqyqszqgpjnp7du"
  ethAddress := hexOfAddress 1
  signature := exampleSignature.drop 2

/-- The first validator registers and confirms the first set. -/
def exampleSignedSet : List (BlockInput Ledger Unit (List Bytes)) :=
  [.node exampleRegister, .node (exampleBlock 1), .node (.valsetConfirm (fun _ => true) exampleSetConfirm)]

/-- Messages of the first validator, apart from its registration. -/
def exampleOwnMessages (state : BlockNode Ledger Unit (List Bytes)) :
    BlockInput Ledger Unit (List Bytes) → Prop
  | .node (.valsetConfirm isValidator msg) =>
      ∀ signer ∈ ((state.node.keeper.registry isValidator).signer
        ((exampleSdk.accAddressFromBech32 msg.orchestrator).getD [])).toOption, msg.ethAddress = signer.2
  | .node (.bridge _ _) => True
  | _ => False

instance (state : BlockNode Ledger Unit (List Bytes)) (input : BlockInput Ledger Unit (List Bytes)) :
    Decidable (exampleOwnMessages state input) := by
  rcases input with ⟨action⟩ | change
  · rcases action <;> unfold exampleOwnMessages <;> infer_instance
  · unfold exampleOwnMessages
    infer_instance

theorem exampleSignedSet_meets : StepsMeet exampleTwoStep
    (BlockNode.Attributes exampleSdk exampleGeth) exampleTwoNode exampleSignedSet := by
  refine ⟨⟨fun _ _ _ => rfl, fun _ _ _ _ _ found => (by cases found)⟩, fun result taken => ?_⟩
  have all : ∀ result ∈ exampleTwoStep exampleTwoNode (.node exampleRegister),
      StepsMeet exampleTwoStep exampleOwnMessages result.1 (exampleSignedSet.drop 1) := by
    decide +kernel
  refine StepsMeet.imp (fun state input own => ?_) (all result taken)
  rcases input with ⟨action⟩ | change
  · cases action with
    | valsetConfirm isValidator msg =>
        intro after _ operator ethAddress signs
        exact own (operator, ethAddress) (by rw [signs]; rfl)
    | bridge isValidator action => trivial
    | _ => exact own.elim
  · exact own.elim

end Examples

end NabBridge
