/-
**Histories of registrations.**

A registration is refused where the orchestrator or the validator is registered already, but the
orchestrator is looked up through the validators the staking module knows at that moment, and the Ethereum
address is not looked up at all. So two things can go wrong, each for good:

* an orchestrator of a validator that is gone is taken over. The old validator keeps its Ethereum address
  without an orchestrator, and `getDelegateKeys` panics (`delegate_keys_listed_iff`);
* two validators register one Ethereum address, in one spelling or in two
  (`one_key_one_validator_iff`).

Both theorems are about all runs of `delegateStep` and give the exact condition on its steps.
-/

import NabBridge.Keeper.Queries
import NabBridge.Keeper.Evidence
import NabBridge.Proof.Registry

namespace NabBridge

namespace DelegateKeys

/-! ### One registration -/

/-- The message registers the validator and the orchestrator. -/
structure Registers (sdk : Sdk) (keys : DelegateKeys)
    (input : (ValAddress → Bool) × MsgSetOrchestratorAddress) (validator : ValAddress)
    (orchestrator : AccAddress) : Prop where
  operatorParsed : sdk.valAddressFromBech32 input.2.validator = some validator
  accountParsed : sdk.accAddressFromBech32 input.2.orchestrator = some orchestrator
  ethAddress : validateEthAddress input.2.ethAddress = .ok ()
  known : input.1 validator = true
  unset : keys.getEthAddressByValidator validator = none
  free : keys.getOrchestratorValidator input.1 orchestrator = none

theorem setOrchestratorAddress_of_registers {sdk : Sdk} {keys : DelegateKeys}
    {input : (ValAddress → Bool) × MsgSetOrchestratorAddress} {validator : ValAddress}
    {orchestrator : AccAddress} (registers : keys.Registers sdk input validator orchestrator) :
    setOrchestratorAddress sdk input.1 input.2 keys =
      .ok (keys.register validator orchestrator input.2.ethAddress) := by
  unfold setOrchestratorAddress MsgSetOrchestratorAddress.validateBasic
  simp only [registers.operatorParsed, registers.accountParsed, registers.ethAddress, Option.isNone_some,
    Bool.false_eq_true, if_false, Option.getD_some, registers.known, not_true_eq_false,
    registers.unset, registers.free, Option.isSome_none, or_self]
  rfl

/-- **What a step of the registry does**: it registers a validator, or nothing. -/
theorem delegateStep_cases {sdk : Sdk} {keys next : DelegateKeys}
    {input : (ValAddress → Bool) × MsgSetOrchestratorAddress} {outputs : List Empty}
    (step : delegateStep sdk keys input = some (next, outputs)) :
    (next = keys ∧ ∀ validator orchestrator, ¬ keys.Registers sdk input validator orchestrator) ∨
      ∃ validator orchestrator, keys.Registers sdk input validator orchestrator ∧
        next = keys.register validator orchestrator input.2.ethAddress := by
  obtain ⟨rfl, _⟩ := Prod.mk.inj (Option.some.inj step)
  cases set : setOrchestratorAddress sdk input.1 input.2 keys with
  | ok after =>
      obtain ⟨valid, validator, orchestrator, validatorIs, orchestratorIs, known, free, unset, rfl⟩ :=
        setOrchestratorAddress_eq_ok set
      exact Or.inr ⟨validator, orchestrator,
        ⟨validatorIs, orchestratorIs, valid, known, unset, free⟩, rfl⟩
  | error reason =>
      refine Or.inl ⟨rfl, fun validator orchestrator registers => ?_⟩
      rw [setOrchestratorAddress_of_registers registers] at set
      cases set
  | panic reason => exact reason.elim

/-- A message registers one validator with one orchestrator. -/
theorem Registers.unique {sdk : Sdk} {keys : DelegateKeys}
    {input : (ValAddress → Bool) × MsgSetOrchestratorAddress} {validator other : ValAddress}
    {orchestrator account : AccAddress} (first : keys.Registers sdk input validator orchestrator)
    (second : keys.Registers sdk input other account) :
    validator = other ∧ orchestrator = account :=
  ⟨Option.some.inj (first.operatorParsed.symm.trans second.operatorParsed),
    Option.some.inj (first.accountParsed.symm.trans second.accountParsed)⟩

section Register

variable {keys : DelegateKeys} {validator : ValAddress} {orchestrator : AccAddress}
  {ethAddress : Bytes}

theorem get_validatorByOrchestrator_register (key : StoreKey) :
    (keys.register validator orchestrator ethAddress).validatorByOrchestrator.get key =
      if key = getOrchestratorAddressKey orchestrator then some validator
      else keys.validatorByOrchestrator.get key :=
  Store.get_set _ _ _ _

theorem get_validatorByEthAddress_register (key : StoreKey) :
    (keys.register validator orchestrator ethAddress).validatorByEthAddress.get key =
      if key = getValidatorByEthAddressKey ethAddress then some validator
      else keys.validatorByEthAddress.get key :=
  Store.get_set _ _ _ _

theorem getEthAddress_register (other : ValAddress) :
    (keys.register validator orchestrator ethAddress).getEthAddressByValidator other =
      if other = validator then some ethAddress else keys.getEthAddressByValidator other :=
  getEthAddressByValidator_register keys validator other orchestrator ethAddress

end Register

/-! ### Invariants of every history -/

/-- What every history of registrations keeps. -/
structure History (sdk : Sdk) (keys : DelegateKeys) : Prop where
  consistent : keys.Consistent sdk
  valid : ∀ validator ethAddress, keys.getEthAddressByValidator validator = some ethAddress →
    validateEthAddress ethAddress = .ok ()
  indexed : ∀ validator ethAddress, keys.getEthAddressByValidator validator = some ethAddress →
    ∃ operator,
      keys.validatorByEthAddress.get (getValidatorByEthAddressKey ethAddress) = some operator
  accounts : ∀ key validator, keys.validatorByOrchestrator.get key = some validator →
    ∃ text orchestrator, key = getOrchestratorAddressKey orchestrator ∧
      sdk.accAddressFromBech32 text = some orchestrator
  registered : ∀ key validator, keys.validatorByOrchestrator.get key = some validator →
    ∃ ethAddress, keys.getEthAddressByValidator validator = some ethAddress
  single : ∀ key key' validator, keys.validatorByOrchestrator.get key = some validator →
    keys.validatorByOrchestrator.get key' = some validator → key = key'

theorem history_empty (sdk : Sdk) : DelegateKeys.empty.History sdk where
  consistent := consistent_empty sdk
  valid _ _ found := by cases found
  indexed _ _ found := by cases found
  accounts _ _ found := by cases found
  registered _ _ found := by cases found
  single _ _ _ found := by cases found

/-- **A registration** keeps the invariants. -/
theorem History.register {sdk : Sdk} {keys : DelegateKeys}
    {input : (ValAddress → Bool) × MsgSetOrchestratorAddress} {validator : ValAddress}
    {orchestrator : AccAddress} (history : keys.History sdk)
    (registers : keys.Registers sdk input validator orchestrator) :
    (keys.register validator orchestrator input.2.ethAddress).History sdk where
  consistent := history.consistent.register registers.operatorParsed registers.unset _ _
  valid operator address found := by
    rw [getEthAddress_register] at found
    split_ifs at found
    · exact Option.some.inj found ▸ registers.ethAddress
    · exact history.valid operator address found
  indexed operator address found := by
    rw [get_validatorByEthAddress_register]
    split_ifs with same
    · exact ⟨validator, rfl⟩
    · rw [getEthAddress_register] at found
      split_ifs at found
      · exact absurd (congrArg getValidatorByEthAddressKey (Option.some.inj found).symm) same
      · exact history.indexed operator address found
  accounts key operator found := by
    rw [get_validatorByOrchestrator_register] at found
    split_ifs at found with same
    · exact ⟨input.2.orchestrator, orchestrator, same, registers.accountParsed⟩
    · exact history.accounts key operator found
  registered key operator found := by
    rw [getEthAddress_register]
    split_ifs with same
    · exact ⟨_, rfl⟩
    · rw [get_validatorByOrchestrator_register] at found
      split_ifs at found
      · exact absurd (Option.some.inj found).symm same
      · exact history.registered key operator found
  single key key' operator found found' := by
    -- the validator had no entry before
    have fresh : ∀ other, keys.validatorByOrchestrator.get other ≠ some validator := by
      intro other entry
      obtain ⟨address, registered⟩ := history.registered other validator entry
      rw [registers.unset] at registered
      cases registered
    rw [get_validatorByOrchestrator_register] at found found'
    split_ifs at found found' with same same'
    · rw [same, same']
    · exact absurd (Option.some.inj found ▸ found') (fresh key')
    · exact absurd (Option.some.inj found' ▸ found) (fresh key)
    · exact history.single key key' operator found found'

theorem History.step {sdk : Sdk} {keys next : DelegateKeys}
    {input : (ValAddress → Bool) × MsgSetOrchestratorAddress} {outputs : List Empty}
    (history : keys.History sdk) (step : delegateStep sdk keys input = some (next, outputs)) :
    next.History sdk := by
  rcases delegateStep_cases step with ⟨rfl, _⟩ | ⟨validator, orchestrator, registers, rfl⟩
  · exact history
  · exact history.register registers

theorem History.of_run {sdk : Sdk} {inputs : List ((ValAddress → Bool) × MsgSetOrchestratorAddress)}
    {keys final : DelegateKeys} {outputs : List Empty} (history : keys.History sdk)
    (runs : run (delegateStep sdk) keys inputs = some (final, outputs)) : final.History sdk :=
  run_invariant (fun _ => True) (fun _ state => state.History sdk)
    (fun _ _ _ _ _ _ holds step => holds.step step) (fun _ _ => trivial) history runs

/-! ### Orchestrators that are taken over -/

/-- Every validator with an Ethereum address has an orchestrator. -/
def Attached (keys : DelegateKeys) : Prop :=
  ∀ validator ethAddress, keys.getEthAddressByValidator validator = some ethAddress →
    ∃ key, keys.validatorByOrchestrator.get key = some validator

/-- The condition on a message: an orchestrator that it registers has no entry. -/
def KeepsOrchestrators (sdk : Sdk) (keys : DelegateKeys)
    (input : (ValAddress → Bool) × MsgSetOrchestratorAddress) : Prop :=
  ∀ validator orchestrator, keys.Registers sdk input validator orchestrator →
    keys.validatorByOrchestrator.get (getOrchestratorAddressKey orchestrator) = none

theorem attached_empty : DelegateKeys.empty.Attached := fun _ _ found => by cases found

/-- **One step**: a validator that loses its orchestrator cannot get another one. -/
theorem History.attached_step_iff {sdk : Sdk} {keys next : DelegateKeys}
    {input : (ValAddress → Bool) × MsgSetOrchestratorAddress} {outputs : List Empty}
    (history : keys.History sdk) (step : delegateStep sdk keys input = some (next, outputs)) :
    next.Attached ↔ keys.Attached ∧ keys.KeepsOrchestrators sdk input := by
  rcases delegateStep_cases step with ⟨rfl, none⟩ | ⟨validator, orchestrator, registers, rfl⟩
  · exact ⟨fun attached => ⟨attached, fun _ _ registers => absurd registers (none _ _)⟩, And.left⟩
  -- an entry of another validator after the step was there before, under another key
  have earlier : ∀ other, other ≠ validator → ∀ key,
      (keys.register validator orchestrator input.2.ethAddress).validatorByOrchestrator.get key =
        some other →
      key ≠ getOrchestratorAddressKey orchestrator ∧
        keys.validatorByOrchestrator.get key = some other := by
    intro other different key found
    rw [get_validatorByOrchestrator_register] at found
    split_ifs at found with same
    · exact absurd (Option.some.inj found).symm different
    · exact ⟨same, found⟩
  have still : ∀ other ethAddress, keys.getEthAddressByValidator other = some ethAddress →
      other ≠ validator ∧ (keys.register validator orchestrator
        input.2.ethAddress).getEthAddressByValidator other = some ethAddress := by
    intro other ethAddress found
    have different : other ≠ validator := by
      rintro rfl
      rw [registers.unset] at found
      cases found
    rw [getEthAddress_register, if_neg different]
    exact ⟨different, found⟩
  constructor
  · intro attached
    refine ⟨fun other ethAddress found => ?_, fun operator account same => ?_⟩
    · obtain ⟨different, kept⟩ := still other ethAddress found
      obtain ⟨key, entry⟩ := attached other ethAddress kept
      exact ⟨key, (earlier other different key entry).2⟩
    · obtain ⟨_, rfl⟩ := registers.unique same
      rw [Option.eq_none_iff_forall_ne_some]
      intro former entry
      obtain ⟨ethAddress, found⟩ := history.registered _ former entry
      obtain ⟨different, kept⟩ := still former ethAddress found
      obtain ⟨key, later⟩ := attached former ethAddress kept
      obtain ⟨otherKey, before⟩ := earlier former different key later
      exact otherKey (history.single _ _ former before entry)
  · rintro ⟨attached, keeps⟩ other ethAddress found
    rw [getEthAddress_register] at found
    split_ifs at found with same
    · exact ⟨getOrchestratorAddressKey orchestrator, by
        rw [get_validatorByOrchestrator_register, if_pos rfl, same]⟩
    · obtain ⟨key, entry⟩ := attached other ethAddress found
      refine ⟨key, ?_⟩
      rw [get_validatorByOrchestrator_register, if_neg, entry]
      rintro rfl
      rw [keeps validator orchestrator registers] at entry
      cases entry

/-! ### The collected keys -/

theorem History.parsed {sdk : Sdk} {keys : DelegateKeys} (history : keys.History sdk)
    {validator : ValAddress} {ethAddress : Bytes}
    (found : keys.getEthAddressByValidator validator = some ethAddress) :
    ∃ text, sdk.valAddressFromBech32 text = some validator := by
  obtain ⟨text, operator, same, parsed⟩ := history.consistent.keyed _ _ found
  rw [getEthAddressByValidatorKey_inj] at same
  exact ⟨text, same ▸ parsed⟩

/-- Registered validators are known by their texts. -/
theorem History.eq_of_text {sdk : Sdk} (readsBack : sdk.ReadsBack) {keys : DelegateKeys}
    (history : keys.History sdk) {first second : ValAddress} {address address' : Bytes}
    (inFirst : keys.getEthAddressByValidator first = some address)
    (inSecond : keys.getEthAddressByValidator second = some address')
    (same : sdk.valAddressString first = sdk.valAddressString second) : first = second := by
  obtain ⟨text, parsed⟩ := history.parsed inFirst
  obtain ⟨text', parsed'⟩ := history.parsed inSecond
  have read := readsBack text first parsed
  rw [same, readsBack text' second parsed'] at read
  exact (Option.some.inj read).symm

/-- The second map holds the orchestrators under the texts of their validators. -/
theorem History.orchAddresses_spec {sdk : Sdk} (readsBack : sdk.ReadsBack) {keys : DelegateKeys}
    (history : keys.History sdk) {validator : ValAddress} {ethAddress : Bytes}
    (registered : keys.getEthAddressByValidator validator = some ethAddress) {text : Bytes}
    (found : (keys.orchAddresses sdk).get (keyBytes (sdk.valAddressString validator)) = some text) :
    ∃ account orchestrator, text = sdk.accAddressString orchestrator ∧
      sdk.accAddressFromBech32 account = some orchestrator ∧
      keys.validatorByOrchestrator.get (getOrchestratorAddressKey orchestrator) = some validator := by
  unfold orchAddresses at found
  rw [← List.foldl_map (f := fun entry : StoreKey × ValAddress =>
      (keyBytes (sdk.valAddressString entry.2), sdk.accAddressString (keyTail entry.1)))
    (g := fun (addresses : Store StoreKey Bytes) pair => addresses.set pair.1 pair.2)] at found
  rcases Store.mem_of_get_foldl_set found with absent | member
  · cases absent
  · obtain ⟨⟨key, operator⟩, inside, equal⟩ := List.mem_map.mp member
    obtain ⟨sameText, rfl⟩ := Prod.mk.inj equal
    have entry := (Store.mem_entries_iff _ key operator).mp inside
    obtain ⟨account, orchestrator, rfl, parsed⟩ := history.accounts key operator entry
    obtain ⟨address, registered'⟩ := history.registered _ operator entry
    have same := history.eq_of_text readsBack registered' registered (keyBytes_injective sameText)
    refine ⟨account, orchestrator, ?_, parsed, same ▸ entry⟩
    show sdk.accAddressString (keyTail (0x11 :: keyBytes orchestrator)) = _
    rw [keyTail_cons]

theorem exists_orchAddress {sdk : Sdk} {keys : DelegateKeys} {key : StoreKey} {validator : ValAddress}
    (entry : keys.validatorByOrchestrator.get key = some validator) :
    ∃ text,
      (keys.orchAddresses sdk).get (keyBytes (sdk.valAddressString validator)) = some text := by
  unfold orchAddresses
  rw [← List.foldl_map (f := fun entry : StoreKey × ValAddress =>
      (keyBytes (sdk.valAddressString entry.2), sdk.accAddressString (keyTail entry.1)))
    (g := fun (addresses : Store StoreKey Bytes) pair => addresses.set pair.1 pair.2)]
  have written : keyBytes (sdk.valAddressString validator) ∈
      (keys.validatorByOrchestrator.entries.map fun entry : StoreKey × ValAddress =>
        (keyBytes (sdk.valAddressString entry.2), sdk.accAddressString (keyTail entry.1))).map
        Prod.fst := by
    refine List.mem_map.mpr ⟨_, List.mem_map.mpr ⟨(key, validator), ?_, rfl⟩, rfl⟩
    exact (Store.mem_entries_iff _ key validator).mpr entry
  obtain ⟨text, _, found⟩ := Store.exists_of_mem_foldl_set Store.empty written
  exact ⟨text, found⟩

/-- The first map holds every validator with its Ethereum address. -/
theorem History.mem_ethAddresses {sdk : Sdk} (readsBack : sdk.ReadsBack) {keys : DelegateKeys}
    (history : keys.History sdk) {validator : ValAddress} {ethAddress : Bytes}
    (registered : keys.getEthAddressByValidator validator = some ethAddress) :
    (sdk.valAddressString validator, ethAddress) ∈ (keys.ethAddresses sdk).values := by
  have stored : (keys.ethAddresses sdk).get (keyBytes (sdk.valAddressString validator)) =
      some (sdk.valAddressString validator, ethAddress) := by
    unfold ethAddresses
    rw [← List.foldl_map (f := fun entry : StoreKey × Bytes =>
        (keyBytes (sdk.valAddressString (keyTail entry.1)),
          (sdk.valAddressString (keyTail entry.1), entry.2)))
      (g := fun (addresses : Store StoreKey (Bytes × Bytes)) pair => addresses.set pair.1 pair.2)]
    refine Store.get_foldl_set_of_mem _ ?_ (List.mem_map.mpr
      ⟨(getEthAddressByValidatorKey validator, ethAddress), ?_, ?_⟩)
    · rw [List.map_map]
      refine (List.nodup_map_iff_inj_on keys.ethAddressByValidator.entries_nodup).mpr ?_
      rintro ⟨key, address⟩ inFirst ⟨key', address'⟩ inSecond same
      have first := (Store.mem_entries_iff _ _ _).mp inFirst
      have second := (Store.mem_entries_iff _ _ _).mp inSecond
      obtain ⟨_, operator, rfl, _⟩ := history.consistent.keyed _ _ first
      obtain ⟨_, operator', rfl, _⟩ := history.consistent.keyed _ _ second
      have texts : sdk.valAddressString (keyTail (0x1 :: keyBytes operator)) =
          sdk.valAddressString (keyTail (0x1 :: keyBytes operator')) := keyBytes_injective same
      rw [keyTail_cons, keyTail_cons] at texts
      obtain rfl := history.eq_of_text readsBack first second texts
      rw [Option.some.inj (first.symm.trans second)]
    · exact (Store.mem_entries_iff _ _ _).mpr registered
    · have tail : keyTail (getEthAddressByValidatorKey validator) = validator := keyTail_cons _ _
      simp only [tail]
  exact (Store.mem_values_iff _ _).mpr ⟨_, stored⟩

theorem mapM_isSome_iff {α β : Type} {f : α → Option β} {items : List α} :
    (items.mapM f).isSome = true ↔ ∀ item ∈ items, (f item).isSome = true := by
  induction items with
  | nil => exact ⟨fun _ _ member => absurd member List.not_mem_nil, fun _ => rfl⟩
  | cons item rest ih =>
      rw [List.forall_mem_cons, ← ih, List.mapM_cons]
      cases f item with
      | none => exact ⟨fun bad => (by cases bad), fun bad => (by cases bad.1)⟩
      | some result =>
          cases rest.mapM f with
          | none => exact ⟨fun bad => (by cases bad), fun bad => (by cases bad.2)⟩
          | some results => exact ⟨fun _ => ⟨rfl, rfl⟩, fun _ => rfl⟩

/-- **The panic `Can't find address`** is reached where a validator has no orchestrator. -/
theorem History.getDelegateKeys_isSome_iff {sdk : Sdk} (readsBack : sdk.ReadsBack)
    {keys : DelegateKeys} (history : keys.History sdk) :
    (keys.getDelegateKeys sdk).isSome = true ↔ keys.Attached := by
  unfold getDelegateKeys
  rw [mapM_isSome_iff]
  constructor
  · intro found validator ethAddress registered
    have there := found _ (history.mem_ethAddresses readsBack registered)
    simp only [Option.isSome_map] at there
    obtain ⟨text, entry⟩ := Option.isSome_iff_exists.mp there
    obtain ⟨_, orchestrator, _, _, stored⟩ := history.orchAddresses_spec readsBack registered entry
    exact ⟨_, stored⟩
  · rintro attached ⟨text, ethAddress⟩ member
    obtain ⟨key, stored⟩ := (Store.mem_values_iff _ _).mp member
    obtain ⟨_, _, validator, textIs, _, registered⟩ :=
      ethAddresses_spec history.consistent stored
    obtain ⟨orchestratorKey, entry⟩ := attached validator ethAddress registered
    obtain ⟨orchestratorText, found⟩ : ∃ text,
        (keys.orchAddresses sdk).get (keyBytes (sdk.valAddressString validator)) = some text :=
      exists_orchAddress entry
    obtain rfl : text = sdk.valAddressString validator := textIs
    simp only [found, Option.map_some, Option.isSome_some]

/-- Each registered validator is listed once, with its own keys. -/
structure ListsEach (sdk : Sdk) (keys : DelegateKeys) (listed : List MsgSetOrchestratorAddress) :
    Prop where
  once : (listed.map MsgSetOrchestratorAddress.validator).Nodup
  all : ∀ validator ethAddress, keys.getEthAddressByValidator validator = some ethAddress →
    ∃ msg ∈ listed, msg.validator = sdk.valAddressString validator ∧ msg.ethAddress = ethAddress
  own : ∀ msg ∈ listed, ∃ validator orchestrator,
    msg.validator = sdk.valAddressString validator ∧
    msg.orchestrator = sdk.accAddressString orchestrator ∧
    keys.getEthAddressByValidator validator = some msg.ethAddress ∧
    keys.validatorByOrchestrator.get (getOrchestratorAddressKey orchestrator) = some validator

/-- **What is collected.** -/
theorem History.listsEach {sdk : Sdk} (readsBack : sdk.ReadsBack) {keys : DelegateKeys}
    (history : keys.History sdk) {collected : List MsgSetOrchestratorAddress}
    (exported : keys.getDelegateKeys sdk = some collected) : keys.ListsEach sdk collected where
  once := (getDelegateKeys_spec history.consistent exported).2
  all validator ethAddress registered := by
    obtain ⟨msg, member, made⟩ := exists_of_forall₂ (forall₂_of_mapM exported).flip
      (history.mem_ethAddresses readsBack registered)
    obtain ⟨orchestrator, _, rfl⟩ := Option.map_eq_some_iff.mp made
    exact ⟨_, member, rfl, rfl⟩
  own msg member := by
    obtain ⟨⟨text, ethAddress⟩, inside, made⟩ := exists_of_forall₂ (forall₂_of_mapM exported) member
    obtain ⟨orchestratorText, found, rfl⟩ := Option.map_eq_some_iff.mp made
    obtain ⟨key, stored⟩ := (Store.mem_values_iff _ _).mp inside
    obtain ⟨_, _, validator, textIs, _, registered⟩ := ethAddresses_spec history.consistent stored
    obtain rfl : text = sdk.valAddressString validator := textIs
    obtain ⟨_, orchestrator, orchestratorIs, _, entry⟩ :=
      history.orchAddresses_spec readsBack registered found
    exact ⟨validator, orchestrator, rfl, orchestratorIs, registered, entry⟩

/-- The two indices cover the same validators. -/
theorem History.attached_iff {sdk : Sdk} {keys : DelegateKeys} (history : keys.History sdk) :
    keys.Attached ↔ ∀ validator, (∃ ethAddress,
      keys.getEthAddressByValidator validator = some ethAddress) ↔
      ∃ orchestrator, keys.validatorByOrchestrator.get (getOrchestratorAddressKey orchestrator) =
        some validator := by
  constructor
  · refine fun attached validator => ⟨?_, fun ⟨_, entry⟩ => history.registered _ validator entry⟩
    rintro ⟨ethAddress, found⟩
    obtain ⟨key, entry⟩ := attached validator ethAddress found
    obtain ⟨_, orchestrator, rfl, _⟩ := history.accounts key validator entry
    exact ⟨orchestrator, entry⟩
  · intro same validator ethAddress found
    obtain ⟨orchestrator, entry⟩ := (same validator).mp ⟨ethAddress, found⟩
    exact ⟨_, entry⟩

/-- The panics of the queries. -/
theorem History.queries_of_listed {sdk : Sdk} (readsBack : sdk.ReadsBack)
    (readsBackAccounts : sdk.ReadsBackAccounts) {keys : DelegateKeys} (history : keys.History sdk)
    {listed : List MsgSetOrchestratorAddress} (lists : keys.Lists sdk (some listed)) (text : Bytes)
    (reason : QueryPanic) :
    getDelegateKeyByValidator sdk (some listed) text ≠ .panic reason ∧
      getDelegateKeyByOrchestrator sdk (some listed) text ≠ .panic reason ∧
      getDelegateKeyByEth (some listed) text ≠ .panic reason := by
  obtain ⟨collected, exported, order, _⟩ := lists
  have each := history.listsEach readsBack exported
  have own := fun msg member => each.own msg (order.mem_iff.mp member)
  refine ⟨?_, ?_, ?_⟩
  · unfold getDelegateKeyByValidator
    simp only
    split
    · exact fun bad => by cases bad
    · refine findDelegateKey_ne_panic (fun msg member => ?_) _ reason
      obtain ⟨validator, _, textIs, _, registered, _⟩ := own msg member
      obtain ⟨_, parsed⟩ := history.parsed registered
      rw [textIs, readsBack _ _ parsed]
      rfl
  · unfold getDelegateKeyByOrchestrator
    simp only
    split
    · exact fun bad => by cases bad
    · refine findDelegateKey_ne_panic (fun msg member => ?_) _ reason
      obtain ⟨_, orchestrator, _, textIs, _, entry⟩ := own msg member
      obtain ⟨_, account, same, parsed⟩ := history.accounts _ _ entry
      rw [getOrchestratorAddressKey_inj] at same
      rw [textIs, same, readsBackAccounts _ _ parsed]
      rfl
  · unfold getDelegateKeyByEth
    simp only
    split
    · exact fun bad => by cases bad
    · split
      · exact fun bad => by cases bad
      · exact fun bad => by cases bad

/-- **When the delegate keys can be listed.** After a history of registrations, with any validators coming
and going in between, the indices cover the same validators, and nothing that lists the delegate keys
panics, exactly if no message registered an orchestrator that had an entry. What is listed then is each
registered validator once. -/
theorem delegate_keys_listed_iff {sdk : Sdk} (readsBack : sdk.ReadsBack)
    (readsBackAccounts : sdk.ReadsBackAccounts)
    {inputs : List ((ValAddress → Bool) × MsgSetOrchestratorAddress)} {keys : DelegateKeys}
    {outputs : List Empty}
    (runs : run (delegateStep sdk) DelegateKeys.empty inputs = some (keys, outputs)) :
    ((∀ validator, (∃ ethAddress, keys.getEthAddressByValidator validator = some ethAddress) ↔
        ∃ orchestrator, keys.validatorByOrchestrator.get (getOrchestratorAddressKey orchestrator) =
          some validator) ↔
      StepsMeet (delegateStep sdk) (KeepsOrchestrators sdk) DelegateKeys.empty inputs) ∧
    (keys.getDelegateKeys sdk ≠ none ↔
      StepsMeet (delegateStep sdk) (KeepsOrchestrators sdk) DelegateKeys.empty inputs) ∧
    (∀ listed, keys.Lists sdk (some listed) → keys.ListsEach sdk listed ∧ ∀ text reason,
      getDelegateKeyByValidator sdk (some listed) text ≠ .panic reason ∧
        getDelegateKeyByOrchestrator sdk (some listed) text ≠ .panic reason ∧
        getDelegateKeyByEth (some listed) text ≠ .panic reason) := by
  have history := (history_empty sdk).of_run runs
  have attached : keys.Attached ↔
      StepsMeet (delegateStep sdk) (KeepsOrchestrators sdk) DelegateKeys.empty inputs :=
    (good_iff_stepsMeet (KeepsOrchestrators sdk) (History sdk) Attached
      (fun _ _ _ _ history step => history.step step)
      (fun _ _ _ _ history step => history.attached_step_iff step) (history_empty sdk) runs).trans
      (and_iff_right attached_empty)
  refine ⟨history.attached_iff.symm.trans attached, ?_, fun listed lists => ⟨?_, ?_⟩⟩
  · rw [Option.ne_none_iff_isSome, history.getDelegateKeys_isSome_iff readsBack, attached]
  · obtain ⟨collected, exported, order, _⟩ := lists
    have each := history.listsEach readsBack exported
    refine ⟨((order.map _).nodup_iff).mpr each.once, fun validator ethAddress registered => ?_,
      fun msg member => each.own msg (order.mem_iff.mp member)⟩
    obtain ⟨msg, member, texts⟩ := each.all validator ethAddress registered
    exact ⟨msg, order.mem_iff.mpr member, texts⟩
  · exact history.queries_of_listed readsBack readsBackAccounts lists

/-! ### Addresses that are registered twice -/

/-- No two validators have one Ethereum address. -/
def Unshared (keys : DelegateKeys) : Prop :=
  ∀ first second address address', keys.getEthAddressByValidator first = some address →
    keys.getEthAddressByValidator second = some address' →
    hexToAddress address = hexToAddress address' → first = second

/-- The condition on a message: an Ethereum address that it registers is nobody's, however spelled. -/
def KeepsAddresses (sdk : Sdk) (keys : DelegateKeys)
    (input : (ValAddress → Bool) × MsgSetOrchestratorAddress) : Prop :=
  ∀ validator orchestrator, keys.Registers sdk input validator orchestrator →
    ∀ other ethAddress, keys.getEthAddressByValidator other = some ethAddress →
      hexToAddress ethAddress ≠ hexToAddress input.2.ethAddress

theorem unshared_empty : DelegateKeys.empty.Unshared := fun _ _ _ _ found => by cases found

/-- **One step**: an address stays registered. -/
theorem unshared_step_iff {sdk : Sdk} {keys next : DelegateKeys}
    {input : (ValAddress → Bool) × MsgSetOrchestratorAddress} {outputs : List Empty}
    (step : delegateStep sdk keys input = some (next, outputs)) :
    next.Unshared ↔ keys.Unshared ∧ keys.KeepsAddresses sdk input := by
  rcases delegateStep_cases step with ⟨rfl, none⟩ | ⟨validator, orchestrator, registers, rfl⟩
  · exact ⟨fun unshared => ⟨unshared, fun _ _ registers => absurd registers (none _ _)⟩, And.left⟩
  have still : ∀ other ethAddress, keys.getEthAddressByValidator other = some ethAddress →
      other ≠ validator ∧ (keys.register validator orchestrator
        input.2.ethAddress).getEthAddressByValidator other = some ethAddress := by
    intro other ethAddress found
    have different : other ≠ validator := by
      rintro rfl
      rw [registers.unset] at found
      cases found
    rw [getEthAddress_register, if_neg different]
    exact ⟨different, found⟩
  have own : (keys.register validator orchestrator
      input.2.ethAddress).getEthAddressByValidator validator = some input.2.ethAddress := by
    rw [getEthAddress_register, if_pos rfl]
  constructor
  · intro unshared
    refine ⟨fun first second address address' found found' same => ?_,
      fun operator account again other address found same => ?_⟩
    · exact unshared first second address address' (still first address found).2
        (still second address' found').2 same
    · obtain ⟨different, kept⟩ := still other address found
      exact different (unshared other validator address _ kept own same)
  · rintro ⟨unshared, keeps⟩ first second address address' found found' same
    rw [getEthAddress_register] at found found'
    split_ifs at found found' with isFirst isSecond isSecond
    · rw [isFirst, isSecond]
    · obtain rfl := Option.some.inj found
      exact absurd same.symm (keeps validator orchestrator registers second address' found')
    · obtain rfl := Option.some.inj found'
      exact absurd same (keeps validator orchestrator registers first address found)
    · exact unshared first second address address' found found' same

/-- Where no address is shared, the index finds every validator. -/
theorem History.index_of_unshared {sdk : Sdk} {keys : DelegateKeys} (history : keys.History sdk)
    (unshared : keys.Unshared) {validator : ValAddress} {ethAddress : Bytes}
    (found : keys.getEthAddressByValidator validator = some ethAddress) :
    keys.validatorByEthAddress.get (getValidatorByEthAddressKey ethAddress) = some validator := by
  obtain ⟨operator, entry⟩ := history.indexed validator ethAddress found
  have there := history.consistent.inverse ethAddress operator entry
  rw [entry, unshared operator validator ethAddress ethAddress there found rfl]

end DelegateKeys

/-! ### The members of a validator set -/

/-- The members' addresses are those of the bonded validators, in their order. -/
theorem bridgeValidators_addresses (keys : DelegateKeys) (lastValidatorPower : ValAddress → Int)
    (validators : List ValAddress) :
    (bridgeValidators keys lastValidatorPower validators).1.map BridgeValidator.ethereumAddress =
      validators.filterMap keys.getEthAddressByValidator := by
  induction validators with
  | nil => rfl
  | cons validator rest ih =>
      rw [bridgeValidators, List.filterMap_cons]
      cases keys.getEthAddressByValidator validator with
      | none => exact ih
      | some ethAddress => exact congrArg _ ih

/-- **The addresses of a validator set**, up to their order. -/
theorem getCurrentValset_addresses {sdk : Sdk} {keys : DelegateKeys} {index : DenomIndex}
    {sources : ValsetSources} {valset : Valset}
    (built : getCurrentValset sdk keys index sources = .ok valset) :
    (valset.members.map BridgeValidator.ethereumAddress).Perm
      (sources.bondedValidatorsByPower.filterMap keys.getEthAddressByValidator) := by
  unfold getCurrentValset at built
  obtain ⟨members, scaled, built⟩ := Outcome.bind_eq_ok.mp built
  obtain ⟨reward, _, built⟩ := Outcome.bind_eq_ok.mp built
  obtain rfl := Outcome.ok.inj built
  rw [← bridgeValidators_addresses keys sources.lastValidatorPower]
  rw [← Outcome.map_of_mapM_eq_ok (fun _ _ _ => normalizePower_address) scaled]
  exact (sortBridgeValidators_perm members).map _

/-- **One Ethereum address, one member**, of the validators that share none. -/
theorem DelegateKeys.Unshared.members_nodup {sdk : Sdk} {keys : DelegateKeys} {index : DenomIndex}
    {sources : ValsetSources} {valset : Valset} (unshared : keys.Unshared)
    (bonded : sources.bondedValidatorsByPower.Nodup)
    (built : getCurrentValset sdk keys index sources = .ok valset) :
    (valset.members.map fun member => hexToAddress member.ethereumAddress).Nodup := by
  have addresses := (getCurrentValset_addresses built).map hexToAddress
  rw [List.map_map, List.map_filterMap] at addresses
  refine (addresses.nodup_iff).mpr (List.Nodup.filterMap ?_ bonded)
  intro first second address found found'
  obtain ⟨text, registered, same⟩ := Option.map_eq_some_iff.mp found
  obtain ⟨text', registered', same'⟩ := Option.map_eq_some_iff.mp found'
  exact unshared first second text text' registered registered' (same.trans same'.symm)

/-! ### One key, one validator -/

namespace DelegateKeys

/-- **One key, one validator.** After a history of registrations no two validators have one Ethereum
address, and the index is the inverse of the registered addresses, exactly if no message registered an
address that another validator had, in whatever spelling. Then the members of every validator set have
different addresses, and a signature by a registered address is punished at its validator exactly if the
address is spelled as `Address.Hex` spells it. -/
theorem one_key_one_validator_iff {sdk : Sdk}
    {inputs : List ((ValAddress → Bool) × MsgSetOrchestratorAddress)} {keys : DelegateKeys}
    {outputs : List Empty}
    (runs : run (delegateStep sdk) DelegateKeys.empty inputs = some (keys, outputs)) :
    ((keys.Unshared ∧ ∀ validator ethAddress,
        keys.getEthAddressByValidator validator = some ethAddress ↔
        keys.validatorByEthAddress.get (getValidatorByEthAddressKey ethAddress) = some validator) ↔
      StepsMeet (delegateStep sdk) (KeepsAddresses sdk) DelegateKeys.empty inputs) ∧
    (StepsMeet (delegateStep sdk) (KeepsAddresses sdk) DelegateKeys.empty inputs →
      (∀ sdk' index sources valset, sources.bondedValidatorsByPower.Nodup →
        getCurrentValset sdk' keys index sources = .ok valset →
        (valset.members.map fun member => hexToAddress member.ethereumAddress).Nodup) ∧
      ∀ geth gravityID env checkpoint signature validator ethAddress record consAddress,
        keys.getEthAddressByValidator validator = some ethAddress →
        SignedBy geth checkpoint signature (hexToAddress ethAddress) →
        env.getValidator validator = some record → record.consAddress = some consAddress →
        (punishSigner geth gravityID keys env checkpoint signature =
            .ok (env.punishment validator record consAddress) ↔
          geth.hex (hexToAddress ethAddress) = ethAddress)) := by
  have history := (history_empty sdk).of_run runs
  have unshared : keys.Unshared ↔
      StepsMeet (delegateStep sdk) (KeepsAddresses sdk) DelegateKeys.empty inputs :=
    (good_iff_stepsMeet (KeepsAddresses sdk) (fun _ => True) Unshared
      (fun _ _ _ _ _ _ => trivial) (fun _ _ _ _ _ step => unshared_step_iff step) trivial runs).trans
      (and_iff_right unshared_empty)
  rw [← unshared]
  refine ⟨⟨And.left, fun alone => ⟨alone, fun validator ethAddress =>
      ⟨history.index_of_unshared alone, history.consistent.inverse ethAddress validator⟩⟩⟩,
    fun alone => ⟨fun sdk' index sources valset bonded built => alone.members_nodup bonded built,
      fun geth gravityID env checkpoint signature validator ethAddress record consAddress registered
        signed known cons => ?_⟩⟩
  rw [punishSigner_eq_ok_iff]
  constructor
  · rintro ⟨address, operator, record', consAddress', signed', indexed, _, _, same⟩
    obtain rfl := SignedBy.unique signed' signed
    obtain rfl : validator = operator := congrArg Punishment.validator same
    have stored := history.consistent.inverse _ _ indexed
    exact Option.some.inj (stored.symm.trans registered)
  · intro canonical
    refine ⟨hexToAddress ethAddress, validator, record, consAddress, signed, ?_, known, cons, rfl⟩
    rw [canonical]
    exact history.index_of_unshared alone registered

end DelegateKeys

/-! ### Two validators -/

section Examples

/-- One of the example validators registers an account and an address. -/
def exampleMessage (validator orchestrator : Nat) (ethAddress : Bytes) : MsgSetOrchestratorAddress :=
  ⟨(exampleAddresses.getD validator ([], [], [])).2.1,
    (exampleAddresses.getD orchestrator ([], [], [])).1, ethAddress⟩

/-- The first validator registers and is removed, then the second one registers the account of the
first. -/
def exampleTakeover : List ((ValAddress → Bool) × MsgSetOrchestratorAddress) :=
  [(fun _ => true, exampleMessage 0 0 (hexOfAddress 1)),
    (fun validator => validator ≠ List.replicate 20 1, exampleMessage 1 0 (hexOfAddress 2))]

/-- **The orchestrator is taken over**: the first validator still has an address, and the delegate keys
cannot be listed any more. -/
theorem takeover_panics : ∃ keys outputs,
    run (delegateStep exampleSdk) DelegateKeys.empty exampleTakeover = some (keys, outputs) ∧
    keys.getEthAddressByValidator (List.replicate 20 1) = some (hexOfAddress 1) ∧
    keys.validatorByOrchestrator.values = [List.replicate 20 2] ∧
    keys.getDelegateKeys exampleSdk = none ∧ keys.Lists exampleSdk none := by
  have evaluated : (run (delegateStep exampleSdk) DelegateKeys.empty exampleTakeover).map
      (fun result => ((result.1.getEthAddressByValidator (List.replicate 20 1),
        result.1.validatorByOrchestrator.values), result.1.getDelegateKeys exampleSdk)) =
      some ((some (hexOfAddress 1), [List.replicate 20 2]), none) := by decide +kernel
  obtain ⟨⟨keys, outputs⟩, runs, equal⟩ := Option.map_eq_some_iff.mp evaluated
  obtain ⟨entries, listed⟩ := Prod.mk.inj equal
  obtain ⟨address, orchestrators⟩ := Prod.mk.inj entries
  exact ⟨keys, outputs, runs, address, orchestrators, listed, listed⟩

/-- The first validator registers. -/
def exampleSingle : List ((ValAddress → Bool) × MsgSetOrchestratorAddress) :=
  [(fun _ => true, exampleMessage 0 0 (hexOfAddress 1))]

theorem exampleSingle_run : ∃ keys outputs,
    run (delegateStep exampleSdk) DelegateKeys.empty exampleSingle = some (keys, outputs) ∧
    keys.getEthAddressByValidator (List.replicate 20 1) = some (hexOfAddress 1) := by
  have evaluated : (run (delegateStep exampleSdk) DelegateKeys.empty exampleSingle).map
      (fun result => result.1.getEthAddressByValidator (List.replicate 20 1)) =
      some (some (hexOfAddress 1)) := by decide +kernel
  obtain ⟨⟨keys, outputs⟩, runs, registered⟩ := Option.map_eq_some_iff.mp evaluated
  exact ⟨keys, outputs, runs, registered⟩

/-- After one registration the delegate keys are listed. -/
theorem delegate_keys_listed_single : ∃ keys outputs,
    run (delegateStep exampleSdk) DelegateKeys.empty exampleSingle = some (keys, outputs) ∧
    keys.getEthAddressByValidator (List.replicate 20 1) = some (hexOfAddress 1) ∧
    keys.getDelegateKeys exampleSdk ≠ none := by
  obtain ⟨keys, outputs, runs, registered⟩ := exampleSingle_run
  have meets : StepsMeet (delegateStep exampleSdk) (DelegateKeys.KeepsOrchestrators exampleSdk)
      DelegateKeys.empty exampleSingle := ⟨fun _ _ _ => rfl, fun _ _ => trivial⟩
  exact ⟨keys, outputs, runs, registered, (DelegateKeys.delegate_keys_listed_iff exampleSdk_readsBack
    exampleSdk_readsBackAccounts runs).2.1.mpr meets⟩

/-- Two validators register one address. -/
def exampleShared : List ((ValAddress → Bool) × MsgSetOrchestratorAddress) :=
  [(fun _ => true, exampleMessage 0 0 (hexOfAddress 1)),
    (fun _ => true, exampleMessage 1 1 (hexOfAddress 1))]

/-- Two bonded validators of equal power. -/
def exampleTwoSources : ValsetSources :=
  ⟨[List.replicate 20 1, List.replicate 20 2], fun _ => 1000, ⟨[], 0⟩, 0, 5⟩

/-- **One address is registered twice**: both validators have it, the index has forgotten the first one,
and the validator set has it in two members. -/
theorem address_shared : ∃ keys outputs valset,
    run (delegateStep exampleSdk) DelegateKeys.empty exampleShared = some (keys, outputs) ∧
    keys.getEthAddressByValidator (List.replicate 20 1) = some (hexOfAddress 1) ∧
    keys.getEthAddressByValidator (List.replicate 20 2) = some (hexOfAddress 1) ∧
    keys.validatorByEthAddress.get (getValidatorByEthAddressKey (hexOfAddress 1)) =
      some (List.replicate 20 2) ∧
    getCurrentValset exampleSdk keys DenomIndex.empty exampleTwoSources = .ok valset ∧
    valset.members.map (fun member => hexToAddress member.ethereumAddress) = [1, 1] := by
  have evaluated : (run (delegateStep exampleSdk) DelegateKeys.empty exampleShared).map
      (fun result => ((result.1.getEthAddressByValidator (List.replicate 20 1),
        result.1.getEthAddressByValidator (List.replicate 20 2)),
        result.1.validatorByEthAddress.get (getValidatorByEthAddressKey (hexOfAddress 1)),
        (getCurrentValset exampleSdk result.1 DenomIndex.empty exampleTwoSources).value?.map
          fun valset => valset.members.map fun member => hexToAddress member.ethereumAddress)) =
      some ((some (hexOfAddress 1), some (hexOfAddress 1)), some (List.replicate 20 2),
        some [1, 1]) := by decide +kernel
  obtain ⟨⟨keys, outputs⟩, runs, equal⟩ := Option.map_eq_some_iff.mp evaluated
  obtain ⟨addresses, equal⟩ := Prod.mk.inj equal
  obtain ⟨first, second⟩ := Prod.mk.inj addresses
  obtain ⟨indexed, members⟩ := Prod.mk.inj equal
  obtain ⟨valset, built, same⟩ := Option.map_eq_some_iff.mp members
  exact ⟨keys, outputs, valset, runs, first, second, indexed, Outcome.value?_eq_some.mp built, same⟩

/-- After one registration the index finds the validator. -/
theorem one_key_single : ∃ keys outputs,
    run (delegateStep exampleSdk) DelegateKeys.empty exampleSingle = some (keys, outputs) ∧
    keys.validatorByEthAddress.get (getValidatorByEthAddressKey (hexOfAddress 1)) =
      some (List.replicate 20 1) := by
  obtain ⟨keys, outputs, runs, registered⟩ := exampleSingle_run
  have meets : StepsMeet (delegateStep exampleSdk) (DelegateKeys.KeepsAddresses exampleSdk)
      DelegateKeys.empty exampleSingle :=
    ⟨fun _ _ _ _ _ found => (by cases found), fun _ _ => trivial⟩
  exact ⟨keys, outputs, runs,
    (((DelegateKeys.one_key_one_validator_iff runs).1.mpr meets).2 _ _).mp registered⟩

end Examples

end NabBridge
