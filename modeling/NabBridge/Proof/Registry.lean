/-
**The index of Ethereum addresses.**

The registry keeps the Ethereum address of every validator, and an index from addresses back to
validators. A second validator that registers an address takes over its index entry, so the index need
not find every validator; but what it finds is right (`DelegateKeys.Consistent.inverse`).

* `Consistent.register`: a validator without an address registers one;
* `Consistent.restart`: the registry is exported and imported again, in any order. A validator occurs
  once in the file, because the operators' texts are distinct.
-/

import NabBridge.Keeper.Genesis

namespace NabBridge

/-- The texts of operators are read back. -/
def Sdk.ReadsBack (sdk : Sdk) : Prop :=
  ∀ text validator, sdk.valAddressFromBech32 text = some validator →
    sdk.valAddressFromBech32 (sdk.valAddressString validator) = some validator

/-- The texts of accounts are read back. -/
def Sdk.ReadsBackAccounts (sdk : Sdk) : Prop :=
  ∀ text account, sdk.accAddressFromBech32 text = some account →
    sdk.accAddressFromBech32 (sdk.accAddressString account) = some account

theorem exampleSdk_readsBack : exampleSdk.ReadsBack := by
  have all : ∀ address ∈ exampleAddresses,
      exampleSdk.valAddressFromBech32 (exampleSdk.valAddressString address.2.2) =
        some address.2.2 := by
    decide
  intro text validator parsed
  obtain ⟨address, found, rfl⟩ := Option.map_eq_some_iff.mp parsed
  exact all address (List.mem_of_find?_eq_some found)

theorem exampleSdk_readsBackAccounts : exampleSdk.ReadsBackAccounts := by
  have all : ∀ address ∈ exampleAddresses,
      exampleSdk.accAddressFromBech32 (exampleSdk.accAddressString address.2.2) =
        some address.2.2 := by
    decide
  intro text account parsed
  obtain ⟨address, found, rfl⟩ := Option.map_eq_some_iff.mp parsed
  exact all address (List.mem_of_find?_eq_some found)

theorem keyTail_cons (digit : Nat) (bytes : Bytes) : keyTail (digit :: keyBytes bytes) = bytes := by
  unfold keyTail keyBytes
  rw [List.tail_cons, List.map_map]
  refine (List.map_congr_left fun byte _ => ?_).trans (List.map_id _)
  exact UInt8.ofNat_toNat

theorem getValidatorByEthAddressKey_inj {first second : Bytes} :
    getValidatorByEthAddressKey first = getValidatorByEthAddressKey second ↔ first = second := by
  simp [getValidatorByEthAddressKey, keyBytes_injective.eq_iff]

namespace DelegateKeys

/-- The registry after a validator got its keys. -/
def register (keys : DelegateKeys) (validator : ValAddress) (orchestrator : AccAddress)
    (ethAddress : Bytes) : DelegateKeys :=
  (keys.setOrchestratorValidator validator orchestrator).setEthAddressForValidator validator ethAddress

/-- The index finds only validators that have the address. -/
structure Consistent (sdk : Sdk) (keys : DelegateKeys) : Prop where
  inverse : ∀ ethAddress validator,
    keys.validatorByEthAddress.get (getValidatorByEthAddressKey ethAddress) = some validator →
    keys.getEthAddressByValidator validator = some ethAddress
  keyed : ∀ key ethAddress, keys.ethAddressByValidator.get key = some ethAddress →
    ∃ text validator, key = getEthAddressByValidatorKey validator ∧
      sdk.valAddressFromBech32 text = some validator

theorem consistent_empty (sdk : Sdk) : DelegateKeys.empty.Consistent sdk where
  inverse _ _ found := by cases found
  keyed _ _ found := by cases found

/-- **A validator without an address registers one.** -/
theorem Consistent.register {sdk : Sdk} {keys : DelegateKeys} (consistent : keys.Consistent sdk)
    {text : Bytes} {validator : ValAddress} (parsed : sdk.valAddressFromBech32 text = some validator)
    (unset : keys.getEthAddressByValidator validator = none) (orchestrator : AccAddress)
    (ethAddress : Bytes) : (keys.register validator orchestrator ethAddress).Consistent sdk where
  inverse address operator found := by
    rw [DelegateKeys.register, getEthAddressByValidator_register]
    simp only [DelegateKeys.register, setEthAddressForValidator, setOrchestratorValidator,
      Store.get_set, getValidatorByEthAddressKey_inj] at found
    by_cases same : address = ethAddress
    · rw [if_pos same] at found
      rw [if_pos (Option.some.inj found).symm, same]
    · rw [if_neg same] at found
      have registered := consistent.inverse address operator found
      have other : operator ≠ validator := by
        rintro rfl
        rw [unset] at registered
        cases registered
      rw [if_neg other, registered]
  keyed key address found := by
    rcases Store.of_get_set found with ⟨same, _⟩ | earlier
    · exact ⟨text, validator, same, parsed⟩
    · exact consistent.keyed key address earlier

/-! ### The exported registrations -/

/-- The first map holds validators under their own texts. -/
theorem ethAddresses_spec {sdk : Sdk} {keys : DelegateKeys} (consistent : keys.Consistent sdk)
    {key : StoreKey} {entry : Bytes × Bytes} (found : (keys.ethAddresses sdk).get key = some entry) :
    key = keyBytes entry.1 ∧ ∃ text validator, entry.1 = sdk.valAddressString validator ∧
      sdk.valAddressFromBech32 text = some validator ∧
      keys.getEthAddressByValidator validator = some entry.2 := by
  unfold ethAddresses at found
  rw [← List.foldl_map (f := fun entry : StoreKey × Bytes =>
      (keyBytes (sdk.valAddressString (keyTail entry.1)),
        (sdk.valAddressString (keyTail entry.1), entry.2)))
    (g := fun (addresses : Store StoreKey (Bytes × Bytes)) pair => addresses.set pair.1 pair.2)]
    at found
  rcases Store.mem_of_get_foldl_set found with absent | member
  · cases absent
  · obtain ⟨stored, inside, equal⟩ := List.mem_map.mp member
    obtain ⟨rfl, rfl⟩ := Prod.mk.inj equal
    have here := (Store.mem_entries_iff _ stored.1 stored.2).mp inside
    obtain ⟨text, validator, keyIs, parsed⟩ := consistent.keyed _ _ here
    have tail : keyTail stored.1 = validator := keyIs ▸ keyTail_cons _ _
    refine ⟨rfl, text, validator, by rw [tail], parsed, ?_⟩
    rw [getEthAddressByValidator, ← keyIs, here]

/-- A registration of the file belongs to a registered validator. -/
def Exported (sdk : Sdk) (keys : DelegateKeys) (msg : MsgSetOrchestratorAddress) : Prop :=
  ∃ text validator, msg.validator = sdk.valAddressString validator ∧
    sdk.valAddressFromBech32 text = some validator ∧
    keys.getEthAddressByValidator validator = some msg.ethAddress

theorem forall₂_of_mapM {α β : Type} {f : α → Option β} {items : List α} {results : List β}
    (mapped : items.mapM f = some results) :
    List.Forall₂ (fun item result => f item = some result) items results := by
  induction items generalizing results with
  | nil =>
      obtain rfl := Option.some.inj mapped
      exact .nil
  | cons item rest ih =>
      rw [List.mapM_cons] at mapped
      obtain ⟨first, head, mapped⟩ := Option.bind_eq_some_iff.mp mapped
      obtain ⟨others, tail, mapped⟩ := Option.bind_eq_some_iff.mp mapped
      obtain rfl := Option.some.inj mapped
      exact .cons head (ih tail)

theorem exists_of_forall₂ {α β : Type} {R : α → β → Prop} {items : List α} {results : List β}
    (related : List.Forall₂ R items results) {result : β} (member : result ∈ results) :
    ∃ item ∈ items, R item result := by
  induction related with
  | nil => exact absurd member List.not_mem_nil
  | cons head _ ih =>
      rcases List.mem_cons.mp member with rfl | later
      · exact ⟨_, List.mem_cons_self, head⟩
      · obtain ⟨item, inside, holds⟩ := ih later
        exact ⟨item, List.mem_cons_of_mem _ inside, holds⟩

/-- **What is exported**: registrations of registered validators, no validator twice. -/
theorem getDelegateKeys_spec {sdk : Sdk} {keys : DelegateKeys} (consistent : keys.Consistent sdk)
    {collected : List MsgSetOrchestratorAddress}
    (exported : keys.getDelegateKeys sdk = some collected) :
    (∀ msg ∈ collected, keys.Exported sdk msg) ∧
      (collected.map MsgSetOrchestratorAddress.validator).Nodup := by
  have pairs := forall₂_of_mapM exported
  have made : ∀ (entry : Bytes × Bytes) msg, (((keys.orchAddresses sdk).get (keyBytes entry.1)).map
      fun orchestrator => MsgSetOrchestratorAddress.mk entry.1 orchestrator entry.2) = some msg →
      entry.1 = msg.validator ∧ entry.2 = msg.ethAddress := by
    intro entry msg found
    obtain ⟨orchestrator, _, rfl⟩ := Option.map_eq_some_iff.mp found
    exact ⟨rfl, rfl⟩
  have validators : (keys.ethAddresses sdk).values.map Prod.fst =
      collected.map MsgSetOrchestratorAddress.validator := by
    rw [← List.forall₂_eq_eq_eq, List.forall₂_map_left_iff, List.forall₂_map_right_iff]
    exact pairs.imp fun entry msg found => (made entry msg found).1
  have byKey : ((keys.ethAddresses sdk).values.map Prod.fst).map keyBytes =
      (keys.ethAddresses sdk).entries.map Prod.fst := by
    rw [Store.values, List.map_map, List.map_map]
    refine List.map_congr_left fun entry member => ?_
    exact (ethAddresses_spec consistent ((Store.mem_entries_iff _ entry.1 entry.2).mp member)).1.symm
  refine ⟨fun msg member => ?_, ?_⟩
  · obtain ⟨entry, inside, found⟩ := exists_of_forall₂ pairs member
    obtain ⟨key, stored⟩ := (Store.mem_values_iff _ entry).mp inside
    obtain ⟨_, text, validator, textIs, parsed, address⟩ := ethAddresses_spec consistent stored
    obtain ⟨same, sameAddress⟩ := made entry msg found
    exact ⟨text, validator, same ▸ textIs, parsed, sameAddress ▸ address⟩
  · rw [← validators]
    exact List.Nodup.of_map keyBytes (byKey ▸ (keys.ethAddresses sdk).keys_nodup)

/-! ### The imported registrations -/

theorem genesisDelegateKey_eq_ok {sdk : Sdk} {keys after : DelegateKeys}
    {msg : MsgSetOrchestratorAddress} (done : genesisDelegateKey sdk keys msg = .ok after) :
    ∃ validator orchestrator, sdk.valAddressFromBech32 msg.validator = some validator ∧
      after = keys.register validator orchestrator msg.ethAddress := by
  unfold genesisDelegateKey MsgSetOrchestratorAddress.validateBasic at done
  cases parsed : sdk.valAddressFromBech32 msg.validator with
  | none => simp [parsed] at done
  | some validator =>
      refine ⟨validator, (sdk.accAddressFromBech32 msg.orchestrator).getD [], rfl, ?_⟩
      split at done
      · cases done
      · rw [parsed] at done
        exact (Outcome.ok.inj done).symm

/-- Importing registrations of validators that are not registered yet, no validator twice. -/
theorem Consistent.import {sdk : Sdk} {msgs : List MsgSetOrchestratorAddress}
    {keys after : DelegateKeys} (consistent : keys.Consistent sdk)
    (distinct : (msgs.map fun msg => sdk.valAddressFromBech32 msg.validator).Nodup)
    (unset : ∀ msg ∈ msgs, ∀ validator, sdk.valAddressFromBech32 msg.validator = some validator →
      keys.getEthAddressByValidator validator = none)
    (imported : msgs.foldlM (genesisDelegateKey sdk) keys = .ok after) :
    after.Consistent sdk := by
  induction msgs generalizing keys with
  | nil => exact Outcome.ok.inj imported ▸ consistent
  | cons msg rest ih =>
      rw [List.foldlM_cons] at imported
      obtain ⟨next, first, imported⟩ := Outcome.bind_eq_ok.mp imported
      obtain ⟨validator, orchestrator, parsed, rfl⟩ := genesisDelegateKey_eq_ok first
      rw [List.map_cons, List.nodup_cons] at distinct
      refine ih (consistent.register parsed (unset msg List.mem_cons_self validator parsed) _ _)
        distinct.2 (fun other member operator otherParsed => ?_) imported
      rw [DelegateKeys.register, getEthAddressByValidator_register]
      have different : operator ≠ validator := by
        rintro rfl
        exact distinct.1 (List.mem_map.mpr ⟨other, member, otherParsed.trans parsed.symm⟩)
      rw [if_neg different]
      exact unset other (List.mem_cons_of_mem _ member) operator otherParsed

/-- **The registry after a restart** is consistent. -/
theorem Consistent.restart {sdk : Sdk} (readsBack : sdk.ReadsBack) {keys after : DelegateKeys}
    (consistent : keys.Consistent sdk) {collected msgs : List MsgSetOrchestratorAddress}
    (exported : keys.getDelegateKeys sdk = some collected) (order : msgs.Perm collected)
    (imported : msgs.foldlM (genesisDelegateKey sdk) DelegateKeys.empty = .ok after) :
    after.Consistent sdk := by
  obtain ⟨own, distinct⟩ := getDelegateKeys_spec consistent exported
  refine (consistent_empty sdk).import ?_ (fun _ _ _ _ => rfl) imported
  refine ((order.map _).nodup_iff).mpr (List.Nodup.map_on ?_ (List.Nodup.of_map _ distinct))
  intro first inFirst second inSecond same
  obtain ⟨text, validator, textIs, parsed, _⟩ := own first inFirst
  obtain ⟨text', validator', textIs', parsed', _⟩ := own second inSecond
  rw [textIs, textIs', readsBack text validator parsed, readsBack text' validator' parsed'] at same
  have validators : first.validator = second.validator := by
    rw [textIs, textIs', Option.some.inj same]
  exact List.inj_on_of_nodup_map distinct inFirst inSecond validators

end DelegateKeys

end NabBridge
