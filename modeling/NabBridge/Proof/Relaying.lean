/-
**Confirmations a relayer can use.**

The handlers check a signature against the address registered for the orchestrator; the relayer finds and
checks it again by the address in the confirmation itself. The two are one where a confirmation carries
the registered address. A relayer also needs the last byte of a signature in Ethereum's format, no two
validators with one address, and no confirmation of a logic call in the range of another call's.

* `RelaySafe`: what must not happen to a relayer with the confirmations of an object;
* `Custody`: the invariant, with the orchestrator each validator was registered with;
* `confirms_usable`: a run of registrations and such confirmations leaves only usable confirmations.
-/

import NabBridge.Orchestrator.Confirms
import NabBridge.Proof.Archive
import NabBridge.Proof.Encoders
import NabBridge.Proof.SignatureConventions

namespace NabBridge

namespace Orchestrator

/-- A word of a signature as a number. -/
def wordValue (bytes : Bytes) : Nat := bytes.foldl (fun value byte => value * 256 + byte.toNat) 0

example : wordValue [1, 2] = 258 := by decide +kernel

/-- The 65 bytes of a signature as `clarity` reads them. -/
def Signature.ofBytes (bytes : Bytes) : Signature :=
  ⟨(signatureV bytes).toNat, wordValue (signatureR bytes), wordValue (signatureS bytes)⟩

/-- What is assumed of `clarity` and go-ethereum: addresses and signatures are read, messages are hashed
as Ethereum hashes them, go-ethereum recovers from 65 bytes only and spells addresses so that they can be
read back, and where it recovers from a signature in Ethereum's format, `clarity` does, from a valid
one. -/
structure Clarity.Lawful (clarity : Clarity) (geth : Geth) : Prop where
  ethAddress : ∀ text, validateEthAddress text = .ok () →
    clarity.ethAddress text = some (hexToAddress text)
  signature : ∀ text bytes, decodeString text = some bytes → bytes.length = 65 →
    clarity.signature text = some (Signature.ofBytes bytes)
  ethereumMsgHash : ∀ data, clarity.ethereumMsgHash data =
    geth.keccak256 (signaturePrefix ++ geth.keccak256 data)
  length : ∀ digest bytes address, geth.sigToPub digest bytes = some address → bytes.length = 65
  hex : ∀ address, hexToAddress (geth.hex address) = address
  recover : ∀ digest bytes address, signatureV bytes = 27 ∨ signatureV bytes = 28 →
    geth.sigToPub digest (normalizeRecoveryId bytes) = some address →
    clarity.isValid (Signature.ofBytes bytes) = true ∧
      clarity.recover (Signature.ofBytes bytes) digest = some address

/-! ### What must not happen -/

section Safety

variable {T : Type} [Confirm T]

/-- With these confirmations of a message, `get_signature_status` panics for no validator set, and
`get_hashmap` keeps every one of them. -/
structure RelaySafe (clarity : Clarity) (signedMessage : Bytes) (confirms : List T) : Prop where
  status : ∀ (valset : Valset) (reason : RelayPanic),
    valset.getSignatureStatus clarity signedMessage confirms ≠ .panic reason
  kept : ∀ confirm ∈ confirms, (getHashmap confirms).get (getEthAddress confirm) = some confirm

theorem getHashmap_eq_foldl (confirms : List T) :
    getHashmap confirms = (confirms.map fun confirm => (getEthAddress confirm, confirm)).foldl
      (fun current pair => current.set pair.1 pair.2) Store.empty := by
  rw [getHashmap, List.foldl_map]

/-- What is found by an address is a confirmation with this address. -/
theorem getHashmap_spec {confirms : List T} {ethAddress : EthAddress} {confirm : T}
    (found : (getHashmap confirms).get ethAddress = some confirm) :
    confirm ∈ confirms ∧ getEthAddress confirm = ethAddress := by
  rw [getHashmap_eq_foldl] at found
  rcases Store.mem_of_get_foldl_set found with earlier | pair
  · cases earlier
  · obtain ⟨there, member, same⟩ := List.mem_map.mp pair
    obtain ⟨rfl, rfl⟩ := Prod.mk.inj same
    exact ⟨member, rfl⟩

/-- No turn of the loop panics where the signatures recover to their addresses. -/
theorem push_meets {clarity : Clarity} {signedMessage : Bytes} {confirms : List T}
    (recovers : ∀ confirm ∈ confirms, clarity.isValid (getSignature confirm) = true ∧
      clarity.recover (getSignature confirm) signedMessage = some (getEthAddress confirm))
    (status : SignatureStatus) (member : ValsetMember) :
    (status.push clarity signedMessage (getHashmap confirms) member).Meets (fun _ => True)
      (fun _ => False) := by
  unfold SignatureStatus.push
  cases member.ethAddress with
  | none => trivial
  | some ethAddress =>
      dsimp only
      cases found : (getHashmap confirms).get ethAddress with
      | none => trivial
      | some sig =>
          obtain ⟨there, same⟩ := getHashmap_spec found
          obtain ⟨valid, recovered⟩ := recovers sig there
          dsimp only
          rw [SignatureStatus.pushSignature, if_neg (not_not_intro same),
            if_neg (not_not_intro valid), recovered]
          dsimp only
          rw [if_pos rfl]
          trivial

/-- **Confirmations with distinct addresses that recover to them are safe.** -/
theorem RelaySafe.of_recovers {clarity : Clarity} {signedMessage : Bytes} {confirms : List T}
    (distinct : (confirms.map getEthAddress).Nodup)
    (recovers : ∀ confirm ∈ confirms, clarity.isValid (getSignature confirm) = true ∧
      clarity.recover (getSignature confirm) signedMessage = some (getEthAddress confirm)) :
    RelaySafe clarity signedMessage confirms where
  status valset reason panicked := by
    unfold Valset.getSignatureStatus at panicked
    split_ifs at panicked
    exact (Outcome.Meets.foldlM (fun status member _ _ => push_meets recovers status member)
      trivial).panic panicked
  kept confirm member := by
    rw [getHashmap_eq_foldl]
    refine Store.get_foldl_set_of_mem _ ?_ (List.mem_map.mpr ⟨confirm, member, rfl⟩)
    rw [List.map_map]
    exact distinct

end Safety

end Orchestrator

/-! ### A stored confirmation -/

/-- The signature recovers, over the checkpoint, to the address in the confirmation's own field. -/
def RecoversToOwn (geth : Geth) (checkpoint ethSigner signature : Bytes) : Prop :=
  ∃ sigBytes text, decodeString signature = some sigBytes ∧
    ethAddressFromSignature geth checkpoint sigBytes = .ok text ∧
    hexToAddress text = hexToAddress ethSigner

/-- The registry, with the orchestrator each validator was registered with: a validator has only one, ever,
though an orchestrator can be taken over from a validator that is gone. No two validators have one
address. -/
structure Custody (owner : ValAddress → AccAddress) (keys : DelegateKeys) : Prop where
  bound : ∀ orchestrator validator,
    keys.validatorByOrchestrator.get (getOrchestratorAddressKey orchestrator) = some validator →
    owner validator = orchestrator ∧ (keys.getEthAddressByValidator validator).isSome
  distinct : ∀ first second text text', keys.getEthAddressByValidator first = some text →
    keys.getEthAddressByValidator second = some text' → hexToAddress text = hexToAddress text' →
    first = second

/-- A confirmation of a checkpoint that an orchestrator has sent for its validator. -/
structure Confirmed (geth : Geth) (owner : ValAddress → AccAddress) (keys : DelegateKeys)
    (orchestrator : AccAddress) (checkpoint ethSigner signature : Bytes) : Prop where
  valid : validateEthAddress ethSigner = .ok ()
  recovers : RecoversToOwn geth checkpoint ethSigner signature
  standard : ∀ sigBytes, decodeString signature = some sigBytes →
    signatureV sigBytes = 27 ∨ signatureV sigBytes = 28
  registered : ∃ validator text, keys.getEthAddressByValidator validator = some text ∧
    owner validator = orchestrator ∧ hexToAddress text = hexToAddress ethSigner

/-- Two confirmations that carry one address are of one orchestrator. -/
theorem Custody.same_orchestrator {owner : ValAddress → AccAddress} {keys : DelegateKeys}
    (custody : Custody owner keys) {geth : Geth} {first second : AccAddress}
    {checkpoint checkpoint' ethSigner ethSigner' signature signature' : Bytes}
    (one : Confirmed geth owner keys first checkpoint ethSigner signature)
    (other : Confirmed geth owner keys second checkpoint' ethSigner' signature')
    (same : hexToAddress ethSigner = hexToAddress ethSigner') : first = second := by
  obtain ⟨validator, text, registered, rfl, address⟩ := one.registered
  obtain ⟨validator', text', registered', rfl, address'⟩ := other.registered
  have validators : validator = validator' := custody.distinct _ _ _ _ registered registered'
    (address.trans (same.trans address'.symm))
  rw [validators]

namespace Orchestrator

/-- **The relayer recovers the same signer.** -/
theorem Clarity.Lawful.recovers {clarity : Clarity} {geth : Geth} (lawful : clarity.Lawful geth)
    {owner : ValAddress → AccAddress} {keys : DelegateKeys} {orchestrator : AccAddress}
    {bytes ethSigner signature : Bytes}
    (confirmed : Confirmed geth owner keys orchestrator (geth.keccak256 bytes) ethSigner signature)
    {read : Signature} (parsed : parseSignature clarity signature = .ok read) :
    clarity.isValid read = true ∧
      clarity.recover read (clarity.ethereumMsgHash bytes) = some (hexToAddress ethSigner) := by
  obtain ⟨sigBytes, text, decoded, recovered, same⟩ := confirmed.recovers
  obtain ⟨_, address, signed, rfl⟩ := ethAddressFromSignature_eq_ok_iff.mp recovered
  have length : sigBytes.length = 65 := by
    rw [← length_normalizeRecoveryId]
    exact lawful.length _ _ _ signed
  rw [parseSignature, lawful.signature signature sigBytes decoded length] at parsed
  obtain rfl := Outcome.ok.inj parsed
  rw [← same, lawful.hex, lawful.ethereumMsgHash]
  exact lawful.recover _ _ _ (confirmed.standard sigBytes decoded) signed

section Query

variable {M T : Type} [Confirm T] {clarity : Clarity} {geth : Geth}
variable {owner : ValAddress → AccAddress} {keys : DelegateKeys}
variable {tryFrom : M → RelayResult T} {ethSigner signature : M → Bytes}

/-- **A query is safe** when its confirmations are of one object, each under the key of its
orchestrator. -/
theorem RelaySafe.of_confirmed (lawful : clarity.Lawful geth) (custody : Custody owner keys)
    (converts : ∀ msg response, tryFrom msg = .ok response →
      parseEthAddress clarity.toCrates (ethSigner msg) = .ok (getEthAddress response) ∧
        parseSignature clarity (signature msg) = .ok (getSignature response))
    {bytes : Bytes} {entries : List (StoreKey × M)} {shown : StoreKey × M → M}
    (distinct : (entries.map Prod.fst).Nodup) (keyOf : AccAddress → StoreKey)
    (confirmed : ∀ entry ∈ entries, ∃ orchestrator, entry.1 = keyOf orchestrator ∧
      Confirmed geth owner keys orchestrator (geth.keccak256 bytes) (ethSigner (shown entry))
        (signature (shown entry)))
    {responses : List T} (mapped : (entries.map shown).mapM tryFrom = .ok responses) :
    RelaySafe clarity (clarity.ethereumMsgHash bytes) responses := by
  have address : ∀ entry ∈ entries, ∀ response, tryFrom (shown entry) = .ok response →
      getEthAddress response = hexToAddress (ethSigner (shown entry)) := by
    intro entry member response converted
    obtain ⟨_, _, valid, _⟩ := confirmed entry member
    have parsed := (converts _ _ converted).1
    rw [parseEthAddress, lawful.ethAddress _ valid] at parsed
    exact (Outcome.ok.inj parsed).symm
  refine .of_recovers ?_ fun response member => ?_
  · rw [Outcome.map_of_mapM_eq_ok (g := fun msg => hexToAddress (ethSigner msg)) ?_ mapped, List.map_map]
    · refine List.Nodup.map_on ?_ (List.Nodup.of_map _ distinct)
      intro first inFirst second inSecond same
      obtain ⟨orchestrator, key, one⟩ := confirmed first inFirst
      obtain ⟨orchestrator', key', other⟩ := confirmed second inSecond
      obtain rfl := custody.same_orchestrator one other same
      exact List.inj_on_of_nodup_map distinct inFirst inSecond (key.trans key'.symm)
    · intro msg shownThere response converted
      obtain ⟨entry, there, rfl⟩ := List.mem_map.mp shownThere
      exact address entry there response converted
  · obtain ⟨msg, shownThere, converted⟩ := Outcome.exists_of_mem_mapM mapped member
    obtain ⟨entry, there, rfl⟩ := List.mem_map.mp shownThere
    obtain ⟨_, _, attested⟩ := confirmed entry there
    rw [address entry there response converted]
    exact lawful.recovers attested (converts _ _ converted).2

end Query

end Orchestrator

/-! ### Registrations -/

section Registration

variable {owner : ValAddress → AccAddress} {keys : DelegateKeys} {validator : ValAddress}
  {orchestrator : AccAddress} {ethAddress : Bytes}

/-- **A registration** of an address no other validator has. -/
theorem Custody.register (custody : Custody owner keys)
    (unset : keys.getEthAddressByValidator validator = none)
    (new : ∀ other text, keys.getEthAddressByValidator other = some text →
      hexToAddress text ≠ hexToAddress ethAddress) :
    Custody (Function.update owner validator orchestrator)
      (keys.register validator orchestrator ethAddress) where
  bound account operator found := by
    rw [DelegateKeys.register, getEthAddressByValidator_register]
    simp only [DelegateKeys.register, DelegateKeys.setEthAddressForValidator,
      DelegateKeys.setOrchestratorValidator, Store.get_set, getOrchestratorAddressKey_inj] at found
    split_ifs at found with same
    · obtain rfl := Option.some.inj found
      rw [if_pos rfl, Function.update_self]
      exact ⟨same.symm, rfl⟩
    · obtain ⟨owned, registered⟩ := custody.bound account operator found
      have other : operator ≠ validator := by
        rintro rfl
        rw [unset] at registered
        cases registered
      rw [if_neg other, Function.update_of_ne other]
      exact ⟨owned, registered⟩
  distinct first second text text' registered registered' same := by
    rw [DelegateKeys.register, getEthAddressByValidator_register] at registered registered'
    split_ifs at registered registered' with one other other
    · rw [one, other]
    · obtain rfl := Option.some.inj registered
      exact absurd same.symm (new second text' registered')
    · obtain rfl := Option.some.inj registered'
      exact absurd same (new first text registered)
    · exact custody.distinct first second text text' registered registered' same

/-- What was confirmed before a registration stays confirmed. -/
theorem Confirmed.register {geth : Geth} {account : AccAddress}
    {checkpoint ethSigner signature : Bytes}
    (confirmed : Confirmed geth owner keys account checkpoint ethSigner signature)
    (unset : keys.getEthAddressByValidator validator = none) :
    Confirmed geth (Function.update owner validator orchestrator)
      (keys.register validator orchestrator ethAddress) account checkpoint ethSigner signature := by
  refine { confirmed with registered := ?_ }
  obtain ⟨operator, text, registered, owned, same⟩ := confirmed.registered
  have other : operator ≠ validator := by
    rintro rfl
    rw [unset] at registered
    cases registered
  refine ⟨operator, text, ?_, ?_, same⟩
  · rw [DelegateKeys.register, getEthAddressByValidator_register, if_neg other, registered]
  · rw [Function.update_of_ne other, owned]

end Registration

/-! ### Confirmations -/

/-- A confirmation in the name of the address registered for its orchestrator, with a last byte in
Ethereum's format. -/
def Registry.Names (sdk : Sdk) (registry : Registry) (orchestrator ethSigner signature : Bytes) : Prop :=
  (∀ signer ∈ (registry.signer ((sdk.accAddressFromBech32 orchestrator).getD [])).toOption,
      hexToAddress signer.2 = hexToAddress ethSigner) ∧
    ∀ sigBytes ∈ decodeString signature, signatureV sigBytes = 27 ∨ signatureV sigBytes = 28

instance (sdk : Sdk) (registry : Registry) (orchestrator ethSigner signature : Bytes) :
    Decidable (registry.Names sdk orchestrator ethSigner signature) := by
  unfold Registry.Names; infer_instance

/-- **An accepted confirmation in the registered name.** -/
theorem Confirmed.of_accepted {sdk : Sdk} {geth : Geth} {registry : Registry}
    {owner : ValAddress → AccAddress} (custody : Custody owner registry.keys)
    {orchestrator ethSigner signature checkpoint : Bytes} {account : AccAddress}
    (names : registry.Names sdk orchestrator ethSigner signature)
    (valid : validateEthAddress ethSigner = .ok ())
    (accepted : confirmHandlerCommon sdk geth registry orchestrator signature checkpoint = .ok ())
    (parsed : sdk.accAddressFromBech32 orchestrator = some account) :
    Confirmed geth owner registry.keys account checkpoint ethSigner signature := by
  obtain ⟨sigBytes, validator, text, decoded, signer, verified⟩ := confirmHandlerCommon_eq_ok accepted
  have same : hexToAddress text = hexToAddress ethSigner :=
    names.1 (validator, text) (by rw [signer]; rfl)
  rw [parsed, Option.getD_some] at signer
  obtain ⟨bound, registered⟩ := Registry.signer_eq_ok signer
  have recovered : ethAddressFromSignature geth checkpoint sigBytes = .ok text :=
    ethAddressFromSignature_eq_ok_iff.mpr (validateEthereumSignature_eq_ok_iff.mp verified)
  exact ⟨valid, ⟨sigBytes, text, decoded, recovered, same⟩, names.2,
    validator, text, registered, (custody.bound account validator bound).1, same⟩

/-! ### The steps -/

/-- The prefix of the query for the confirmations of a stored call, from the key of the call. -/
def logicQuery (callKey : StoreKey) : StoreKey := 0x13 :: callKey.tail

section Steps

variable {β τ : Type} (sdk : Sdk)

/-- **The four messages, where they leave usable confirmations**: a registration of an address no other
validator has, and confirmations in the registered name, those of a logic call outside of the ranges of
other stored calls. -/
def Node.Confirms (node : Node β τ) : NodeInput β τ → Prop
  | .setOrchestratorAddress _ msg =>
      ∀ entry ∈ node.keeper.keys.ethAddressByValidator.entries,
        hexToAddress entry.2 = hexToAddress msg.ethAddress →
        entry.1 = getEthAddressByValidatorKey ((sdk.valAddressFromBech32 msg.validator).getD [])
  | .valsetConfirm isValidator msg =>
      (node.keeper.registry isValidator).Names sdk msg.orchestrator msg.ethAddress msg.signature
  | .confirmBatch isValidator msg =>
      (node.keeper.registry isValidator).Names sdk msg.orchestrator msg.ethSigner msg.signature
  | .confirmLogicCall isValidator msg =>
      (node.keeper.registry isValidator).Names sdk msg.orchestrator msg.ethSigner msg.signature ∧
        ∀ invalidationId ∈ decodeString msg.invalidationId, ∀ entry ∈ node.keeper.logicCalls.entries,
          InPrefixRange (logicQuery entry.1) (getLogicConfirmKey invalidationId msg.invalidationNonce
            ((sdk.accAddressFromBech32 msg.orchestrator).getD [])) →
          entry.1 = getOutgoingLogicCallKey invalidationId msg.invalidationNonce
  | _ => False

instance (node : Node β τ) (input : NodeInput β τ) : Decidable (node.Confirms sdk input) := by
  rcases input <;> unfold Node.Confirms <;> infer_instance

variable (geth : Geth) (owner : ValAddress → AccAddress)

/-- **The invariant**: every stored confirmation is one of the object it names, under the key of its
orchestrator. -/
structure Node.Confirmations (node : Node β τ) : Prop where
  custody : Custody owner node.keeper.keys
  valsets : ∀ key msg, node.keeper.confirms.valsets.get key = some msg →
    ∃ valset checkpoint orchestrator,
      node.keeper.chain.valsets.valsets.get (getValsetKey msg.nonce) = some valset ∧
      valset.getCheckpoint geth node.keeper.params.gravityId = .ok checkpoint ∧
      key = getValsetConfirmKey msg.nonce orchestrator ∧
      Confirmed geth owner node.keeper.keys orchestrator checkpoint msg.ethAddress msg.signature
  batches : ∀ key msg, node.keeper.confirms.batches.get key = some msg →
    validateEthAddress msg.tokenContract = .ok () ∧ ∃ batch checkpoint orchestrator,
      node.keeper.chain.app.outgoing.getOutgoingTXBatch msg.tokenContract msg.nonce = some batch ∧
      batch.getCheckpoint geth node.keeper.params.gravityId = .ok checkpoint ∧
      key = getBatchConfirmKey msg.tokenContract msg.nonce orchestrator ∧
      Confirmed geth owner node.keeper.keys orchestrator checkpoint msg.ethSigner msg.signature
  logicCalls : ∀ key msg, node.keeper.confirms.logicCalls.get key = some msg →
    ∃ invalidationId checkpoint orchestrator, decodeString msg.invalidationId = some invalidationId ∧
      (node.keeper.logicCalls.getOutgoingLogicCall invalidationId msg.invalidationNonce).getCheckpoint
        geth node.keeper.params.gravityId = .ok checkpoint ∧
      key = getLogicConfirmKey invalidationId msg.invalidationNonce orchestrator ∧
      (∀ entry ∈ node.keeper.logicCalls.entries, InPrefixRange (logicQuery entry.1) key →
        entry.1 = getOutgoingLogicCallKey invalidationId msg.invalidationNonce) ∧
      Confirmed geth owner node.keeper.keys orchestrator checkpoint msg.ethSigner msg.signature

end Steps

section Kept

variable {β τ : Type} {sdk : Sdk} {bank : BankKeeper β} {geth : Geth} {evm : Evm}
  {others : Contracts τ} {owner : ValAddress → AccAddress} {node : Node β τ}

/-- A message either leaves the confirmations alone, or was valid and handled. -/
theorem deliverConfirm_cases (valid : Except ConfirmError Unit)
    (handled : Outcome ConfirmError ConfirmPanic Confirms) (confirms : Confirms) :
    deliverConfirm valid handled confirms = confirms ∨
      valid = .ok () ∧ ∃ after, handled = .ok after ∧ deliverConfirm valid handled confirms = after := by
  cases valid with
  | error reason => exact Or.inl rfl
  | ok value =>
      cases handled with
      | ok after => exact Or.inr ⟨rfl, after, rfl, rfl⟩
      | error reason => exact Or.inl rfl
      | panic reason => exact Or.inl rfl

theorem validateConfirmer_eq_ok {orchestrator ethSigner : Bytes}
    (valid : validateConfirmer sdk orchestrator ethSigner = .ok ()) :
    validateEthAddress ethSigner = .ok () := by
  unfold validateConfirmer at valid
  split_ifs at valid
  split at valid
  · cases valid
  · assumption

/-- `ValidateBasic` of a batch's confirmation checks both addresses. -/
theorem MsgConfirmBatch.validateBasic_eq_ok {msg : MsgConfirmBatch}
    (valid : msg.validateBasic sdk = .ok ()) :
    validateEthAddress msg.ethSigner = .ok () ∧ validateEthAddress msg.tokenContract = .ok () := by
  obtain ⟨_, confirmer, valid⟩ := except_bind_eq_ok.mp valid
  refine ⟨validateConfirmer_eq_ok confirmer, ?_⟩
  split at valid
  · cases valid
  · assumption

theorem MsgConfirmLogicCall.validateBasic_eq_ok {msg : MsgConfirmLogicCall}
    (valid : msg.validateBasic sdk = .ok ()) : validateEthAddress msg.ethSigner = .ok () := by
  obtain ⟨_, confirmer, _⟩ := except_bind_eq_ok.mp valid
  exact validateConfirmer_eq_ok confirmer

namespace Node.Confirmations

/-- A registration. -/
theorem register (confirmations : node.Confirmations geth owner) {validator : ValAddress}
    (orchestrator : AccAddress) {ethAddress : Bytes}
    (unset : node.keeper.keys.getEthAddressByValidator validator = none)
    (new : ∀ other text, node.keeper.keys.getEthAddressByValidator other = some text →
      hexToAddress text ≠ hexToAddress ethAddress) :
    Node.Confirmations geth (Function.update owner validator orchestrator)
      { node with keeper := { node.keeper with
        keys := node.keeper.keys.register validator orchestrator ethAddress } } where
  custody := confirmations.custody.register unset new
  valsets key msg found := by
    obtain ⟨valset, checkpoint, account, stored, computed, filed, confirmed⟩ :=
      confirmations.valsets key msg found
    exact ⟨valset, checkpoint, account, stored, computed, filed, confirmed.register unset⟩
  batches key msg found := by
    obtain ⟨valid, batch, checkpoint, account, stored, computed, filed, confirmed⟩ :=
      confirmations.batches key msg found
    exact ⟨valid, batch, checkpoint, account, stored, computed, filed, confirmed.register unset⟩
  logicCalls key msg found := by
    obtain ⟨id, checkpoint, account, decoded, computed, filed, apart, confirmed⟩ :=
      confirmations.logicCalls key msg found
    exact ⟨id, checkpoint, account, decoded, computed, filed, apart, confirmed.register unset⟩

/-- `SetOrchestratorAddress` -/
theorem setOrchestratorAddress (confirmations : node.Confirmations geth owner)
    {isValidator : ValAddress → Bool} {msg : MsgSetOrchestratorAddress}
    (confirms : node.Confirms sdk (.setOrchestratorAddress isValidator msg)) :
    ∃ owner', Node.Confirmations geth owner' { node with keeper := { node.keeper with
      keys := (NabBridge.setOrchestratorAddress sdk isValidator msg node.keeper.keys).deliver
        node.keeper.keys } } := by
  cases set : NabBridge.setOrchestratorAddress sdk isValidator msg node.keeper.keys with
  | error reason => exact ⟨owner, confirmations⟩
  | panic reason => exact reason.elim
  | ok after =>
      obtain ⟨_, validator, orchestrator, parsed, _, _, _, unset, rfl⟩ :=
        setOrchestratorAddress_eq_ok set
      refine ⟨_, confirmations.register orchestrator unset fun other text found same => ?_⟩
      have own := confirms (getEthAddressByValidatorKey other, text)
        ((Store.mem_entries_iff _ _ _).mpr found) same
      rw [parsed, Option.getD_some, getEthAddressByValidatorKey_inj] at own
      rw [own, unset] at found
      cases found

/-- `ValsetConfirm` -/
theorem valsetConfirm (confirmations : node.Confirmations geth owner)
    {isValidator : ValAddress → Bool} {msg : MsgValsetConfirm}
    (confirms : node.Confirms sdk (.valsetConfirm isValidator msg)) :
    (node.withConfirms (deliverConfirm (msg.validateBasic sdk)
      (NabBridge.valsetConfirm sdk geth node.keeper.params.gravityId (node.keeper.registry isValidator)
        node.keeper.chain.valsets.valsets msg node.keeper.confirms)
      node.keeper.confirms)).Confirmations geth owner := by
  rcases deliverConfirm_cases (msg.validateBasic sdk) (NabBridge.valsetConfirm sdk geth
    node.keeper.params.gravityId (node.keeper.registry isValidator) node.keeper.chain.valsets.valsets
    msg node.keeper.confirms) node.keeper.confirms with alone | ⟨valid, after, handled, stored⟩
  · rw [alone]
    exact confirmations
  · rw [stored]
    obtain ⟨valset, checkpoint, account, found, computed, accepted, parsed, rfl⟩ :=
      valsetConfirm_eq_ok handled
    refine { confirmations with valsets := fun key other there => ?_ }
    rcases Store.of_get_set there with ⟨new, rfl⟩ | earlier
    · exact ⟨valset, checkpoint, account, found, computed, new, .of_accepted confirmations.custody
        confirms (validateConfirmer_eq_ok valid) accepted parsed⟩
    · exact confirmations.valsets key other earlier

/-- `ConfirmBatch` -/
theorem confirmBatch (confirmations : node.Confirmations geth owner)
    {isValidator : ValAddress → Bool} {msg : MsgConfirmBatch}
    (confirms : node.Confirms sdk (.confirmBatch isValidator msg)) :
    (node.withConfirms (deliverConfirm (msg.validateBasic sdk)
      (NabBridge.confirmBatch sdk geth node.keeper.params.gravityId (node.keeper.registry isValidator)
        node.keeper.chain.app.outgoing msg node.keeper.confirms)
      node.keeper.confirms)).Confirmations geth owner := by
  rcases deliverConfirm_cases (msg.validateBasic sdk) (NabBridge.confirmBatch sdk geth
    node.keeper.params.gravityId (node.keeper.registry isValidator) node.keeper.chain.app.outgoing
    msg node.keeper.confirms) node.keeper.confirms with alone | ⟨valid, after, handled, stored⟩
  · rw [alone]
    exact confirmations
  · rw [stored]
    obtain ⟨signer, token⟩ := MsgConfirmBatch.validateBasic_eq_ok valid
    obtain ⟨batch, checkpoint, account, found, computed, accepted, parsed, rfl⟩ :=
      confirmBatch_eq_ok handled
    refine { confirmations with batches := fun key other there => ?_ }
    simp only [Node.withConfirms, Store.get_set] at there
    split_ifs at there with new
    · obtain rfl := Option.some.inj there
      exact ⟨token, batch, checkpoint, account, found, computed, new,
        .of_accepted confirmations.custody confirms signer accepted parsed⟩
    · exact confirmations.batches key other there

/-- `ConfirmLogicCall` -/
theorem confirmLogicCall (confirmations : node.Confirmations geth owner)
    {isValidator : ValAddress → Bool} {msg : MsgConfirmLogicCall}
    (confirms : node.Confirms sdk (.confirmLogicCall isValidator msg)) :
    (node.withConfirms (deliverConfirm (msg.validateBasic sdk)
      (NabBridge.confirmLogicCall sdk geth node.keeper.params.gravityId
        (node.keeper.registry isValidator) node.keeper.logicCalls msg node.keeper.confirms)
      node.keeper.confirms)).Confirmations geth owner := by
  rcases deliverConfirm_cases (msg.validateBasic sdk) (NabBridge.confirmLogicCall sdk geth
    node.keeper.params.gravityId (node.keeper.registry isValidator) node.keeper.logicCalls
    msg node.keeper.confirms) node.keeper.confirms with alone | ⟨valid, after, handled, stored⟩
  · rw [alone]
    exact confirmations
  · rw [stored]
    obtain ⟨id, checkpoint, account, decoded, computed, accepted, parsed, rfl⟩ :=
      confirmLogicCall_eq_ok handled
    refine { confirmations with logicCalls := fun key other there => ?_ }
    simp only [Node.withConfirms, Store.get_set] at there
    split_ifs at there with new
    · obtain rfl := Option.some.inj there
      have apart := confirms.2 id decoded
      rw [parsed, Option.getD_some, ← new] at apart
      exact ⟨id, checkpoint, account, decoded, computed, new, apart, .of_accepted confirmations.custody
        confirms.1 (MsgConfirmLogicCall.validateBasic_eq_ok valid) accepted parsed⟩
    · exact confirmations.logicCalls key other there

/-- **One of the four messages.** -/
theorem step (confirmations : node.Confirmations geth owner) {input : NodeInput β τ} {next : Node β τ}
    {outputs : List NodeOutput} (confirms : node.Confirms sdk input)
    (stepped : nodeStep sdk bank geth evm others node input = some (next, outputs)) :
    ∃ owner', next.Confirmations geth owner' := by
  cases input with
  | setOrchestratorAddress isValidator msg =>
      simp only [nodeStep] at stepped
      split_ifs at stepped
      obtain ⟨rfl, _⟩ := Prod.mk.inj (Option.some.inj stepped)
      exact confirmations.setOrchestratorAddress confirms
  | valsetConfirm isValidator msg =>
      simp only [nodeStep] at stepped
      split_ifs at stepped
      obtain ⟨rfl, _⟩ := Prod.mk.inj (Option.some.inj stepped)
      exact ⟨owner, confirmations.valsetConfirm confirms⟩
  | confirmBatch isValidator msg =>
      simp only [nodeStep] at stepped
      split_ifs at stepped
      obtain ⟨rfl, _⟩ := Prod.mk.inj (Option.some.inj stepped)
      exact ⟨owner, confirmations.confirmBatch confirms⟩
  | confirmLogicCall isValidator msg =>
      simp only [nodeStep] at stepped
      split_ifs at stepped
      obtain ⟨rfl, _⟩ := Prod.mk.inj (Option.some.inj stepped)
      exact ⟨owner, confirmations.confirmLogicCall confirms⟩
  | bridge _ _ => exact confirms.elim
  | setOutgoingLogicCall _ => exact confirms.elim
  | deleteOutgoingLogicCall _ _ => exact confirms.elim
  | evidence _ _ _ => exact confirms.elim
  | setParams _ => exact confirms.elim
  | restart _ _ _ => exact confirms.elim

/-- A node without confirmations and registrations. -/
theorem initially (unconfirmed : node.keeper.confirms = Confirms.empty)
    (unregistered : node.keeper.keys = DelegateKeys.empty) (owner : ValAddress → AccAddress) :
    node.Confirmations geth owner where
  custody := by
    rw [unregistered]
    exact ⟨fun _ _ absent => (by cases absent), fun _ _ _ _ absent => (by cases absent)⟩
  valsets key msg absent := by rw [unconfirmed] at absent; cases absent
  batches key msg absent := by rw [unconfirmed] at absent; cases absent
  logicCalls key msg absent := by rw [unconfirmed] at absent; cases absent

end Node.Confirmations

end Kept

/-! ### The queries -/

namespace Orchestrator

theorem relayed_eq_ok {α : Type} {result : Result α} {value : α} :
    relayed result = .ok value ↔ result = .ok value := by
  cases result <;> simp [relayed]

variable {clarity : Clarity}

theorem ValsetConfirmResponse.tryFrom_eq_ok (msg : MsgValsetConfirm) (response : ValsetConfirmResponse)
    (converted : tryFrom clarity msg = .ok response) :
    parseEthAddress clarity.toCrates msg.ethAddress = .ok (getEthAddress response) ∧
      parseSignature clarity msg.signature = .ok (getSignature response) := by
  obtain ⟨_, _, converted⟩ := Outcome.bind_eq_ok.mp converted
  obtain ⟨address, read, converted⟩ := Outcome.bind_eq_ok.mp converted
  obtain ⟨signature, signed, converted⟩ := Outcome.bind_eq_ok.mp converted
  obtain rfl := Outcome.ok.inj converted
  exact ⟨relayed_eq_ok.mp read, signed⟩

theorem BatchConfirmResponse.tryFrom_eq_ok (msg : MsgConfirmBatch) (response : BatchConfirmResponse)
    (converted : tryFrom clarity msg = .ok response) :
    parseEthAddress clarity.toCrates msg.ethSigner = .ok (getEthAddress response) ∧
      parseSignature clarity msg.signature = .ok (getSignature response) := by
  obtain ⟨_, _, converted⟩ := Outcome.bind_eq_ok.mp converted
  obtain ⟨_, _, converted⟩ := Outcome.bind_eq_ok.mp converted
  obtain ⟨address, read, converted⟩ := Outcome.bind_eq_ok.mp converted
  obtain ⟨signature, signed, converted⟩ := Outcome.bind_eq_ok.mp converted
  obtain rfl := Outcome.ok.inj converted
  exact ⟨relayed_eq_ok.mp read, signed⟩

theorem LogicCallConfirmResponse.tryFrom_eq_ok (msg : MsgConfirmLogicCall)
    (response : LogicCallConfirmResponse) (converted : tryFrom clarity msg = .ok response) :
    parseEthAddress clarity.toCrates msg.ethSigner = .ok (getEthAddress response) ∧
      parseSignature clarity msg.signature = .ok (getSignature response) := by
  unfold tryFrom at converted
  split at converted
  · cases converted
  · obtain ⟨_, _, converted⟩ := Outcome.bind_eq_ok.mp converted
    obtain ⟨address, read, converted⟩ := Outcome.bind_eq_ok.mp converted
    obtain ⟨signature, signed, converted⟩ := Outcome.bind_eq_ok.mp converted
    obtain rfl := Outcome.ok.inj converted
    exact ⟨relayed_eq_ok.mp read, signed⟩

end Orchestrator

open Orchestrator in
/-- **Usable confirmations.** Every stored confirmation recovers to the address in its own field, over the
checkpoint of the object it names; and what a query returns for an object is safe for a relayer that signs
for the bytes the module has hashed. -/
structure Node.ConfirmsUsable {β τ : Type} (geth : Geth) (clarity : Clarity) (node : Node β τ) :
    Prop where
  valsets : ∀ key msg, node.keeper.confirms.valsets.get key = some msg → ∃ valset checkpoint,
    node.keeper.chain.valsets.valsets.get (getValsetKey msg.nonce) = some valset ∧
    valset.getCheckpoint geth node.keeper.params.gravityId = .ok checkpoint ∧
    RecoversToOwn geth checkpoint msg.ethAddress msg.signature
  batches : ∀ key msg, node.keeper.confirms.batches.get key = some msg → ∃ batch checkpoint,
    node.keeper.chain.app.outgoing.getOutgoingTXBatch msg.tokenContract msg.nonce = some batch ∧
    batch.getCheckpoint geth node.keeper.params.gravityId = .ok checkpoint ∧
    RecoversToOwn geth checkpoint msg.ethSigner msg.signature
  logicCalls : ∀ key msg, node.keeper.confirms.logicCalls.get key = some msg →
    ∃ invalidationId checkpoint, decodeString msg.invalidationId = some invalidationId ∧
    (node.keeper.logicCalls.getOutgoingLogicCall invalidationId msg.invalidationNonce).getCheckpoint
      geth node.keeper.params.gravityId = .ok checkpoint ∧
    RecoversToOwn geth checkpoint msg.ethSigner msg.signature
  relayValsets : ∀ nonce valset bytes responses,
    node.keeper.chain.valsets.valsets.get (getValsetKey nonce) = some valset →
    valset.getCheckpoint geth node.keeper.params.gravityId = .ok (geth.keccak256 bytes) →
    getAllValsetConfirms clarity node.keeper.confirms nonce = .ok responses →
    RelaySafe clarity (clarity.ethereumMsgHash bytes) responses
  relayBatches : ∀ nonce contractAddress batch bytes responses,
    validateEthAddress contractAddress = .ok () →
    node.keeper.chain.app.outgoing.getOutgoingTXBatch contractAddress nonce = some batch →
    batch.getCheckpoint geth node.keeper.params.gravityId = .ok (geth.keccak256 bytes) →
    getTransactionBatchSignatures clarity node.keeper.confirms nonce contractAddress = .ok responses →
    RelaySafe clarity (clarity.ethereumMsgHash bytes) responses
  relayLogicCalls : ∀ invalidationId invalidationNonce call bytes responses,
    node.keeper.logicCalls.get (getOutgoingLogicCallKey invalidationId invalidationNonce) = some call →
    call.getCheckpoint geth node.keeper.params.gravityId = .ok (geth.keccak256 bytes) →
    getLogicCallSignatures clarity node.keeper.confirms invalidationId invalidationNonce =
      .ok responses →
    RelaySafe clarity (clarity.ethereumMsgHash bytes) responses

/-- A prefix as long as the first part is the first part. -/
theorem eq_of_prefix_append {α : Type} {start first second : List α} (starts : start <+: first ++ second)
    (length : start.length = first.length) : start = first :=
  (List.prefix_of_prefix_length_le starts (List.prefix_append first second) length.le).eq_of_length
    length

namespace Node.Confirmations

variable {β τ : Type} {geth : Geth} {owner : ValAddress → AccAddress} {node : Node β τ}
variable {clarity : Orchestrator.Clarity}

/-- **The confirmations of a validator set.** -/
theorem relayValsets (confirmations : node.Confirmations geth owner) (lawful : clarity.Lawful geth)
    {nonce : Nat} {valset : Valset} {bytes : Bytes}
    {responses : List Orchestrator.ValsetConfirmResponse}
    (stored : node.keeper.chain.valsets.valsets.get (getValsetKey nonce) = some valset)
    (hashed : valset.getCheckpoint geth node.keeper.params.gravityId = .ok (geth.keccak256 bytes))
    (queried : Orchestrator.getAllValsetConfirms clarity node.keeper.confirms nonce = .ok responses) :
    Orchestrator.RelaySafe clarity (clarity.ethereumMsgHash bytes) responses := by
  unfold Orchestrator.getAllValsetConfirms Confirms.getValsetConfirms prefixValues at queried
  rw [List.map_map] at queried
  refine .of_confirmed lawful confirmations.custody Orchestrator.ValsetConfirmResponse.tryFrom_eq_ok
    ((node.keeper.confirms.valsets.keys_nodup).sublist (List.filter_sublist.map _))
    (getValsetConfirmKey nonce) (fun entry member => ?_) queried
  obtain ⟨there, starts⟩ := List.mem_filter.mp member
  obtain ⟨valset', checkpoint, account, stored', computed, filed, confirmed⟩ :=
    confirmations.valsets entry.1 entry.2 ((Store.mem_entries_iff _ _ _).mp there)
  have starts := List.isPrefixOf_iff_prefix.mp starts
  rw [filed] at starts
  have nonces : nonce = entry.2.nonce := uint64Bytes_injective
    (eq_of_prefix_append ((List.cons_prefix_cons.mp starts).2) (by simp))
  obtain rfl : valset = valset' := by
    rw [nonces, stored'] at stored
    exact (Option.some.inj stored).symm
  obtain rfl : checkpoint = geth.keccak256 bytes := by
    rw [computed] at hashed
    exact Outcome.ok.inj hashed
  exact ⟨account, nonces ▸ filed, confirmed⟩

/-- **The confirmations of a batch.** -/
theorem relayBatches (confirmations : node.Confirmations geth owner) (lawful : clarity.Lawful geth)
    {nonce : Nat} {contractAddress : Bytes} {batch : OutgoingTxBatch} {bytes : Bytes}
    {responses : List Orchestrator.BatchConfirmResponse}
    (valid : validateEthAddress contractAddress = .ok ())
    (stored : node.keeper.chain.app.outgoing.getOutgoingTXBatch contractAddress nonce = some batch)
    (hashed : batch.getCheckpoint geth node.keeper.params.gravityId = .ok (geth.keccak256 bytes))
    (queried : Orchestrator.getTransactionBatchSignatures clarity node.keeper.confirms nonce
      contractAddress = .ok responses) :
    Orchestrator.RelaySafe clarity (clarity.ethereumMsgHash bytes) responses := by
  unfold Orchestrator.getTransactionBatchSignatures Confirms.getBatchConfirmByNonceAndTokenContract
    prefixValues at queried
  rw [List.map_map] at queried
  refine .of_confirmed lawful confirmations.custody Orchestrator.BatchConfirmResponse.tryFrom_eq_ok
    ((node.keeper.confirms.batches.keys_nodup).sublist (List.filter_sublist.map _))
    (getBatchConfirmKey contractAddress nonce) (fun entry member => ?_) queried
  obtain ⟨there, starts⟩ := List.mem_filter.mp member
  obtain ⟨valid', batch', checkpoint, account, stored', computed, filed, confirmed⟩ :=
    confirmations.batches entry.1 entry.2 ((Store.mem_entries_iff _ _ _).mp there)
  have starts := List.isPrefixOf_iff_prefix.mp starts
  rw [filed, getBatchConfirmKey, ← List.append_assoc] at starts
  have parts := eq_of_prefix_append (List.cons_prefix_cons.mp starts).2
    (by simp [length_of_validateEthAddress valid, length_of_validateEthAddress valid'])
  obtain ⟨contracts, nonces⟩ := List.append_inj' parts (by simp)
  obtain rfl := keyBytes_injective contracts
  obtain rfl := uint64Bytes_injective nonces
  obtain rfl : batch = batch' := by
    rw [stored'] at stored
    exact (Option.some.inj stored).symm
  obtain rfl : checkpoint = geth.keccak256 bytes := by
    rw [computed] at hashed
    exact Outcome.ok.inj hashed
  exact ⟨account, filed, confirmed⟩

/-- **The confirmations of a logic call.** -/
theorem relayLogicCalls (confirmations : node.Confirmations geth owner) (lawful : clarity.Lawful geth)
    {invalidationId : Bytes} {invalidationNonce : Nat} {call : OutgoingLogicCall} {bytes : Bytes}
    {responses : List Orchestrator.LogicCallConfirmResponse}
    (stored : node.keeper.logicCalls.get (getOutgoingLogicCallKey invalidationId invalidationNonce) =
      some call)
    (hashed : call.getCheckpoint geth node.keeper.params.gravityId = .ok (geth.keccak256 bytes))
    (queried : Orchestrator.getLogicCallSignatures clarity node.keeper.confirms invalidationId
      invalidationNonce = .ok responses) :
    Orchestrator.RelaySafe clarity (clarity.ethereumMsgHash bytes) responses := by
  unfold Orchestrator.getLogicCallSignatures Confirms.getLogicConfirmByInvalidationIDAndNonce
    rangeValues at queried
  rw [List.map_map] at queried
  refine .of_confirmed lawful confirmations.custody
    Orchestrator.LogicCallConfirmResponse.tryFrom_eq_ok
    ((node.keeper.confirms.logicCalls.keys_nodup).sublist (List.filter_sublist.map _))
    (getLogicConfirmKey invalidationId invalidationNonce) (fun entry member => ?_) queried
  obtain ⟨there, inRange⟩ := List.mem_filter.mp member
  obtain ⟨id, checkpoint, account, _, computed, filed, apart, confirmed⟩ :=
    confirmations.logicCalls entry.1 entry.2 ((Store.mem_entries_iff _ _ _).mp there)
  have same := apart _ ((Store.mem_entries_iff _ _ _).mpr stored) (of_decide_eq_true inRange)
  obtain ⟨rfl, nonces⟩ := getOutgoingLogicCallKey_inj.mp same
  rw [← nonces, LogicCalls.getOutgoingLogicCall, stored, Option.getD_some, hashed] at computed
  obtain rfl := Outcome.ok.inj computed
  exact ⟨account, nonces ▸ filed, confirmed⟩

/-- **The invariant makes confirmations usable.** -/
theorem usable (confirmations : node.Confirmations geth owner) (lawful : clarity.Lawful geth) :
    node.ConfirmsUsable geth clarity where
  valsets key msg found := by
    obtain ⟨valset, checkpoint, _, stored, computed, _, confirmed⟩ :=
      confirmations.valsets key msg found
    exact ⟨valset, checkpoint, stored, computed, confirmed.recovers⟩
  batches key msg found := by
    obtain ⟨_, batch, checkpoint, _, stored, computed, _, confirmed⟩ :=
      confirmations.batches key msg found
    exact ⟨batch, checkpoint, stored, computed, confirmed.recovers⟩
  logicCalls key msg found := by
    obtain ⟨id, checkpoint, _, decoded, computed, _, _, confirmed⟩ :=
      confirmations.logicCalls key msg found
    exact ⟨id, checkpoint, decoded, computed, confirmed.recovers⟩
  relayValsets _ _ _ _ stored hashed queried :=
    confirmations.relayValsets lawful stored hashed queried
  relayBatches _ _ _ _ _ valid stored hashed queried :=
    confirmations.relayBatches lawful valid stored hashed queried
  relayLogicCalls _ _ _ _ _ stored hashed queried :=
    confirmations.relayLogicCalls lawful stored hashed queried

end Node.Confirmations

/-- **Stored confirmations are usable.** From any node without confirmations and registrations, after any
sequence of the four messages whose registrations give no address away twice and whose confirmations
carry the registered address, with a signature in Ethereum's format and, for a logic call, outside of
the ranges of other stored calls: every stored confirmation recovers to its own address, no relayer
panics over what a query returns, and no confirmation displaces another. -/
theorem confirms_usable {β τ : Type} {sdk : Sdk} {bank : BankKeeper β} {geth : Geth} {evm : Evm}
    {others : Contracts τ} {clarity : Orchestrator.Clarity} (lawful : clarity.Lawful geth)
    {node final : Node β τ} {inputs : List (NodeInput β τ)} {outputs : List NodeOutput}
    (unconfirmed : node.keeper.confirms = Confirms.empty)
    (unregistered : node.keeper.keys = DelegateKeys.empty)
    (meets : StepsMeet (nodeStep sdk bank geth evm others) (Node.Confirms sdk) node inputs)
    (runs : run (nodeStep sdk bank geth evm others) node inputs = some (final, outputs)) :
    final.ConfirmsUsable geth clarity := by
  have kept : ∃ owner, final.Confirmations geth owner :=
    run_state_invariant_of_meets (Node.Confirms sdk)
      (fun state => ∃ owner, state.Confirmations geth owner)
      (fun _ _ _ _ confirms ⟨_, confirmations⟩ stepped => confirmations.step confirms stepped)
      meets ⟨fun _ => [], .initially unconfirmed unregistered _⟩ runs
  obtain ⟨owner, confirmations⟩ := kept
  exact confirmations.usable lawful

/-! ### One confirmation -/

/-- `clarity` over `exampleRecover`. -/
def exampleClarity : Orchestrator.Clarity where
  toCrates := exampleCrates
  signature text := (decodeString text).bind fun bytes =>
    if bytes.length = 65 then some (Orchestrator.Signature.ofBytes bytes) else none
  isValid signature := decide (signature.v = 27 ∨ signature.v = 28)
  recover signature _ := some (Fin.ofNat (2 ^ 160) signature.r)
  ethereumMsgHash data := signaturePrefix ++ data
  hexStrToBytes := decodeString

theorem exampleClarity_lawful : exampleClarity.Lawful recoveringGeth where
  ethAddress := exampleCrates_lawful.ethAddress
  signature text bytes decoded length := by
    show (decodeString text).bind _ = _
    rw [decoded, Option.bind_some, if_pos length]
  ethereumMsgHash _ := rfl
  length digest bytes address recovered := by
    simp only [recoveringGeth] at recovered
    split_ifs at recovered with valid
    exact valid.1
  hex := hexToAddress_hexOfAddress
  recover digest bytes address standard recovered := by
    simp only [recoveringGeth, signatureR_normalizeRecoveryId] at recovered
    split_ifs at recovered
    refine ⟨?_, recovered⟩
    rcases standard with last | last <;> simp [exampleClarity, Orchestrator.Signature.ofBytes, last]

/-- A validator set of the addresses one and two. -/
def exampleTwo : Valset :=
  ⟨1, [⟨2147483648, hexOfAddress 1⟩, ⟨2147483647, hexOfAddress 2⟩], 5, some 0, hexOfAddress 0⟩

/-- A node with this validator set. -/
def exampleRelayNode : Node Ledger Unit :=
  { exampleNode with keeper := { exampleNode.keeper with chain := { exampleNode.keeper.chain with
    valsets := ⟨Store.empty.set (getValsetKey 1) exampleTwo, 1⟩ } } }

/-- The validator of the address one registers, and confirms the validator set with its signature, under
the given address. -/
def exampleConfirmation (ethAddress : Bytes) : List (NodeInput Ledger Unit) :=
  [exampleRegister,
    .valsetConfirm (fun _ => true)
      ⟨1, ascii "cosmos1qyqszqgpqyqszqgpqyqszqgpqyqszqgpjnp7du", ethAddress,
        List.replicate 63 48 ++ [49] ++ List.replicate 64 48 ++ ascii "1b"⟩]

def exampleRelayStep : Node Ledger Unit → NodeInput Ledger Unit →
    Option (Node Ledger Unit × List NodeOutput) :=
  nodeStep exampleSdk (ledgerBank exampleModuleAccount) recoveringGeth exampleEvm exampleContracts

/-- What the relayer gets for the validator set. -/
def exampleConfirms (node : Node Ledger Unit) :
    Orchestrator.RelayResult (List Orchestrator.ValsetConfirmResponse) :=
  Orchestrator.getAllValsetConfirms exampleClarity node.keeper.confirms 1

/-- The run of `exampleConfirmation`. -/
def exampleConfirmationRun (ethAddress : Bytes) : Option (Node Ledger Unit × List NodeOutput) :=
  run exampleRelayStep exampleRelayNode (exampleConfirmation ethAddress)

/-- Under the registered address the confirmation is stored and usable. -/
theorem confirms_usable_registered : ∃ final outputs,
    exampleConfirmationRun (hexOfAddress 1) = some (final, outputs) ∧
    (exampleConfirms final).value?.map List.length = some 1 ∧
    final.ConfirmsUsable recoveringGeth exampleClarity := by
  have evaluated : (exampleConfirmationRun (hexOfAddress 1)).any (fun result =>
      (exampleConfirms result.1).value?.map List.length = some 1) = true := by
    decide +kernel
  obtain ⟨⟨final, outputs⟩, runs, stored⟩ := (Option.any_eq_true _ _).mp evaluated
  exact ⟨final, outputs, runs, of_decide_eq_true stored,
    confirms_usable exampleClarity_lawful rfl rfl (by decide +kernel) runs⟩

/-- The validator set as the relayer has it. -/
def exampleRelayValset : Orchestrator.Valset :=
  ⟨1, [⟨2147483648, some 1⟩, ⟨2147483647, some 2⟩], 0, none⟩

/-- The relayer panics over the confirmations of a validator set. -/
def RelayPanics (node : Node Ledger Unit) (responses : List Orchestrator.ValsetConfirmResponse)
    (bytes : Bytes) : Prop :=
  node.keeper.chain.valsets.valsets.get (getValsetKey 1) = some exampleTwo ∧
    exampleTwo.getCheckpoint recoveringGeth node.keeper.params.gravityId = .ok bytes ∧
    exampleConfirms node = .ok responses ∧
    exampleRelayValset.getSignatureStatus exampleClarity (exampleClarity.ethereumMsgHash bytes)
      responses = .panic (.foundInvalidSignature 2)

instance (node : Node Ledger Unit) (responses : List Orchestrator.ValsetConfirmResponse)
    (bytes : Bytes) : Decidable (RelayPanics node responses bytes) := by
  unfold RelayPanics; infer_instance

/-- **Under the address of the other validator** the same confirmation is stored as well, and every relayer
that looks for the signature of the other validator panics over it. -/
theorem confirms_unusable : ∃ final outputs responses bytes,
    exampleConfirmationRun (hexOfAddress 2) = some (final, outputs) ∧
    RelayPanics final responses bytes ∧ ¬ final.ConfirmsUsable recoveringGeth exampleClarity := by
  have evaluated : (exampleConfirmationRun (hexOfAddress 2)).any (fun result =>
      (exampleConfirms result.1).value?.any fun responses =>
        (exampleTwo.getCheckpoint recoveringGeth exampleParams.gravityId).value?.any fun bytes =>
          RelayPanics result.1 responses bytes) = true := by
    decide +kernel
  obtain ⟨⟨final, outputs⟩, runs, evaluated⟩ := (Option.any_eq_true _ _).mp evaluated
  obtain ⟨responses, _, evaluated⟩ := (Option.any_eq_true _ _).mp evaluated
  obtain ⟨bytes, _, evaluated⟩ := (Option.any_eq_true _ _).mp evaluated
  have panics : RelayPanics final responses bytes := of_decide_eq_true evaluated
  refine ⟨final, outputs, responses, bytes, runs, panics, fun usable => ?_⟩
  obtain ⟨stored, hashed, queried, panicked⟩ := panics
  exact (usable.relayValsets 1 exampleTwo bytes responses stored hashed queried).status
    exampleRelayValset _ panicked

end NabBridge
