/-
**Spellings of a registered address.**

A registration accepts every mixture of upper and lower case. A signature is checked, and the validator
behind one is looked up, under the text that go-ethereum's `Address.Hex` makes of the recovered address,
and texts are compared byte by byte. So a validator whose address is registered in another spelling can
neither confirm anything nor be punished (`spelling_iff`).
-/

import NabBridge.Proof.Archive
import NabBridge.Proof.Registrations

namespace NabBridge

namespace DelegateKeys

/-- The registration of a validator stands in all three indices. -/
structure Stands (keys : DelegateKeys) (validator : ValAddress) (orchestrator : AccAddress)
    (ethAddress : Bytes) : Prop where
  bound : keys.validatorByOrchestrator.get (getOrchestratorAddressKey orchestrator) = some validator
  address : keys.getEthAddressByValidator validator = some ethAddress
  indexed :
    keys.validatorByEthAddress.get (getValidatorByEthAddressKey ethAddress) = some validator

/-- A new registration stands. -/
theorem stands_register (keys : DelegateKeys) (validator : ValAddress) (orchestrator : AccAddress)
    (ethAddress : Bytes) :
    (keys.register validator orchestrator ethAddress).Stands validator orchestrator ethAddress where
  bound := by rw [get_validatorByOrchestrator_register, if_pos rfl]
  address := by rw [getEthAddress_register, if_pos rfl]
  indexed := by rw [get_validatorByEthAddress_register, if_pos rfl]

theorem Stands.signer {keys : DelegateKeys} {validator : ValAddress} {orchestrator : AccAddress}
    {ethAddress : Bytes} (stands : keys.Stands validator orchestrator ethAddress)
    {isValidator : ValAddress → Bool} (known : isValidator validator = true) :
    (Registry.mk keys isValidator).signer orchestrator = .ok (validator, ethAddress) := by
  unfold Registry.signer getOrchestratorValidator
  simp only [stands.bound, known, if_true, stands.address]

end DelegateKeys

section Signatures

variable {sdk : Sdk} {geth : Geth}

/-- **A confirmation's signature** is accepted where it is valid for the registered text. -/
theorem confirmHandlerCommon_eq_ok_iff {registry : Registry} {account signature checkpoint : Bytes}
    {orchestrator : AccAddress} {validator : ValAddress} {ethAddress sigBytes : Bytes}
    (parsed : sdk.accAddressFromBech32 account = some orchestrator)
    (decoded : decodeString signature = some sigBytes)
    (signer : registry.signer orchestrator = .ok (validator, ethAddress)) :
    confirmHandlerCommon sdk geth registry account signature checkpoint = .ok () ↔
      validateEthereumSignature geth checkpoint sigBytes ethAddress = .ok () := by
  unfold confirmHandlerCommon
  simp only [decoded, parsed, Option.getD_some, signer]
  cases validateEthereumSignature geth checkpoint sigBytes ethAddress with
  | error reason => exact ⟨fun bad => (by cases bad), fun bad => (by cases bad)⟩
  | ok value => exact ⟨fun _ => rfl, fun _ => rfl⟩

variable {keys : DelegateKeys} {validator : ValAddress} {orchestrator : AccAddress}
  {ethAddress : Bytes}

/-- A signature by the registered address is accepted in one spelling. -/
theorem DelegateKeys.Stands.confirm_iff (stands : keys.Stands validator orchestrator ethAddress)
    {account : Bytes} (parsed : sdk.accAddressFromBech32 account = some orchestrator)
    {isValidator : ValAddress → Bool} (known : isValidator validator = true)
    {checkpoint signature sigBytes : Bytes} (decoded : decodeString signature = some sigBytes)
    (long : 65 ≤ sigBytes.length)
    (recovered : geth.sigToPub (geth.keccak256 (signaturePrefix ++ checkpoint))
      (normalizeRecoveryId sigBytes) = some (hexToAddress ethAddress)) :
    confirmHandlerCommon sdk geth ⟨keys, isValidator⟩ account signature checkpoint = .ok () ↔
      geth.hex (hexToAddress ethAddress) = ethAddress := by
  rw [confirmHandlerCommon_eq_ok_iff parsed decoded (stands.signer known),
    validateEthereumSignature_eq_ok_iff]
  constructor
  · rintro ⟨_, address, found, same⟩
    rw [recovered] at found
    rwa [Option.some.inj found]
  · exact fun canonical => ⟨long, _, recovered, canonical⟩

/-- Evidence with a signature by the registered address finds the validator in one spelling. -/
theorem DelegateKeys.Stands.evidence_iff (stands : keys.Stands validator orchestrator ethAddress)
    (consistent : keys.Consistent sdk) {gravityID : Bytes} {env : EvidenceEnv} {outgoing : Outgoing}
    {subject : EthereumSigned} {checkpoint signature : Bytes} {record : StakingValidator}
    {consAddress : Bytes} (computed : subject.getCheckpoint geth gravityID = .ok checkpoint)
    (unknown : outgoing.getPastEthSignatureCheckpoint checkpoint = false)
    (signed : SignedBy geth checkpoint signature (hexToAddress ethAddress))
    (staked : env.getValidator validator = some record) (cons : record.consAddress = some consAddress) :
    checkBadSignatureEvidence geth gravityID keys env outgoing subject signature =
        .ok (env.punishment validator record consAddress) ↔
      geth.hex (hexToAddress ethAddress) = ethAddress := by
  rw [checkBadSignatureEvidence_eq_ok_iff computed, punishSigner_eq_ok_iff]
  constructor
  · rintro ⟨_, address, operator, _, _, signed', indexed, _, _, same⟩
    obtain rfl := SignedBy.unique signed' signed
    obtain rfl : validator = operator := congrArg Punishment.validator same
    exact Option.some.inj ((consistent.inverse _ _ indexed).symm.trans stands.address)
  · intro canonical
    refine ⟨unknown, _, validator, record, consAddress, signed, ?_, staked, cons, rfl⟩
    rw [canonical]
    exact stands.indexed

/-- **Exactly one spelling works.** After an accepted registration, for as long as it stands, a signature
by the registered key passes the check of confirmations, and evidence with one punishes the validator,
exactly if the address is registered as `Address.Hex` spells it. -/
theorem spelling_iff {inputs : List ((ValAddress → Bool) × MsgSetOrchestratorAddress)}
    {before after : DelegateKeys} {outputs : List Empty}
    (runs : run (delegateStep sdk) DelegateKeys.empty inputs = some (before, outputs))
    {isValidator : ValAddress → Bool} {msg : MsgSetOrchestratorAddress}
    (accepted : setOrchestratorAddress sdk isValidator msg before = .ok after) :
    ∃ validator orchestrator, sdk.valAddressFromBech32 msg.validator = some validator ∧
      sdk.accAddressFromBech32 msg.orchestrator = some orchestrator ∧
      after.Stands validator orchestrator msg.ethAddress ∧
      ∀ later keys outputs', run (delegateStep sdk) after later = some (keys, outputs') →
        keys.Stands validator orchestrator msg.ethAddress →
        (∀ isValidator' checkpoint signature sigBytes, isValidator' validator = true →
          decodeString signature = some sigBytes → 65 ≤ sigBytes.length →
          geth.sigToPub (geth.keccak256 (signaturePrefix ++ checkpoint))
            (normalizeRecoveryId sigBytes) = some (hexToAddress msg.ethAddress) →
          (confirmHandlerCommon sdk geth ⟨keys, isValidator'⟩ msg.orchestrator signature checkpoint =
              .ok () ↔ geth.hex (hexToAddress msg.ethAddress) = msg.ethAddress)) ∧
        (∀ gravityID env outgoing subject checkpoint signature record consAddress,
          subject.getCheckpoint geth gravityID = .ok checkpoint →
          Outgoing.getPastEthSignatureCheckpoint outgoing checkpoint = false →
          SignedBy geth checkpoint signature (hexToAddress msg.ethAddress) →
          EvidenceEnv.getValidator env validator = some record →
          record.consAddress = some consAddress →
          (checkBadSignatureEvidence geth gravityID keys env outgoing subject signature =
              .ok (env.punishment validator record consAddress) ↔
            geth.hex (hexToAddress msg.ethAddress) = msg.ethAddress)) := by
  have history := (DelegateKeys.history_empty sdk).of_run runs
  obtain ⟨valid, validator, orchestrator, validatorIs, orchestratorIs, known, free, unset, rfl⟩ :=
    setOrchestratorAddress_eq_ok accepted
  have registers : before.Registers sdk (isValidator, msg) validator orchestrator :=
    ⟨validatorIs, orchestratorIs, valid, known, unset, free⟩
  have registered : (before.register validator orchestrator msg.ethAddress).History sdk :=
    history.register registers
  refine ⟨validator, orchestrator, validatorIs, orchestratorIs,
    DelegateKeys.stands_register before validator orchestrator msg.ethAddress,
    fun later keys outputs' continues stands => ⟨?_, ?_⟩⟩
  · intro isValidator' checkpoint signature sigBytes stillKnown decoded long recovered
    exact stands.confirm_iff orchestratorIs stillKnown decoded long recovered
  · intro gravityID env outgoing subject checkpoint signature record consAddress computed unknown
      signed staked cons
    exact stands.evidence_iff (registered.of_run continues).consistent computed unknown signed staked
      cons

end Signatures

/-! ### Capital letters -/

section Examples

/-- The address `0xde709f2102306220921060314715629080e2fb77`, whose checksummed spelling has no capital
letter. -/
def exampleLower : EthAddress := 0xde709f2102306220921060314715629080e2fb77

/-- An address of `exampleGeth` in another spelling. -/
def exampleUpper : Bytes := ascii "0xDE709F2102306220921060314715629080E2FB77"

/-- The first validator registers a text. -/
def exampleSpelled (ethAddress : Bytes) : List ((ValAddress → Bool) × MsgSetOrchestratorAddress) :=
  [(fun _ => true, exampleMessage 0 0 ethAddress)]

/-- A signature by `exampleLower`, as text; `exampleGeth` takes it for one of anything. -/
def exampleLowerSignature : Bytes :=
  List.replicate 88 48 ++ (hexOfAddress exampleLower).drop 2 ++ ascii "1b"

theorem exampleLowerSignature_decoded : ∃ sigBytes,
    decodeString exampleLowerSignature = some sigBytes ∧ 65 ≤ sigBytes.length ∧
      ∀ checkpoint, exampleGeth.sigToPub (exampleGeth.keccak256 (signaturePrefix ++ checkpoint))
        (normalizeRecoveryId sigBytes) = some exampleLower := by
  have evaluated : (decodeString exampleLowerSignature).any (fun sigBytes =>
      65 ≤ sigBytes.length ∧
        exampleGeth.sigToPub [] (normalizeRecoveryId sigBytes) = some exampleLower) = true := by
    decide +kernel
  obtain ⟨sigBytes, decoded, facts⟩ := (Option.any_eq_true _ _).mp evaluated
  obtain ⟨long, recovered⟩ := of_decide_eq_true facts
  exact ⟨sigBytes, decoded, long, fun _ => recovered⟩

theorem exampleLower_signed (checkpoint : Bytes) :
    SignedBy exampleGeth checkpoint exampleLowerSignature exampleLower := by
  obtain ⟨sigBytes, decoded, long, recovered⟩ := exampleLowerSignature_decoded
  refine ⟨by decide +kernel, sigBytes, ?_, long, recovered checkpoint⟩
  have bare : strip0x exampleLowerSignature = exampleLowerSignature := by decide +kernel
  rw [bare, decoded]

/-- What the two texts do for a signature of the logic call. -/
def exampleLowerConfirms (keys : DelegateKeys) (checkpoint : Bytes) :
    Outcome ConfirmError ConfirmPanic Unit :=
  confirmHandlerCommon exampleSdk exampleGeth ⟨keys, fun _ => true⟩
    (exampleMessage 0 0 []).orchestrator exampleLowerSignature checkpoint

/-- What comes of evidence with the signature. -/
def exampleLowerPunishes (keys : DelegateKeys) : Outcome EvidenceError EvidencePanic Punishment :=
  checkBadSignatureEvidence exampleGeth [] keys exampleEvidenceEnv Outgoing.empty
    (.logicCall exampleLogicCall) exampleLowerSignature

/-- **Registered in capital letters**, the key signs, and its signature is neither accepted nor
punished. -/
theorem capitals_neither_confirm_nor_punish : ∃ keys outputs checkpoint,
    run (delegateStep exampleSdk) DelegateKeys.empty (exampleSpelled exampleUpper) =
      some (keys, outputs) ∧
    keys.Stands (List.replicate 20 1) (List.replicate 20 1) exampleUpper ∧
    hexToAddress exampleUpper = exampleLower ∧
    (EthereumSigned.logicCall exampleLogicCall).getCheckpoint exampleGeth [] = .ok checkpoint ∧
    SignedBy exampleGeth checkpoint exampleLowerSignature exampleLower ∧
    (exampleLowerConfirms keys checkpoint).value? = none ∧ (exampleLowerPunishes keys).value? = none := by
  have evaluated : ((EthereumSigned.logicCall exampleLogicCall).getCheckpoint exampleGeth []).value?.any
      (fun checkpoint =>
        (run (delegateStep exampleSdk) DelegateKeys.empty (exampleSpelled exampleUpper)).any
          fun result =>
            (result.1.validatorByOrchestrator.get (getOrchestratorAddressKey (List.replicate 20 1)) =
                some (List.replicate 20 1) ∧
              result.1.getEthAddressByValidator (List.replicate 20 1) = some exampleUpper ∧
              result.1.validatorByEthAddress.get (getValidatorByEthAddressKey exampleUpper) =
                some (List.replicate 20 1)) ∧
            (exampleLowerConfirms result.1 checkpoint).value? = none ∧
              (exampleLowerPunishes result.1).value? = none) = true := by
    decide +kernel
  obtain ⟨checkpoint, computed, found⟩ := (Option.any_eq_true _ _).mp evaluated
  obtain ⟨⟨keys, outputs⟩, runs, facts⟩ := (Option.any_eq_true _ _).mp found
  obtain ⟨⟨bound, address, indexed⟩, rejected, unpunished⟩ := of_decide_eq_true facts
  exact ⟨keys, outputs, checkpoint, runs, ⟨bound, address, indexed⟩, by decide +kernel,
    Outcome.value?_eq_some.mp computed, exampleLower_signed checkpoint, rejected, unpunished⟩

/-- Registered as `Address.Hex` spells it, the key confirms and can be punished. -/
theorem lower_confirms_and_punishes : ∃ keys checkpoint,
    setOrchestratorAddress exampleSdk (fun _ => true)
      (exampleMessage 0 0 (hexOfAddress exampleLower)) DelegateKeys.empty = .ok keys ∧
    exampleLowerConfirms keys checkpoint = .ok () ∧
    exampleLowerPunishes keys =
      .ok (exampleEvidenceEnv.punishment (List.replicate 20 1) exampleStaking [9]) := by
  have evaluated : ((EthereumSigned.logicCall exampleLogicCall).getCheckpoint exampleGeth []).value?.any
      (fun _ => (setOrchestratorAddress exampleSdk (fun _ => true)
        (exampleMessage 0 0 (hexOfAddress exampleLower)) DelegateKeys.empty).value?.isSome) = true := by
    decide +kernel
  obtain ⟨checkpoint, computed, found⟩ := (Option.any_eq_true _ _).mp evaluated
  obtain ⟨keys, accepted⟩ := Option.isSome_iff_exists.mp found
  have accepted := Outcome.value?_eq_some.mp accepted
  obtain ⟨validator, orchestrator, validatorIs, orchestratorIs, stands, works⟩ :=
    @spelling_iff exampleSdk exampleGeth [] _ _ _ rfl _ _ accepted
  obtain rfl : List.replicate 20 1 = validator := by
    have parsed : exampleSdk.valAddressFromBech32 (exampleMessage 0 0 []).validator =
      some (List.replicate 20 1) := by decide +kernel
    exact Option.some.inj (parsed.symm.trans validatorIs)
  have same : hexToAddress (hexOfAddress exampleLower) = exampleLower :=
    hexToAddress_hexOfAddress exampleLower
  obtain ⟨confirms, punishes⟩ := works [] keys [] rfl stands
  obtain ⟨sigBytes, decoded, long, recovered⟩ := exampleLowerSignature_decoded
  refine ⟨keys, checkpoint, accepted, ?_, ?_⟩
  · refine (confirms (fun _ => true) checkpoint exampleLowerSignature sigBytes rfl decoded long ?_).mpr
      (congrArg hexOfAddress same)
    exact (recovered checkpoint).trans (congrArg some same.symm)
  · refine (punishes [] exampleEvidenceEnv Outgoing.empty (.logicCall exampleLogicCall) checkpoint
      exampleLowerSignature exampleStaking [9] (Outcome.value?_eq_some.mp computed) ?_ ?_ rfl rfl).mpr
      (congrArg hexOfAddress same)
    · rfl
    · exact same.symm ▸ exampleLower_signed checkpoint

end Examples

end NabBridge
