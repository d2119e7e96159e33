/-
**Evidence of bad signatures.**

Anybody may submit a validator set, a batch or a logic call together with a signature of its checkpoint.
If the module never recorded that checkpoint, whoever signed it signed something the bridge has not
produced, and the validator registered for the recovered address is slashed and jailed.

* `checkBadSignatureEvidence_of_archived`: a recorded checkpoint is refused whatever the signature;
* `checkBadSignatureEvidence_eq_ok_iff`: exactly whom a submission punishes.
-/

import NabBridge.Keeper.LogicCall
import NabBridge.Types.EthereumSigner

namespace NabBridge

/-- `EthereumSigned`: what a bad signature can be over. -/
inductive EthereumSigned where
  | valset (valset : Valset)
  | batch (batch : OutgoingTxBatch)
  | logicCall (call : OutgoingLogicCall)
  deriving DecidableEq, Repr

/-- `EthereumSigned.GetCheckpoint` -/
def EthereumSigned.getCheckpoint (geth : Geth) (gravityID : Bytes) :
    EthereumSigned → Outcome Empty CheckpointPanic Bytes
  | .valset value => value.getCheckpoint geth gravityID
  | .batch value => value.getCheckpoint geth gravityID
  | .logicCall value => value.getCheckpoint geth gravityID

/-- What the staking module knows about an operator. -/
structure StakingValidator where
  /-- `GetConsAddr`; `none` is an error. -/
  consAddress : Option Bytes
  /-- `ConsensusPower` -/
  consensusPower : Int
  /-- `IsJailed` -/
  jailed : Bool
  deriving DecidableEq, Repr

/-- What evidence is checked against besides the store. -/
structure EvidenceEnv where
  /-- `StakingKeeper.GetValidator` -/
  getValidator : ValAddress → Option StakingValidator
  blockHeight : Nat
  /-- The parameter `SlashFractionBadEthSignature`, in units of the eighteenth decimal. -/
  slashFractionBadEthSignature : Int

/-- The errors of a submission. -/
inductive EvidenceError where
  /-- `Checkpoint exists, cannot slash` -/
  | checkpointExists
  /-- `signature decoding %s` -/
  | signatureDecoding (signature : Bytes)
  /-- `signature to eth address failed with checkpoint %s and signature %s` -/
  | signatureToAddress (checkpoint signature : Bytes)
  /-- `Did not find validator for eth address %s from signature %s with checkpoint %s and GravityID
  %s` -/
  | validatorNotFound (ethAddress signature checkpoint gravityID : Bytes)
  /-- `Could not get consensus key address for validator` -/
  | consensusAddress
  deriving DecidableEq, Repr

/-- The panics of a submission. -/
inductive EvidencePanic where
  | checkpoint (reason : CheckpointPanic)
  /-- `slice bounds out of range` -/
  | sliceBounds
  deriving DecidableEq, Repr

/-- The calls of the staking module a submission ends in. -/
structure Punishment where
  /-- The operator the address belongs to. -/
  validator : ValAddress
  /-- `Slash`: consensus address, height, power and fraction. -/
  consAddress : Bytes
  height : Nat
  power : Int
  slashFraction : Int
  /-- `Jail` is called; not for a validator that is jailed already. -/
  jail : Bool
  deriving DecidableEq, Repr

/-- `GetPastEthSignatureCheckpoint` -/
def Outgoing.getPastEthSignatureCheckpoint (outgoing : Outgoing) (checkpoint : Bytes) : Bool :=
  outgoing.pastEthSignatureCheckpoints.get (getPastEthSignatureCheckpointKey checkpoint) = some [1]

/-- `GetValidatorByEthAddress`: the operator, and what the staking module knows about it. -/
def DelegateKeys.getValidatorByEthAddress (keys : DelegateKeys)
    (getValidator : ValAddress → Option StakingValidator) (ethAddress : Bytes) :
    Option (ValAddress × StakingValidator) :=
  match keys.validatorByEthAddress.get (getValidatorByEthAddressKey ethAddress) with
  | none => none
  | some validator => (getValidator validator).map fun record => (validator, record)

/-- The signature without the `0x` it may begin with. -/
def strip0x (signature : Bytes) : Bytes :=
  if signature.take 2 = ascii "0x" then signature.drop 2 else signature

section Evidence

variable (geth : Geth) (gravityID : Bytes) (keys : DelegateKeys) (env : EvidenceEnv)

/-- The second half of `checkBadSignatureEvidenceInternal`: the signer is found and punished. -/
def punishSigner (checkpoint signature : Bytes) : Outcome EvidenceError EvidencePanic Punishment :=
  if signature.length < 2 then .panic .sliceBounds
  else
    let signature := strip0x signature
    match decodeString signature with
    | none => .error (.signatureDecoding signature)
    | some sigBytes =>
    match ethAddressFromSignature geth checkpoint sigBytes with
    | .error _ => .error (.signatureToAddress checkpoint signature)
    | .ok ethAddress =>
    match keys.getValidatorByEthAddress env.getValidator ethAddress with
    | none => .error (.validatorNotFound ethAddress signature checkpoint gravityID)
    | some (validator, record) =>
    match record.consAddress with
    | none => .error .consensusAddress
    | some consAddress =>
        .ok { validator := validator
              consAddress := consAddress
              height := env.blockHeight
              power := record.consensusPower
              slashFraction := env.slashFractionBadEthSignature
              jail := ¬ record.jailed }

/-- `CheckBadSignatureEvidence` -/
def checkBadSignatureEvidence (outgoing : Outgoing) (subject : EthereumSigned) (signature : Bytes) :
    Outcome EvidenceError EvidencePanic Punishment :=
  match subject.getCheckpoint geth gravityID with
  | .error reason => reason.elim
  | .panic reason => .panic (.checkpoint reason)
  | .ok checkpoint =>
      if outgoing.getPastEthSignatureCheckpoint checkpoint then .error .checkpointExists
      else punishSigner geth gravityID keys env checkpoint signature

end Evidence

/-! ### Whom a submission punishes -/

section Specs

variable {geth : Geth} {gravityID : Bytes} {keys : DelegateKeys} {env : EvidenceEnv}

/-- The text is a signature of the checkpoint by the address. -/
def SignedBy (geth : Geth) (checkpoint signature : Bytes) (address : EthAddress) : Prop :=
  2 ≤ signature.length ∧ ∃ sigBytes, decodeString (strip0x signature) = some sigBytes ∧
    65 ≤ sigBytes.length ∧
    geth.sigToPub (geth.keccak256 (signaturePrefix ++ checkpoint)) (normalizeRecoveryId sigBytes) =
      some address

theorem SignedBy.unique {checkpoint signature : Bytes} {address other : EthAddress}
    (first : SignedBy geth checkpoint signature address)
    (second : SignedBy geth checkpoint signature other) : address = other := by
  obtain ⟨_, sigBytes, decoded, _, recovered⟩ := first
  obtain ⟨_, sigBytes', decoded', _, recovered'⟩ := second
  obtain rfl := Option.some.inj (decoded.symm.trans decoded')
  exact Option.some.inj (recovered.symm.trans recovered')

/-- The punishment of a validator. -/
def EvidenceEnv.punishment (env : EvidenceEnv) (validator : ValAddress) (record : StakingValidator)
    (consAddress : Bytes) : Punishment where
  validator := validator
  consAddress := consAddress
  height := env.blockHeight
  power := record.consensusPower
  slashFraction := env.slashFractionBadEthSignature
  jail := ¬ record.jailed

/-- **The signer is found** when the text is a signature by an address whose registered validator the
staking module knows, with a consensus address. -/
theorem punishSigner_eq_ok_iff {checkpoint signature : Bytes} {punishment : Punishment} :
    punishSigner geth gravityID keys env checkpoint signature = .ok punishment ↔
      ∃ address validator record consAddress, SignedBy geth checkpoint signature address ∧
        keys.validatorByEthAddress.get (getValidatorByEthAddressKey (geth.hex address)) =
          some validator ∧
        env.getValidator validator = some record ∧ record.consAddress = some consAddress ∧
        punishment = env.punishment validator record consAddress := by
  constructor
  · intro punished
    unfold punishSigner DelegateKeys.getValidatorByEthAddress at punished
    split_ifs at punished with short
    simp only at punished
    split at punished
    · cases punished
    · rename_i sigBytes decoded
      split at punished
      · cases punished
      · rename_i ethAddress recovered
        obtain ⟨long, address, found, rfl⟩ := ethAddressFromSignature_eq_ok_iff.mp recovered
        split at punished
        · cases punished
        · rename_i validator record registered
          split at registered
          · cases registered
          · rename_i operator indexed
            obtain ⟨known, stored, same⟩ := Option.map_eq_some_iff.mp registered
            obtain ⟨rfl, rfl⟩ := Prod.mk.inj same
            split at punished
            · cases punished
            · rename_i consAddress cons
              obtain rfl := Outcome.ok.inj punished
              exact ⟨address, operator, known, consAddress,
                ⟨Nat.not_lt.mp short, sigBytes, decoded, long, found⟩, indexed, stored, cons, rfl⟩
  · rintro ⟨address, validator, record, consAddress, ⟨enough, sigBytes, decoded, long, found⟩,
      indexed, stored, cons, rfl⟩
    have recovered : ethAddressFromSignature geth checkpoint sigBytes = .ok (geth.hex address) :=
      ethAddressFromSignature_eq_ok_iff.mpr ⟨long, address, found, rfl⟩
    unfold punishSigner DelegateKeys.getValidatorByEthAddress
    rw [if_neg (Nat.not_lt.mpr enough)]
    simp only [decoded, recovered, indexed, stored, Option.map_some, cons]
    rfl

/-- A signature that is long enough to have a prefix does not panic. -/
theorem punishSigner_eq_error_iff {checkpoint signature : Bytes} :
    (∃ reason, punishSigner geth gravityID keys env checkpoint signature = .error reason) ↔
      2 ≤ signature.length ∧
        ∀ punishment, punishSigner geth gravityID keys env checkpoint signature ≠ .ok punishment := by
  by_cases short : signature.length < 2
  · have panics : punishSigner geth gravityID keys env checkpoint signature = .panic .sliceBounds := by
      unfold punishSigner
      rw [if_pos short]
    rw [panics]
    exact ⟨fun ⟨_, bad⟩ => (by cases bad), fun ⟨long, _⟩ => absurd long (Nat.not_le.mpr short)⟩
  · have returns : ∀ reason,
        punishSigner geth gravityID keys env checkpoint signature ≠ .panic reason := by
      intro reason panics
      unfold punishSigner at panics
      rw [if_neg short] at panics
      simp only at panics
      repeat' split at panics
      all_goals cases panics
    cases result : punishSigner geth gravityID keys env checkpoint signature with
    | ok punishment => exact ⟨fun ⟨_, bad⟩ => (by cases bad), fun ⟨_, never⟩ => absurd rfl (never punishment)⟩
    | error reason => exact ⟨fun _ => ⟨Nat.not_lt.mp short, fun _ bad => (by cases bad)⟩, fun _ => ⟨reason, rfl⟩⟩
    | panic reason => exact absurd result (returns reason)

/-- **A recorded checkpoint cannot be used as evidence.** -/
theorem checkBadSignatureEvidence_of_archived {outgoing : Outgoing} {subject : EthereumSigned}
    {checkpoint : Bytes} (computed : subject.getCheckpoint geth gravityID = .ok checkpoint)
    (archived : outgoing.getPastEthSignatureCheckpoint checkpoint = true) (signature : Bytes) :
    checkBadSignatureEvidence geth gravityID keys env outgoing subject signature =
      .error .checkpointExists := by
  unfold checkBadSignatureEvidence
  simp only [computed, archived, if_true]

theorem checkBadSignatureEvidence_of_not_archived {outgoing : Outgoing} {subject : EthereumSigned}
    {checkpoint : Bytes} (computed : subject.getCheckpoint geth gravityID = .ok checkpoint)
    (unknown : outgoing.getPastEthSignatureCheckpoint checkpoint = false) (signature : Bytes) :
    checkBadSignatureEvidence geth gravityID keys env outgoing subject signature =
      punishSigner geth gravityID keys env checkpoint signature := by
  unfold checkBadSignatureEvidence
  simp only [computed, unknown]
  rfl

/-- **Exactly whom a submission punishes**: the validator registered for the signer of a checkpoint
that was never recorded. -/
theorem checkBadSignatureEvidence_eq_ok_iff {outgoing : Outgoing} {subject : EthereumSigned}
    {checkpoint signature : Bytes} {punishment : Punishment}
    (computed : subject.getCheckpoint geth gravityID = .ok checkpoint) :
    checkBadSignatureEvidence geth gravityID keys env outgoing subject signature = .ok punishment ↔
      outgoing.getPastEthSignatureCheckpoint checkpoint = false ∧
        punishSigner geth gravityID keys env checkpoint signature = .ok punishment := by
  cases archived : outgoing.getPastEthSignatureCheckpoint checkpoint with
  | true =>
      rw [checkBadSignatureEvidence_of_archived computed archived]
      exact ⟨fun bad => (by cases bad), fun found => absurd found.1 (by decide)⟩
  | false =>
      rw [checkBadSignatureEvidence_of_not_archived computed archived]
      exact ⟨fun punished => ⟨rfl, punished⟩, fun found => found.2⟩

end Specs

end NabBridge
