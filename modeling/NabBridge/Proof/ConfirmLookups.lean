/-
**Looking up confirmations.**

A lookup walks the range of a prefix over keys that are put together without separators. Nonces are eight
bytes and contracts 42, so the range of a validator set or a batch holds its own confirmations only.
Invalidation ids have any length, and the range of a logic call can reach into another call.

* `Confirms.fileAll_eq`: after setting confirmations one by one, the stores hold the last one of each
  orchestrator for each object;
* `rangeValues_perm`: what a range over such a store gives;
* `confirm_lookups_exact_iff`: **the lookups are exact exactly where no other logic call's confirmation
  lies in the range.**
-/

import NabBridge.Proof.Attribution
import NabBridge.Proof.PrefixRange

namespace NabBridge

/-! ### Keys as bytes -/

theorem uint64Bytes_le {value : Nat} (small : value < 2 ^ 64) : ∀ digit ∈ uint64Bytes value, digit ≤ 255 :=
  fun _ member => Nat.le_of_lt_succ (lt_of_mem_beDigits small member)

section Ranges

variable {ρ α : Type}

/-- Writing values at places, each under the key of its place. -/
def writeAt (keyOf : ρ → StoreKey) (store : Store StoreKey α) (pairs : List (ρ × α)) :
    Store StoreKey α :=
  (pairs.map fun pair => (keyOf pair.1, pair.2)).foldl
    (fun current pair => current.set pair.1 pair.2) store

/-- **A range over what was written**, where places have keys of their own. -/
theorem rangeValues_perm [DecidableEq ρ] {keyOf : ρ → StoreKey} {pairs : List (ρ × α)}
    (injective : ∀ first ∈ pairs, ∀ second ∈ pairs, keyOf first.1 = keyOf second.1 → first.1 = second.1)
    (prefixKey : StoreKey) :
    (rangeValues (writeAt keyOf Store.empty pairs) prefixKey).Perm
      (((lastWrites pairs).filter fun pair => InPrefixRange prefixKey (keyOf pair.1)).map Prod.snd) := by
  have entries := Store.entries_foldl_set_perm (pairs.map fun pair => (keyOf pair.1, pair.2))
  rw [lastWrites_map keyOf injective] at entries
  have kept := (entries.filter fun entry => InPrefixRange prefixKey entry.1).map Prod.snd
  rw [List.filter_map, List.map_map] at kept
  exact kept

/-- **When a lookup is exact**: the values that are wanted are in the range, and filling in fields does not
change them; so the range may hold no others. -/
theorem lookup_perm_iff [DecidableEq ρ] {keyOf : ρ → StoreKey} {pairs : List (ρ × α)}
    (injective : ∀ first ∈ pairs, ∀ second ∈ pairs, keyOf first.1 = keyOf second.1 → first.1 = second.1)
    {prefixKey : StoreKey} {fill : α → α} {wanted : α → Bool}
    (inside : ∀ pair ∈ pairs, wanted pair.2 = true → InPrefixRange prefixKey (keyOf pair.1))
    (same : ∀ value, wanted value = true → fill value = value) :
    ((rangeValues (writeAt keyOf Store.empty pairs) prefixKey).map fill).Perm
        (((lastWrites pairs).map Prod.snd).filter wanted) ↔
      ∀ pair ∈ lastWrites pairs, InPrefixRange prefixKey (keyOf pair.1) → wanted pair.2 = true := by
  have ranged := (rangeValues_perm injective prefixKey).map fill
  rw [ranged.congr_left, List.filter_map]
  -- what is wanted is a part of what is in the range
  have part : (lastWrites pairs).filter (wanted ∘ Prod.snd) =
      ((lastWrites pairs).filter fun pair => InPrefixRange prefixKey (keyOf pair.1)).filter
        (wanted ∘ Prod.snd) := by
    rw [List.filter_filter]
    refine List.filter_congr fun pair member => ?_
    rw [Bool.eq_iff_iff, Bool.and_eq_true, decide_eq_true_iff]
    exact ⟨fun own => ⟨own, inside pair (mem_of_mem_lastWrites member) own⟩, fun both => both.1⟩
  rw [part]
  constructor
  · intro exact pair member inRange
    have lengths := exact.length_eq
    simp only [List.length_map] at lengths
    exact List.length_filter_eq_length_iff.mp lengths.symm pair
      (List.mem_filter.mpr ⟨member, decide_eq_true inRange⟩)
  · intro apart
    have all : ((lastWrites pairs).filter fun pair => InPrefixRange prefixKey (keyOf pair.1)).filter
        (wanted ∘ Prod.snd) =
          (lastWrites pairs).filter fun pair => InPrefixRange prefixKey (keyOf pair.1) :=
      List.filter_eq_self.mpr fun pair member =>
        apart pair (List.mem_filter.mp member).1 (of_decide_eq_true (List.mem_filter.mp member).2)
    rw [all, List.map_map]
    refine List.Perm.of_eq (List.map_congr_left fun pair member => same pair.2 ?_)
    exact apart pair (List.mem_filter.mp member).1 (of_decide_eq_true (List.mem_filter.mp member).2)

end Ranges

/-! ### Setting confirmations -/

/-- The fields a confirmation has in the source: a `uint64` nonce, and a contract that is an address. -/
def Confirmation.Checked : Confirmation → Prop
  | .valset msg => msg.nonce < 2 ^ 64
  | .batch msg => msg.nonce < 2 ^ 64 ∧ validateEthAddress msg.tokenContract = .ok ()
  | .logicCall msg => msg.invalidationNonce < 2 ^ 64

instance : DecidablePred Confirmation.Checked := fun confirmation => by
  rcases confirmation <;> unfold Confirmation.Checked <;> infer_instance

/-- The nonce and the orchestrator of a validator set confirmation. -/
def valsetEntry (sdk : Sdk) : Confirmation → Option ((Nat × AccAddress) × MsgValsetConfirm)
  | .valset msg =>
      (sdk.accAddressFromBech32 msg.orchestrator).map fun orchestrator => ((msg.nonce, orchestrator), msg)
  | _ => none

/-- The contract, the nonce and the orchestrator of a batch confirmation. -/
def batchEntry (sdk : Sdk) : Confirmation → Option ((Bytes × Nat × AccAddress) × MsgConfirmBatch)
  | .batch msg =>
      (sdk.accAddressFromBech32 msg.orchestrator).map fun orchestrator =>
        ((msg.tokenContract, msg.nonce, orchestrator), msg)
  | _ => none

/-- The id, the nonce and the orchestrator of a logic call confirmation. -/
def logicCallEntry (sdk : Sdk) : Confirmation → Option ((Bytes × Nat × AccAddress) × MsgConfirmLogicCall)
  | .logicCall msg =>
      (decodeString msg.invalidationId).bind fun invalidationId =>
        (sdk.accAddressFromBech32 msg.orchestrator).map fun orchestrator =>
          ((invalidationId, msg.invalidationNonce, orchestrator), msg)
  | _ => none

/-- The keys of these places. -/
def valsetPlaceKey (place : Nat × AccAddress) : StoreKey := getValsetConfirmKey place.1 place.2

def batchPlaceKey (place : Bytes × Nat × AccAddress) : StoreKey :=
  getBatchConfirmKey place.1 place.2.1 place.2.2

def logicCallPlaceKey (place : Bytes × Nat × AccAddress) : StoreKey :=
  getLogicConfirmKey place.1 place.2.1 place.2.2

namespace Confirms

variable {sdk : Sdk} {confirms after : Confirms}

/-- Setting one confirmation after the other. -/
def fileAll (sdk : Sdk) (confirmations : List Confirmation) (confirms : Confirms) :
    Outcome Empty ConfirmPanic Confirms :=
  confirmations.foldlM (Confirms.file sdk) confirms

/-- **Setting a confirmation** writes it at its place. -/
theorem file_eq_ok {confirmation : Confirmation} (set : confirms.file sdk confirmation = .ok after) :
    after = ⟨writeAt valsetPlaceKey confirms.valsets (valsetEntry sdk confirmation).toList,
      writeAt batchPlaceKey confirms.batches (batchEntry sdk confirmation).toList,
      writeAt logicCallPlaceKey confirms.logicCalls (logicCallEntry sdk confirmation).toList⟩ := by
  cases confirmation with
  | valset msg =>
      unfold Confirms.file setValsetConfirm at set
      cases parsed : sdk.accAddressFromBech32 msg.orchestrator with
      | none => simp [parsed] at set
      | some orchestrator =>
          simp only [parsed, Outcome.ok.injEq] at set
          simp [← set, valsetEntry, batchEntry, logicCallEntry, parsed, writeAt, valsetPlaceKey]
  | batch msg =>
      unfold Confirms.file setBatchConfirm at set
      cases parsed : sdk.accAddressFromBech32 msg.orchestrator with
      | none => simp [parsed] at set
      | some orchestrator =>
          simp only [parsed, Outcome.ok.injEq] at set
          simp [← set, valsetEntry, batchEntry, logicCallEntry, parsed, writeAt, batchPlaceKey]
  | logicCall msg =>
      unfold Confirms.file setLogicCallConfirm at set
      cases decoded : decodeString msg.invalidationId with
      | none => simp [decoded] at set
      | some invalidationId =>
          cases parsed : sdk.accAddressFromBech32 msg.orchestrator with
          | none => simp [decoded, parsed] at set
          | some orchestrator =>
              simp only [decoded, parsed, Outcome.ok.injEq] at set
              simp [← set, valsetEntry, batchEntry, logicCallEntry, decoded, parsed, writeAt,
                logicCallPlaceKey]

theorem writeAt_append {ρ α : Type} (keyOf : ρ → StoreKey) (store : Store StoreKey α)
    (first second : List (ρ × α)) :
    writeAt keyOf store (first ++ second) = writeAt keyOf (writeAt keyOf store first) second := by
  rw [writeAt, List.map_append, List.foldl_append]
  rfl

/-- **Setting a list of confirmations.** -/
theorem fileAll_eq {confirmations : List Confirmation}
    (set : fileAll sdk confirmations confirms = .ok after) :
    after = ⟨writeAt valsetPlaceKey confirms.valsets (confirmations.filterMap (valsetEntry sdk)),
      writeAt batchPlaceKey confirms.batches (confirmations.filterMap (batchEntry sdk)),
      writeAt logicCallPlaceKey confirms.logicCalls (confirmations.filterMap (logicCallEntry sdk))⟩ := by
  induction confirmations generalizing confirms with
  | nil => exact (Outcome.ok.inj set).symm
  | cons confirmation rest ih =>
      rw [fileAll, List.foldlM_cons] at set
      obtain ⟨middle, first, later⟩ := Outcome.bind_eq_ok.mp set
      have split : ∀ {β : Type} (entry : Confirmation → Option β),
          (confirmation :: rest).filterMap entry = (entry confirmation).toList ++ rest.filterMap entry := by
        intro β entry
        rw [List.filterMap_cons]
        cases entry confirmation <;> rfl
      rw [ih later, file_eq_ok first, split, split, split, writeAt_append, writeAt_append, writeAt_append]

end Confirms

/-! ### The places of checked confirmations -/

section Places

variable {sdk : Sdk} {confirmations : List Confirmation}

theorem mem_valsetEntries {pair : (Nat × AccAddress) × MsgValsetConfirm}
    (checked : ∀ confirmation ∈ confirmations, confirmation.Checked)
    (member : pair ∈ confirmations.filterMap (valsetEntry sdk)) :
    pair.1.1 = pair.2.nonce ∧ pair.2.nonce < 2 ^ 64 := by
  obtain ⟨confirmation, there, entry⟩ := List.mem_filterMap.mp member
  have fields := checked confirmation there
  cases confirmation with
  | valset msg =>
      obtain ⟨orchestrator, _, rfl⟩ := Option.map_eq_some_iff.mp entry
      exact ⟨rfl, fields⟩
  | batch => cases entry
  | logicCall => cases entry

theorem mem_batchEntries {pair : (Bytes × Nat × AccAddress) × MsgConfirmBatch}
    (checked : ∀ confirmation ∈ confirmations, confirmation.Checked)
    (member : pair ∈ confirmations.filterMap (batchEntry sdk)) :
    pair.1.1 = pair.2.tokenContract ∧ pair.1.2.1 = pair.2.nonce ∧ pair.2.nonce < 2 ^ 64 ∧
      validateEthAddress pair.2.tokenContract = .ok () := by
  obtain ⟨confirmation, there, entry⟩ := List.mem_filterMap.mp member
  have fields := checked confirmation there
  cases confirmation with
  | batch msg =>
      obtain ⟨orchestrator, _, rfl⟩ := Option.map_eq_some_iff.mp entry
      exact ⟨rfl, rfl, fields⟩
  | valset => cases entry
  | logicCall => cases entry

theorem mem_logicCallEntries {pair : (Bytes × Nat × AccAddress) × MsgConfirmLogicCall}
    (checked : ∀ confirmation ∈ confirmations, confirmation.Checked)
    (member : pair ∈ confirmations.filterMap (logicCallEntry sdk)) :
    decodeString pair.2.invalidationId = some pair.1.1 ∧ pair.1.2.1 = pair.2.invalidationNonce ∧
      sdk.accAddressFromBech32 pair.2.orchestrator = some pair.1.2.2 ∧
      pair.2.invalidationNonce < 2 ^ 64 := by
  obtain ⟨confirmation, there, entry⟩ := List.mem_filterMap.mp member
  have fields := checked confirmation there
  cases confirmation with
  | logicCall msg =>
      obtain ⟨invalidationId, decoded, entry⟩ := Option.bind_eq_some_iff.mp entry
      obtain ⟨orchestrator, parsed, rfl⟩ := Option.map_eq_some_iff.mp entry
      exact ⟨decoded, rfl, parsed, fields⟩
  | valset => cases entry
  | batch => cases entry

end Places

/-! ### What is stored -/

section Stored

variable (sdk : Sdk) (confirmations : List Confirmation)

/-- The validator set confirmations that are stored when a list of confirmations has been set: the last one
of each orchestrator for each nonce. -/
def storedValsetConfirms : List MsgValsetConfirm :=
  (lastWrites (confirmations.filterMap (valsetEntry sdk))).map Prod.snd

/-- So for batches: the last one of each orchestrator for each contract and nonce. -/
def storedBatchConfirms : List MsgConfirmBatch :=
  (lastWrites (confirmations.filterMap (batchEntry sdk))).map Prod.snd

/-- So for logic calls: the last one of each orchestrator for each id and nonce. -/
def storedLogicCallConfirms : List MsgConfirmLogicCall :=
  (lastWrites (confirmations.filterMap (logicCallEntry sdk))).map Prod.snd

/-- **The lookups are exact**: each gives the stored confirmations of what was asked for, each once. -/
structure LookupsExact (confirms : Confirms) (nonce : Nat) (tokenContract : Bytes) (batchNonce : Nat)
    (invalidationId : Bytes) (invalidationNonce : Nat) : Prop where
  valsets : (confirms.valsetConfirmsInRange nonce).Perm
    ((storedValsetConfirms sdk confirmations).filter fun msg => msg.nonce = nonce)
  batches : (confirms.batchConfirmsInRange batchNonce tokenContract).Perm
    ((storedBatchConfirms sdk confirmations).filter fun msg =>
      msg.tokenContract = tokenContract ∧ msg.nonce = batchNonce)
  logicCalls : (confirms.getLogicConfirmByInvalidationIDAndNonce invalidationId invalidationNonce).Perm
    ((storedLogicCallConfirms sdk confirmations).filter fun msg =>
      decodeString msg.invalidationId = some invalidationId ∧ msg.invalidationNonce = invalidationNonce)

/-- **No confirmation of another logic call lies in the range of a call**: its key neither begins with the
id and the nonce, nor is it a shorter beginning of the end of the range. -/
def LogicCallApart (invalidationId : Bytes) (invalidationNonce : Nat) : Prop :=
  ∀ msg ∈ storedLogicCallConfirms sdk confirmations, ∀ otherId ∈ decodeString msg.invalidationId,
    ∀ orchestrator ∈ sdk.accAddressFromBech32 msg.orchestrator,
    ¬ (otherId = invalidationId ∧ msg.invalidationNonce = invalidationNonce) →
    let prefixKey := 0x13 :: (keyBytes invalidationId ++ uint64Bytes invalidationNonce)
    let key := getLogicConfirmKey otherId msg.invalidationNonce orchestrator
    ¬ prefixKey <+: key ∧ ¬ FallsShort prefixKey key

instance (invalidationId : Bytes) (invalidationNonce : Nat) :
    Decidable (LogicCallApart sdk confirmations invalidationId invalidationNonce) := by
  unfold LogicCallApart; infer_instance

end Stored

theorem orPreset_self (value : Nat) : orPreset value value = value := by
  unfold orPreset
  split_ifs <;> rfl

section Lookups

variable {sdk : Sdk} {confirmations : List Confirmation} {confirms : Confirms}

/-- **The lookup of a validator set is exact.** -/
theorem valsetConfirmsInRange_perm (checked : ∀ confirmation ∈ confirmations, confirmation.Checked)
    (set : Confirms.fileAll sdk confirmations Confirms.empty = .ok confirms) (nonce : Nat) :
    (confirms.valsetConfirmsInRange nonce).Perm
      ((storedValsetConfirms sdk confirmations).filter fun msg => msg.nonce = nonce) := by
  have injective : ∀ first second : Nat × AccAddress, valsetPlaceKey first = valsetPlaceKey second →
      first = second := by
    intro first second same
    obtain ⟨nonces, orchestrators⟩ := List.append_inj (List.cons.inj same).2 (by simp)
    exact Prod.ext (uint64Bytes_injective nonces) (keyBytes_injective orchestrators)
  have inside : ∀ pair ∈ confirmations.filterMap (valsetEntry sdk),
      InPrefixRange (0x4 :: uint64Bytes nonce) (valsetPlaceKey pair.1) ↔ pair.2.nonce = nonce := by
    intro pair member
    obtain ⟨nonceIs, small⟩ := mem_valsetEntries checked member
    have bytes : ∀ digit ∈ valsetPlaceKey pair.1, digit ≤ 255 := by
      rw [valsetPlaceKey, getValsetConfirmKey, nonceIs]
      intro digit inKey
      rcases List.mem_cons.mp inKey with rfl | later
      · decide
      · exact (List.mem_append.mp later).elim (uint64Bytes_le small digit) (keyBytes_le _ digit)
    rw [inPrefixRange_iff_starts bytes (by simp [valsetPlaceKey, getValsetConfirmKey]), valsetPlaceKey,
      getValsetConfirmKey, List.cons_prefix_cons, nonceIs]
    constructor
    · rintro ⟨_, starts⟩
      exact (uint64Bytes_injective (eq_of_prefix_append starts (by simp))).symm
    · rintro rfl
      exact ⟨rfl, List.prefix_append _ _⟩
  rw [Confirms.valsetConfirmsInRange, Confirms.fileAll_eq set, storedValsetConfirms]
  refine (lookup_perm_iff (fun first _ second _ => injective first.1 second.1)
    (fun pair member own => (inside pair member).mpr (of_decide_eq_true own)) fun msg own => ?_).mpr
    fun pair member inRange => decide_eq_true
      ((inside pair (mem_of_mem_lastWrites member)).mp inRange)
  rw [of_decide_eq_true own, orPreset_self]
  obtain rfl := of_decide_eq_true own
  rfl

/-- **The lookup of a batch is exact.** -/
theorem batchConfirmsInRange_perm (checked : ∀ confirmation ∈ confirmations, confirmation.Checked)
    (set : Confirms.fileAll sdk confirmations Confirms.empty = .ok confirms) (nonce : Nat)
    {tokenContract : Bytes} (valid : validateEthAddress tokenContract = .ok ()) :
    (confirms.batchConfirmsInRange nonce tokenContract).Perm
      ((storedBatchConfirms sdk confirmations).filter fun msg =>
        msg.tokenContract = tokenContract ∧ msg.nonce = nonce) := by
  have injective : ∀ first ∈ confirmations.filterMap (batchEntry sdk),
      ∀ second ∈ confirmations.filterMap (batchEntry sdk),
        batchPlaceKey first.1 = batchPlaceKey second.1 → first.1 = second.1 := by
    intro first member second member' same
    obtain ⟨contractIs, _, _, fields⟩ := mem_batchEntries checked member
    obtain ⟨contractIs', _, _, fields'⟩ := mem_batchEntries checked member'
    obtain ⟨contracts, later⟩ := List.append_inj (List.cons.inj same).2 (by
      rw [contractIs, contractIs', length_keyBytes, length_keyBytes,
        length_of_validateEthAddress fields, length_of_validateEthAddress fields'])
    obtain ⟨nonces, orchestrators⟩ := List.append_inj later (by simp)
    exact Prod.ext (keyBytes_injective contracts)
      (Prod.ext (uint64Bytes_injective nonces) (keyBytes_injective orchestrators))
  have inside : ∀ pair ∈ confirmations.filterMap (batchEntry sdk),
      InPrefixRange (0xc :: (keyBytes tokenContract ++ uint64Bytes nonce)) (batchPlaceKey pair.1) ↔
        pair.2.tokenContract = tokenContract ∧ pair.2.nonce = nonce := by
    intro pair member
    obtain ⟨contractIs, nonceIs, small, fields⟩ := mem_batchEntries checked member
    have bytes : ∀ digit ∈ batchPlaceKey pair.1, digit ≤ 255 := by
      rw [batchPlaceKey, getBatchConfirmKey, nonceIs]
      intro digit inKey
      rcases List.mem_cons.mp inKey with rfl | later
      · decide
      · refine (List.mem_append.mp later).elim (keyBytes_le _ digit) fun later => ?_
        exact (List.mem_append.mp later).elim (uint64Bytes_le small digit) (keyBytes_le _ digit)
    have lengths : (keyBytes tokenContract).length = (keyBytes pair.2.tokenContract).length := by
      rw [length_keyBytes, length_keyBytes, length_of_validateEthAddress valid,
        length_of_validateEthAddress fields]
    have long : (0xc :: (keyBytes tokenContract ++ uint64Bytes nonce)).length ≤
        (batchPlaceKey pair.1).length := by
      rw [batchPlaceKey, getBatchConfirmKey, contractIs]
      simp only [List.length_cons, List.length_append, lengths, length_uint64Bytes]
      omega
    rw [inPrefixRange_iff_starts bytes long, batchPlaceKey, getBatchConfirmKey, List.cons_prefix_cons,
      contractIs, nonceIs, ← List.append_assoc]
    constructor
    · rintro ⟨_, starts⟩
      obtain ⟨contracts, nonces⟩ := List.append_inj (eq_of_prefix_append starts (by simp [lengths])) lengths
      exact ⟨(keyBytes_injective contracts).symm, (uint64Bytes_injective nonces).symm⟩
    · rintro ⟨rfl, rfl⟩
      exact ⟨rfl, List.prefix_append _ _⟩
  rw [Confirms.batchConfirmsInRange, Confirms.fileAll_eq set, storedBatchConfirms]
  refine (lookup_perm_iff injective
    (fun pair member own => (inside pair member).mpr (of_decide_eq_true own)) fun msg own => ?_).mpr
    fun pair member inRange => decide_eq_true
      ((inside pair (mem_of_mem_lastWrites member)).mp inRange)
  obtain ⟨rfl, rfl⟩ := of_decide_eq_true own
  rw [orPreset_self]
  split_ifs <;> rfl

/-- **When the lookup of a logic call is exact.** -/
theorem logicConfirmsInRange_perm_iff
    (twenty : ∀ text account, sdk.accAddressFromBech32 text = some account → account.length = 20)
    (checked : ∀ confirmation ∈ confirmations, confirmation.Checked)
    (set : Confirms.fileAll sdk confirmations Confirms.empty = .ok confirms) (invalidationId : Bytes)
    (invalidationNonce : Nat) :
    (confirms.getLogicConfirmByInvalidationIDAndNonce invalidationId invalidationNonce).Perm
        ((storedLogicCallConfirms sdk confirmations).filter fun msg =>
          decodeString msg.invalidationId = some invalidationId ∧
            msg.invalidationNonce = invalidationNonce) ↔
      LogicCallApart sdk confirmations invalidationId invalidationNonce := by
  have injective : ∀ first ∈ confirmations.filterMap (logicCallEntry sdk),
      ∀ second ∈ confirmations.filterMap (logicCallEntry sdk),
        logicCallPlaceKey first.1 = logicCallPlaceKey second.1 → first.1 = second.1 := by
    intro first member second member' same
    obtain ⟨_, _, parsed, _⟩ := mem_logicCallEntries checked member
    obtain ⟨_, _, parsed', _⟩ := mem_logicCallEntries checked member'
    obtain ⟨ids, later⟩ := List.append_inj' (List.cons.inj same).2 (by
      simp [twenty _ _ parsed, twenty _ _ parsed'])
    obtain ⟨nonces, orchestrators⟩ := List.append_inj later (by simp)
    exact Prod.ext (keyBytes_injective ids)
      (Prod.ext (uint64Bytes_injective nonces) (keyBytes_injective orchestrators))
  have bytes : ∀ pair ∈ confirmations.filterMap (logicCallEntry sdk),
      ∀ digit ∈ logicCallPlaceKey pair.1, digit ≤ 255 := by
    intro pair member digit inKey
    obtain ⟨_, nonceIs, _, small⟩ := mem_logicCallEntries checked member
    rw [logicCallPlaceKey, getLogicConfirmKey, nonceIs] at inKey
    rcases List.mem_cons.mp inKey with rfl | later
    · decide
    · refine (List.mem_append.mp later).elim (keyBytes_le _ digit) fun later => ?_
      exact (List.mem_append.mp later).elim (uint64Bytes_le small digit) (keyBytes_le _ digit)
  have inside : ∀ pair ∈ confirmations.filterMap (logicCallEntry sdk),
      decide (decodeString pair.2.invalidationId = some invalidationId ∧
        pair.2.invalidationNonce = invalidationNonce) = true →
      InPrefixRange (0x13 :: (keyBytes invalidationId ++ uint64Bytes invalidationNonce))
        (logicCallPlaceKey pair.1) := by
    intro pair member own
    obtain ⟨decoded, nonceIs, _, _⟩ := mem_logicCallEntries checked member
    obtain ⟨ofId, ofNonce⟩ := of_decide_eq_true own
    refine (inPrefixRange_iff (bytes pair member)).mpr (Or.inl ?_)
    rw [logicCallPlaceKey, getLogicConfirmKey, Option.some.inj (decoded.symm.trans ofId),
      nonceIs.trans ofNonce, ← List.append_assoc]
    exact List.cons_prefix_cons.mpr ⟨rfl, List.prefix_append _ _⟩
  rw [Confirms.getLogicConfirmByInvalidationIDAndNonce, Confirms.fileAll_eq set, storedLogicCallConfirms]
  refine (lookup_perm_iff injective inside fun msg own => ?_).trans ?_
  · obtain ⟨_, rfl⟩ := of_decide_eq_true own
    rw [orPreset_self]
  · unfold LogicCallApart storedLogicCallConfirms
    constructor
    · intro apart msg member otherId decoded orchestrator parsed other
      obtain ⟨pair, there, rfl⟩ := List.mem_map.mp member
      rw [Option.mem_def] at decoded parsed
      have old := mem_of_mem_lastWrites there
      obtain ⟨decoded', nonceIs, parsed', _⟩ := mem_logicCallEntries checked old
      obtain rfl := Option.some.inj (decoded.symm.trans decoded')
      obtain rfl := Option.some.inj (parsed.symm.trans parsed')
      have out : ¬ InPrefixRange (0x13 :: (keyBytes invalidationId ++ uint64Bytes invalidationNonce))
          (logicCallPlaceKey pair.1) := by
        intro inRange
        obtain ⟨ofId, ofNonce⟩ := of_decide_eq_true (apart pair there inRange)
        exact other ⟨Option.some.inj (decoded.symm.trans ofId), ofNonce⟩
      rw [inPrefixRange_iff (bytes pair old), not_or, logicCallPlaceKey, nonceIs] at out
      exact out
    · intro apart pair there inRange
      have old := mem_of_mem_lastWrites there
      obtain ⟨decoded, nonceIs, parsed, _⟩ := mem_logicCallEntries checked old
      by_contra foreign
      have other : ¬ (pair.1.1 = invalidationId ∧ pair.2.invalidationNonce = invalidationNonce) := by
        rintro ⟨rfl, ofNonce⟩
        exact foreign (decide_eq_true ⟨decoded, ofNonce⟩)
      have out := apart pair.2 (List.mem_map_of_mem there) _ decoded _ parsed other
      rw [inPrefixRange_iff (bytes pair old), logicCallPlaceKey, nonceIs] at inRange
      exact inRange.elim out.1 out.2

/-- **Confirm lookups, and when they are exact.** For every list of confirmations that have been set, and for
all nonces, contracts and invalidation ids: the lookups of validator sets and batches give exactly what is
stored, and that of a logic call does where no confirmation of another call lies in its range. -/
theorem confirm_lookups_exact_iff
    (twenty : ∀ text account, sdk.accAddressFromBech32 text = some account → account.length = 20)
    (checked : ∀ confirmation ∈ confirmations, confirmation.Checked)
    (set : Confirms.fileAll sdk confirmations Confirms.empty = .ok confirms) (nonce : Nat)
    {tokenContract : Bytes} (valid : validateEthAddress tokenContract = .ok ()) (batchNonce : Nat)
    (invalidationId : Bytes) (invalidationNonce : Nat) :
    LookupsExact sdk confirmations confirms nonce tokenContract batchNonce invalidationId
        invalidationNonce ↔
      LogicCallApart sdk confirmations invalidationId invalidationNonce := by
  constructor
  · intro exact
    exact (logicConfirmsInRange_perm_iff twenty checked set _ _).mp exact.logicCalls
  · intro apart
    exact ⟨valsetConfirmsInRange_perm checked set nonce, batchConfirmsInRange_perm checked set _ valid,
      (logicConfirmsInRange_perm_iff twenty checked set _ _).mpr apart⟩

end Lookups

/-! ### Two logic calls -/

theorem exampleSdk_twenty : ∀ text account,
    exampleSdk.accAddressFromBech32 text = some account → account.length = 20 := by
  intro text account parsed
  have all : ∀ address ∈ exampleAddresses, address.2.2.length = 20 := by decide
  obtain ⟨address, found, rfl⟩ := Option.map_eq_some_iff.mp parsed
  exact all address (List.mem_of_find?_eq_some found)

/-- A confirmation of a logic call. -/
def exampleLogicConfirm (invalidationId : Bytes) (invalidationNonce : Nat) : MsgConfirmLogicCall :=
  ⟨invalidationId, invalidationNonce, hexOfAddress 1, ascii "cosmos1qyqszqgpqyqszqgpqyqszqgpqyqszqgpjnp7du",
    List.replicate 130 48⟩

/-- An id of 32 zeros, in hexadecimal. -/
def exampleInvalidationId : Bytes := List.replicate 64 48

/-- The same id with a nonce of one behind it. -/
def exampleLongerId : Bytes := exampleInvalidationId ++ List.replicate 15 48 ++ [49]

/-- Confirmations of two nonces of one id. -/
theorem confirm_lookups_apart : ∃ confirms,
    Confirms.fileAll exampleSdk [.logicCall (exampleLogicConfirm exampleInvalidationId 1),
      .logicCall (exampleLogicConfirm exampleInvalidationId 2)] Confirms.empty = .ok confirms ∧
    LookupsExact exampleSdk [.logicCall (exampleLogicConfirm exampleInvalidationId 1),
      .logicCall (exampleLogicConfirm exampleInvalidationId 2)] confirms 1 (hexOfAddress 9) 1
      (List.replicate 32 0) 1 := by
  have evaluated : (Confirms.fileAll exampleSdk [.logicCall (exampleLogicConfirm exampleInvalidationId 1),
      .logicCall (exampleLogicConfirm exampleInvalidationId 2)] Confirms.empty).value?.isSome := by
    decide +kernel
  obtain ⟨confirms, set⟩ := Option.isSome_iff_exists.mp evaluated
  rw [Outcome.value?_eq_some] at set
  refine ⟨confirms, set, ?_⟩
  exact (confirm_lookups_exact_iff exampleSdk_twenty (by decide +kernel) set 1 (by decide +kernel) 1
    (List.replicate 32 0) 1).mpr (by decide +kernel)

/-- **The lookup of one call gives the confirmation of another**: both messages pass their checks, the id of
the second is that of the first with its nonce behind it, and the lookup of the first returns both. -/
theorem confirm_lookups_mixed : ∃ confirms,
    Confirms.fileAll exampleSdk [.logicCall (exampleLogicConfirm exampleInvalidationId 1),
      .logicCall (exampleLogicConfirm exampleLongerId 2)] Confirms.empty = .ok confirms ∧
    (exampleLogicConfirm exampleInvalidationId 1).validateBasic exampleSdk = .ok () ∧
    (exampleLogicConfirm exampleLongerId 2).validateBasic exampleSdk = .ok () ∧
    confirms.getLogicConfirmByInvalidationIDAndNonce (List.replicate 32 0) 1 =
      [exampleLogicConfirm exampleLongerId 2, exampleLogicConfirm exampleInvalidationId 1] ∧
    ¬ LookupsExact exampleSdk [.logicCall (exampleLogicConfirm exampleInvalidationId 1),
      .logicCall (exampleLogicConfirm exampleLongerId 2)] confirms 1 (hexOfAddress 9) 1
      (List.replicate 32 0) 1 := by
  have evaluated : (Confirms.fileAll exampleSdk [.logicCall (exampleLogicConfirm exampleInvalidationId 1),
      .logicCall (exampleLogicConfirm exampleLongerId 2)] Confirms.empty).value?.any fun confirms =>
        confirms.getLogicConfirmByInvalidationIDAndNonce (List.replicate 32 0) 1 =
          [exampleLogicConfirm exampleLongerId 2, exampleLogicConfirm exampleInvalidationId 1] := by
    decide +kernel
  obtain ⟨confirms, set, both⟩ := (Option.any_eq_true _ _).mp evaluated
  rw [Outcome.value?_eq_some] at set
  rw [decide_eq_true_eq] at both
  refine ⟨confirms, set, by decide +kernel, by decide +kernel, both, fun exact => ?_⟩
  -- two confirmations are found, and one is stored
  have lengths := exact.logicCalls.length_eq
  rw [both] at lengths
  revert lengths
  decide +kernel

end NabBridge
