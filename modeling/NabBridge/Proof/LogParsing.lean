/-
**Reading the events back.**

For each event, what its parser makes of the log the contract wrote: with the fields in the range of their
Solidity types, it returns exactly the event, and it does so exactly when the log `Parses`.

* `batch_fromLog_iff`, `deposit_fromLog_iff`, `deployed_fromLog_iff`, `valset_fromLog_iff`: the four
  parsers there are;
* `logicCall_fromLog`: the parser that is not written.
-/

import NabBridge.System.Oracle

namespace NabBridge

open Orchestrator

section Parts

/-! ### Parts of a log -/

theorem range_eq_ok {data middle : Bytes} {start stop : Nat}
    (slice : slice? data start stop = some middle) : range data start stop = .ok middle := by
  rw [range, slice]

/-- A word in the middle of the data. -/
theorem uint256At_word {data first last : Bytes} {value start : Nat}
    (parts : data = first ++ (wordBytes value ++ last)) (begins : start = first.length)
    (small : value < 2 ^ 256) : uint256At data start = .ok value := by
  have slice : slice? data start (start + 32) = some (wordBytes value) :=
    slice?_append parts begins (by simp)
  rw [uint256At, range_eq_ok slice, Outcome.ok_bind, beValue_wordBytes small]
  rfl

theorem atMost_eq_ok {bound value result : Nat} {reason : EventError} :
    atMost bound reason value = .ok result ↔ result = value ∧ value ≤ bound := by
  unfold atMost
  split_ifs with above
  · simp only [false_iff, not_and]
    omega
  · rw [Outcome.ok.injEq, eq_comm]
    exact ⟨fun same => ⟨same, not_lt.mp above⟩, fun both => both.1⟩

theorem atMost_bind_eq_ok {α : Type} {bound value : Nat} {reason : EventError}
    {next : Nat → EventResult α} {result : α} :
    (atMost bound reason value >>= next) = .ok result ↔ value ≤ bound ∧ next value = .ok result := by
  rw [Outcome.bind_eq_ok]
  constructor
  · rintro ⟨read, readIs, continues⟩
    obtain ⟨rfl, fits⟩ := atMost_eq_ok.mp readIs
    exact ⟨fits, continues⟩
  · rintro ⟨fits, continues⟩
    exact ⟨value, atMost_eq_ok.mpr ⟨rfl, fits⟩, continues⟩

theorem ethAddressFromSlice_word (reason : EventError) (address : EthAddress) :
    ethAddressFromSlice reason ((wordBytes address.val).drop 12) = .ok address := by
  rw [ethAddressFromSlice, if_pos (by simp), beValue_drop_wordBytes address.isLt]
  exact congrArg Outcome.ok (Fin.ofNat_val_eq_self address)

theorem addressOfTopic_word (address : EthAddress) :
    addressOfTopic (wordBytes address.val) = .ok address := by
  have slice : slice? (wordBytes address.val) 12 32 = some ((wordBytes address.val).drop 12) := by
    have long : ((wordBytes address.val).drop 12).length ≤ 20 := by simp
    rw [slice?, if_pos (by simp), List.take_of_length_le long]
  rw [addressOfTopic, range_eq_ok slice, Outcome.ok_bind, ethAddressFromSlice_word]

/-- A string in the middle of the data. -/
theorem stringAt_eq_ok {data first text last : Bytes} {index : Nat} (reason : EventError)
    (parts : data = first ++ (wordBytes text.length ++ (text ++ last)))
    (begins : index = first.length) (small : text.length < 2 ^ 256) (result : Bytes × Nat) :
    stringAt reason data index = .ok result ↔
      result = (text, index + 32 + text.length) ∧ ReadableText text := by
  have contents : slice? data (index + 32) (index + 32 + text.length) = some text := by
    have around : data = (first ++ wordBytes text.length) ++ (text ++ last) := by
      rw [parts, List.append_assoc]
    exact slice?_append around (by simp [begins]) rfl
  rw [stringAt, uint256At_word parts begins small, Outcome.ok_bind, ReadableText]
  by_cases long : text.length > u32Max
  · rw [atMost, if_pos long]
    unfold u32Max at long
    simp only [Outcome.error_bind, reduceCtorEq, false_iff, not_and]
    omega
  · rw [atMost, if_neg long, Outcome.ok_bind, range_eq_ok contents, Outcome.ok_bind, stringFromUtf8]
    unfold u32Max at long
    by_cases utf8 : isUtf8 text = true
    · rw [if_pos utf8, Outcome.ok_bind, Outcome.pure_eq, Outcome.ok.injEq, eq_comm]
      exact ⟨fun same => ⟨same, by omega, utf8⟩, fun both => both.1⟩
    · rw [if_neg utf8]
      simp only [Outcome.error_bind, reduceCtorEq, false_iff, not_and]
      exact fun _ _ => utf8

/-- The padding after a text. -/
def padding (text : Bytes) : Bytes := List.replicate (paddedLength text.length - text.length) 0

theorem rightPad_paddedLength (text : Bytes) :
    rightPad (paddedLength text.length) text = text ++ padding text := by
  rw [rightPad, List.take_of_length_le (le_paddedLength _), padding]

theorem length_padding (text : Bytes) :
    text.length + (padding text).length = paddedLength text.length := by
  have fits := le_paddedLength text.length
  rw [padding, List.length_replicate]
  omega

/-- The word after a text that starts at a word. -/
theorem nextWord_of_text {start : Nat} (text : Bytes) (aligned : start % 32 = 0) :
    nextWord (start + text.length) = start + paddedLength text.length := by
  unfold nextWord paddedLength
  omega

end Parts

/-! ### Executed batches and deposits -/

/-- The event of a log, where it reports an executed batch. -/
def batchOf? : GravityEvent × Nat → Option TransactionBatchExecutedEvent
  | (.transactionBatchExecuted batchNonce token eventNonce, block) =>
      some ⟨batchNonce, block, token, eventNonce⟩
  | _ => none

theorem batch_parse_iff (evm : Evm) {batchNonce eventNonce block : Nat} {token : EthAddress}
    {result : TransactionBatchExecutedEvent} (batchSmall : batchNonce < 2 ^ 256)
    (eventSmall : eventNonce < 2 ^ 256) :
    TransactionBatchExecutedEvent.fromLog
        (eventLog evm (.transactionBatchExecuted batchNonce token eventNonce) block) = .ok result ↔
      result = ⟨batchNonce, block, token, eventNonce⟩ ∧
        eventNonce < 2 ^ 64 ∧ batchNonce < 2 ^ 64 ∧ block < 2 ^ 64 := by
  have data : GravityEvent.data (.transactionBatchExecuted batchNonce token eventNonce) =
      wordBytes eventNonce := by
    simp [GravityEvent.data, abiEncode, abiHeads, AbiValue.head, AbiValue.tail]
  have parsed : TransactionBatchExecutedEvent.fromLog
      (eventLog evm (.transactionBatchExecuted batchNonce token eventNonce) block) =
      if eventNonce > u64Max ∨ batchNonce > u64Max ∨ block > u64Max then
        .error .eventNonceOverflow
      else .ok ⟨batchNonce, block, token, eventNonce⟩ := by
    show (addressOfTopic (wordBytes token.val) >>= _) = _
    rw [addressOfTopic_word, Outcome.ok_bind, eventLog, Log.height, Outcome.ok_bind, data,
      beValue_wordBytes eventSmall, beValue_wordBytes batchSmall]
    rfl
  rw [parsed]
  unfold u64Max
  split_ifs with above
  · simp only [false_iff, not_and]
    omega
  · rw [Outcome.ok.injEq, eq_comm]
    exact ⟨fun same => ⟨same, by omega⟩, fun both => both.1⟩

theorem batch_fromLog_iff (evm : Evm) {log : GravityEvent × Nat}
    {event result : TransactionBatchExecutedEvent} (inRange : log.1.InRange)
    (kind : batchOf? log = some event) :
    TransactionBatchExecutedEvent.fromLog (eventLog evm log.1 log.2) = .ok result ↔
      result = event ∧ Parses log := by
  obtain ⟨event, block⟩ := log
  cases event with
  | transactionBatchExecuted batchNonce token eventNonce =>
      cases kind
      exact batch_parse_iff evm inRange.2.1 inRange.2.2
  | _ => cases kind

/-- The event of a log, where it reports a deposit. -/
def depositOf? (crates : OracleCrates) : GravityEvent × Nat → Option SendToCosmosEvent
  | (.sendToCosmos tokenContract sender destination amount eventNonce, block) =>
      some ⟨tokenContract, sender, (crates.cosmosFromBytes (destination.drop 12)).getD [], amount,
        eventNonce, block⟩
  | _ => none

theorem deposit_fromLog_iff (evm : Evm) {crates : OracleCrates} {log : GravityEvent × Nat}
    {event result : SendToCosmosEvent}
    (accounts : ∀ bytes : Bytes, bytes.length = 20 → (crates.cosmosFromBytes bytes).isSome)
    (inRange : log.1.InRange) (kind : depositOf? crates log = some event) :
    SendToCosmosEvent.fromLog crates (eventLog evm log.1 log.2) = .ok result ↔
      result = event ∧ Parses log := by
  obtain ⟨event, block⟩ := log
  cases event with
  | sendToCosmos tokenContract sender destination amount eventNonce =>
      cases kind
      obtain ⟨length, amountSmall, eventSmall⟩ := inRange
      have data : GravityEvent.data (.sendToCosmos tokenContract sender destination amount eventNonce) =
          wordBytes amount ++ (wordBytes eventNonce ++ []) := by
        simp [GravityEvent.data, abiEncode, abiHeads, AbiValue.head, AbiValue.tail]
      obtain ⟨account, known⟩ := Option.isSome_iff_exists.mp
        (accounts (destination.drop 12) (by rw [List.length_drop, length]))
      have account20 : slice? destination 12 32 = some (destination.drop 12) := by
        rw [slice?, if_pos (by omega), List.take_of_length_le (by rw [List.length_drop, length])]
      have first : slice? (wordBytes amount ++ (wordBytes eventNonce ++ [])) 0 32 =
          some (wordBytes amount) := slice?_append (List.nil_append _).symm rfl (by simp)
      have second : slice? (wordBytes amount ++ (wordBytes eventNonce ++ [])) 32
          (wordBytes amount ++ (wordBytes eventNonce ++ [])).length = some (wordBytes eventNonce) :=
        slice?_append rfl (by simp) (by simp)
      have parsed : SendToCosmosEvent.fromLog crates
          (eventLog evm (.sendToCosmos tokenContract sender destination amount eventNonce) block) =
          if eventNonce > u64Max ∨ block > u64Max then .error .eventNonceOverflow
          else .ok ⟨tokenContract, sender, account, amount, eventNonce, block⟩ := by
        show (addressOfTopic (wordBytes tokenContract.val) >>= _) = _
        rw [addressOfTopic_word, Outcome.ok_bind, addressOfTopic_word, Outcome.ok_bind,
          range_eq_ok account20, Outcome.ok_bind, cosmosAddressOf, known, Outcome.ok_bind, eventLog, data,
          range_eq_ok first, Outcome.ok_bind, range_eq_ok second, Outcome.ok_bind, Log.height,
          Outcome.ok_bind, beValue_wordBytes amountSmall, beValue_wordBytes eventSmall]
        rfl
      rw [parsed, Parses, known]
      unfold u64Max
      split_ifs with above
      · simp only [false_iff, not_and]
        omega
      · rw [Outcome.ok.injEq, eq_comm]
        exact ⟨fun same => ⟨same, by omega⟩, fun both => both.1⟩
  | _ => cases kind

/-! ### Deployments -/

/-- The event of a log, where it reports a deployment. -/
def deploymentOf? : GravityEvent × Nat → Option Erc20DeployedEvent
  | (.erc20Deployed cosmosDenom tokenContract name symbol decimals eventNonce, block) =>
      some ⟨cosmosDenom, tokenContract, name, symbol, decimals, eventNonce, block⟩
  | _ => none

/-- The data of a deployment, part by part. -/
theorem data_erc20Deployed (cosmosDenom : Bytes) (tokenContract : EthAddress) (name symbol : Bytes)
    (decimals eventNonce : Nat) : ∃ offsets : Bytes, offsets.length = 3 * 32 ∧
    GravityEvent.data (.erc20Deployed cosmosDenom tokenContract name symbol decimals eventNonce) =
      offsets ++ (wordBytes decimals ++ (wordBytes eventNonce ++
        (wordBytes cosmosDenom.length ++ (cosmosDenom ++ (padding cosmosDenom ++
          (wordBytes name.length ++ (name ++ (padding name ++
            (wordBytes symbol.length ++ (symbol ++ padding symbol)))))))))) := by
  refine ⟨abiHeads 160 [.bytes cosmosDenom, .bytes name, .bytes symbol], length_abiHeads _ _, ?_⟩
  simp only [GravityEvent.data, abiEncode, abiHeads, AbiValue.head, AbiValue.tail, List.flatMap_cons,
    List.flatMap_nil, rightPad_paddedLength, List.append_assoc, List.append_nil]
  rfl

/-- The parser on the data of a deployment. -/
theorem deployed_parse_iff {topic data offsets cosmosDenom name symbol : Bytes}
    {tokenContract : EthAddress} {decimals eventNonce block : Nat} {result : Erc20DeployedEvent}
    (length : offsets.length = 3 * 32)
    (parts : data = offsets ++ (wordBytes decimals ++ (wordBytes eventNonce ++
      (wordBytes cosmosDenom.length ++ (cosmosDenom ++ (padding cosmosDenom ++
        (wordBytes name.length ++ (name ++ (padding name ++
          (wordBytes symbol.length ++ (symbol ++ padding symbol)))))))))))
    (inRange : (GravityEvent.erc20Deployed cosmosDenom tokenContract name symbol decimals
      eventNonce).InRange) :
    Erc20DeployedEvent.fromLog ⟨[topic, wordBytes tokenContract.val], data, some block⟩ =
        .ok result ↔
      result = ⟨cosmosDenom, tokenContract, name, symbol, decimals, eventNonce, block⟩ ∧
        eventNonce < 2 ^ 64 ∧ ReadableText cosmosDenom ∧ ReadableText name ∧ ReadableText symbol := by
  obtain ⟨⟨denomSmall, nameSmall, symbolSmall⟩, decimalsSmall, eventSmall⟩ := inRange
  have denomPadding := length_padding cosmosDenom
  have namePadding := length_padding name
  -- the words before the strings
  have decimalsRead : uint256At data (3 * 32) = .ok decimals :=
    uint256At_word parts length.symm (by omega)
  have afterDecimals := parts.trans (List.append_assoc _ _ _).symm
  have nonceRead : uint256At data (4 * 32) = .ok eventNonce :=
    uint256At_word afterDecimals (by simp [length]) eventSmall
  -- the strings, each of which starts where the padding of the one before ends
  have afterNonce := afterDecimals.trans (List.append_assoc _ _ _).symm
  have denomRead := stringAt_eq_ok .denomLength
    afterNonce (show 5 * 32 = _ by simp [length]) denomSmall
  have afterDenom := ((afterNonce.trans (List.append_assoc _ _ _).symm).trans
    (List.append_assoc _ _ _).symm).trans (List.append_assoc _ _ _).symm
  have nameRead := stringAt_eq_ok .nameLength
    afterDenom (show nextWord (5 * 32 + 32 + cosmosDenom.length) = _ by
      rw [nextWord_of_text cosmosDenom (by decide)]
      simp [length]
      omega) nameSmall
  have afterName := ((afterDenom.trans (List.append_assoc _ _ _).symm).trans
    (List.append_assoc _ _ _).symm).trans (List.append_assoc _ _ _).symm
  have symbolRead := stringAt_eq_ok .symbolLength
    afterName (show nextWord (nextWord (5 * 32 + 32 + cosmosDenom.length) + 32 + name.length) = _ by
      rw [nextWord_of_text cosmosDenom (by decide),
        nextWord_of_text name (by unfold paddedLength; omega)]
      simp [length]
      omega) symbolSmall
  show (addressOfTopic (wordBytes tokenContract.val) >>= _) = _ ↔ _
  rw [addressOfTopic_word, Outcome.ok_bind, decimalsRead, Outcome.ok_bind,
    atMost_eq_ok.mpr ⟨rfl, show decimals ≤ 255 by omega⟩, Outcome.ok_bind, nonceRead,
    Outcome.ok_bind]
  constructor
  · intro parsed
    obtain ⟨nonce, nonceIs, strings⟩ := Outcome.bind_eq_ok.mp parsed
    obtain ⟨sameNonce, nonceFits⟩ := atMost_eq_ok.mp nonceIs
    obtain ⟨denom, denomIs, later⟩ := Outcome.bind_eq_ok.mp strings
    obtain ⟨rfl, denomReads⟩ := (denomRead _).mp denomIs
    obtain ⟨name, nameIs, last⟩ := Outcome.bind_eq_ok.mp later
    obtain ⟨rfl, nameReads⟩ := (nameRead _).mp nameIs
    obtain ⟨symbol, symbolIs, made⟩ := Outcome.bind_eq_ok.mp last
    obtain ⟨rfl, symbolReads⟩ := (symbolRead _).mp symbolIs
    unfold u64Max at nonceFits
    subst sameNonce
    exact ⟨(Outcome.ok.inj made).symm, by omega, denomReads, nameReads, symbolReads⟩
  · rintro ⟨rfl, nonceFits, denomReads, nameReads, symbolReads⟩
    have fits : eventNonce ≤ u64Max := by
      unfold u64Max
      omega
    rw [atMost_eq_ok.mpr ⟨rfl, fits⟩, Outcome.ok_bind, (denomRead _).mpr ⟨rfl, denomReads⟩]
    show (stringAt .nameLength data (nextWord (5 * 32 + 32 + cosmosDenom.length)) >>= _) = _
    rw [(nameRead _).mpr ⟨rfl, nameReads⟩, Outcome.ok_bind]
    exact Outcome.bind_eq_ok.mpr ⟨_, (symbolRead _).mpr ⟨rfl, symbolReads⟩, rfl⟩

theorem deployed_fromLog_iff (evm : Evm) {log : GravityEvent × Nat}
    {event result : Erc20DeployedEvent} (inRange : log.1.InRange)
    (kind : deploymentOf? log = some event) :
    Erc20DeployedEvent.fromLog (eventLog evm log.1 log.2) = .ok result ↔
      result = event ∧ Parses log := by
  obtain ⟨event, block⟩ := log
  cases event with
  | erc20Deployed cosmosDenom tokenContract name symbol decimals eventNonce =>
      cases kind
      obtain ⟨offsets, length, data⟩ :=
        data_erc20Deployed cosmosDenom tokenContract name symbol decimals eventNonce
      exact deployed_parse_iff length data inRange
  | _ => cases kind

/-! ### Validator sets -/

/-- The members of a set. -/
def valsetMembers (validators : List EthAddress) (powers : List Nat) : List ValsetMember :=
  List.zipWith (fun validator power => ⟨power, some validator⟩) validators powers

/-- The event of a log, where it reports a validator set; no reward token is the zero address. -/
def valsetOf? : GravityEvent × Nat → Option ValsetUpdatedEvent
  | (.valsetUpdated newValsetNonce eventNonce rewardAmount rewardToken validators powers, block) =>
      some ⟨newValsetNonce, eventNonce, block, rewardAmount,
        if rewardToken = 0 then none else some rewardToken,
        valsetMembers validators powers⟩
  | _ => none

/-- The data of a validator set, part by part. -/
theorem data_valsetUpdated (newValsetNonce eventNonce rewardAmount : Nat) (rewardToken : EthAddress)
    (validators : List EthAddress) (powers : List Nat) : ∃ offsets : Bytes, offsets.length = 2 * 32 ∧
    GravityEvent.data (.valsetUpdated newValsetNonce eventNonce rewardAmount rewardToken validators
      powers) =
      wordBytes eventNonce ++ (wordBytes rewardAmount ++ (wordBytes rewardToken.val ++ (offsets ++
        (wordBytes validators.length ++ ((validators.map Fin.val).flatMap wordBytes ++
          (wordBytes powers.length ++ (powers.flatMap wordBytes ++ []))))))) := by
  refine ⟨abiHeads 160 [.words (validators.map Fin.val), .words powers], length_abiHeads _ _, ?_⟩
  simp only [GravityEvent.data, abiEncode, abiHeads, AbiValue.head, AbiValue.tail, List.flatMap_cons,
    List.flatMap_nil, List.append_assoc, List.append_nil, List.nil_append, List.length_map]
  rfl

theorem map_range_valsetMembers {validators : List EthAddress} {powers : List Nat}
    (lengths : validators.length = powers.length) :
    (List.range validators.length).map (fun i =>
      (⟨powers[i]?.getD 0, some (validators[i]?.getD 0)⟩ : ValsetMember)) =
      valsetMembers validators powers := by
  refine List.ext_getElem (by simp [valsetMembers, lengths]) fun i inside inside' => ?_
  have here : i < validators.length := by simpa using inside
  simp [valsetMembers, List.getElem?_eq_getElem here,
    List.getElem?_eq_getElem (lt_of_lt_of_eq here lengths)]

/-- The parser on the data of a validator set. -/
theorem valset_decode_iff {data offsets : Bytes} {eventNonce rewardAmount : Nat}
    {rewardToken : EthAddress} {validators : List EthAddress} {powers : List Nat}
    (length : offsets.length = 2 * 32)
    (parts : data = wordBytes eventNonce ++ (wordBytes rewardAmount ++ (wordBytes rewardToken.val ++
      (offsets ++ (wordBytes validators.length ++ ((validators.map Fin.val).flatMap wordBytes ++
        (wordBytes powers.length ++ (powers.flatMap wordBytes ++ []))))))))
    (eventSmall : eventNonce < 2 ^ 256) (rewardSmall : rewardAmount < 2 ^ 256)
    (lengths : validators.length = powers.length) (lengthSmall : validators.length < 2 ^ 256)
    (powersSmall : ∀ power ∈ powers, power < 2 ^ 256) (result : ValsetDataBytes) :
    ValsetDataBytes.decode data = .ok result ↔
      result = ⟨eventNonce, rewardAmount, if rewardToken = 0 then none else some rewardToken,
        valsetMembers validators powers⟩ ∧
      eventNonce < 2 ^ 64 ∧ validators.length < 2 ^ 64 ∧ ∀ power ∈ powers, power < 2 ^ 64 := by
  have addressesLength : ((validators.map Fin.val).flatMap wordBytes).length =
      validators.length * 32 := by
    rw [List.length_flatMap]
    simp [Function.comp_def]
  -- the words before the arrays
  have nonceRead : uint256At data 0 = .ok eventNonce :=
    uint256At_word (parts.trans (List.nil_append _).symm) rfl eventSmall
  have amountRead : uint256At data 32 = .ok rewardAmount :=
    uint256At_word parts (by simp) rewardSmall
  have afterAmount := parts.trans (List.append_assoc _ _ _).symm
  have tokenRead : range data (2 * 32) (2 * 32 + 32) = .ok (wordBytes rewardToken.val) :=
    range_eq_ok (slice?_append afterAmount (by simp) (by simp))
  -- the addresses
  have afterOffsets := (afterAmount.trans (List.append_assoc _ _ _).symm).trans
    (List.append_assoc _ _ _).symm
  have lengthRead : uint256At data (5 * 32) = .ok validators.length :=
    uint256At_word afterOffsets (by simp [length]) lengthSmall
  have addresses := afterOffsets.trans (List.append_assoc _ _ _).symm
  -- the powers
  have afterAddresses := addresses.trans (List.append_assoc _ _ _).symm
  have powersLengthRead : uint256At data ((6 + validators.length) * 32) = .ok powers.length := by
    refine uint256At_word afterAddresses ?_ (lengths ▸ lengthSmall)
    simp only [List.length_append, length_wordBytes, length, addressesLength]
    omega
  have afterLength := afterAddresses.trans (List.append_assoc _ _ _).symm
  have memberRead : ∀ i ∈ List.range validators.length, ∀ member,
      decodeMember data ((6 + validators.length) * 32 + 32) (5 * 32 + 32) i = .ok member ↔
        member = ⟨powers[i]?.getD 0, some (validators[i]?.getD 0)⟩ ∧
          powers[i]?.getD 0 ≤ u64Max := by
    intro i inRange member
    have here : i < validators.length := List.mem_range.mp inRange
    have here' : i < powers.length := lt_of_lt_of_eq here lengths
    have powerSlice := slice?_words afterLength
      (show (6 + validators.length) * 32 + 32 = _ by
        simp only [List.length_append, length_wordBytes, length, addressesLength]
        omega) here'
    have wordSlice := slice?_words addresses (show 5 * 32 + 32 = _ by simp [length])
      (lt_of_lt_of_eq here (List.length_map _).symm)
    rw [List.getElem_map] at wordSlice
    have addressSlice := slice?_drop wordSlice 12 (by omega)
    rw [decodeMember, uint256At, range_eq_ok powerSlice, Outcome.ok_bind,
      beValue_wordBytes (powersSmall _ (List.getElem_mem here')), List.getElem?_eq_getElem here,
      List.getElem?_eq_getElem here', Option.getD_some, Option.getD_some, Outcome.pure_eq,
      Outcome.ok_bind, range_eq_ok addressSlice, Outcome.ok_bind, ethAddressFromSlice_word,
      Outcome.ok_bind, Outcome.bind_eq_ok]
    constructor
    · rintro ⟨power, powerIs, made⟩
      obtain ⟨rfl, fits⟩ := atMost_eq_ok.mp powerIs
      exact ⟨(Outcome.ok.inj made).symm, fits⟩
    · rintro ⟨rfl, fits⟩
      exact ⟨_, atMost_eq_ok.mpr ⟨rfl, fits⟩, rfl⟩
  have mapped := Outcome.mapM_eq_ok_iff memberRead
  rw [map_range_valsetMembers lengths] at mapped
  have small : (∀ i ∈ List.range validators.length, powers[i]?.getD 0 ≤ u64Max) ↔
      ∀ power ∈ powers, power < 2 ^ 64 := by
    unfold u64Max
    constructor
    · intro each power member
      obtain ⟨i, here, rfl⟩ := List.getElem_of_mem member
      have fits := each i (List.mem_range.mpr (lt_of_lt_of_eq here lengths.symm))
      rw [List.getElem?_eq_getElem here, Option.getD_some] at fits
      omega
    · intro each i inRange
      have here : i < powers.length := lt_of_lt_of_eq (List.mem_range.mp inRange) lengths
      have fits := each _ (List.getElem_mem here)
      rw [List.getElem?_eq_getElem here, Option.getD_some]
      omega
  rw [ValsetDataBytes.decode, nonceRead, Outcome.ok_bind, atMost_bind_eq_ok, amountRead,
    Outcome.ok_bind, tokenRead, Outcome.ok_bind, ethAddressFromSlice_word, Outcome.ok_bind, lengthRead,
    Outcome.ok_bind, atMost_bind_eq_ok, powersLengthRead, Outcome.ok_bind, atMost_bind_eq_ok,
    if_neg (fun differ => differ rfl), Outcome.bind_eq_ok, ← lengths]
  constructor
  · rintro ⟨nonceFits, countFits, _, members, membersAre, made⟩
    obtain ⟨rfl, powersFit⟩ := (mapped members).mp membersAre
    unfold u64Max at nonceFits countFits
    exact ⟨(Outcome.ok.inj made).symm, by omega, by omega, small.mp powersFit⟩
  · rintro ⟨rfl, nonceFits, countFits, powersFit⟩
    have fits : eventNonce ≤ u64Max ∧ validators.length ≤ u64Max := by
      unfold u64Max
      omega
    exact ⟨fits.1, fits.2, fits.2, _, (mapped _).mpr ⟨rfl, small.mpr powersFit⟩, rfl⟩

theorem valset_parse_iff {topic data : Bytes} {valsetNonce block : Nat} {result : ValsetUpdatedEvent}
    (small : valsetNonce < 2 ^ 256) :
    ValsetUpdatedEvent.fromLog ⟨[topic, wordBytes valsetNonce], data, some block⟩ = .ok result ↔
      valsetNonce < 2 ^ 64 ∧ ∃ decoded, ValsetDataBytes.decode data = .ok decoded ∧
        result = ⟨valsetNonce, decoded.eventNonce, block, decoded.rewardAmount, decoded.rewardToken,
          decoded.members⟩ := by
  show (atMost u64Max .nonceOverflow (beValue (wordBytes valsetNonce)) >>= _) = _ ↔ _
  rw [beValue_wordBytes small, atMost_bind_eq_ok]
  show _ ∧ (ValsetDataBytes.decode data >>= _) = _ ↔ _
  rw [Outcome.bind_eq_ok]
  unfold u64Max
  constructor
  · rintro ⟨fits, decoded, decodedIs, made⟩
    exact ⟨by omega, decoded, decodedIs, (Outcome.ok.inj made).symm⟩
  · rintro ⟨fits, decoded, decodedIs, rfl⟩
    exact ⟨by omega, decoded, decodedIs, rfl⟩

theorem valset_fromLog_iff (evm : Evm) {log : GravityEvent × Nat}
    {event result : ValsetUpdatedEvent} (inRange : log.1.InRange)
    (kind : valsetOf? log = some event) :
    ValsetUpdatedEvent.fromLog (eventLog evm log.1 log.2) = .ok result ↔
      result = event ∧ Parses log := by
  obtain ⟨event, block⟩ := log
  cases event with
  | valsetUpdated newValsetNonce eventNonce rewardAmount rewardToken validators powers =>
      cases kind
      obtain ⟨nonceSmall, eventSmall, rewardSmall, lengths, lengthSmall, powersSmall⟩ := inRange
      obtain ⟨offsets, length, data⟩ := data_valsetUpdated newValsetNonce eventNonce rewardAmount
        rewardToken validators powers
      have decoded := valset_decode_iff length data eventSmall
        rewardSmall lengths lengthSmall powersSmall
      refine (valset_parse_iff nonceSmall).trans ⟨?_, ?_⟩
      · rintro ⟨nonceFits, parts, partsAre, rfl⟩
        obtain ⟨rfl, eventFits, countFits, powersFit⟩ := (decoded parts).mp partsAre
        exact ⟨rfl, nonceFits, eventFits, countFits, powersFit⟩
      · rintro ⟨rfl, nonceFits, eventFits, countFits, powersFit⟩
        exact ⟨nonceFits, _, (decoded _).mpr ⟨rfl, eventFits, countFits, powersFit⟩, rfl⟩
  | _ => cases kind

/-! ### Logic calls -/

/-- The event of a log, where it reports a logic call. -/
def logicCallOf? : GravityEvent × Nat → Option LogicCallExecutedEvent
  | (.logicCall invalidationId invalidationNonce returnData eventNonce, block) =>
      some ⟨invalidationId, invalidationNonce, returnData, eventNonce, block⟩
  | _ => none

theorem logicCall_fromLog_iff (evm : Evm) {log : GravityEvent × Nat}
    {event result : LogicCallExecutedEvent} (kind : logicCallOf? log = some event) :
    LogicCallExecutedEvent.fromLog (eventLog evm log.1 log.2) = .ok result ↔
      result = event ∧ Parses log := by
  obtain ⟨event, block⟩ := log
  cases event with
  | logicCall =>
      rw [LogicCallExecutedEvent.fromLog, Parses]
      simp
  | _ => cases kind

end NabBridge
