/-
**Three encoders.**

The bytes validators sign are built three times: by the module in Go, which hashes what its ABI packer
returns; by the orchestrator in Rust, from the protobuf message; and by the contract. On records with
small numbers and readable fields the three agree wherever the orchestrator comes to an encoding at all
(`confirmBytes_eq`). It does not for a logic call without transfers or without fees, and for a batch
whose fees do not add up within 256 bits.

* `tryFrom_batch_eq`: the conversion of a batch, with its running total;
* `encoders_agree_iff`: exactly where the three byte strings are one.
-/

import NabBridge.Orchestrator.Types
import NabBridge.Proof.Digests

namespace NabBridge

namespace Orchestrator

/-- The token as an argument of the ABI. -/
def Token.abi : Token → AbiValue
  | uint value => .word value
  | address value => .word value.val
  | fixedString text => .bytes32 text
  | bytes data => .bytes32 data
  | unboundedBytes data => .bytes data
  | uints values => .words values
  | addresses values => .words (values.map Fin.val)

/-- A fixed string fits a word. -/
def Token.Fits : Token → Prop
  | fixedString text => text.length ≤ 32
  | bytes data => data.length ≤ 32
  | _ => True

/-- What is assumed of the crates: an address in the module's spelling and a decimal number of 256 bits
are read, a sum that does not fit panics, and tokens are encoded by the ABI. -/
structure Crates.Lawful (crates : Crates) : Prop where
  ethAddress : ∀ text, validateEthAddress text = .ok () →
    crates.ethAddress text = some (hexToAddress text)
  uint256 : ∀ value, value < 2 ^ 256 → crates.uint256 (decimal value) = some value
  add : ∀ first second, crates.add first second =
    if first + second < 2 ^ 256 then some (first + second) else none
  encodeTokens : ∀ tokens, (∀ token ∈ tokens, token.Fits) →
    crates.encodeTokens tokens = abiEncode (tokens.map Token.abi)

/-- The bytes the orchestrator signs for a record of the module. -/
def confirmBytes (crates : Crates) (gravityId : Bytes) : EthereumSigned → Result Bytes
  | .valset value => do
      let valset ← Valset.ofProto crates value
      pure (encodeValsetConfirm crates gravityId valset)
  | .batch value => do
      let batch ← TransactionBatch.tryFrom crates value
      pure (encodeTxBatchConfirm crates gravityId batch)
  | .logicCall value => do
      let call ← LogicCall.tryFrom crates value
      pure (encodeLogicCallConfirm crates gravityId call)

end Orchestrator

/-! ### The records -/

/-- An amount below `2 ^ 255` of a token with a valid address. -/
def ERC20Token.Readable (token : ERC20Token) : Prop :=
  0 ≤ token.amount ∧ token.amount < 2 ^ 255 ∧ validateEthAddress token.contract = .ok ()

instance (token : ERC20Token) : Decidable token.Readable := by
  unfold ERC20Token.Readable; infer_instance

/-- A transfer with a readable sender, destination, token and fee. -/
def OutgoingTransferTx.Readable (crates : Orchestrator.Crates) (tx : OutgoingTransferTx) : Prop :=
  (crates.cosmosAddress tx.sender).isSome ∧ validateEthAddress tx.destAddress = .ok () ∧
    tx.erc20Token.Readable ∧ tx.erc20Fee.Readable

/-- The records of the comparison: addresses are valid, amounts are below `2 ^ 255`, a batch has
transfers, with fees of its token, and an invalidation id fits a word. -/
def EthereumSigned.Readable (crates : Orchestrator.Crates) : EthereumSigned → Prop
  | .valset value =>
      (∀ member ∈ value.members, validateEthAddress member.ethereumAddress = .ok ()) ∧
        validateEthAddress value.rewardToken = .ok () ∧
        ∃ amount, value.rewardAmount = some amount ∧ 0 ≤ amount ∧ amount < 2 ^ 255
  | .batch value =>
      value.transactions ≠ [] ∧ ∀ tx ∈ value.transactions, tx.Readable crates ∧
        hexToAddress tx.erc20Fee.contract = hexToAddress value.tokenContract
  | .logicCall value =>
      (∀ token ∈ value.transfers, token.Readable) ∧ (∀ token ∈ value.fees, token.Readable) ∧
        validateEthAddress value.logicContractAddress = .ok () ∧ value.invalidationId.length ≤ 32

/-- Where the orchestrator's conversion comes to an end: a logic call has transfers and fees, and the
fees of a batch add up within 256 bits. -/
def EthereumSigned.Converts : EthereumSigned → Prop
  | .valset _ => True
  | .batch value => (value.transactions.map fun tx => tx.erc20Fee.amount).sum < 2 ^ 256
  | .logicCall value => value.transfers ≠ [] ∧ value.fees ≠ []

instance (record : EthereumSigned) : Decidable record.Converts := by
  rcases record <;> unfold EthereumSigned.Converts <;> infer_instance

namespace Orchestrator

/-! ### Reading fields -/

/-- What a token is read as. -/
def readToken (token : ERC20Token) : Erc20Token :=
  ⟨uint256OfInt token.amount, hexToAddress token.contract⟩

/-- What a transfer is read as. -/
def readTransaction (crates : Crates) (tx : OutgoingTransferTx) : BatchTransaction where
  id := tx.id
  sender := (crates.cosmosAddress tx.sender).getD []
  destination := hexToAddress tx.destAddress
  erc20Token := readToken tx.erc20Token
  erc20Fee := readToken tx.erc20Fee

/-- The sum of the fees. -/
def feeSum (txs : List OutgoingTransferTx) : Nat :=
  (txs.map fun tx => uint256OfInt tx.erc20Fee.amount).sum

theorem feeSum_eq {txs : List OutgoingTransferTx} (readable : ∀ tx ∈ txs, tx.erc20Fee.Readable) :
    (feeSum txs : Int) = (txs.map fun tx => tx.erc20Fee.amount).sum := by
  induction txs with
  | nil => rfl
  | cons tx rest ih =>
      obtain ⟨nonnegative, small, _⟩ := readable tx List.mem_cons_self
      rw [List.map_cons, List.sum_cons, ← ih fun other member =>
        readable other (List.mem_cons_of_mem _ member)]
      rw [show feeSum (tx :: rest) = uint256OfInt tx.erc20Fee.amount + feeSum rest from rfl,
        Nat.cast_add, uint256OfInt_cast nonnegative (small.trans (by decide))]

section Reading

variable {crates : Crates} (lawful : crates.Lawful)

include lawful

theorem parseEthAddress_eq {text : Bytes} (valid : validateEthAddress text = .ok ()) :
    parseEthAddress crates text = .ok (hexToAddress text) := by
  unfold parseEthAddress
  rw [lawful.ethAddress text valid]

theorem parseUint256_eq {amount : Int} (nonnegative : 0 ≤ amount) (small : amount < 2 ^ 256) :
    parseUint256 crates (decimalInt amount) = .ok (uint256OfInt amount) := by
  obtain ⟨value, rfl⟩ := Int.eq_ofNat_of_zero_le nonnegative
  have fits : value < 2 ^ 256 := by exact_mod_cast small
  unfold parseUint256
  rw [show decimalInt (value : Int) = decimal value from rfl, lawful.uint256 value fits,
    uint256OfInt_of_lt fits]

theorem tryFrom_token_eq {token : ERC20Token} (readable : token.Readable) :
    Erc20Token.tryFrom crates token = .ok (readToken token) := by
  obtain ⟨nonnegative, small, valid⟩ := readable
  unfold Erc20Token.tryFrom
  rw [parseUint256_eq lawful nonnegative (small.trans (by decide)), parseEthAddress_eq lawful valid]
  rfl

theorem tryFrom_transaction_eq {tx : OutgoingTransferTx} (readable : tx.Readable crates) :
    BatchTransaction.tryFrom crates tx = .ok (readTransaction crates tx) := by
  obtain ⟨sender, destination, token, fee⟩ := readable
  obtain ⟨account, parsed⟩ := Option.isSome_iff_exists.mp sender
  unfold BatchTransaction.tryFrom parseCosmosAddress readTransaction
  rw [parsed, parseEthAddress_eq lawful destination, tryFrom_token_eq lawful token,
    tryFrom_token_eq lawful fee]
  rfl

/-! ### The running total -/

/-- **The loop of a batch's conversion**, from the second transfer on: it panics as soon as the running
total does not fit, and a sum that does not fit in the end does not fit somewhere on the way. -/
theorem foldlM_pushTransaction {txs : List OutgoingTransferTx}
    (readable : ∀ tx ∈ txs, tx.Readable crates) (done : List BatchTransaction) (total : Erc20Token)
    (small : total.amount < 2 ^ 256) :
    txs.foldlM (pushTransaction crates) (done, some total) =
      if total.amount + feeSum txs < 2 ^ 256 then
        .ok (done ++ txs.map (readTransaction crates),
          some ⟨total.amount + feeSum txs, total.tokenContractAddress⟩)
      else .panic .overflow := by
  induction txs generalizing done total with
  | nil =>
      rw [show feeSum [] = 0 from rfl, Nat.add_zero, if_pos small, List.map_nil, List.append_nil]
      rfl
  | cons tx rest ih =>
      have sums : feeSum (tx :: rest) = uint256OfInt tx.erc20Fee.amount + feeSum rest := rfl
      have later : ∀ other ∈ rest, other.Readable crates := fun other member =>
        readable other (List.mem_cons_of_mem _ member)
      rw [List.foldlM_cons, pushTransaction,
        tryFrom_transaction_eq lawful (readable tx List.mem_cons_self), Outcome.ok_bind, addFee]
      dsimp only
      rw [lawful.add, show (readTransaction crates tx).erc20Fee.amount =
        uint256OfInt tx.erc20Fee.amount from rfl, sums, ← Nat.add_assoc]
      by_cases fits : total.amount + uint256OfInt tx.erc20Fee.amount < 2 ^ 256
      · rw [if_pos fits]
        dsimp only [Outcome.ok_bind, Outcome.pure_eq]
        rw [ih later _ ⟨_, total.tokenContractAddress⟩ fits, List.append_assoc]
        rfl
      · rw [if_neg fits, if_neg (by omega)]
        rfl

/-- **The conversion of a batch.** The token is the one of the first fee. -/
theorem tryFrom_batch_eq {batch : OutgoingTxBatch} {first : OutgoingTransferTx}
    {rest : List OutgoingTransferTx} (transactions : batch.transactions = first :: rest)
    (readable : ∀ tx ∈ batch.transactions, tx.Readable crates) :
    TransactionBatch.tryFrom crates batch =
      if feeSum batch.transactions < 2 ^ 256 then
        .ok ⟨batch.batchNonce, batch.batchTimeout, batch.transactions.map (readTransaction crates),
          ⟨feeSum batch.transactions, hexToAddress first.erc20Fee.contract⟩,
          hexToAddress first.erc20Fee.contract⟩
      else .panic .overflow := by
  rw [transactions] at readable ⊢
  have later : ∀ other ∈ rest, other.Readable crates := fun other member =>
    readable other (List.mem_cons_of_mem _ member)
  have start : pushTransaction crates ([], none) first =
      .ok ([readTransaction crates first], some (readToken first.erc20Fee)) := by
    rw [pushTransaction, tryFrom_transaction_eq lawful (readable first List.mem_cons_self)]
    rfl
  have sums : feeSum (first :: rest) = (readToken first.erc20Fee).amount + feeSum rest := rfl
  unfold TransactionBatch.tryFrom
  rw [transactions, List.foldlM_cons, start, Outcome.ok_bind,
    foldlM_pushTransaction lawful later _ _ (uint256OfInt_lt _), sums]
  by_cases fits : (readToken first.erc20Fee).amount + feeSum rest < 2 ^ 256
  · rw [if_pos fits, if_pos fits]
    rfl
  · rw [if_neg fits, if_neg fits]
    rfl

/-! ### The other conversions -/

theorem tryFrom_logicCall_eq {call : OutgoingLogicCall}
    (readable : (EthereumSigned.logicCall call).Readable crates) :
    LogicCall.tryFrom crates call =
      if call.transfers = [] ∨ call.fees = [] then .error .noTransactions
      else .ok ⟨call.transfers.map readToken, call.fees.map readToken,
        hexToAddress call.logicContractAddress, call.payload, call.timeout, call.invalidationId,
        call.invalidationNonce⟩ := by
  obtain ⟨transfers, fees, logic, _⟩ := readable
  have readTransfers : call.transfers.mapM (Erc20Token.tryFrom crates) =
      .ok (call.transfers.map readToken) :=
    Outcome.mapM_eq_ok fun token member => tryFrom_token_eq lawful (transfers token member)
  have readFees : call.fees.mapM (Erc20Token.tryFrom crates) = .ok (call.fees.map readToken) :=
    Outcome.mapM_eq_ok fun token member => tryFrom_token_eq lawful (fees token member)
  unfold LogicCall.tryFrom
  rw [readTransfers, Outcome.ok_bind, readFees, Outcome.ok_bind]
  simp only [List.map_eq_nil_iff]
  split_ifs
  · rfl
  · rw [parseEthAddress_eq lawful logic]
    rfl

theorem ofProto_valset_eq {valset : NabBridge.Valset}
    (readable : (EthereumSigned.valset valset).Readable crates) : ∃ rewardToken : Option EthAddress,
      rewardToken.getD 0 = hexToAddress valset.rewardToken ∧
      Valset.ofProto crates valset =
        .ok ⟨valset.nonce, valset.members.map fun member =>
            ⟨member.power, some (hexToAddress member.ethereumAddress)⟩,
          uint256OfInt (valset.rewardAmount.getD 0), rewardToken⟩ := by
  obtain ⟨members, token, amount, reward, nonnegative, small⟩ := readable
  have readMembers : valset.members.map (ValsetMember.ofProto crates) =
      valset.members.map fun member => ⟨member.power, some (hexToAddress member.ethereumAddress)⟩ :=
    List.map_congr_left fun member inside => by
      rw [ValsetMember.ofProto, lawful.ethAddress _ (members member inside)]
  refine ⟨if hexToAddress valset.rewardToken = 0 then none else some (hexToAddress valset.rewardToken),
    ?_, ?_⟩
  · split_ifs with zero
    · exact zero.symm
    · rfl
  · unfold Valset.ofProto
    rw [parseEthAddress_eq lawful token, reward, Option.getD_some,
      parseUint256_eq lawful nonnegative (small.trans (by decide)), readMembers]
    rfl

end Reading

/-! ### What is encoded -/

section Encoding

variable {crates : Crates} (lawful : crates.Lawful)

include lawful

theorem encodeTokens_eq {tokens : List Token} {values : List AbiValue}
    (fits : ∀ token ∈ tokens, token.Fits)
    (same : (tokens.map Token.abi).map AbiValue.padded = values.map AbiValue.padded) :
    crates.encodeTokens tokens = abiEncode values := by
  rw [lawful.encodeTokens tokens fits]
  exact abiEncode_congr same

variable {gravityId : Bytes} (short : gravityId.length ≤ 32)

include short

theorem encodeValsetConfirm_eq {valset : NabBridge.Valset} {rewardToken : Option EthAddress}
    (token : rewardToken.getD 0 = hexToAddress valset.rewardToken) :
    encodeValsetConfirm crates gravityId
        ⟨valset.nonce, valset.members.map fun member =>
            ⟨member.power, some (hexToAddress member.ethereumAddress)⟩,
          uint256OfInt (valset.rewardAmount.getD 0), rewardToken⟩ =
      (EthereumSigned.valset valset).object.encoding (rightPad 32 gravityId) := by
  refine encodeTokens_eq lawful ?_ ?_
  · simp only [List.forall_mem_cons, Token.Fits]
    exact ⟨short, by decide, trivial, trivial, trivial, trivial, trivial,
      fun _ absent => absurd absent List.not_mem_nil⟩
  · simp only [Token.abi, List.map_cons, List.map_nil, List.map_map, AbiValue.padded, methodName,
      ValsetArgs.preimage, NabBridge.Valset.arguments, rightPad_rightPad, token]
    rfl

theorem encodeTxBatchConfirm_eq {batch : OutgoingTxBatch} {totalFee : Erc20Token}
    {tokenContract : EthAddress} (token : tokenContract = hexToAddress batch.tokenContract) :
    encodeTxBatchConfirm crates gravityId
        ⟨batch.batchNonce, batch.batchTimeout, batch.transactions.map (readTransaction crates),
          totalFee, tokenContract⟩ =
      (EthereumSigned.batch batch).object.encoding (rightPad 32 gravityId) := by
  refine encodeTokens_eq lawful ?_ ?_
  · simp only [List.forall_mem_cons, Token.Fits]
    exact ⟨short, by decide, trivial, trivial, trivial, trivial, trivial, trivial,
      fun _ absent => absurd absent List.not_mem_nil⟩
  · simp only [Token.abi, List.map_cons, List.map_nil, List.map_map, AbiValue.padded, methodName,
      BatchArgs.preimage, OutgoingTxBatch.arguments, rightPad_rightPad, token]
    rfl

theorem encodeLogicCallConfirm_eq {call : OutgoingLogicCall} (fits : call.invalidationId.length ≤ 32) :
    encodeLogicCallConfirm crates gravityId
        ⟨call.transfers.map readToken, call.fees.map readToken,
          hexToAddress call.logicContractAddress, call.payload, call.timeout, call.invalidationId,
          call.invalidationNonce⟩ =
      (EthereumSigned.logicCall call).object.encoding (rightPad 32 gravityId) := by
  refine encodeTokens_eq lawful ?_ ?_
  · simp only [List.forall_mem_cons, Token.Fits]
    exact ⟨short, by decide, trivial, trivial, trivial, trivial, trivial, trivial, trivial, fits,
      trivial, fun _ absent => absurd absent List.not_mem_nil⟩
  · simp only [Token.abi, List.map_cons, List.map_nil, List.map_map, AbiValue.padded, methodName,
      LogicCallArgs.preimage, OutgoingLogicCall.arguments, rightPad_rightPad]
    rfl

/-- **The orchestrator's bytes** are the contract's, where the conversion comes to an end; elsewhere there
are none. -/
theorem confirmBytes_eq_ok_iff {record : EthereumSigned} (readable : record.Readable crates)
    {bytes : Bytes} :
    confirmBytes crates gravityId record = .ok bytes ↔
      record.Converts ∧ bytes = record.object.encoding (rightPad 32 gravityId) := by
  cases record with
  | valset value =>
      obtain ⟨rewardToken, token, converted⟩ := ofProto_valset_eq lawful readable
      rw [confirmBytes, converted, Outcome.ok_bind, encodeValsetConfirm_eq lawful short token,
        Outcome.pure_eq, Outcome.ok.injEq]
      exact ⟨fun same => ⟨trivial, same.symm⟩, fun found => found.2.symm⟩
  | batch value =>
      obtain ⟨nonempty, all⟩ := readable
      obtain ⟨first, rest, transactions⟩ := List.exists_cons_of_ne_nil nonempty
      have member : first ∈ value.transactions := transactions ▸ List.mem_cons_self
      have sums := feeSum_eq fun tx inside => (all tx inside).1.2.2.2
      have fits : feeSum value.transactions < 2 ^ 256 ↔ (EthereumSigned.batch value).Converts := by
        show _ ↔ (value.transactions.map fun tx => tx.erc20Fee.amount).sum < 2 ^ 256
        rw [← sums]
        norm_cast
      rw [confirmBytes, tryFrom_batch_eq lawful transactions fun tx inside => (all tx inside).1, ← fits]
      split_ifs with small
      · rw [Outcome.ok_bind, encodeTxBatchConfirm_eq lawful short (all first member).2,
          Outcome.pure_eq, Outcome.ok.injEq]
        exact ⟨fun same => ⟨small, same.symm⟩, fun found => found.2.symm⟩
      · exact ⟨fun bad => (by cases bad), fun found => absurd found.1 small⟩
  | logicCall value =>
      rw [confirmBytes, tryFrom_logicCall_eq lawful readable]
      by_cases empty : value.transfers = [] ∨ value.fees = []
      · rw [if_pos empty]
        exact ⟨fun bad => (by cases bad), fun found => absurd found.1 fun converts =>
          empty.elim converts.1 converts.2⟩
      · rw [if_neg empty, Outcome.ok_bind,
          encodeLogicCallConfirm_eq lawful short readable.2.2.2, Outcome.pure_eq, Outcome.ok.injEq]
        exact ⟨fun same => ⟨not_or.mp empty, same.symm⟩, fun found => found.2.symm⟩

end Encoding

end Orchestrator

/-! ### The three encoders -/

/-- go-ethereum without the hash: `GetCheckpoint` then returns the bytes it hashes. -/
def Geth.unhashed (geth : Geth) : Geth := { geth with keccak256 := id }

theorem Geth.PacksAbi.unhashed {geth : Geth} (packs : geth.PacksAbi) : geth.unhashed.PacksAbi := packs

/-- **The three encoders, exactly.** For every readable record with its `uint64` fields below `2 ^ 63` and
every gravity id that fits: what Go hashes, what the orchestrator signs for the protobuf message and what
the contract hashes are one byte string exactly when the orchestrator converts the record, which it
refuses for a logic call without transfers or fees, and cannot do for a batch whose fees come to
`2 ^ 256` or more. -/
theorem encoders_agree_iff {geth : Geth} (packs : geth.PacksAbi) {crates : Orchestrator.Crates}
    (lawful : crates.Lawful) (gravityId : Bytes) (short : gravityId.length ≤ 32)
    (record : EthereumSigned) (small : ∀ counter ∈ record.counters, counter < 2 ^ 63)
    (readable : record.Readable crates) :
    (∃ bytes, record.getCheckpoint geth.unhashed gravityId = .ok bytes ∧
        record.getCheckpoint geth gravityId = .ok (geth.keccak256 bytes) ∧
        Orchestrator.confirmBytes crates gravityId record = .ok bytes ∧
        record.object.encoding (rightPad 32 gravityId) = bytes) ↔
      record.Converts := by
  have checkpointable : record.Checkpointable := by
    cases record with
    | valset value =>
        obtain ⟨_, token, amount, reward, _⟩ := readable
        exact ⟨token, by rw [reward]; rfl⟩
    | batch value => trivial
    | logicCall value => trivial
  have same : record.packed = record.object :=
    EthereumSigned.arguments_congr fun counter member => packedWord_of_lt (small counter member)
  have hashed : record.getCheckpoint geth gravityId =
      .ok (geth.keccak256 (record.object.encoding (rightPad 32 gravityId))) :=
    (EthereumSigned.getCheckpoint_eq_ok_iff packs).mpr ⟨short, checkpointable, by rw [same]⟩
  have unhashed : record.getCheckpoint geth.unhashed gravityId =
      .ok (record.object.encoding (rightPad 32 gravityId)) :=
    (EthereumSigned.getCheckpoint_eq_ok_iff packs.unhashed).mpr
      ⟨short, checkpointable, by rw [same]; rfl⟩
  constructor
  · rintro ⟨bytes, _, _, confirmed, _⟩
    exact ((Orchestrator.confirmBytes_eq_ok_iff lawful short readable).mp confirmed).1
  · intro converts
    exact ⟨_, unhashed, hashed,
      (Orchestrator.confirmBytes_eq_ok_iff lawful short readable).mpr ⟨converts, rfl⟩, rfl⟩

/-! ### Two logic calls -/

/-- The crates, with accounts that are their own texts. -/
def exampleCrates : Orchestrator.Crates where
  ethAddress text := if validateEthAddress text = .ok () then some (hexToAddress text) else none
  uint256 text :=
    if text ≠ [] ∧ (∀ byte ∈ text, IsDigit byte) ∧ ofDecimal text < 2 ^ 256 then some (ofDecimal text)
    else none
  add first second := if first + second < 2 ^ 256 then some (first + second) else none
  cosmosAddress text := some text
  encodeTokens tokens := abiEncode (tokens.map Orchestrator.Token.abi)

theorem exampleCrates_lawful : exampleCrates.Lawful where
  ethAddress text valid := if_pos valid
  uint256 value small := by
    have readable : decimal value ≠ [] ∧ (∀ byte ∈ decimal value, IsDigit byte) ∧
        ofDecimal (decimal value) < 2 ^ 256 :=
      ⟨decimal_ne_nil value, fun _ => isDigit_of_mem_decimal, (ofDecimal_decimal value).symm ▸ small⟩
    show (if _ then _ else _) = _
    rw [if_pos readable, ofDecimal_decimal]
  add _ _ := rfl
  encodeTokens _ _ := rfl

/-- A logic call that moves the given tokens. -/
def exampleCall (tokens : List ERC20Token) : EthereumSigned :=
  .logicCall ⟨tokens, tokens, hexOfAddress 5, [1, 2, 3], 900, [7], 1, 6⟩

/-- With a transfer and a fee the three encoders agree. -/
theorem encoders_agree_example : ∃ bytes,
    (exampleCall [⟨10, hexOfAddress 9⟩]).getCheckpoint exampleGeth.unhashed (ascii "foo") = .ok bytes ∧
    Orchestrator.confirmBytes exampleCrates (ascii "foo") (exampleCall [⟨10, hexOfAddress 9⟩]) =
      .ok bytes ∧
    (exampleCall [⟨10, hexOfAddress 9⟩]).object.encoding (rightPad 32 (ascii "foo")) = bytes := by
  obtain ⟨bytes, go, _, rust, contract⟩ := (encoders_agree_iff exampleGeth_packsAbi
    exampleCrates_lawful (ascii "foo") (by decide) (exampleCall [⟨10, hexOfAddress 9⟩]) (by decide)
    ⟨by decide +kernel, by decide +kernel, by decide +kernel, by decide⟩).mpr ⟨by decide, by decide⟩
  exact ⟨bytes, go, rust, contract⟩

/-- **Without tokens the orchestrator refuses the call**, which the module and the contract encode. -/
theorem encoders_disagree :
    (exampleCall []).Readable exampleCrates ∧ (∀ counter ∈ (exampleCall []).counters, counter < 2 ^ 63) ∧
    Orchestrator.confirmBytes exampleCrates (ascii "foo") (exampleCall []) = .error .noTransactions ∧
    (exampleCall []).getCheckpoint exampleGeth.unhashed (ascii "foo") =
      .ok ((exampleCall []).object.encoding (rightPad 32 (ascii "foo"))) :=
  ⟨⟨by decide, by decide, by decide +kernel, by decide⟩, by decide, by decide +kernel,
    by decide +kernel⟩

end NabBridge
