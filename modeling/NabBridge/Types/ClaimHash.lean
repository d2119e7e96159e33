/-
**What a claim hash binds.**

Votes are matched by hash, so a vote for an event is a vote for every claim with the same hash. For
claims that pass `ValidateBasic`, equal hashed texts mean the same event (`path_sameEvent`), with two
exceptions:

* the text of a batch claim does not hold the block height;
* the text of an ERC20 claim writes the denom, the name and the symbol between slashes without
  escaping them. It is unambiguous exactly when the name and the symbol have no slash and no part of
  the denom after its first slash reads as a token contract (`Unambiguous`).

`claimHash_binds_iff`: outside the exceptions the hash binds the claim, inside them it does not.
-/

import NabBridge.Types.Claims

namespace NabBridge

/-! ### What `ValidateBasic` establishes -/

theorem check_bind_eq_ok {ε α : Type} {first : Except ε Unit} {next : Unit → Except ε α}
    {value : α} : (first >>= next) = .ok value ↔ first = .ok () ∧ next () = .ok value := by
  cases first with
  | error reason => simp [bind, Except.bind]
  | ok value => simp [bind, Except.bind]

theorem checkAccAddress_eq_ok {sdk : Sdk} {text : Bytes}
    (checked : checkAccAddress sdk text = .ok ()) :
    ∃ address, sdk.accAddressFromBech32 text = some address := by
  unfold checkAccAddress at checked
  split_ifs at checked with found
  exact Option.isSome_iff_exists.mp found

theorem checkEthAddress_eq_ok {wrap : AddressError → ClaimError} {address : Bytes}
    (checked : checkEthAddress wrap address = .ok ()) : validateEthAddress address = .ok () := by
  unfold checkEthAddress at checked
  cases valid : validateEthAddress address with
  | error reason => simp [valid, Except.mapError] at checked
  | ok value => rfl

theorem MsgSendToCosmosClaim.addresses_of_validateBasic {sdk : Sdk} {msg : MsgSendToCosmosClaim}
    (valid : msg.validateBasic sdk = .ok ()) :
    (∃ address, sdk.accAddressFromBech32 msg.cosmosReceiver = some address) ∧
      validateEthAddress msg.ethereumSender = .ok () ∧
      validateEthAddress msg.tokenContract = .ok () := by
  unfold MsgSendToCosmosClaim.validateBasic at valid
  obtain ⟨receiver, rest⟩ := check_bind_eq_ok.mp valid
  obtain ⟨sender, rest⟩ := check_bind_eq_ok.mp rest
  obtain ⟨token, _⟩ := check_bind_eq_ok.mp rest
  exact ⟨checkAccAddress_eq_ok receiver, checkEthAddress_eq_ok sender, checkEthAddress_eq_ok token⟩

theorem MsgBatchSendToEthClaim.token_of_validateBasic {sdk : Sdk} {msg : MsgBatchSendToEthClaim}
    (valid : msg.validateBasic sdk = .ok ()) : validateEthAddress msg.tokenContract = .ok () := by
  unfold MsgBatchSendToEthClaim.validateBasic at valid
  obtain ⟨_, rest⟩ := check_bind_eq_ok.mp valid
  obtain ⟨_, rest⟩ := check_bind_eq_ok.mp rest
  exact checkEthAddress_eq_ok (check_bind_eq_ok.mp rest).1

theorem MsgERC20DeployedClaim.token_of_validateBasic {sdk : Sdk} {msg : MsgERC20DeployedClaim}
    (valid : msg.validateBasic sdk = .ok ()) : validateEthAddress msg.tokenContract = .ok () := by
  unfold MsgERC20DeployedClaim.validateBasic at valid
  exact checkEthAddress_eq_ok (check_bind_eq_ok.mp valid).1

theorem forM_eq_ok {α ε : Type} {items : List α} {check : α → Except ε Unit}
    (passed : items.forM check = .ok ()) : ∀ item ∈ items, check item = .ok () := by
  induction items with
  | nil => exact fun _ member => absurd member List.not_mem_nil
  | cons first rest ih =>
      obtain ⟨here, there⟩ := check_bind_eq_ok.mp passed
      intro item member
      rcases List.mem_cons.mp member with rfl | inRest
      · exact here
      · exact ih there item inRest

theorem MsgValsetUpdatedClaim.addresses_of_validateBasic {sdk : Sdk} {msg : MsgValsetUpdatedClaim}
    (valid : msg.validateBasic sdk = .ok ()) :
    validateEthAddress msg.rewardToken = .ok () ∧
      ∀ member ∈ msg.members, validateEthAddress member.ethereumAddress = .ok () := by
  unfold MsgValsetUpdatedClaim.validateBasic at valid
  obtain ⟨_, rest⟩ := check_bind_eq_ok.mp valid
  obtain ⟨_, rest⟩ := check_bind_eq_ok.mp rest
  obtain ⟨token, members⟩ := check_bind_eq_ok.mp rest
  exact ⟨checkEthAddress_eq_ok token, fun member inMembers =>
    checkEthAddress_eq_ok (forM_eq_ok members member inMembers)⟩

/-! ### Fields without a slash -/

theorem slash_not_mem_decimal (value : Nat) : (47 : UInt8) ∉ decimal value :=
  not_mem_decimal (by decide) value

theorem slash_not_mem_address {address : Bytes} (valid : validateEthAddress address = .ok ()) :
    (47 : UInt8) ∉ address :=
  not_mem_of_validateEthAddress valid (by decide) (by decide)

theorem slash_not_mem_sdkIntText (value : Option Int) : (47 : UInt8) ∉ sdkIntText value := by
  cases value with
  | none => decide
  | some value =>
      intro member
      rcases mem_decimalInt member with minus | digit
      · exact absurd minus (by decide)
      · exact absurd digit (by decide)

theorem exampleSdk_slash_free : ∀ text address,
    exampleSdk.accAddressFromBech32 text = some address → 47 ∉ text := by
  intro text address found
  obtain ⟨entry, look, _⟩ := Option.map_eq_some_iff.mp found
  have textIs : entry.1 = text := by simpa using List.find?_some look
  have free : ∀ entry ∈ exampleAddresses, 47 ∉ entry.1 := by decide
  exact textIs ▸ free entry (List.mem_of_find?_eq_some look)

theorem sdkIntText_injective : Function.Injective sdkIntText := by
  have clash : ∀ value : Int, sdkIntText none ≠ sdkIntText (some value) := by
    intro value equal
    have member : (60 : UInt8) ∈ decimalInt value := by
      have head : (60 : UInt8) ∈ sdkIntText none := by decide
      rwa [equal] at head
    rcases mem_decimalInt member with minus | digit
    · exact absurd minus (by decide)
    · exact absurd digit (by decide)
  intro first second equal
  cases first with
  | none =>
      cases second with
      | none => rfl
      | some value => exact absurd equal (clash value)
  | some value =>
      cases second with
      | none => exact absurd equal.symm (clash value)
      | some value' => exact congrArg some (decimalInt_injective equal)

/-- No accepted address is a numeral. -/
theorem address_ne_decimal {address : Bytes} (valid : validateEthAddress address = .ok ())
    (value : Nat) : address ≠ decimal value := by
  rintro rfl
  obtain ⟨digits, equal, _⟩ := (validateEthAddress_eq_ok_iff _).mp valid
  have member : (120 : UInt8) ∈ decimal value := by rw [equal]; simp
  exact not_mem_decimal (by decide) value member

/-! ### The text of a member list -/

/-- What stands before a member's address. -/
def BridgeValidator.head (member : BridgeValidator) : Bytes :=
  (if member.power = 0 then [] else ascii "power:" ++ decimal member.power ++ ascii " ") ++
    ascii "ethereum_address:"

theorem BridgeValidator.text_eq (member : BridgeValidator) :
    member.text = member.head ++ 34 :: (member.ethereumAddress ++ 34 :: [32]) := by
  have opening : ascii "ethereum_address:\"" = ascii "ethereum_address:" ++ [34] := by decide
  have closing : ascii "\" " = [34, 32] := by decide
  simp [text, head, opening, closing]

theorem BridgeValidator.quote_not_mem_head (member : BridgeValidator) :
    (34 : UInt8) ∉ member.head := by
  have numeral : (34 : UInt8) ∉ decimal member.power := not_mem_decimal (by decide) _
  have label : (34 : UInt8) ∉ ascii "power:" := by decide
  have blank : (34 : UInt8) ∉ ascii " " := by decide
  have name : (34 : UInt8) ∉ ascii "ethereum_address:" := by decide
  unfold head
  split_ifs with zero
  · simpa using name
  · simp [numeral, label, blank, name]

theorem BridgeValidator.power_of_head {first second : BridgeValidator}
    (equal : first.head = second.head) : first.power = second.power := by
  have start : ∀ member : BridgeValidator, member.power ≠ 0 →
      member.head = 112 :: (ascii "ower:" ++ decimal member.power ++ ascii " " ++
        ascii "ethereum_address:") := by
    intro member positive
    have label : ascii "power:" = 112 :: ascii "ower:" := by decide
    simp [head, positive, label]
  have zero : ∀ member : BridgeValidator, member.power = 0 →
      member.head = 101 :: ascii "thereum_address:" := by
    intro member isZero
    have name : ascii "ethereum_address:" = 101 :: ascii "thereum_address:" := by decide
    simp [head, isZero, name]
  by_cases firstZero : first.power = 0
  · by_cases secondZero : second.power = 0
    · rw [firstZero, secondZero]
    · rw [zero first firstZero, start second secondZero] at equal
      exact absurd (List.cons.inj equal).1 (by decide)
  · by_cases secondZero : second.power = 0
    · rw [start first firstZero, zero second secondZero] at equal
      exact absurd (List.cons.inj equal).1 (by decide)
    · rw [start first firstZero, start second secondZero] at equal
      have tails := (List.cons.inj equal).2
      simp only [List.append_assoc, List.append_cancel_left_eq] at tails
      have blank : ascii " " = [32] := by decide
      rw [blank] at tails
      exact decimal_injective (split_first (not_mem_decimal (by decide) _)
        (not_mem_decimal (by decide) _) tails).1

/-- A member can be read off the front of a text. -/
theorem BridgeValidator.text_append_inj {first second : BridgeValidator} {rest rest' : Bytes}
    (valid : validateEthAddress first.ethereumAddress = .ok ())
    (valid' : validateEthAddress second.ethereumAddress = .ok ())
    (equal : first.text ++ rest = second.text ++ rest') : first = second ∧ rest = rest' := by
  have quote : ∀ {address : Bytes}, validateEthAddress address = .ok () →
      (34 : UInt8) ∉ address := fun valid =>
    not_mem_of_validateEthAddress valid (by decide) (by decide)
  rw [text_eq, text_eq] at equal
  simp only [List.append_assoc, List.cons_append] at equal
  obtain ⟨heads, tails⟩ := split_first first.quote_not_mem_head second.quote_not_mem_head equal
  obtain ⟨addresses, ends⟩ := split_first (quote valid) (quote valid') tails
  refine ⟨?_, by simpa using ends⟩
  cases first
  cases second
  simp only at addresses
  rw [BridgeValidator.mk.injEq]
  exact ⟨power_of_head heads, addresses⟩

/-- The members after the first, each behind a blank, and the closing bracket. -/
def membersTail (members : List BridgeValidator) : Bytes :=
  (members.flatMap fun member => 32 :: member.text) ++ [93]

/-- A member list after its opening bracket. -/
def membersBody : List BridgeValidator → Bytes
  | [] => [93]
  | first :: rest => first.text ++ membersTail rest

theorem membersText_eq (members : List BridgeValidator) :
    membersText members = 91 :: membersBody members := by
  have opening : ascii "[" = [91] := by decide
  have closing : ascii "]" = [93] := by decide
  have blank : ascii " " = [32] := by decide
  unfold membersText
  rw [opening, closing, blank]
  cases members with
  | nil => rfl
  | cons first rest =>
      have joined : ∀ (head : Bytes) (members : List BridgeValidator),
          [32].intercalate (head :: members.map BridgeValidator.text) =
            head ++ members.flatMap fun member => 32 :: member.text := by
        intro head members
        induction members generalizing head with
        | nil => simp
        | cons second others ih =>
            rw [List.map_cons, List.intercalate_cons_cons, ih]
            simp
      rw [List.map_cons, joined]
      simp [membersBody, membersTail]

theorem membersTail_inj {members members' : List BridgeValidator}
    (valid : ∀ member ∈ members, validateEthAddress member.ethereumAddress = .ok ())
    (valid' : ∀ member ∈ members', validateEthAddress member.ethereumAddress = .ok ())
    {rest rest' : Bytes} (equal : membersTail members ++ rest = membersTail members' ++ rest') :
    members = members' ∧ rest = rest' := by
  induction members generalizing members' with
  | nil =>
      cases members' with
      | nil => exact ⟨rfl, by simpa [membersTail] using equal⟩
      | cons first others => simp [membersTail] at equal
  | cons first others ih =>
      cases members' with
      | nil => simp [membersTail] at equal
      | cons first' others' =>
          have heads : first.text ++ (membersTail others ++ rest) =
              first'.text ++ (membersTail others' ++ rest') := by
            simpa [membersTail] using equal
          obtain ⟨same, tails⟩ := BridgeValidator.text_append_inj (valid first List.mem_cons_self)
            (valid' first' List.mem_cons_self) heads
          obtain ⟨sameOthers, rests⟩ := ih
            (fun member inside => valid member (List.mem_cons_of_mem _ inside))
            (fun member inside => valid' member (List.mem_cons_of_mem _ inside)) tails
          exact ⟨by rw [same, sameOthers], rests⟩

/-- **A member list can be read off the front of a text.** -/
theorem membersText_append_inj {members members' : List BridgeValidator} {rest rest' : Bytes}
    (valid : ∀ member ∈ members, validateEthAddress member.ethereumAddress = .ok ())
    (valid' : ∀ member ∈ members', validateEthAddress member.ethereumAddress = .ok ())
    (equal : membersText members ++ rest = membersText members' ++ rest') :
    members = members' ∧ rest = rest' := by
  have closing : ∀ (member : BridgeValidator) (tail tail' : Bytes),
      member.text ++ tail ≠ 93 :: tail' := by
    intro member tail tail' equal
    have label : ascii "power:" = 112 :: ascii "ower:" := by decide
    have name : ascii "ethereum_address:\"" = 101 :: ascii "thereum_address:\"" := by decide
    unfold BridgeValidator.text at equal
    split_ifs at equal with zero
    · rw [name] at equal
      exact absurd (List.cons.inj equal).1 (by decide)
    · rw [label] at equal
      exact absurd (List.cons.inj equal).1 (by decide)
  rw [membersText_eq, membersText_eq, List.cons_append, List.cons_append] at equal
  have tails := (List.cons.inj equal).2
  cases members with
  | nil =>
      cases members' with
      | nil => exact ⟨rfl, (List.cons.inj tails).2⟩
      | cons first' others' =>
          rw [membersBody, membersBody, List.append_assoc] at tails
          exact absurd tails.symm (closing first' _ _)
  | cons first others =>
      cases members' with
      | nil =>
          rw [membersBody, membersBody, List.append_assoc] at tails
          exact absurd tails (closing first _ _)
      | cons first' others' =>
          rw [membersBody, membersBody, List.append_assoc, List.append_assoc] at tails
          obtain ⟨same, ends⟩ := BridgeValidator.text_append_inj (valid first List.mem_cons_self)
            (valid' first' List.mem_cons_self) tails
          obtain ⟨sameOthers, rests⟩ := membersTail_inj
            (fun member inside => valid member (List.mem_cons_of_mem _ inside))
            (fun member inside => valid' member (List.mem_cons_of_mem _ inside)) ends
          exact ⟨by rw [same, sameOthers], rests⟩

/-! ### The texts of an ERC20 claim -/

/-- The four texts of an ERC20 claim, between its numbers. -/
def MsgERC20DeployedClaim.texts (msg : MsgERC20DeployedClaim) : Bytes :=
  msg.cosmosDenom ++ 47 :: (msg.tokenContract ++ 47 :: (msg.name ++ 47 :: msg.symbol))

/-- **The texts can be told apart**: the name and the symbol have no slash, and no part of the denom
after its first slash reads as a token contract. -/
def MsgERC20DeployedClaim.Unambiguous (msg : MsgERC20DeployedClaim) : Prop :=
  47 ∉ msg.name ∧ 47 ∉ msg.symbol ∧
    ∀ part ∈ (msg.cosmosDenom.splitOn 47).tail, validateEthAddress part ≠ .ok ()

theorem MsgERC20DeployedClaim.splitOn_texts {msg : MsgERC20DeployedClaim}
    (valid : validateEthAddress msg.tokenContract = .ok ()) :
    msg.texts.splitOn 47 = msg.cosmosDenom.splitOn 47 ++
      msg.tokenContract :: (msg.name.splitOn 47 ++ msg.symbol.splitOn 47) := by
  rw [texts, List.splitOn_append_cons_self, List.splitOn_append_cons_self,
    List.splitOn_append_cons_self, List.splitOn_eq_singleton (slash_not_mem_address valid)]
  rfl

theorem eq_of_splitOn_eq {text text' : Bytes} (equal : text.splitOn 47 = text'.splitOn 47) :
    text = text' := by
  calc text = [47].intercalate (text.splitOn 47) := (List.intercalate_splitOn 47).symm
    _ = [47].intercalate (text'.splitOn 47) := by rw [equal]
    _ = text' := List.intercalate_splitOn 47

/-- **Unambiguous texts are read back in one way** by any other ERC20 claim. -/
theorem MsgERC20DeployedClaim.texts_inj {msg msg' : MsgERC20DeployedClaim}
    (unambiguous : msg.Unambiguous) (valid : validateEthAddress msg.tokenContract = .ok ())
    (valid' : validateEthAddress msg'.tokenContract = .ok ()) (equal : msg.texts = msg'.texts) :
    msg.cosmosDenom = msg'.cosmosDenom ∧ msg.tokenContract = msg'.tokenContract ∧
      msg.name = msg'.name ∧ msg.symbol = msg'.symbol := by
  obtain ⟨nameFree, symbolFree, denomFree⟩ := unambiguous
  have parts : msg.cosmosDenom.splitOn 47 ++ msg.tokenContract :: [msg.name, msg.symbol] =
      msg'.cosmosDenom.splitOn 47 ++
        msg'.tokenContract :: (msg'.name.splitOn 47 ++ msg'.symbol.splitOn 47) := by
    have texts := congrArg (List.splitOn 47) equal
    rwa [splitOn_texts valid, splitOn_texts valid', List.splitOn_eq_singleton nameFree,
      List.splitOn_eq_singleton symbolFree] at texts
  have nameSome : 0 < (msg'.name.splitOn 47).length :=
    List.length_pos_of_ne_nil (List.splitOn_ne_nil _ _)
  have symbolSome : 0 < (msg'.symbol.splitOn 47).length :=
    List.length_pos_of_ne_nil (List.splitOn_ne_nil _ _)
  -- the two token contracts stand at the same place among the parts
  have aligned : msg.cosmosDenom.splitOn 47 = msg'.cosmosDenom.splitOn 47 ∧
      msg.tokenContract :: [msg.name, msg.symbol] =
        msg'.tokenContract :: (msg'.name.splitOn 47 ++ msg'.symbol.splitOn 47) := by
    rcases List.append_eq_append_iff.mp parts with ⟨more, denoms, rests⟩ | ⟨more, denoms, rests⟩
    · have lengths := congrArg List.length rests
      simp only [List.length_cons, List.length_nil, List.length_append] at lengths
      obtain rfl : more = [] := List.eq_nil_of_length_eq_zero (by omega)
      exact ⟨by simpa using denoms.symm, rests⟩
    · cases more with
      | nil => exact ⟨by simpa using denoms, rests.symm⟩
      | cons part others =>
          have token : msg'.tokenContract = part := (List.cons.inj rests).1
          have inTail : part ∈ (msg.cosmosDenom.splitOn 47).tail := by
            rw [denoms, List.tail_append_of_ne_nil (List.splitOn_ne_nil _ _)]
            exact List.mem_append_right _ List.mem_cons_self
          exact absurd (token ▸ valid') (denomFree part inTail)
  obtain ⟨denoms, rests⟩ := aligned
  obtain ⟨tokens, tails⟩ := List.cons.inj rests
  have lengths := congrArg List.length tails
  simp only [List.length_cons, List.length_nil, List.length_append] at lengths
  have names : [msg.name] = msg'.name.splitOn 47 ∧ [msg.symbol] = msg'.symbol.splitOn 47 := by
    refine List.append_inj (by simpa using tails) ?_
    simp only [List.length_cons, List.length_nil]
    omega
  refine ⟨eq_of_splitOn_eq denoms, tokens, eq_of_splitOn_eq ?_, eq_of_splitOn_eq ?_⟩
  · rw [List.splitOn_eq_singleton nameFree, names.1]
  · rw [List.splitOn_eq_singleton symbolFree, names.2]

/-- A part after the first stands between two separators, if there is one at the end. -/
theorem exists_of_mem_tail {parts : List Bytes} {part : Bytes} (member : part ∈ parts.tail) :
    ∃ front back, [47].intercalate parts ++ [47] = front ++ 47 :: (part ++ 47 :: back) := by
  induction parts with
  | nil => exact absurd member List.not_mem_nil
  | cons first rest ih =>
      cases rest with
      | nil => exact absurd member List.not_mem_nil
      | cons second others =>
          rw [List.intercalate_cons_cons]
          rcases List.mem_cons.mp member with rfl | later
          · cases others with
            | nil => exact ⟨first, [], by simp⟩
            | cons third others =>
                refine ⟨first, [47].intercalate (third :: others) ++ [47], ?_⟩
                rw [List.intercalate_cons_cons]
                simp
          · obtain ⟨front, back, split⟩ := ih later
            refine ⟨first ++ 47 :: front, back, ?_⟩
            rw [List.append_assoc, split]
            simp

/-- **Ambiguous texts are read back in another way** by another ERC20 claim. -/
theorem MsgERC20DeployedClaim.exists_texts_eq {msg : MsgERC20DeployedClaim}
    (valid : validateEthAddress msg.tokenContract = .ok ()) (ambiguous : ¬ msg.Unambiguous) :
    ∃ denom token name symbol, validateEthAddress token = .ok () ∧
      { msg with cosmosDenom := denom, tokenContract := token, name := name, symbol := symbol }.texts =
        msg.texts ∧ (denom = msg.cosmosDenom → name ≠ msg.name) := by
  unfold Unambiguous at ambiguous
  by_cases nameFree : 47 ∈ msg.name
  · -- the symbol starts earlier
    obtain ⟨before, after, split⟩ := List.append_of_mem nameFree
    refine ⟨msg.cosmosDenom, msg.tokenContract, before, after ++ 47 :: msg.symbol, valid, ?_,
      fun _ same => ?_⟩
    · simp only [texts, split]
      simp
    · have lengths := congrArg List.length (same.trans split)
      simp at lengths
  by_cases symbolFree : 47 ∈ msg.symbol
  · -- the symbol starts later
    obtain ⟨before, after, split⟩ := List.append_of_mem symbolFree
    refine ⟨msg.cosmosDenom, msg.tokenContract, msg.name ++ 47 :: before, after, valid, ?_,
      fun _ same => ?_⟩
    · simp only [texts, split]
      simp
    · have lengths := congrArg List.length same
      simp at lengths
  · -- a part of the denom is taken for the token contract
    obtain ⟨part, member, address⟩ : ∃ part ∈ (msg.cosmosDenom.splitOn 47).tail,
        validateEthAddress part = .ok () := by
      by_contra none
      exact ambiguous ⟨nameFree, symbolFree, fun part member address => none ⟨part, member, address⟩⟩
    obtain ⟨front, back, split⟩ := exists_of_mem_tail member
    rw [List.intercalate_splitOn] at split
    refine ⟨front, part, back ++ msg.tokenContract, msg.name ++ 47 :: msg.symbol, address, ?_,
      fun same => ?_⟩
    · have whole := congrArg (· ++ (msg.tokenContract ++ 47 :: (msg.name ++ 47 :: msg.symbol))) split
      simpa [texts] using whole.symm
    · have lengths := congrArg List.length split
      simp [same] at lengths

/-! ### The five texts, field by field -/

namespace EthereumClaim

theorem path_sendToCosmos (msg : MsgSendToCosmosClaim) :
    (sendToCosmos msg).path = decimal msg.eventNonce ++ 47 :: (decimal msg.blockHeight ++ 47 ::
      (msg.tokenContract ++ 47 :: (sdkIntText msg.amount ++ 47 ::
        (msg.ethereumSender ++ 47 :: msg.cosmosReceiver)))) := by
  have slash : ascii "/" = [47] := by decide
  simp [path, slash]

theorem path_batchSendToEth (msg : MsgBatchSendToEthClaim) :
    (batchSendToEth msg).path = msg.tokenContract ++ 47 :: (decimal msg.batchNonce ++ 47 ::
      (decimal msg.eventNonce ++ 47 :: msg.tokenContract)) := by
  have slash : ascii "/" = [47] := by decide
  simp [path, slash]

theorem path_erc20Deployed (msg : MsgERC20DeployedClaim) :
    (erc20Deployed msg).path = decimal msg.eventNonce ++ 47 :: (decimal msg.blockHeight ++ 47 ::
      (msg.texts ++ 47 :: decimal msg.decimals)) := by
  have slash : ascii "/" = [47] := by decide
  simp [path, MsgERC20DeployedClaim.texts, slash]

theorem path_logicCallExecuted (msg : MsgLogicCallExecutedClaim) :
    (logicCallExecuted msg).path = decimal msg.eventNonce ++ 44 :: (decimal msg.blockHeight ++
      44 :: (msg.invalidationId ++ 47 :: decimal msg.invalidationNonce ++ [47])) := by
  have slash : ascii "/" = [47] := by decide
  have comma : ascii "," = [44] := by decide
  simp [path, slash, comma]

theorem path_valsetUpdated (msg : MsgValsetUpdatedClaim) :
    (valsetUpdated msg).path = decimal msg.eventNonce ++ 47 :: (decimal msg.valsetNonce ++ 47 ::
      (decimal msg.blockHeight ++ 47 :: (membersText (sortBridgeValidators msg.members) ++ 47 ::
        (sdkIntText msg.rewardAmount ++ 47 :: msg.rewardToken)))) := by
  have slash : ascii "/" = [47] := by decide
  simp [path, slash]

section Inj

variable {sdk : Sdk}

theorem sendToCosmos_sameEvent {msg msg' : MsgSendToCosmosClaim}
    (valid : msg.validateBasic sdk = .ok ()) (valid' : msg'.validateBasic sdk = .ok ())
    (equal : (sendToCosmos msg).path = (sendToCosmos msg').path) :
    SameEvent (sendToCosmos msg) (sendToCosmos msg') := by
  obtain ⟨_, sender, token⟩ := msg.addresses_of_validateBasic valid
  obtain ⟨_, sender', token'⟩ := msg'.addresses_of_validateBasic valid'
  rw [path_sendToCosmos, path_sendToCosmos] at equal
  obtain ⟨nonces, rest⟩ := split_first (slash_not_mem_decimal _) (slash_not_mem_decimal _) equal
  obtain ⟨heights, rest⟩ := split_first (slash_not_mem_decimal _) (slash_not_mem_decimal _) rest
  obtain ⟨tokens, rest⟩ := split_first (slash_not_mem_address token) (slash_not_mem_address token')
    rest
  obtain ⟨amounts, rest⟩ := split_first (slash_not_mem_sdkIntText _) (slash_not_mem_sdkIntText _)
    rest
  obtain ⟨senders, receivers⟩ := split_first (slash_not_mem_address sender)
    (slash_not_mem_address sender') rest
  simp only [SameEvent, decimal_injective nonces, decimal_injective heights, tokens,
    sdkIntText_injective amounts, senders, receivers]

theorem batchSendToEth_sameEvent {msg msg' : MsgBatchSendToEthClaim}
    (valid : msg.validateBasic sdk = .ok ()) (valid' : msg'.validateBasic sdk = .ok ())
    (height : msg.tokenContract = msg'.tokenContract → msg.batchNonce = msg'.batchNonce →
      msg.blockHeight = msg'.blockHeight)
    (equal : (batchSendToEth msg).path = (batchSendToEth msg').path) :
    SameEvent (batchSendToEth msg) (batchSendToEth msg') := by
  rw [path_batchSendToEth, path_batchSendToEth] at equal
  obtain ⟨tokens, rest⟩ := split_first (slash_not_mem_address (msg.token_of_validateBasic valid))
    (slash_not_mem_address (msg'.token_of_validateBasic valid')) equal
  obtain ⟨batches, rest⟩ := split_first (slash_not_mem_decimal _) (slash_not_mem_decimal _) rest
  obtain ⟨nonces, _⟩ := split_first (slash_not_mem_decimal _) (slash_not_mem_decimal _) rest
  have heights := height tokens (decimal_injective batches)
  simp only [SameEvent, decimal_injective nonces, decimal_injective batches, tokens, heights]

theorem erc20Deployed_sameEvent {msg msg' : MsgERC20DeployedClaim}
    (valid : msg.validateBasic sdk = .ok ()) (valid' : msg'.validateBasic sdk = .ok ())
    (unambiguous : msg'.Unambiguous)
    (equal : (erc20Deployed msg).path = (erc20Deployed msg').path) :
    SameEvent (erc20Deployed msg) (erc20Deployed msg') := by
  rw [path_erc20Deployed, path_erc20Deployed] at equal
  obtain ⟨nonces, rest⟩ := split_first (slash_not_mem_decimal _) (slash_not_mem_decimal _) equal
  obtain ⟨heights, rest⟩ := split_first (slash_not_mem_decimal _) (slash_not_mem_decimal _) rest
  obtain ⟨texts, decimals⟩ := split_last (slash_not_mem_decimal _) (slash_not_mem_decimal _) rest
  obtain ⟨denoms, tokens, names, symbols⟩ := MsgERC20DeployedClaim.texts_inj unambiguous
    (msg'.token_of_validateBasic valid') (msg.token_of_validateBasic valid) texts.symm
  simp only [SameEvent, decimal_injective nonces, decimal_injective heights, denoms, tokens, names,
    symbols, decimal_injective decimals]

theorem logicCallExecuted_sameEvent {msg msg' : MsgLogicCallExecutedClaim}
    (equal : (logicCallExecuted msg).path = (logicCallExecuted msg').path) :
    SameEvent (logicCallExecuted msg) (logicCallExecuted msg') := by
  have comma : ∀ value, (44 : UInt8) ∉ decimal value := not_mem_decimal (by decide)
  rw [path_logicCallExecuted, path_logicCallExecuted] at equal
  obtain ⟨nonces, rest⟩ := split_first (comma _) (comma _) equal
  obtain ⟨heights, rest⟩ := split_first (comma _) (comma _) rest
  obtain ⟨ids, invalidations⟩ := split_last (slash_not_mem_decimal _) (slash_not_mem_decimal _)
    (List.append_cancel_right rest)
  simp only [SameEvent, decimal_injective nonces, decimal_injective heights, ids,
    decimal_injective invalidations]

theorem valsetUpdated_sameEvent {msg msg' : MsgValsetUpdatedClaim}
    (valid : msg.validateBasic sdk = .ok ()) (valid' : msg'.validateBasic sdk = .ok ())
    (equal : (valsetUpdated msg).path = (valsetUpdated msg').path) :
    SameEvent (valsetUpdated msg) (valsetUpdated msg') := by
  have sorted : ∀ {msg : MsgValsetUpdatedClaim}, msg.validateBasic sdk = .ok () →
      ∀ member ∈ sortBridgeValidators msg.members,
        validateEthAddress member.ethereumAddress = .ok () := fun {msg} valid member inSorted =>
    (msg.addresses_of_validateBasic valid).2 member
      ((sortBridgeValidators_perm msg.members).mem_iff.mp inSorted)
  rw [path_valsetUpdated, path_valsetUpdated] at equal
  obtain ⟨nonces, rest⟩ := split_first (slash_not_mem_decimal _) (slash_not_mem_decimal _) equal
  obtain ⟨valsets, rest⟩ := split_first (slash_not_mem_decimal _) (slash_not_mem_decimal _) rest
  obtain ⟨heights, rest⟩ := split_first (slash_not_mem_decimal _) (slash_not_mem_decimal _) rest
  obtain ⟨members, rest⟩ := membersText_append_inj (sorted valid) (sorted valid') rest
  obtain ⟨amounts, tokens⟩ := split_first (slash_not_mem_sdkIntText _) (slash_not_mem_sdkIntText _)
    (List.cons.inj rest).2
  refine ⟨?_, ?_⟩
  · simp only [decimal_injective nonces, decimal_injective valsets, decimal_injective heights,
      sdkIntText_injective amounts, tokens]
  · calc msg.members.Perm (sortBridgeValidators msg.members) :=
          (sortBridgeValidators_perm msg.members).symm
      _ = sortBridgeValidators msg'.members := members
      List.Perm _ msg'.members := sortBridgeValidators_perm msg'.members

end Inj

/-! ### Texts of different types -/

section Types

variable {sdk : Sdk}

/-- The first symbol of a claim's text that is not a digit. -/
def firstNonDigit : EthereumClaim → UInt8
  | batchSendToEth _ => 120
  | logicCallExecuted _ => 44
  | _ => 47

theorem path_firstNonDigit {claim : EthereumClaim} (valid : claim.validateBasic sdk = .ok ()) :
    ∃ front rest, claim.path = front ++ claim.firstNonDigit :: rest ∧
      ∀ byte ∈ front, IsDigit byte := by
  have digits : ∀ value, ∀ byte ∈ decimal value, IsDigit byte := fun _ _ => isDigit_of_mem_decimal
  cases claim with
  | sendToCosmos msg => exact ⟨_, _, path_sendToCosmos msg, digits _⟩
  | batchSendToEth msg =>
      obtain ⟨tail, token, _⟩ :=
        (validateEthAddress_eq_ok_iff _).mp (msg.token_of_validateBasic valid)
      refine ⟨[48], tail ++ 47 :: (decimal msg.batchNonce ++ 47 ::
        (decimal msg.eventNonce ++ 47 :: msg.tokenContract)), ?_, by simp; decide⟩
      rw [path_batchSendToEth]
      nth_rewrite 1 [token]
      rfl
  | erc20Deployed msg => exact ⟨_, _, path_erc20Deployed msg, digits _⟩
  | logicCallExecuted msg => exact ⟨_, _, path_logicCallExecuted msg, digits _⟩
  | valsetUpdated msg => exact ⟨_, _, path_valsetUpdated msg, digits _⟩

theorem firstNonDigit_eq {claim claim' : EthereumClaim} (valid : claim.validateBasic sdk = .ok ())
    (valid' : claim'.validateBasic sdk = .ok ()) (equal : claim.path = claim'.path) :
    claim.firstNonDigit = claim'.firstNonDigit := by
  have outside : ∀ claim : EthereumClaim, ¬ IsDigit claim.firstNonDigit := by
    intro claim
    cases claim <;> simp only [firstNonDigit] <;> decide
  obtain ⟨front, rest, text, digits⟩ := path_firstNonDigit valid
  obtain ⟨front', rest', text', digits'⟩ := path_firstNonDigit valid'
  rw [text, text'] at equal
  exact (append_cons_inj IsDigit digits digits' (outside claim) (outside claim') equal).2.1

theorem sendToCosmos_path_ne_valsetUpdated {msg : MsgSendToCosmosClaim}
    {msg' : MsgValsetUpdatedClaim} (valid : msg.validateBasic sdk = .ok ()) :
    (sendToCosmos msg).path ≠ (valsetUpdated msg').path := by
  intro equal
  obtain ⟨_, _, token⟩ := msg.addresses_of_validateBasic valid
  rw [path_sendToCosmos, path_valsetUpdated] at equal
  obtain ⟨_, rest⟩ := split_first (slash_not_mem_decimal _) (slash_not_mem_decimal _) equal
  obtain ⟨_, rest⟩ := split_first (slash_not_mem_decimal _) (slash_not_mem_decimal _) rest
  obtain ⟨tokens, _⟩ := split_first (slash_not_mem_address token) (slash_not_mem_decimal _) rest
  exact address_ne_decimal token _ tokens

theorem erc20Deployed_path_ne_valsetUpdated {msg : MsgERC20DeployedClaim}
    {msg' : MsgValsetUpdatedClaim} (valid' : msg'.validateBasic sdk = .ok ()) :
    (erc20Deployed msg).path ≠ (valsetUpdated msg').path := by
  intro equal
  have token := (msg'.addresses_of_validateBasic valid').1
  have last : (valsetUpdated msg').path = (decimal msg'.eventNonce ++ 47 ::
      (decimal msg'.valsetNonce ++ 47 :: (decimal msg'.blockHeight ++ 47 ::
        (membersText (sortBridgeValidators msg'.members) ++ 47 ::
          sdkIntText msg'.rewardAmount)))) ++ 47 :: msg'.rewardToken := by
    rw [path_valsetUpdated]
    simp
  have last' : (erc20Deployed msg).path = (decimal msg.eventNonce ++ 47 ::
      (decimal msg.blockHeight ++ 47 :: msg.texts)) ++ 47 :: decimal msg.decimals := by
    rw [path_erc20Deployed]
    simp
  rw [last, last'] at equal
  obtain ⟨_, tails⟩ := split_last (slash_not_mem_decimal _) (slash_not_mem_address token) equal
  exact address_ne_decimal token _ tails.symm

/-- A deposit's text has five slashes, a deployment's at least six. -/
theorem sendToCosmos_path_ne_erc20Deployed {msg : MsgSendToCosmosClaim}
    {msg' : MsgERC20DeployedClaim}
    (bech32 : ∀ text address, sdk.accAddressFromBech32 text = some address → 47 ∉ text)
    (valid : msg.validateBasic sdk = .ok ()) :
    (sendToCosmos msg).path ≠ (erc20Deployed msg').path := by
  intro equal
  obtain ⟨⟨address, receiver⟩, sender, token⟩ := msg.addresses_of_validateBasic valid
  have counts := congrArg (List.count (47 : UInt8)) equal
  rw [path_sendToCosmos, path_erc20Deployed, MsgERC20DeployedClaim.texts] at counts
  simp only [List.count_append, List.count_cons_self,
    List.count_eq_zero_of_not_mem (slash_not_mem_decimal _),
    List.count_eq_zero_of_not_mem (slash_not_mem_sdkIntText _),
    List.count_eq_zero_of_not_mem (slash_not_mem_address token),
    List.count_eq_zero_of_not_mem (slash_not_mem_address sender),
    List.count_eq_zero_of_not_mem (bech32 _ address receiver)] at counts
  omega

/-- **What the hash leaves open**, per type: nothing for deposits, logic calls and validator sets;
the block height of a batch; the texts of a deployment that is not unambiguous. -/
def Bound : EthereumClaim → EthereumClaim → Prop
  | batchSendToEth msg, batchSendToEth truth =>
      msg.tokenContract = truth.tokenContract → msg.batchNonce = truth.batchNonce →
        msg.blockHeight = truth.blockHeight
  | erc20Deployed _, erc20Deployed truth => truth.Unambiguous
  | _, _ => True

/-- **Equal texts are claims of one event**, up to what the text leaves open. -/
theorem path_sameEvent {claim truth : EthereumClaim}
    (bech32 : ∀ text address, sdk.accAddressFromBech32 text = some address → 47 ∉ text)
    (valid : claim.validateBasic sdk = .ok ()) (valid' : truth.validateBasic sdk = .ok ())
    (bound : claim.Bound truth) (equal : claim.path = truth.path) : claim.SameEvent truth := by
  have lead := firstNonDigit_eq valid valid' equal
  cases claim with
  | sendToCosmos msg =>
      cases truth with
      | sendToCosmos msg' => exact sendToCosmos_sameEvent valid valid' equal
      | batchSendToEth msg' => exact absurd lead (by simp [firstNonDigit])
      | erc20Deployed msg' => exact absurd equal (sendToCosmos_path_ne_erc20Deployed bech32 valid)
      | logicCallExecuted msg' => exact absurd lead (by simp [firstNonDigit])
      | valsetUpdated msg' => exact absurd equal (sendToCosmos_path_ne_valsetUpdated valid)
  | batchSendToEth msg =>
      cases truth with
      | batchSendToEth msg' => exact batchSendToEth_sameEvent valid valid' bound equal
      | sendToCosmos msg' => exact absurd lead (by simp [firstNonDigit])
      | erc20Deployed msg' => exact absurd lead (by simp [firstNonDigit])
      | logicCallExecuted msg' => exact absurd lead (by simp [firstNonDigit])
      | valsetUpdated msg' => exact absurd lead (by simp [firstNonDigit])
  | erc20Deployed msg =>
      cases truth with
      | sendToCosmos msg' =>
          exact absurd equal.symm (sendToCosmos_path_ne_erc20Deployed bech32 valid')
      | batchSendToEth msg' => exact absurd lead (by simp [firstNonDigit])
      | erc20Deployed msg' => exact erc20Deployed_sameEvent valid valid' bound equal
      | logicCallExecuted msg' => exact absurd lead (by simp [firstNonDigit])
      | valsetUpdated msg' => exact absurd equal (erc20Deployed_path_ne_valsetUpdated valid')
  | logicCallExecuted msg =>
      cases truth with
      | logicCallExecuted msg' => exact logicCallExecuted_sameEvent equal
      | sendToCosmos msg' => exact absurd lead (by simp [firstNonDigit])
      | batchSendToEth msg' => exact absurd lead (by simp [firstNonDigit])
      | erc20Deployed msg' => exact absurd lead (by simp [firstNonDigit])
      | valsetUpdated msg' => exact absurd lead (by simp [firstNonDigit])
  | valsetUpdated msg =>
      cases truth with
      | sendToCosmos msg' => exact absurd equal.symm (sendToCosmos_path_ne_valsetUpdated valid')
      | batchSendToEth msg' => exact absurd lead (by simp [firstNonDigit])
      | erc20Deployed msg' => exact absurd equal.symm (erc20Deployed_path_ne_valsetUpdated valid)
      | logicCallExecuted msg' => exact absurd lead (by simp [firstNonDigit])
      | valsetUpdated msg' => exact valsetUpdated_sameEvent valid valid' equal

/-! ### What a hash binds -/

/-- The claims whose text is the text of no other event: not batches, whose height is missing, and only
those deployments that can be told apart. -/
def Binding : EthereumClaim → Prop
  | batchSendToEth _ => False
  | erc20Deployed msg => msg.Unambiguous
  | _ => True

theorem Binding.bound {claim truth : EthereumClaim} (binding : truth.Binding) : claim.Bound truth := by
  cases truth with
  | batchSendToEth => exact binding.elim
  | erc20Deployed => cases claim <;> first | exact binding | trivial
  | sendToCosmos => cases claim <;> trivial
  | logicCallExecuted => cases claim <;> trivial
  | valsetUpdated => cases claim <;> trivial

/-- A batch at another height has the same text. -/
theorem batchSendToEth_not_bound {msg : MsgBatchSendToEthClaim} (valid : msg.validateBasic sdk = .ok ()) :
    ∃ other, EthereumClaim.validateBasic sdk other = .ok () ∧ other.path = (batchSendToEth msg).path ∧
      ¬ other.SameEvent (batchSendToEth msg) := by
  refine ⟨batchSendToEth { msg with blockHeight := if msg.blockHeight = 0 then 1 else 0 }, valid, rfl,
    fun same => ?_⟩
  have heights := getBlockHeight_of_sameEvent same
  simp only [getBlockHeight] at heights
  split_ifs at heights with zero
  · rw [zero] at heights
    cases heights
  · exact zero heights.symm

/-- A deployment whose texts cannot be told apart has the text of another one. -/
theorem erc20Deployed_not_bound {msg : MsgERC20DeployedClaim} (valid : msg.validateBasic sdk = .ok ())
    (ambiguous : ¬ msg.Unambiguous) :
    ∃ other, EthereumClaim.validateBasic sdk other = .ok () ∧ other.path = (erc20Deployed msg).path ∧
      ¬ other.SameEvent (erc20Deployed msg) := by
  obtain ⟨denom, token, name, symbol, address, equal, different⟩ :=
    MsgERC20DeployedClaim.exists_texts_eq (msg.token_of_validateBasic valid) ambiguous
  refine ⟨erc20Deployed { msg with
    cosmosDenom := denom, tokenContract := token, name := name, symbol := symbol }, ?_, ?_, fun same => ?_⟩
  · obtain ⟨_, rest⟩ := check_bind_eq_ok.mp valid
    refine check_bind_eq_ok.mpr ⟨?_, rest⟩
    rw [checkEthAddress, address]
    rfl
  · rw [path_erc20Deployed, path_erc20Deployed, equal]
  · simp only [SameEvent, MsgERC20DeployedClaim.mk.injEq] at same
    obtain ⟨_, _, sameDenom, _, sameName, _⟩ := same
    exact different sameDenom sameName

/-- **What a claim hash binds.** A claim is the only event with its hash, among all claims that pass
`ValidateBasic`, exactly when it is not a batch and, if it is a deployment, its texts can be told apart. -/
theorem claimHash_binds_iff {truth : EthereumClaim} (collisionFree : Function.Injective sdk.tmhash)
    (bech32 : ∀ text address, sdk.accAddressFromBech32 text = some address → 47 ∉ text)
    (valid : truth.validateBasic sdk = .ok ()) :
    (∀ claim : EthereumClaim, claim.validateBasic sdk = .ok () →
      claim.claimHash sdk = truth.claimHash sdk → claim.SameEvent truth) ↔ truth.Binding := by
  constructor
  · intro binds
    have unique : ¬ ∃ other : EthereumClaim, other.validateBasic sdk = .ok () ∧
        other.path = truth.path ∧ ¬ other.SameEvent truth := by
      rintro ⟨other, valid', equal, different⟩
      exact different (binds other valid' (congrArg sdk.tmhash equal))
    cases truth with
    | batchSendToEth msg => exact unique (batchSendToEth_not_bound valid)
    | erc20Deployed msg =>
        by_contra ambiguous
        exact unique (erc20Deployed_not_bound valid ambiguous)
    | sendToCosmos => trivial
    | logicCallExecuted => trivial
    | valsetUpdated => trivial
  · intro binding claim valid' equal
    exact path_sameEvent bech32 valid' valid binding.bound (collisionFree equal)

end Types

/-! ### Claims with one hash -/

/-- A deployment with the given name and symbol. -/
def exampleDeployment (name symbol : Bytes) : EthereumClaim :=
  erc20Deployed ⟨7, 100, ascii "unom", ascii "0x1111111111111111111111111111111111111111", name, symbol,
    18, ascii "cosmos1qyqszqgpqyqszqgpqyqszqgpqyqszqgpjnp7du"⟩

theorem plain_deployment_bound :
    (exampleDeployment (ascii "a") (ascii "b")).Binding ∧
      ∀ claim : EthereumClaim, claim.validateBasic exampleSdk = .ok () →
        claim.claimHash exampleSdk = (exampleDeployment (ascii "a") (ascii "b")).claimHash exampleSdk →
        claim.SameEvent (exampleDeployment (ascii "a") (ascii "b")) := by
  have binding : (exampleDeployment (ascii "a") (ascii "b")).Binding := by
    show MsgERC20DeployedClaim.Unambiguous _
    refine ⟨by decide, by decide, ?_⟩
    decide +kernel
  exact ⟨binding, (claimHash_binds_iff Function.injective_id exampleSdk_slash_free
    (by decide +kernel)).mpr binding⟩

/-- **A slash can belong to the name or to the symbol.** -/
theorem slash_moves :
    (exampleDeployment (ascii "a/b") (ascii "c")).validateBasic exampleSdk = .ok () ∧
      (exampleDeployment (ascii "a") (ascii "b/c")).validateBasic exampleSdk = .ok () ∧
      (exampleDeployment (ascii "a/b") (ascii "c")).claimHash exampleSdk =
        (exampleDeployment (ascii "a") (ascii "b/c")).claimHash exampleSdk ∧
      ¬ (exampleDeployment (ascii "a/b") (ascii "c")).SameEvent
        (exampleDeployment (ascii "a") (ascii "b/c")) := by
  decide +kernel

end EthereumClaim

end NabBridge
