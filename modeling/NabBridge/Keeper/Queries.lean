/-
**Queries about delegate keys.**

All three collect the registered keys with `GetDelegateKeys`, which sorts them by Ethereum address, and
walk the list for the first one that was asked for. The list is an argument here, since the order of equal
addresses is not determined (`DelegateKeys.Lists`).
-/

import NabBridge.Keeper.Genesis

namespace NabBridge

/-- The errors of the queries. -/
inductive QueryError where
  /-- the address in the request does not parse -/
  | invalidAddress (text : Bytes)
  /-- wrapped as `invalid eth address` -/
  | ethAddress (reason : AddressError)
  /-- `No validator` -/
  | noValidator
  deriving DecidableEq, Repr

/-- The panics of the queries. -/
inductive QueryPanic where
  /-- `Can't find address` -/
  | cantFindAddress
  /-- `Invalid validator addr in store!` -/
  | invalidValidator (text : Bytes)
  /-- `Invalid orchestrator addr in store!` -/
  | invalidOrchestrator (text : Bytes)
  deriving DecidableEq, Repr

/-- What `GetDelegateKeys` can give: the registered keys, sorted by Ethereum address, or its panic. -/
def DelegateKeys.Lists (sdk : Sdk) (keys : DelegateKeys) :
    Option (List MsgSetOrchestratorAddress) → Prop
  | none => keys.getDelegateKeys sdk = none
  | some listed => ∃ collected, keys.getDelegateKeys sdk = some collected ∧ listed.Perm collected ∧
      listed.Pairwise fun first second => keyBytes first.ethAddress ≤ keyBytes second.ethAddress

/-- The loop of the first two queries: every text that is passed has to parse. -/
def findDelegateKey (parse : Bytes → Option Bytes) (text : MsgSetOrchestratorAddress → Bytes)
    (invalid : Bytes → QueryPanic) (wanted : Bytes) :
    List MsgSetOrchestratorAddress → Outcome QueryError QueryPanic MsgSetOrchestratorAddress
  | [] => .error .noValidator
  | key :: rest =>
      match parse (text key) with
      | none => .panic (invalid (text key))
      | some address =>
          if wanted = address then .ok key else findDelegateKey parse text invalid wanted rest

/-- `GetDelegateKeyByValidator` -/
def getDelegateKeyByValidator (sdk : Sdk) (listed : Option (List MsgSetOrchestratorAddress))
    (validatorAddress : Bytes) : Outcome QueryError QueryPanic MsgSetOrchestratorAddress :=
  match listed with
  | none => .panic .cantFindAddress
  | some keys =>
      match sdk.valAddressFromBech32 validatorAddress with
      | none => .error (.invalidAddress validatorAddress)
      | some wanted => findDelegateKey sdk.valAddressFromBech32 MsgSetOrchestratorAddress.validator
          .invalidValidator wanted keys

/-- `GetDelegateKeyByOrchestrator` -/
def getDelegateKeyByOrchestrator (sdk : Sdk) (listed : Option (List MsgSetOrchestratorAddress))
    (orchestratorAddress : Bytes) : Outcome QueryError QueryPanic MsgSetOrchestratorAddress :=
  match listed with
  | none => .panic .cantFindAddress
  | some keys =>
      match sdk.accAddressFromBech32 orchestratorAddress with
      | none => .error (.invalidAddress orchestratorAddress)
      | some wanted => findDelegateKey sdk.accAddressFromBech32
          MsgSetOrchestratorAddress.orchestrator .invalidOrchestrator wanted keys

/-- `GetDelegateKeyByEth`; the texts are compared as they are. -/
def getDelegateKeyByEth (listed : Option (List MsgSetOrchestratorAddress)) (ethAddress : Bytes) :
    Outcome QueryError QueryPanic MsgSetOrchestratorAddress :=
  match listed with
  | none => .panic .cantFindAddress
  | some keys =>
      match validateEthAddress ethAddress with
      | .error reason => .error (.ethAddress reason)
      | .ok () =>
          match keys.find? fun key => ethAddress = key.ethAddress with
          | none => .error .noValidator
          | some key => .ok key

/-- The loop does not panic over texts that parse. -/
theorem findDelegateKey_ne_panic {parse : Bytes → Option Bytes}
    {text : MsgSetOrchestratorAddress → Bytes} {invalid : Bytes → QueryPanic}
    {keys : List MsgSetOrchestratorAddress}
    (parses : ∀ key ∈ keys, (parse (text key)).isSome = true) (wanted : Bytes) (reason : QueryPanic) :
    findDelegateKey parse text invalid wanted keys ≠ .panic reason := by
  induction keys with
  | nil => exact fun bad => by cases bad
  | cons key rest ih =>
      obtain ⟨address, parsed⟩ := Option.isSome_iff_exists.mp (parses key List.mem_cons_self)
      rw [findDelegateKey, parsed]
      show (if wanted = address then _ else _) ≠ _
      split_ifs
      · exact fun bad => by cases bad
      · exact ih fun other member => parses other (List.mem_cons_of_mem _ member)

end NabBridge
