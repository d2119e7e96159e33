/-
**The two lookups between denoms and contracts.**

A deployed ERC20 is entered into two indices that are each other's inverse (`DenomIndex.Inverse`), as long
as no contract is deployed twice. The lookups over them are not: `DenomToERC20Lookup` takes a voucher denom
apart before it looks into the index, `ERC20ToDenomLookup` looks into the index before it makes a voucher
denom. They disagree on the voucher denom of a registered contract and on a contract that is registered for
a voucher denom, and agree elsewhere (`outAndBack_iff`, `backAndOut_iff`).

Nothing keeps a voucher denom out of the index, if the bank has metadata for it.
-/

import NabBridge.Keeper.AttestationHandler
import NabBridge.Lib.Run
import NabBridge.Proof.Conservation
import NabBridge.Types.ClaimHash

namespace NabBridge

namespace DenomIndex

/-! ### The indices -/

/-- The two indices hold the same pairs. -/
def Inverse (index : DenomIndex) : Prop :=
  ∀ denom contract, index.getCosmosOriginatedERC20 denom = some contract ↔
    index.getCosmosOriginatedDenom contract = some denom

/-- Registered contracts are addresses. -/
def Contracts (index : DenomIndex) : Prop :=
  ∀ contract denom, index.getCosmosOriginatedDenom contract = some denom →
    validateEthAddress contract = .ok ()

/-- No contract is registered. -/
def Unregistered (index : DenomIndex) : Prop :=
  ∀ contract, index.getCosmosOriginatedDenom contract = none

theorem getCosmosOriginatedERC20_set (index : DenomIndex) (denom contract other : Bytes) :
    (index.setCosmosOriginatedDenomToERC20 denom contract).getCosmosOriginatedERC20 other =
      if other = denom then some contract else index.getCosmosOriginatedERC20 other := by
  unfold getCosmosOriginatedERC20 setCosmosOriginatedDenomToERC20
  simp only [Store.get_set, getDenomToERC20Key_inj]

theorem getCosmosOriginatedDenom_set (index : DenomIndex) (denom contract other : Bytes) :
    (index.setCosmosOriginatedDenomToERC20 denom contract).getCosmosOriginatedDenom other =
      if other = contract then some denom else index.getCosmosOriginatedDenom other := by
  unfold getCosmosOriginatedDenom setCosmosOriginatedDenomToERC20
  simp only [Store.get_set, getERC20ToDenomKey_inj]

theorem inverse_empty : DenomIndex.empty.Inverse := fun _ _ =>
  ⟨fun found => (by cases found), fun found => (by cases found)⟩

/-- **A new pair** keeps the indices inverse. -/
theorem Inverse.set {index : DenomIndex} (inverse : index.Inverse) {denom contract : Bytes}
    (unset : index.getCosmosOriginatedERC20 denom = none)
    (fresh : index.getCosmosOriginatedDenom contract = none) :
    (index.setCosmosOriginatedDenomToERC20 denom contract).Inverse := by
  intro other address
  rw [getCosmosOriginatedERC20_set, getCosmosOriginatedDenom_set]
  by_cases sameDenom : other = denom
  · subst sameDenom
    rw [if_pos rfl]
    by_cases sameContract : address = contract
    · rw [if_pos sameContract, sameContract]
      exact ⟨fun _ => rfl, fun _ => rfl⟩
    · rw [if_neg sameContract, ← inverse, unset]
      exact ⟨fun same => absurd (Option.some.inj same).symm sameContract, fun found => (by cases found)⟩
  · rw [if_neg sameDenom]
    by_cases sameContract : address = contract
    · rw [if_pos sameContract, sameContract, inverse, fresh]
      exact ⟨fun found => (by cases found), fun same => absurd (Option.some.inj same).symm sameDenom⟩
    · rw [if_neg sameContract]
      exact inverse other address

/-! ### The lookups -/

variable {index : DenomIndex}

/-- What the way out finds for a denom, the way back turns into the denom again. -/
def OutAndBack (index : DenomIndex) (denom : Bytes) : Prop :=
  ∀ isCosmosOriginated contract,
    index.denomToERC20Lookup denom = .ok (isCosmosOriginated, contract) →
    index.erc20ToDenomLookup contract = (isCosmosOriginated, denom)

/-- What the way back finds for a contract, the way out turns into the contract again. -/
def BackAndOut (index : DenomIndex) (contract : Bytes) : Prop :=
  ∀ isCosmosOriginated denom, index.erc20ToDenomLookup contract = (isCosmosOriginated, denom) →
    index.denomToERC20Lookup denom = .ok (isCosmosOriginated, contract)

theorem denomToERC20Lookup_voucher {contract : Bytes} (valid : validateEthAddress contract = .ok ()) :
    index.denomToERC20Lookup (gravityDenom contract) = .ok (false, contract) := by
  unfold denomToERC20Lookup
  rw [gravityDenomToERC20_gravityDenom valid]

theorem denomToERC20Lookup_of_not_voucher {denom contract : Bytes}
    (other : ∀ address, gravityDenomToERC20 denom ≠ .ok address)
    (registered : index.getCosmosOriginatedERC20 denom = some contract) :
    index.denomToERC20Lookup denom = .ok (true, contract) := by
  unfold denomToERC20Lookup
  cases shape : gravityDenomToERC20 denom with
  | ok address => exact absurd shape (other address)
  | error reason => simp only [registered]

theorem erc20ToDenomLookup_of_some {contract denom : Bytes}
    (registered : index.getCosmosOriginatedDenom contract = some denom) :
    index.erc20ToDenomLookup contract = (true, denom) := by
  unfold erc20ToDenomLookup
  rw [registered]

theorem erc20ToDenomLookup_of_none {contract : Bytes}
    (fresh : index.getCosmosOriginatedDenom contract = none) :
    index.erc20ToDenomLookup contract = (false, gravityDenom contract) := by
  unfold erc20ToDenomLookup
  rw [fresh]

/-- **Out and back**: fails for the voucher denom of a registered contract. -/
theorem Inverse.outAndBack_iff (inverse : index.Inverse) (denom : Bytes) :
    index.OutAndBack denom ↔ ∀ contract, gravityDenomToERC20 denom = .ok contract →
      index.getCosmosOriginatedDenom contract = none := by
  constructor
  · intro back contract voucher
    obtain ⟨rfl, valid⟩ := (gravityDenomToERC20_eq_ok_iff denom contract).mp voucher
    have found := back false contract (denomToERC20Lookup_voucher valid)
    rw [Option.eq_none_iff_forall_ne_some]
    intro other registered
    rw [erc20ToDenomLookup_of_some registered] at found
    cases found
  · intro fresh isCosmosOriginated contract found
    rcases denomToERC20Lookup_eq_ok found with ⟨rfl, voucher⟩ | ⟨rfl, registered⟩
    · rw [erc20ToDenomLookup_of_none (fresh contract voucher),
        ((gravityDenomToERC20_eq_ok_iff denom contract).mp voucher).1]
    · exact erc20ToDenomLookup_of_some ((inverse denom contract).mp registered)

/-- **Back and out**: fails for a contract that is registered for a voucher denom. -/
theorem Inverse.backAndOut_iff (inverse : index.Inverse) {contract : Bytes}
    (valid : validateEthAddress contract = .ok ()) :
    index.BackAndOut contract ↔ ∀ denom, index.getCosmosOriginatedDenom contract = some denom →
      ∀ address, gravityDenomToERC20 denom ≠ .ok address := by
  constructor
  · intro out denom registered address shape
    have found := out true denom (erc20ToDenomLookup_of_some registered)
    obtain ⟨rfl, there⟩ := (gravityDenomToERC20_eq_ok_iff denom address).mp shape
    rw [denomToERC20Lookup_voucher there] at found
    cases found
  · intro other isCosmosOriginated denom found
    cases registered : index.getCosmosOriginatedDenom contract with
    | none =>
        rw [erc20ToDenomLookup_of_none registered] at found
        obtain ⟨rfl, rfl⟩ := Prod.mk.inj found
        exact denomToERC20Lookup_voucher valid
    | some known =>
        rw [erc20ToDenomLookup_of_some registered] at found
        obtain ⟨rfl, rfl⟩ := Prod.mk.inj found
        exact denomToERC20Lookup_of_not_voucher (other known registered)
          ((inverse known contract).mpr registered)

/-- **All lookups agree** where nothing is registered. -/
theorem Inverse.lookups_agree_iff (inverse : index.Inverse) (contracts : index.Contracts) :
    ((∀ denom, index.OutAndBack denom) ∧
        ∀ contract, validateEthAddress contract = .ok () → index.BackAndOut contract) ↔
      index.Unregistered := by
  constructor
  · rintro ⟨back, _⟩ contract
    rw [Option.eq_none_iff_forall_ne_some]
    intro denom registered
    have fresh := (inverse.outAndBack_iff (gravityDenom contract)).mp (back _) contract
      (gravityDenomToERC20_gravityDenom (contracts contract denom registered))
    rw [registered] at fresh
    cases fresh
  · intro unregistered
    refine ⟨fun denom => (inverse.outAndBack_iff denom).mpr fun contract _ => unregistered contract,
      fun contract valid => (inverse.backAndOut_iff valid).mpr fun denom registered => ?_⟩
    rw [unregistered contract] at registered
    cases registered

end DenomIndex

/-! ### Observed deployments -/

section Deployments

variable {β : Type} (sdk : Sdk) (bank : BankKeeper β)

/-- A deployment is observed; the bank has any state by then. -/
def deployStep (state : ModuleState β) (input : β × MsgERC20DeployedClaim) :
    Option (ModuleState β × List Empty) :=
  let state := { state with bank := input.1 }
  match input.2.validateBasic sdk with
  | .error _ => some (state, [])
  | .ok () => some ((handleERC20Deployed bank input.2 state).deliver state, [])

/-- The contract has not been registered. -/
def FreshContract (state : ModuleState β) (input : β × MsgERC20DeployedClaim) : Prop :=
  state.index.getCosmosOriginatedDenom input.2.tokenContract = none

instance (state : ModuleState β) (input : β × MsgERC20DeployedClaim) :
    Decidable (FreshContract state input) := by
  unfold FreshContract; infer_instance

/-- The claim is valid, its denom is new, and it matches the metadata of its denom. -/
def Registers (state : ModuleState β) (input : β × MsgERC20DeployedClaim) : Prop :=
  let metadata := bank.getDenomMetaData input.1 input.2.cosmosDenom
  input.2.validateBasic sdk = .ok () ∧
    state.index.getCosmosOriginatedERC20 input.2.cosmosDenom = none ∧ metadata.base ≠ [] ∧
    input.2.name = metadata.display ∧ input.2.symbol = metadata.display ∧
    metadata.decimals = input.2.decimals % 2 ^ 32

variable {sdk bank}

theorem handleERC20Deployed_eq_ok_iff {claim : MsgERC20DeployedClaim} {state after : ModuleState β} :
    handleERC20Deployed bank claim state = .ok after ↔
      let metadata := bank.getDenomMetaData state.bank claim.cosmosDenom
      (state.index.getCosmosOriginatedERC20 claim.cosmosDenom = none ∧ metadata.base ≠ [] ∧
        claim.name = metadata.display ∧ claim.symbol = metadata.display ∧
        metadata.decimals = claim.decimals % 2 ^ 32) ∧
      after = { state with
        index := state.index.setCosmosOriginatedDenomToERC20 claim.cosmosDenom claim.tokenContract } := by
  constructor
  · intro handled
    unfold handleERC20Deployed at handled
    cases unset : state.index.getCosmosOriginatedERC20 claim.cosmosDenom with
    | some existing => simp [unset] at handled
    | none =>
        simp only [unset] at handled
        split_ifs at handled with base name symbol decimals
        exact ⟨⟨rfl, base, not_not.mp name, not_not.mp symbol, not_not.mp decimals⟩,
          (Outcome.ok.inj handled).symm⟩
  · rintro ⟨⟨unset, base, name, symbol, decimals⟩, rfl⟩
    unfold handleERC20Deployed
    simp only [unset, if_neg base, name, symbol, decimals, ne_eq, not_true_eq_false, if_false]

/-- **A step** registers its pair or leaves the indices alone. -/
theorem deployStep_cases {state next : ModuleState β} {input : β × MsgERC20DeployedClaim}
    {outputs : List Empty} (step : deployStep sdk bank state input = some (next, outputs)) :
    ¬ Registers sdk bank state input ∧ next.index = state.index ∨
      Registers sdk bank state input ∧ next.index =
        state.index.setCosmosOriginatedDenomToERC20 input.2.cosmosDenom input.2.tokenContract := by
  unfold deployStep at step
  simp only at step
  split at step
  · rename_i reason invalid
    obtain ⟨rfl, _⟩ := Prod.mk.inj (Option.some.inj step)
    refine Or.inl ⟨fun registers => ?_, rfl⟩
    rw [registers.1] at invalid
    cases invalid
  · rename_i valid
    obtain ⟨rfl, _⟩ := Prod.mk.inj (Option.some.inj step)
    cases handled : handleERC20Deployed bank input.2 { state with bank := input.1 } with
    | ok after =>
        obtain ⟨conditions, rfl⟩ := handleERC20Deployed_eq_ok_iff.mp handled
        exact Or.inr ⟨⟨valid, conditions⟩, rfl⟩
    | error reason =>
        refine Or.inl ⟨fun registers => ?_, rfl⟩
        rw [handleERC20Deployed_eq_ok_iff.mpr ⟨registers.2, rfl⟩] at handled
        cases handled
    | panic reason =>
        refine Or.inl ⟨fun registers => ?_, rfl⟩
        rw [handleERC20Deployed_eq_ok_iff.mpr ⟨registers.2, rfl⟩] at handled
        cases handled

theorem Registers.valid {state : ModuleState β} {input : β × MsgERC20DeployedClaim}
    (registers : Registers sdk bank state input) :
    validateEthAddress input.2.tokenContract = .ok () :=
  MsgERC20DeployedClaim.token_of_validateBasic registers.1

/-- **The lookups over a history of deployments**, each of a contract that is not registered yet. Out and
back, and back and out, the lookups give what they began with exactly away from the voucher denoms of
registered contracts and from the contracts registered for voucher denoms; for all denoms and contracts at
once they do exactly if no deployment was entered. -/
theorem lookups_inverse_iff {start final : ModuleState β} {outputs : List Empty}
    (empty : start.index = DenomIndex.empty) {inputs : List (β × MsgERC20DeployedClaim)}
    (fresh : StepsMeet (deployStep sdk bank) FreshContract start inputs)
    (runs : run (deployStep sdk bank) start inputs = some (final, outputs)) :
    (∀ denom, final.index.OutAndBack denom ↔ ∀ contract, gravityDenomToERC20 denom = .ok contract →
      final.index.getCosmosOriginatedDenom contract = none) ∧
    (∀ contract, validateEthAddress contract = .ok () → (final.index.BackAndOut contract ↔
      ∀ denom, final.index.getCosmosOriginatedDenom contract = some denom →
        ∀ address, gravityDenomToERC20 denom ≠ .ok address)) ∧
    (((∀ denom, final.index.OutAndBack denom) ∧
        ∀ contract, validateEthAddress contract = .ok () → final.index.BackAndOut contract) ↔
      StepsMeet (deployStep sdk bank) (fun state input => ¬ Registers sdk bank state input) start
        inputs) := by
  obtain ⟨inverse, contracts⟩ : final.index.Inverse ∧ final.index.Contracts := by
    refine run_state_invariant_of_meets FreshContract
      (fun state => state.index.Inverse ∧ state.index.Contracts) ?_ fresh ?_ runs
    · rintro state input next outputs fresh ⟨inverse, contracts⟩ step
      rcases deployStep_cases step with ⟨_, same⟩ | ⟨registers, set⟩
      · rw [same]
        exact ⟨inverse, contracts⟩
      · rw [set]
        refine ⟨inverse.set registers.2.1 fresh, fun contract denom found => ?_⟩
        rw [DenomIndex.getCosmosOriginatedDenom_set] at found
        split_ifs at found with same
        · exact same ▸ registers.valid
        · exact contracts contract denom found
    · rw [empty]
      exact ⟨DenomIndex.inverse_empty, fun _ _ found => (by cases found)⟩
  refine ⟨inverse.outAndBack_iff, fun contract valid => inverse.backAndOut_iff valid, ?_⟩
  rw [inverse.lookups_agree_iff contracts]
  refine (good_iff_stepsMeet _ (fun _ => True) (fun state => state.index.Unregistered)
    (fun _ _ _ _ _ _ => trivial) ?_ trivial runs).trans (and_iff_right ?_)
  · intro state input next outputs _ step
    rcases deployStep_cases step with ⟨refused, same⟩ | ⟨registers, set⟩
    · rw [same]
      exact ⟨fun unregistered => ⟨unregistered, refused⟩, And.left⟩
    · rw [set]
      refine ⟨fun unregistered => ?_, fun both => absurd registers both.2⟩
      have found := unregistered input.2.tokenContract
      rw [DenomIndex.getCosmosOriginatedDenom_set, if_pos rfl] at found
      cases found
  · rw [empty]
    exact fun _ => rfl

end Deployments

/-! ### Two deployments -/

section Examples

/-- A bank in which every denom is shown as `NOM`. -/
def exampleNamed : Ledger := { exampleLedger with metadata := fun _ => ⟨[], ascii "nom", ascii "NOM", []⟩ }

/-- An ERC20 is deployed for a denom. -/
def exampleDeployed (denom : Bytes) : List (Ledger × MsgERC20DeployedClaim) :=
  [(exampleNamed, ⟨1, 5, denom, exampleContract, ascii "NOM", ascii "NOM", 0,
    ascii "cosmos1qyqszqgpqyqszqgpqyqszqgpqyqszqgpjnp7du"⟩)]

/-- The machine of the two runs, from an empty store. -/
def exampleDeployRun (denom : Bytes) : Option (ModuleState Ledger × List Empty) :=
  run (deployStep exampleSdk (ledgerBank exampleModuleAccount))
    ⟨exampleNamed, DenomIndex.empty, Outgoing.empty, none⟩ (exampleDeployed denom)

/-- **An ERC20 for a voucher denom**: on the way out the denom is that of another contract, and the voucher
denom of the new contract comes back as something else. -/
theorem voucher_denom_registered : ∃ final outputs,
    exampleDeployRun (gravityDenom (hexOfAddress 2)) = some (final, outputs) ∧
    FreshContract (⟨exampleNamed, DenomIndex.empty, Outgoing.empty, none⟩ : ModuleState Ledger)
      ((exampleDeployed (gravityDenom (hexOfAddress 2))).head (by decide)) ∧
    final.index.erc20ToDenomLookup exampleContract = (true, gravityDenom (hexOfAddress 2)) ∧
    final.index.denomToERC20Lookup (gravityDenom (hexOfAddress 2)) = .ok (false, hexOfAddress 2) ∧
    final.index.denomToERC20Lookup (gravityDenom exampleContract) = .ok (false, exampleContract) := by
  have evaluated : (exampleDeployRun (gravityDenom (hexOfAddress 2))).any (fun result =>
      result.1.index.erc20ToDenomLookup exampleContract = (true, gravityDenom (hexOfAddress 2)) ∧
      result.1.index.denomToERC20Lookup (gravityDenom (hexOfAddress 2)) = .ok (false, hexOfAddress 2) ∧
      result.1.index.denomToERC20Lookup (gravityDenom exampleContract) =
        .ok (false, exampleContract)) = true := by
    decide +kernel
  obtain ⟨⟨final, outputs⟩, runs, facts⟩ := (Option.any_eq_true _ _).mp evaluated
  exact ⟨final, outputs, runs, rfl, of_decide_eq_true facts⟩

/-- An ERC20 for an ordinary denom is found both ways. -/
theorem ordinary_denom_registered : ∃ final outputs,
    exampleDeployRun (ascii "unom") = some (final, outputs) ∧
    final.index.getCosmosOriginatedDenom exampleContract = some (ascii "unom") ∧
    final.index.OutAndBack (ascii "unom") ∧ final.index.BackAndOut exampleContract := by
  have evaluated : (exampleDeployRun (ascii "unom")).any (fun result =>
      result.1.index.getCosmosOriginatedDenom exampleContract = some (ascii "unom")) = true := by
    decide +kernel
  have shape : ∀ address, gravityDenomToERC20 (ascii "unom") ≠ .ok address := by
    have other : gravityDenomToERC20 (ascii "unom") = .error (.prefixed (ascii "unom")) := by
      decide +kernel
    rw [other]
    exact fun _ voucher => by cases voucher
  have fresh : StepsMeet (deployStep exampleSdk (ledgerBank exampleModuleAccount)) FreshContract
      ⟨exampleNamed, DenomIndex.empty, Outgoing.empty, none⟩ (exampleDeployed (ascii "unom")) := by
    decide +kernel
  obtain ⟨⟨final, outputs⟩, runs, registered⟩ := (Option.any_eq_true _ _).mp evaluated
  have registered := of_decide_eq_true registered
  obtain ⟨back, out, _⟩ := lookups_inverse_iff rfl fresh runs
  refine ⟨final, outputs, runs, registered, (back _).mpr fun contract voucher =>
    absurd voucher (shape contract), (out _ (by decide +kernel)).mpr fun denom known => ?_⟩
  obtain rfl := Option.some.inj (registered.symm.trans known)
  exact shape

end Examples

end NabBridge
