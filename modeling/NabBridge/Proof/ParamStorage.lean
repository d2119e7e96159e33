/-
**What the parameter store keeps.**

`SetParams` writes the sixteen listed pairs and `GetParams` reads them, so the one parameter without a
pair comes back as a decimal that was never set. The same happens across an export and an import.

* `setParams_isSome`: parameters that pass `ValidateBasic` are stored;
* `getParams_setParams`: what is read back;
* `params_survive_iff`: all parameters come back exactly if that one was never set.
-/

import NabBridge.Keeper.Genesis
import NabBridge.Keeper.Params

namespace NabBridge

/-! ### The checks -/

/-- The default parameters pass their checks. -/
theorem defaultParams_valid : defaultParams.validateBasic = .ok () := by
  decide +kernel

/-- **Parameters that pass `ValidateBasic` are stored**: every pair makes one of its checks. -/
theorem setParams_eq {p : ModuleParams} (valid : p.validateBasic = .ok ()) (paramSpace : ParamSpace) :
    setParams p paramSpace =
      some (storeFields (paramSetPairs.map ParamSetPair.toField) p paramSpace) := by
  simp only [ModuleParams.validateBasic, wrapParam_bind_eq_ok, wrapParam_eq_ok] at valid
  refine if_pos (List.all_eq_true.mpr fun pair member => ?_)
  suffices passed : pair.validatorFn (pair.read p) = .ok () by
    rw [passed]
    rfl
  simp only [paramSetPairs, List.mem_cons, List.not_mem_nil, or_false] at member
  rcases member with rfl | rfl | rfl | rfl | rfl | rfl | rfl | rfl | rfl | rfl | rfl | rfl | rfl |
    rfl | rfl | rfl
  all_goals simp only [newParamSetPair, valid]

/-! ### The pairs -/

/-- No two pairs have the same key. -/
theorem paramSetPairs_distinct :
    ((paramSetPairs.map ParamSetPair.toField).map Field.key).Nodup := by
  decide +kernel

/-- The pairs cover every field but one. -/
theorem copyFields_paramSetPairs (p : ModuleParams) :
    copyFields (paramSetPairs.map ParamSetPair.toField) p ModuleParams.zero =
      some { p with slashFractionLogicCall := none } := rfl

/-- **What is read back**: all parameters as they were set, except for `SlashFractionLogicCall`. -/
theorem getParams_setParams {p : ModuleParams} (valid : p.validateBasic = .ok ())
    (paramSpace : ParamSpace) :
    (setParams p paramSpace).bind getParams = some { p with slashFractionLogicCall := none } := by
  rw [setParams_eq valid, Option.bind_some, getParams,
    loadFields_storeFields paramSetPairs_distinct, copyFields_paramSetPairs]

theorem withoutLogicCallFraction_eq_iff {p : ModuleParams} :
    some { p with slashFractionLogicCall := none } = some p ↔ p.slashFractionLogicCall = none := by
  constructor
  · intro same
    exact (congrArg ModuleParams.slashFractionLogicCall (Option.some.inj same)).symm
  · intro unset
    rw [← unset]

/-! ### Export and import -/

section Genesis

variable {β : Type}

/-- `InitGenesis` with the parameter store, which only its first step writes; `none` is a panic. -/
def importGenesis (sdk : Sdk) (geth : Geth) (params : ModuleParams) (data : GenesisState) (bank : β) :
    Option (KeeperState β × ParamSpace) := do
  let paramSpace ← setParams params Store.empty
  match initGenesis sdk geth params.valsetReward { data with params := params.toParams } bank with
  | .ok state => some (state, paramSpace)
  | .error _ | .panic _ => none

/-- The parameters of `ExportGenesis`. -/
def exportGenesisParams (paramSpace : ParamSpace) : Option ModuleParams := getParams paramSpace

theorem importGenesis_params {sdk : Sdk} {geth : Geth} {params : ModuleParams} {data : GenesisState}
    {bank : β} {state : KeeperState β} {paramSpace : ParamSpace}
    (started : importGenesis sdk geth params data bank = some (state, paramSpace)) :
    setParams params Store.empty = some paramSpace := by
  unfold importGenesis at started
  obtain ⟨written, stored, rest⟩ := Option.bind_eq_some_iff.mp started
  split at rest
  · cases rest
    exact stored
  · cases rest
  · cases rest

end Genesis

/-- Parameters survive storage: they come back from the store, and an import exports them again. -/
def ParamsSurvive (p : ModuleParams) : Prop :=
  (∀ paramSpace, (setParams p paramSpace).bind getParams = some p) ∧
  ∀ {β : Type} (sdk : Sdk) (geth : Geth) (data : GenesisState) (bank : β) (state : KeeperState β)
    (paramSpace : ParamSpace), importGenesis sdk geth p data bank = some (state, paramSpace) →
    exportGenesisParams paramSpace = some p

/-- **When parameters survive storage**: exactly if `SlashFractionLogicCall` was never set. -/
theorem params_survive_iff {p : ModuleParams} (valid : p.validateBasic = .ok ()) :
    ParamsSurvive p ↔ p.slashFractionLogicCall = none := by
  constructor
  · rintro ⟨stored, -⟩
    exact withoutLogicCallFraction_eq_iff.mp ((getParams_setParams valid Store.empty).symm.trans
      (stored Store.empty))
  · intro unset
    have readBack := fun paramSpace => (getParams_setParams valid paramSpace).trans
      (withoutLogicCallFraction_eq_iff.mpr unset)
    refine ⟨readBack, fun sdk geth data bank state paramSpace started => ?_⟩
    have again := readBack Store.empty
    rwa [importGenesis_params started] at again

/-- The default parameters without the fraction survive. -/
theorem params_survive_unset : ParamsSurvive { defaultParams with slashFractionLogicCall := none } :=
  (params_survive_iff (by decide +kernel)).mpr rfl

/-- **The default parameters do not survive**: the fraction for logic calls is lost. -/
theorem defaultParams_lost :
    defaultParams.validateBasic = .ok () ∧
    (setParams defaultParams Store.empty).bind getParams =
      some { defaultParams with slashFractionLogicCall := none } ∧
    ¬ ParamsSurvive defaultParams := by
  have lost := getParams_setParams defaultParams_valid Store.empty
  refine ⟨defaultParams_valid, lost, fun survive => ?_⟩
  cases withoutLogicCallFraction_eq_iff.mp (lost.symm.trans (survive.1 Store.empty))

end NabBridge
