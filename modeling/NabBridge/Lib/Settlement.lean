/-
**Settling batches on another ledger.**

A sender stores batches; a ledger accepts them, each before its timeout and with a nonce above the last
one accepted for its token; and the sender observes the ledger's log entry by entry. Two rules let the
sender give up a batch: another batch of its token with a higher nonce was observed, or its timeout lies
strictly below the block of the last observed entry, the `horizon`.

The two sides move independently, and the ledger may be far ahead of what is observed. `Safe` is what
holds after any interleaving (`Safe.of_steps`):

* `Safe.once`: no batch is accepted twice;
* `Safe.not_accepted_of_abandoned`: a batch that was given up is not on the ledger;
* `Safe.opened_of_next`: a batch whose acceptance is observed next has not been given up.
-/

import Mathlib.Data.Set.Insert
import Mathlib.Logic.Function.Basic
import Mathlib.Logic.Relation
import Mathlib.Data.List.Pairwise

namespace NabBridge

/-- What the two sides read off a batch. -/
structure Terms (B T : Type) where
  token : B → T
  nonce : B → Nat
  timeout : B → Nat

/-- The state of the two sides. -/
structure Settlement (B T : Type) where
  /-- every batch the sender ever stored -/
  stored : Set B
  /-- the batches the sender still waits for -/
  opened : Set B
  /-- the ledger's log: the batch of an entry, if it accepts one, and its block -/
  log : List (Option B × Nat)
  /-- how many entries the sender has observed -/
  observed : Nat
  /-- the last nonce accepted for each token -/
  last : T → Nat
  /-- the ledger's current block -/
  block : Nat

namespace Settlement

variable {B T : Type} {terms : Terms B T} {state next : Settlement B T}

/-- The block of the last observed entry. -/
def horizon (state : Settlement B T) : Nat :=
  ((state.log.take state.observed).getLast?.map Prod.snd).getD 0

/-- The batches that have been accepted, in order. -/
def accepted (state : Settlement B T) : List B := state.log.filterMap Prod.fst

/-- The batches whose acceptance has been observed. -/
def settled (state : Settlement B T) : List B := (state.log.take state.observed).filterMap Prod.fst

/-- The batches that were given up. -/
def abandoned (state : Settlement B T) : Set B :=
  {batch | batch ∈ state.stored ∧ batch ∉ state.opened ∧ batch ∉ state.settled}

/-- Observing `done` closes a batch: it is `done`, or an earlier batch of its token. -/
def Closes (terms : Terms B T) (done batch : B) : Prop :=
  batch = done ∨ (terms.nonce batch < terms.nonce done ∧ terms.token batch = terms.token done)

/-- One step of either side. -/
inductive Step [DecidableEq T] (terms : Terms B T) (state : Settlement B T) : Settlement B T → Prop
  | store (batch : B) (new : batch ∉ state.stored) :
      Step terms state
        { state with stored := insert batch state.stored, opened := insert batch state.opened }
  | accept (batch : B) (known : batch ∈ state.stored)
      (higher : state.last (terms.token batch) < terms.nonce batch)
      (early : state.block < terms.timeout batch) :
      Step terms state
        { state with
          log := state.log ++ [(some batch, state.block)]
          last := Function.update state.last (terms.token batch) (terms.nonce batch) }
  | other : Step terms state { state with log := state.log ++ [(none, state.block)] }
  | mine (block : Nat) (later : state.block ≤ block) : Step terms state { state with block := block }
  | observe (entry : Option B × Nat) (at_observed : state.log[state.observed]? = some entry) :
      Step terms state
        { state with
          observed := state.observed + 1
          opened := {batch | batch ∈ state.opened ∧
            ∀ done, entry.1 = some done → ¬ Closes terms done batch} }
  | expire :
      Step terms state
        { state with
          opened := {batch | batch ∈ state.opened ∧ ¬ terms.timeout batch < state.horizon} }

/-- The state before anything happened. -/
def initial (B : Type) {T : Type} (block : Nat) : Settlement B T := ⟨∅, ∅, [], 0, fun _ => 0, block⟩

/-- What holds in every state that is reached. -/
structure Safe (terms : Terms B T) (state : Settlement B T) : Prop where
  observed_le : state.observed ≤ state.log.length
  blocks : state.log.Pairwise fun first second => first.2 ≤ second.2
  past : ∀ entry ∈ state.log, entry.2 ≤ state.block
  opened_stored : state.opened ⊆ state.stored
  accepted_stored : ∀ batch ∈ state.accepted, batch ∈ state.stored
  in_time : ∀ batch block, (some batch, block) ∈ state.log → block < terms.timeout batch
  nonce_le_last : ∀ batch ∈ state.accepted, terms.nonce batch ≤ state.last (terms.token batch)
  increasing : state.accepted.Pairwise fun first second =>
    terms.token first = terms.token second → terms.nonce first < terms.nonce second
  waiting : ∀ batch ∈ (state.log.drop state.observed).filterMap Prod.fst, batch ∈ state.opened
  settled_closed : ∀ batch ∈ state.settled, batch ∉ state.opened
  dead : ∀ batch ∈ state.abandoned, batch ∉ state.accepted ∧
    (terms.timeout batch < state.horizon ∨
      terms.nonce batch < state.last (terms.token batch))

/-! ### What safety gives -/

theorem accepted_eq (state : Settlement B T) :
    state.accepted = state.settled ++ (state.log.drop state.observed).filterMap Prod.fst := by
  rw [accepted, settled, ← List.filterMap_append, List.take_append_drop]

theorem mem_accepted_of_settled {batch : B} (member : batch ∈ state.settled) :
    batch ∈ state.accepted := by
  rw [accepted_eq]
  exact List.mem_append_left _ member

/-- **No batch is accepted twice.** -/
theorem Safe.once (safe : Safe terms state) : state.accepted.Nodup := by
  refine safe.increasing.imp ?_
  rintro first second lower rfl
  exact lt_irrefl _ (lower rfl)

/-- **What was given up is not on the ledger.** -/
theorem Safe.not_accepted_of_abandoned (safe : Safe terms state) {batch : B}
    (gone : batch ∈ state.abandoned) : batch ∉ state.accepted := (safe.dead batch gone).1

/-- **A batch that is observed next is still waited for.** -/
theorem Safe.opened_of_next (safe : Safe terms state) {batch : B} {block : Nat}
    (found : state.log[state.observed]? = some (some batch, block)) : batch ∈ state.opened := by
  obtain ⟨bound, found⟩ := List.getElem?_eq_some_iff.mp found
  refine safe.waiting batch ?_
  rw [List.drop_eq_getElem_cons bound, found]
  exact List.mem_cons_self

/-- An accepted batch is settled or waited for. -/
theorem Safe.settled_or_opened (safe : Safe terms state) {batch : B}
    (member : batch ∈ state.accepted) : batch ∈ state.settled ∨ batch ∈ state.opened := by
  rw [accepted_eq] at member
  exact (List.mem_append.mp member).imp_right (safe.waiting batch)

/-- The horizon does not run ahead of an entry that is not observed yet. -/
theorem Safe.horizon_le (safe : Safe terms state) {entry : Option B × Nat}
    (member : entry ∈ state.log.drop state.observed) : state.horizon ≤ entry.2 := by
  unfold horizon
  cases last : (state.log.take state.observed).getLast? with
  | none => exact Nat.zero_le _
  | some previous =>
      have ordered := safe.blocks
      rw [← List.take_append_drop state.observed state.log, List.pairwise_append] at ordered
      exact ordered.2.2 previous (List.mem_of_getLast? last) entry member

theorem Safe.horizon_le_block (safe : Safe terms state) : state.horizon ≤ state.block := by
  unfold horizon
  cases last : (state.log.take state.observed).getLast? with
  | none => exact Nat.zero_le _
  | some previous =>
      exact safe.past previous (List.mem_of_mem_take (List.mem_of_getLast? last))

/-- Nothing the sender remembers changes when the log grows. -/
theorem take_append_of_le {log : List (Option B × Nat)} {observed : Nat}
    (bound : observed ≤ log.length) (entry : Option B × Nat) :
    (log ++ [entry]).take observed = log.take observed :=
  List.take_append_of_le_length bound

/-- What is observed grows by the entry. -/
theorem take_observe {entry : Option B × Nat} (found : state.log[state.observed]? = some entry) :
    (state.log.take (state.observed + 1)) = state.log.take state.observed ++ [entry] := by
  rw [List.take_add_one, found]
  rfl

/-- What is settled after an observation. -/
theorem settled_observe {entry : Option B × Nat}
    (found : state.log[state.observed]? = some entry) :
    (state.log.take (state.observed + 1)).filterMap Prod.fst = state.settled ++ entry.1.toList := by
  rw [take_observe found, List.filterMap_append, settled]
  obtain ⟨slot, block⟩ := entry
  cases slot <;> rfl

/-- The horizon after an observation. -/
theorem horizon_observe {entry : Option B × Nat} (found : state.log[state.observed]? = some entry) :
    ((state.log.take (state.observed + 1)).getLast?.map Prod.snd).getD 0 = entry.2 := by
  rw [take_observe found, List.getLast?_concat]
  rfl

/-! ### Every step is safe -/

theorem Safe.store (safe : Safe terms state) {batch : B} (new : batch ∉ state.stored) :
    Safe terms { state with
      stored := insert batch state.stored, opened := insert batch state.opened } := by
  have notAccepted : batch ∉ state.accepted := fun member => new (safe.accepted_stored batch member)
  exact {
    safe with
    opened_stored := Set.insert_subset_insert safe.opened_stored
    accepted_stored := fun other member => Set.mem_insert_of_mem _ (safe.accepted_stored other member)
    waiting := fun other member => Set.mem_insert_of_mem _ (safe.waiting other member)
    settled_closed := fun other member opened => by
      rcases Set.mem_insert_iff.mp opened with rfl | old
      · exact notAccepted (mem_accepted_of_settled member)
      · exact safe.settled_closed other member old
    dead := fun other gone => by
      obtain ⟨known, closed, unsettled⟩ := gone
      obtain ⟨different, closed⟩ := not_or.mp closed
      rcases Set.mem_insert_iff.mp known with rfl | old
      · exact absurd rfl different
      · exact safe.dead other ⟨old, closed, unsettled⟩ }

/-- An entry for nothing the sender waits for. -/
theorem Safe.other (safe : Safe terms state) :
    Safe terms { state with log := state.log ++ [(none, state.block)] } := by
  have same : (state.log ++ [(none, state.block)]).filterMap Prod.fst = state.accepted := by
    simp [accepted]
  have observedSame := take_append_of_le safe.observed_le (none, state.block)
  exact {
    safe with
    observed_le := safe.observed_le.trans (by simp)
    blocks := List.pairwise_append.mpr ⟨safe.blocks, List.pairwise_singleton _ _,
      fun entry old new' new => List.mem_singleton.mp new ▸ safe.past entry old⟩
    past := fun entry member => (List.mem_append.mp member).elim (safe.past entry)
      fun new => (congrArg Prod.snd (List.mem_singleton.mp new)).le
    accepted_stored := fun batch member => safe.accepted_stored batch (same ▸ member)
    in_time := fun batch block member => (List.mem_append.mp member).elim
      (safe.in_time batch block) fun new => by simp at new
    nonce_le_last := fun batch member => safe.nonce_le_last batch (same ▸ member)
    increasing := by
      simp only [accepted, same]
      exact safe.increasing
    waiting := fun batch member => by
      rw [List.drop_append_of_le_length safe.observed_le, List.filterMap_append] at member
      exact (List.mem_append.mp member).elim (safe.waiting batch) fun new => by simp at new
    settled_closed := fun batch member => by
      simp only [settled, observedSame] at member
      exact safe.settled_closed batch member
    dead := fun batch gone => by
      simp only [abandoned, settled, observedSame, Set.mem_ofPred_eq] at gone
      simp only [accepted, horizon, observedSame, same]
      exact safe.dead batch gone }

/-- **The ledger accepts only what the sender waits for.** -/
theorem Safe.opened_of_acceptable (safe : Safe terms state) {batch : B} (known : batch ∈ state.stored)
    (higher : state.last (terms.token batch) < terms.nonce batch)
    (early : state.block < terms.timeout batch) : batch ∈ state.opened := by
  by_contra closed
  by_cases observed : batch ∈ state.settled
  · have low := safe.nonce_le_last batch (mem_accepted_of_settled observed)
    omega
  · rcases (safe.dead batch ⟨known, closed, observed⟩).2 with late | low
    · have bound := safe.horizon_le_block
      omega
    · omega

theorem Safe.accept [DecidableEq T] (safe : Safe terms state) {batch : B} (known : batch ∈ state.stored)
    (higher : state.last (terms.token batch) < terms.nonce batch)
    (early : state.block < terms.timeout batch) :
    Safe terms { state with
      log := state.log ++ [(some batch, state.block)]
      last := Function.update state.last (terms.token batch) (terms.nonce batch) } := by
  have opened := safe.opened_of_acceptable known higher early
  have grown : (state.log ++ [(some batch, state.block)]).filterMap Prod.fst =
      state.accepted ++ [batch] := by
    simp [accepted]
  have observedSame := take_append_of_le safe.observed_le (some batch, state.block)
  -- the last nonces only go up
  have raised : ∀ token,
      state.last token ≤ Function.update state.last (terms.token batch) (terms.nonce batch) token := by
    intro token
    by_cases same : token = terms.token batch
    · rw [same, Function.update_self]
      exact higher.le
    · rw [Function.update_of_ne same]
  exact {
    safe with
    observed_le := safe.observed_le.trans (by simp)
    blocks := List.pairwise_append.mpr ⟨safe.blocks, List.pairwise_singleton _ _,
      fun entry old new' new => List.mem_singleton.mp new ▸ safe.past entry old⟩
    past := fun entry member => (List.mem_append.mp member).elim (safe.past entry)
      fun new => (congrArg Prod.snd (List.mem_singleton.mp new)).le
    accepted_stored := fun other member => by
      simp only [accepted, grown] at member
      rcases List.mem_append.mp member with old | new
      · exact safe.accepted_stored other old
      · exact List.mem_singleton.mp new ▸ known
    in_time := fun other block member => by
      rcases List.mem_append.mp member with old | new
      · exact safe.in_time other block old
      · obtain ⟨same, rfl⟩ := Prod.mk.inj (List.mem_singleton.mp new)
        exact Option.some.inj same ▸ early
    nonce_le_last := fun other member => by
      simp only [accepted, grown] at member
      rcases List.mem_append.mp member with old | new
      · exact (safe.nonce_le_last other old).trans (raised _)
      · rw [List.mem_singleton.mp new]
        exact (Function.update_self _ _ state.last).ge
    increasing := by
      simp only [accepted, grown]
      refine List.pairwise_append.mpr ⟨safe.increasing, List.pairwise_singleton _ _, ?_⟩
      intro first old second new same
      rw [List.mem_singleton.mp new] at same ⊢
      exact (same ▸ safe.nonce_le_last first old).trans_lt higher
    waiting := fun other member => by
      rw [List.drop_append_of_le_length safe.observed_le, List.filterMap_append] at member
      rcases List.mem_append.mp member with old | new
      · exact safe.waiting other old
      · have same : other = batch := by simpa using new
        exact same ▸ opened
    settled_closed := fun other member => by
      simp only [settled, observedSame] at member
      exact safe.settled_closed other member
    dead := fun other gone => by
      simp only [abandoned, settled, observedSame, Set.mem_ofPred_eq] at gone
      simp only [accepted, horizon, observedSame, grown]
      obtain ⟨absent, reason⟩ := safe.dead other gone
      refine ⟨fun member => ?_, reason.imp_right fun low => low.trans_le (raised _)⟩
      rcases List.mem_append.mp member with old | new
      · exact absent old
      · exact gone.2.1 (List.mem_singleton.mp new ▸ opened) }

theorem Safe.mine (safe : Safe terms state) {block : Nat} (later : state.block ≤ block) :
    Safe terms { state with block := block } :=
  { safe with past := fun entry member => (safe.past entry member).trans later }

/-- The horizon moves up to the entry that is observed. -/
theorem Safe.horizon_le_observe (safe : Safe terms state) {entry : Option B × Nat}
    (found : state.log[state.observed]? = some entry) : state.horizon ≤ entry.2 := by
  obtain ⟨bound, found⟩ := List.getElem?_eq_some_iff.mp found
  refine safe.horizon_le ?_
  rw [List.drop_eq_getElem_cons bound, found]
  exact List.mem_cons_self

/-- **Observing keeps the two sides together**: what it closes besides the batch itself has a lower
nonce than a batch of its token on the ledger, and is not on the ledger. -/
theorem Safe.observe (safe : Safe terms state) {entry : Option B × Nat}
    (found : state.log[state.observed]? = some entry) :
    Safe terms { state with
      observed := state.observed + 1
      opened := {batch | batch ∈ state.opened ∧
        ∀ done, entry.1 = some done → ¬ Closes terms done batch} } := by
  obtain ⟨bound, foundAt⟩ := List.getElem?_eq_some_iff.mp found
  have rest : state.log.drop state.observed = entry :: state.log.drop (state.observed + 1) := by
    rw [List.drop_eq_getElem_cons bound, foundAt]
  have horizonIs := horizon_observe found
  have settledIs := settled_observe found
  -- a batch observed later is of another token or has a higher nonce
  have later : ∀ done, entry.1 = some done →
      ∀ batch ∈ (state.log.drop (state.observed + 1)).filterMap Prod.fst,
        terms.token done = terms.token batch → terms.nonce done < terms.nonce batch := by
    intro done isDone batch member
    have ordered := safe.increasing
    rw [accepted_eq, rest, List.filterMap_cons, isDone] at ordered
    exact (List.pairwise_cons.mp (List.pairwise_append.mp ordered).2.1).1 batch member
  exact {
    safe with
    observed_le := bound
    opened_stored := fun batch member => safe.opened_stored member.1
    waiting := fun batch member => by
      refine ⟨safe.waiting batch ?_, fun done isDone closes => ?_⟩
      · rw [rest, List.filterMap_cons]
        obtain ⟨slot, block⟩ := entry
        cases slot with
        | none => exact member
        | some done => exact List.mem_cons_of_mem _ member
      · have order := later done isDone batch member
        rcases closes with rfl | ⟨lower, same⟩
        · exact lt_irrefl _ (order rfl)
        · exact lt_asymm lower (order same.symm)
    settled_closed := fun batch member opened => by
      simp only [settled, settledIs] at member
      rcases List.mem_append.mp member with old | new
      · exact safe.settled_closed batch old opened.1
      · exact opened.2 batch (Option.mem_toList.mp new) (Or.inl rfl)
    dead := fun batch gone => by
      obtain ⟨known, closed, unsettled⟩ := gone
      simp only [settled, settledIs, List.mem_append, not_or] at unsettled
      simp only [horizon, horizonIs]
      by_cases wasOpen : batch ∈ state.opened
      · obtain ⟨done, isDone, closes⟩ : ∃ done, entry.1 = some done ∧ Closes terms done batch := by
          by_contra none
          exact closed ⟨wasOpen, fun done isDone closes => none ⟨done, isDone, closes⟩⟩
        have onLedger : done ∈ state.accepted := by
          rw [accepted_eq, rest, List.filterMap_cons, isDone]
          exact List.mem_append_right _ List.mem_cons_self
        have different : batch ≠ done := by
          rintro rfl
          exact unsettled.2 (Option.mem_toList.mpr isDone)
        obtain ⟨lower, same⟩ := closes.resolve_left different
        refine ⟨fun member => ?_, Or.inr ?_⟩
        · have member : batch ∈ state.accepted := member
          rw [accepted_eq, rest, List.filterMap_cons, isDone] at member
          rcases List.mem_append.mp member with old | new
          · exact unsettled.1 old
          · rcases List.mem_cons.mp new with equal | after
            · exact different equal
            · exact lt_asymm lower (later done isDone batch after same.symm)
        · rw [same]
          exact lower.trans_le (safe.nonce_le_last done onLedger)
      · obtain ⟨absent, reason⟩ := safe.dead batch ⟨known, wasOpen, unsettled.1⟩
        exact ⟨absent, reason.imp_left fun late => late.trans_le (safe.horizon_le_observe found)⟩ }

/-- **Giving up what is below the horizon is safe**: the ledger's entries that are not observed yet
are at the horizon or above. -/
theorem Safe.expire (safe : Safe terms state) :
    Safe terms { state with
      opened := {batch | batch ∈ state.opened ∧ ¬ terms.timeout batch < state.horizon} } where
  observed_le := safe.observed_le
  blocks := safe.blocks
  past := safe.past
  opened_stored := fun _ member => safe.opened_stored member.1
  accepted_stored := safe.accepted_stored
  in_time := safe.in_time
  nonce_le_last := safe.nonce_le_last
  increasing := safe.increasing
  waiting := fun batch member => by
    refine ⟨safe.waiting batch member, fun late => ?_⟩
    obtain ⟨⟨entry, block⟩, inLog, isBatch⟩ := List.mem_filterMap.mp member
    obtain rfl : entry = some batch := isBatch
    have early := safe.in_time batch block (List.mem_of_mem_drop inLog)
    have bound : state.horizon ≤ block := safe.horizon_le inLog
    omega
  settled_closed := fun batch member opened => safe.settled_closed batch member opened.1
  dead := fun batch gone => by
    obtain ⟨known, closed, unsettled⟩ := gone
    by_cases wasOpen : batch ∈ state.opened
    · have late : terms.timeout batch < state.horizon := by
        by_contra early
        exact closed ⟨wasOpen, early⟩
      refine ⟨fun member => ?_, Or.inl late⟩
      obtain ⟨⟨entry, block⟩, inLog, isBatch⟩ := List.mem_filterMap.mp member
      obtain rfl : entry = some batch := isBatch
      have early := safe.in_time batch block inLog
      rw [← List.take_append_drop state.observed state.log] at inLog
      rcases List.mem_append.mp inLog with old | new
      · exact unsettled (List.mem_filterMap.mpr ⟨_, old, rfl⟩)
      · have bound : state.horizon ≤ block := safe.horizon_le new
        omega
    · exact safe.dead batch ⟨known, wasOpen, unsettled⟩

theorem Safe.step [DecidableEq T] (safe : Safe terms state) (step : Step terms state next) : Safe terms next := by
  cases step with
  | store batch new => exact safe.store new
  | accept batch known higher early => exact safe.accept known higher early
  | other => exact safe.other
  | mine block later => exact safe.mine later
  | observe entry found => exact safe.observe found
  | expire => exact safe.expire

theorem Safe.initial (block : Nat) : Safe terms (Settlement.initial B block) := by
  constructor <;> simp [Settlement.initial, accepted, settled, abandoned]

/-- A run of entries for nothing the sender waits for. -/
theorem steps_other [DecidableEq T] (state : Settlement B T) (count : Nat) :
    Relation.ReflTransGen (Step terms) state
      { state with log := state.log ++ List.replicate count (none, state.block) } := by
  induction count with
  | zero => rw [List.replicate_zero, List.append_nil]
  | succ count ih =>
      rw [List.replicate_succ', ← List.append_assoc]
      exact ih.tail .other

/-- **What is given up stays given up.** -/
theorem Safe.abandoned_subset [DecidableEq T] (safe : Safe terms state)
    (step : Step terms state next) : state.abandoned ⊆ next.abandoned := by
  intro batch gone
  have absent := safe.not_accepted_of_abandoned gone
  obtain ⟨known, closed, unsettled⟩ := gone
  cases step with
  | store other new =>
      refine ⟨Set.mem_insert_of_mem _ known, fun opened => ?_, unsettled⟩
      rcases Set.mem_insert_iff.mp opened with rfl | old
      · exact new known
      · exact closed old
  | accept other _ _ _ =>
      refine ⟨known, closed, ?_⟩
      rw [settled, take_append_of_le safe.observed_le]
      exact unsettled
  | other =>
      refine ⟨known, closed, ?_⟩
      rw [settled, take_append_of_le safe.observed_le]
      exact unsettled
  | mine block later => exact ⟨known, closed, unsettled⟩
  | observe entry found =>
      refine ⟨known, fun opened => closed opened.1, fun member => ?_⟩
      rw [settled, settled_observe found] at member
      rcases List.mem_append.mp member with old | new
      · exact unsettled old
      · refine absent (List.mem_filterMap.mpr ⟨entry, ?_, Option.mem_toList.mp new⟩)
        exact List.mem_of_getElem? found
  | expire => exact ⟨known, fun opened => closed opened.1, unsettled⟩

/-- **Every interleaving is safe**, and what was given up on the way is given up at the end. -/
theorem Safe.of_steps [DecidableEq T] (safe : Safe terms state)
    (steps : Relation.ReflTransGen (Step terms) state next) :
    Safe terms next ∧ state.abandoned ⊆ next.abandoned := by
  induction steps with
  | refl => exact ⟨safe, fun _ => id⟩
  | tail _ step ih => exact ⟨ih.1.step step, fun _ gone => ih.1.abandoned_subset step (ih.2 gone)⟩

end Settlement

end NabBridge
