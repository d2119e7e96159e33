/-
**The most recent attestations.**

The walk over the sorted nonces stops at the limit, so what it collects are pointers for the lowest nonces;
all pointers of one nonce are to one variable.

* `nonceSequence`: the nonces of all attestations, in order, and its properties;
* `getMostRecentAttestations_eq`: the result is one attestation for each nonce among the first ones of this
  sequence, and the same one for the same nonce;
* `getMostRecentAttestations_exact_iff`: **when these are the most recent attestations.**
-/

import NabBridge.Keeper.RecentAttestations

namespace NabBridge

/-! ### The nonces in order -/

/-- A list of numbers in groups: each number as often as its group is large. -/
def groupedNonces (size : Nat → Nat) (nonces : List Nat) : List Nat :=
  nonces.flatMap fun nonce => List.replicate (size nonce) nonce

theorem groupedNonces_cons (size : Nat → Nat) (nonce : Nat) (nonces : List Nat) :
    groupedNonces size (nonce :: nonces) = List.replicate (size nonce) nonce ++ groupedNonces size nonces :=
  List.flatMap_cons

theorem count_groupedNonces {size : Nat → Nat} {nonces : List Nat} (distinct : nonces.Nodup) (nonce : Nat) :
    (groupedNonces size nonces).count nonce = if nonce ∈ nonces then size nonce else 0 := by
  induction nonces with
  | nil => rfl
  | cons first rest ih =>
      obtain ⟨fresh, distinct⟩ := List.nodup_cons.mp distinct
      rw [groupedNonces_cons, List.count_append, List.count_replicate, ih distinct]
      by_cases same : nonce = first
      · subst same
        simp [fresh]
      · simp [same, Ne.symm same]

theorem groupedNonces_sorted {size : Nat → Nat} {nonces : List Nat} (sorted : nonces.Pairwise (· ≤ ·)) :
    (groupedNonces size nonces).Pairwise (· ≤ ·) := by
  rw [groupedNonces, List.pairwise_flatMap]
  refine ⟨fun nonce _ => List.pairwise_replicate.mpr (Or.inr (Nat.le_refl _)), ?_⟩
  refine sorted.imp fun {first second} below one inFirst other inSecond => ?_
  rw [List.eq_of_mem_replicate inFirst, List.eq_of_mem_replicate inSecond]
  exact below

namespace Oracle

variable {oracle : Oracle}

theorem mem_eventNonces {nonce : Nat} :
    nonce ∈ oracle.eventNonces ↔ ∃ att ∈ oracle.attestations.values, att.claim.getEventNonce = nonce := by
  rw [eventNonces, List.mem_insertionSort, List.mem_dedup, List.mem_map]

theorem eventNonces_nodup : oracle.eventNonces.Nodup :=
  (List.perm_insertionSort _ _).nodup_iff.mpr (List.nodup_dedup _)

theorem eventNonces_sorted : oracle.eventNonces.Pairwise (· ≤ ·) := List.pairwise_insertionSort _ _

theorem mem_attestationsAt {nonce : Nat} {att : Attestation} :
    att ∈ oracle.attestationsAt nonce ↔
      att ∈ oracle.attestations.values ∧ att.claim.getEventNonce = nonce := by
  simp [attestationsAt]

/-- The nonces of all attestations, in order, each as often as it occurs. -/
def nonceSequence (oracle : Oracle) : List Nat :=
  groupedNonces (fun nonce => (oracle.attestationsAt nonce).length) oracle.eventNonces

theorem nonceSequence_sorted : oracle.nonceSequence.Pairwise (· ≤ ·) :=
  groupedNonces_sorted eventNonces_sorted

theorem nonceSequence_perm :
    oracle.nonceSequence.Perm (oracle.attestations.values.map fun att => att.claim.getEventNonce) := by
  refine List.perm_iff_count.mpr fun nonce => ?_
  rw [nonceSequence, count_groupedNonces eventNonces_nodup, List.count, List.countP_map]
  split_ifs with stored
  · rw [attestationsAt, ← List.countP_eq_length_filter]
    rfl
  · refine (List.countP_eq_zero.mpr fun att member same => stored ?_).symm
    exact mem_eventNonces.mpr ⟨att, member, beq_iff_eq.mp same⟩

theorem length_nonceSequence : oracle.nonceSequence.length = oracle.attestations.values.length := by
  rw [nonceSequence_perm.length_eq, List.length_map]

theorem mem_nonceSequence {nonce : Nat} :
    nonce ∈ oracle.nonceSequence ↔ ∃ att ∈ oracle.attestations.values, att.claim.getEventNonce = nonce := by
  rw [nonceSequence_perm.mem_iff, List.mem_map]

/-- Attestations under the keys of their own claims are distinct. -/
theorem Keyed.values_nodup {sdk : Sdk} (keyed : oracle.Keyed sdk) : oracle.attestations.values.Nodup := by
  refine oracle.attestations.entries_nodup.map_on fun first member second member' same => ?_
  have here := keyed first.1 first.2 ((Store.mem_entries_iff _ _ _).mp member)
  have there := keyed second.1 second.2 ((Store.mem_entries_iff _ _ _).mp member')
  exact Prod.ext (here.trans (same ▸ there.symm)) same

end Oracle

/-! ### The two loops -/

/-- **What an inner loop does**: it adds pointers to its variable up to the limit, and leaves in the variable
one of its attestations. -/
structure NonceCollected (limit nonce : Nat) (group : List Attestation) (before after : Collected) :
    Prop where
  pointers : after.attestations = before.attestations ++
    List.replicate (min (limit - before.count) group.length) nonce
  count : after.count = before.count + min (limit - before.count) group.length
  others : ∀ other, other ≠ nonce → after.loopVariables.get other = before.loopVariables.get other
  loopVariable : group ≠ [] → ∃ att ∈ group, after.loopVariables.get nonce = some att

theorem collectNonce_collected (limit nonce : Nat) (group : List Attestation) (collected : Collected) :
    NonceCollected limit nonce group collected
      (collectNonce limit nonce group collected) := by
  induction group generalizing collected with
  | nil => exact ⟨by simp [collectNonce], by simp [collectNonce], fun _ _ => rfl, fun filled => absurd rfl filled⟩
  | cons att rest ih =>
      rw [collectNonce]
      split_ifs with full
      · have none : limit - collected.count = 0 := Nat.sub_eq_zero_of_le full
        refine ⟨by simp [none], by simp [none], fun other different => ?_, fun _ => ?_⟩
        · exact Store.get_set_of_ne _ _ different
        · exact ⟨att, List.mem_cons_self, by rw [Store.get_set, if_pos rfl]⟩
      · have room : collected.count < limit := not_le.mp full
        have step := ih { collected with
          loopVariables := collected.loopVariables.set nonce att
          attestations := collected.attestations ++ [nonce]
          count := collected.count + 1 }
        have one : min (limit - collected.count) (rest.length + 1) =
            min (limit - (collected.count + 1)) rest.length + 1 := by omega
        refine ⟨?_, ?_, fun other different => ?_, fun _ => ?_⟩
        · rw [step.pointers, List.append_assoc, List.singleton_append, ← List.replicate_succ,
            List.length_cons, one]
        · rw [step.count, List.length_cons, one, ← Nat.add_assoc, Nat.add_right_comm]
        · rw [step.others other different]
          exact Store.get_set_of_ne _ _ different
        · cases rest with
          | nil => exact ⟨att, List.mem_cons_self, by rw [collectNonce, Store.get_set, if_pos rfl]⟩
          | cons next later =>
              obtain ⟨last, member, found⟩ := step.loopVariable (List.cons_ne_nil _ _)
              exact ⟨last, List.mem_cons_of_mem _ member, found⟩

section Outer

variable {attestationMapping : Nat → List Attestation} {limit : Nat}

/-- Every pointer is to a variable with an attestation of the variable's nonce in it. -/
def Collected.Points (attestationMapping : Nat → List Attestation) (collected : Collected) : Prop :=
  ∀ nonce ∈ collected.attestations,
    ∃ att ∈ attestationMapping nonce, collected.loopVariables.get nonce = some att

theorem Collected.Points.collectNonce {collected : Collected} (points : collected.Points attestationMapping)
    (nonce : Nat) :
    (collectNonce limit nonce (attestationMapping nonce) collected).Points attestationMapping := by
  have step := collectNonce_collected limit nonce (attestationMapping nonce) collected
  intro other member
  by_cases same : other = nonce
  · subst same
    refine step.loopVariable fun none => ?_
    rw [none] at step member
    obtain ⟨att, inNone, _⟩ := points other member
    rw [none] at inNone
    exact absurd inNone List.not_mem_nil
  · rw [step.pointers] at member
    rw [step.others other same]
    rcases List.mem_append.mp member with old | new
    · exact points other old
    · exact absurd (List.eq_of_mem_replicate new) same

/-- **The walk**: pointers for the first of the grouped nonces. -/
theorem collectNonces_attestations (nonces : List Nat) (collected : Collected) :
    (collectNonces attestationMapping limit nonces collected).attestations = collected.attestations ++
      (groupedNonces (fun nonce => (attestationMapping nonce).length) nonces).take
        (limit - collected.count) := by
  induction nonces generalizing collected with
  | nil => simp [collectNonces, groupedNonces]
  | cons nonce later ih =>
      rw [collectNonces]
      split_ifs with full
      · rw [Nat.sub_eq_zero_of_le full, List.take_zero, List.append_nil]
      · have step := collectNonce_collected limit nonce (attestationMapping nonce) collected
        rw [ih, step.pointers, step.count, groupedNonces_cons, List.take_append,
          List.take_replicate, List.length_replicate, List.append_assoc]
        congr 3
        omega

theorem collectNonces_points (nonces : List Nat) {collected : Collected}
    (points : collected.Points attestationMapping) :
    (collectNonces attestationMapping limit nonces collected).Points attestationMapping := by
  induction nonces generalizing collected with
  | nil => exact points
  | cons nonce later ih =>
      rw [collectNonces]
      split_ifs
      · exact points
      · exact ih (points.collectNonce nonce)

end Outer

/-! ### What is returned -/

/-- **What `GetMostRecentAttestations` returns**, whatever is stored: one stored attestation for each of the
first nonces, and for the same nonce always the same one. -/
structure LowestNonces (oracle : Oracle) (limit : Nat) (returned : List Attestation) : Prop where
  nonces : returned.map (fun att => att.claim.getEventNonce) = oracle.nonceSequence.take limit
  stored : ∀ att ∈ returned, att ∈ oracle.attestations.values
  aliased : ∀ first ∈ returned, ∀ second ∈ returned,
    first.claim.getEventNonce = second.claim.getEventNonce → first = second

theorem getMostRecentAttestations_lowest {oracle : Oracle} {limit : Nat} {returned : List Attestation}
    (ran : oracle.getMostRecentAttestations limit = .ok returned) : LowestNonces oracle limit returned := by
  unfold Oracle.getMostRecentAttestations at ran
  split_ifs at ran
  obtain rfl := Outcome.ok.inj ran
  generalize collectedIs : collectNonces oracle.attestationsAt limit oracle.eventNonces Collected.empty =
    collected
  have pointers : collected.attestations = oracle.nonceSequence.take limit := by
    rw [← collectedIs, collectNonces_attestations]
    rfl
  have points : collected.Points oracle.attestationsAt := by
    rw [← collectedIs]
    exact collectNonces_points _ fun _ member => absurd member List.not_mem_nil
  have source : ∀ att ∈ collected.read, att ∈ oracle.attestations.values ∧
      collected.loopVariables.get att.claim.getEventNonce = some att := by
    intro att member
    obtain ⟨nonce, there, found⟩ := List.mem_filterMap.mp member
    obtain ⟨other, stored, found'⟩ := points nonce there
    obtain rfl := Option.some.inj (found.symm.trans found')
    obtain ⟨inValues, rfl⟩ := Oracle.mem_attestationsAt.mp stored
    exact ⟨inValues, found⟩
  refine ⟨?_, fun att member => (source att member).1, fun first here second there same => ?_⟩
  · rw [← pointers, Collected.read, List.map_filterMap]
    refine (List.filterMap_congr fun nonce member => ?_).trans List.filterMap_some
    obtain ⟨att, stored, found⟩ := points nonce member
    rw [found, Option.map_some, (Oracle.mem_attestationsAt.mp stored).2]
  · have found := (source first here).2
    rw [same, (source second there).2] at found
    exact (Option.some.inj found).symm

/-! ### When these are the most recent ones -/

/-- **The most recent attestations**: as many as the limit allows, distinct, in the order of their nonces, and
none is left out that has a higher nonce than one of them. -/
structure MostRecent (oracle : Oracle) (limit : Nat) (returned : List Attestation) : Prop where
  length : returned.length = min limit oracle.attestations.values.length
  distinct : returned.Nodup
  stored : ∀ att ∈ returned, att ∈ oracle.attestations.values
  ordered : returned.Pairwise fun first second => first.claim.getEventNonce ≤ second.claim.getEventNonce
  recent : ∀ att ∈ oracle.attestations.values, att ∉ returned →
    ∀ other ∈ returned, att.claim.getEventNonce ≤ other.claim.getEventNonce

/-- Nothing is asked for, or everything and no two attestations share a nonce, or one attestation and all
share one nonce. -/
def RecentExact (oracle : Oracle) (limit : Nat) : Prop :=
  limit = 0 ∨
    (oracle.attestations.values.map fun att => att.claim.getEventNonce).Nodup ∧
      oracle.attestations.values.length ≤ limit ∨
    limit = 1 ∧ ∀ first ∈ oracle.attestations.values, ∀ second ∈ oracle.attestations.values,
      first.claim.getEventNonce = second.claim.getEventNonce

instance (oracle : Oracle) (limit : Nat) : Decidable (RecentExact oracle limit) := by
  unfold RecentExact
  infer_instance

namespace LowestNonces

variable {oracle : Oracle} {limit : Nat} {returned : List Attestation}

theorem length_eq (lowest : LowestNonces oracle limit returned) :
    returned.length = min limit oracle.attestations.values.length := by
  rw [← Oracle.length_nonceSequence, ← List.length_take, ← lowest.nonces, List.length_map]

theorem ordered (lowest : LowestNonces oracle limit returned) :
    returned.Pairwise fun first second => first.claim.getEventNonce ≤ second.claim.getEventNonce := by
  have sorted := Oracle.nonceSequence_sorted.sublist (List.take_sublist limit oracle.nonceSequence)
  rw [← lowest.nonces] at sorted
  exact List.pairwise_map.mp sorted

theorem nodup_iff (lowest : LowestNonces oracle limit returned) :
    returned.Nodup ↔ (oracle.nonceSequence.take limit).Nodup := by
  rw [← lowest.nonces]
  exact ⟨fun distinct => distinct.map_on lowest.aliased, List.Nodup.of_map _⟩

/-- Where a cut leaves an attestation out, and the result is the most recent ones, it is a single one. -/
theorem eq_singleton (lowest : LowestNonces oracle limit returned) (recent : MostRecent oracle limit returned)
    {first : Attestation} {others : List Attestation} (returnedIs : returned = first :: others)
    {omitted : Attestation} (stored : omitted ∈ oracle.attestations.values) (out : omitted ∉ returned)
    (same : omitted.claim.getEventNonce = first.claim.getEventNonce) : others = [] := by
  cases others with
  | nil => rfl
  | cons second rest =>
      have taken := lowest.nonces
      have distinct := lowest.nodup_iff.mp recent.distinct
      have sorted := oracle.nonceSequence_sorted
      rw [returnedIs, List.map_cons, List.map_cons] at taken
      rw [← List.take_append_drop limit oracle.nonceSequence] at sorted
      rw [← taken] at distinct sorted
      obtain ⟨fresh, _⟩ := List.nodup_cons.mp distinct
      obtain ⟨inTaken, _, across⟩ := List.pairwise_append.mp sorted
      -- the nonce of the first occurs twice, once for the one that is left out
      have pair : [omitted, first].Subperm (oracle.attestationsAt first.claim.getEventNonce) := by
        refine List.subperm_of_subset ?_ fun att member => ?_
        · refine List.nodup_cons.mpr ⟨fun member => out ?_, List.nodup_singleton _⟩
          rw [List.mem_singleton.mp member, returnedIs]
          exact List.mem_cons_self
        · rcases List.mem_cons.mp member with rfl | member
          · exact Oracle.mem_attestationsAt.mpr ⟨stored, same⟩
          · obtain rfl := List.mem_singleton.mp member
            exact Oracle.mem_attestationsAt.mpr
              ⟨recent.stored att (returnedIs ▸ List.mem_cons_self), rfl⟩
      have twice : 2 ≤ oracle.nonceSequence.count first.claim.getEventNonce := by
        have listed : first.claim.getEventNonce ∈ oracle.eventNonces :=
          Oracle.mem_eventNonces.mpr ⟨omitted, stored, same⟩
        rw [Oracle.nonceSequence, count_groupedNonces Oracle.eventNonces_nodup, if_pos listed]
        exact pair.length_le
      -- and only once in the sorted nonces, where the second is already higher
      have below : first.claim.getEventNonce < second.claim.getEventNonce :=
        lt_of_le_of_ne ((List.pairwise_cons.mp inTaken).1 _ List.mem_cons_self)
          fun equal => fresh (equal ▸ List.mem_cons_self)
      have absent : first.claim.getEventNonce ∉ oracle.nonceSequence.drop limit := fun member =>
        absurd (across _ (List.mem_cons_of_mem _ List.mem_cons_self) _ member) (not_le.mpr below)
      rw [← List.take_append_drop limit oracle.nonceSequence, List.count_append, ← taken,
        List.count_eq_zero.mpr absent, List.count_eq_one_of_mem distinct List.mem_cons_self] at twice
      omega

theorem exact_of_mostRecent (lowest : LowestNonces oracle limit returned)
    (distinct : oracle.attestations.values.Nodup) (recent : MostRecent oracle limit returned) :
    RecentExact oracle limit := by
  by_cases none : limit = 0
  · exact Or.inl none
  by_cases all : oracle.attestations.values.length ≤ limit
  · refine Or.inr (Or.inl ⟨?_, all⟩)
    have nodup := lowest.nodup_iff.mp recent.distinct
    rw [List.take_of_length_le (Oracle.length_nonceSequence.trans_le all)] at nodup
    exact Oracle.nonceSequence_perm.nodup_iff.mp nodup
  -- an attestation is left out, and its nonce is the lowest
  have lengths := lowest.length_eq
  obtain ⟨omitted, stored, out⟩ : ∃ att ∈ oracle.attestations.values, att ∉ returned := by
    by_contra! every
    have fits := (List.subperm_of_subset distinct every).length_le
    omega
  obtain ⟨first, others, returnedIs⟩ := List.exists_cons_of_length_pos (show 0 < returned.length by omega)
  have member : first ∈ returned := returnedIs ▸ List.mem_cons_self
  have taken := lowest.nonces
  rw [returnedIs, List.map_cons] at taken
  have sorted := oracle.nonceSequence_sorted
  rw [← List.take_append_drop limit oracle.nonceSequence, ← taken] at sorted
  have lowestOne : ∀ att ∈ oracle.attestations.values, att ∉ returned →
      att.claim.getEventNonce = first.claim.getEventNonce := by
    intro att inValues left
    refine Nat.le_antisymm (recent.recent att inValues left first member) ?_
    have listed := Oracle.mem_nonceSequence.mpr ⟨att, inValues, rfl⟩
    rw [← List.take_append_drop limit oracle.nonceSequence, ← taken] at listed
    rcases List.mem_cons.mp listed with same | later
    · exact Nat.le_of_eq same.symm
    · exact (List.pairwise_cons.mp sorted).1 _ later
  obtain rfl := lowest.eq_singleton recent returnedIs stored out (lowestOne omitted stored out)
  have single : returned.length = 1 := by rw [returnedIs, List.length_singleton]
  have one : ∀ att ∈ oracle.attestations.values, att.claim.getEventNonce = first.claim.getEventNonce := by
    intro att inValues
    by_cases here : att ∈ returned
    · rw [returnedIs] at here
      rw [List.mem_singleton.mp here]
    · exact lowestOne att inValues here
  exact Or.inr (Or.inr ⟨by omega, fun att inValues other inValues' =>
    (one att inValues).trans (one other inValues').symm⟩)

theorem mostRecent_of_exact (lowest : LowestNonces oracle limit returned) (exact : RecentExact oracle limit) :
    MostRecent oracle limit returned := by
  have lengths := lowest.length_eq
  rcases exact with rfl | ⟨nonces, all⟩ | ⟨rfl, same⟩
  · obtain rfl := List.length_eq_zero_iff.mp (lengths.trans (Nat.zero_min _))
    exact ⟨lengths, List.nodup_nil, lowest.stored, lowest.ordered,
      fun _ _ _ _ member => absurd member List.not_mem_nil⟩
  · have everything := lowest.nonces
    rw [List.take_of_length_le (Oracle.length_nonceSequence.trans_le all)] at everything
    refine ⟨lengths, ?_, lowest.stored, lowest.ordered, fun att stored out => absurd ?_ out⟩
    · refine List.Nodup.of_map (fun att => att.claim.getEventNonce) ?_
      rw [everything]
      exact Oracle.nonceSequence_perm.nodup_iff.mpr nonces
    · have listed := Oracle.mem_nonceSequence.mpr ⟨att, stored, rfl⟩
      rw [← everything] at listed
      obtain ⟨other, member, equal⟩ := List.mem_map.mp listed
      exact List.inj_on_of_nodup_map nonces (lowest.stored other member) stored equal ▸ member
  · refine ⟨lengths, ?_, lowest.stored, lowest.ordered, fun att stored _ other member => ?_⟩
    · have few : returned.length ≤ 1 := lengths.trans_le (Nat.min_le_left _ _)
      match returned, few with
      | [], _ => exact List.nodup_nil
      | [_], _ => exact List.nodup_singleton _
    · exact Nat.le_of_eq (same att stored other (lowest.stored other member))

end LowestNonces

/-- **Most recent attestations, and when they are.** For every set of attestations under the keys of their
claims and every limit: `GetMostRecentAttestations` returns the most recent ones exactly where `make` takes the
limit and nothing is asked for, or everything with no nonce twice, or one of attestations of one nonce. -/
theorem getMostRecentAttestations_exact_iff {sdk : Sdk} {oracle : Oracle} (keyed : oracle.Keyed sdk)
    (limit : Nat) :
    (∃ returned, oracle.getMostRecentAttestations limit = .ok returned ∧ MostRecent oracle limit returned) ↔
      limit ≤ maxPointerCap ∧ RecentExact oracle limit := by
  constructor
  · rintro ⟨returned, ran, recent⟩
    refine ⟨?_, (getMostRecentAttestations_lowest ran).exact_of_mostRecent keyed.values_nodup recent⟩
    unfold Oracle.getMostRecentAttestations at ran
    split_ifs at ran with above
    exact not_lt.mp above
  · rintro ⟨below, exact⟩
    have ran : oracle.getMostRecentAttestations limit = .ok _ := if_neg (not_lt.mpr below)
    exact ⟨_, ran, (getMostRecentAttestations_lowest ran).mostRecent_of_exact exact⟩

/-- The query with its own limit never panics. -/
theorem getAttestations_ne_panic (oracle : Oracle) (limit : Nat) (reason : MakePanic) :
    oracle.getAttestations limit ≠ .panic reason := by
  have below : (if limit > queryAttestationsLimit then queryAttestationsLimit else limit) ≤ maxPointerCap := by
    rw [queryAttestationsLimit, maxPointerCap]
    split_ifs <;> omega
  rw [Oracle.getAttestations, Oracle.getMostRecentAttestations, if_neg (not_lt.mpr below)]
  intro halted
  cases halted

/-! ### Conflicts and a cut -/

theorem Oracle.Keyed.setAttestation {sdk : Sdk} {oracle : Oracle} (keyed : oracle.Keyed sdk)
    (att : Attestation) :
    (oracle.setAttestation att.claim.getEventNonce (att.claim.claimHash sdk) att).Keyed sdk :=
  Store.All.set keyed rfl

/-- An attestation of a deposit that nobody has voted for yet. -/
def exampleAttestation (eventNonce amount : Nat) : Attestation :=
  ⟨false, [], 7, .sendToCosmos {
    eventNonce := eventNonce
    blockHeight := 10
    tokenContract := ascii "0x429881672B9AE42b8EbA0E26cD9C73711b891Ca5"
    amount := some amount
    ethereumSender := ascii "0xd041c41EA1bf0F006ADBb6d2c9ef9D425dE5eaD7"
    cosmosReceiver := ascii "cosmos1qyqszqgpqyqszqgpqyqszqgpqyqszqgpjnp7du"
    orchestrator := ascii "cosmos1qyqszqgpqyqszqgpqyqszqgpqyqszqgpjnp7du" }⟩

/-- An oracle with these attestations. -/
def exampleAttested (attestations : List Attestation) : Oracle :=
  attestations.foldl (fun oracle att =>
    oracle.setAttestation att.claim.getEventNonce (att.claim.claimHash exampleSdk) att) Oracle.empty

theorem exampleAttested_keyed (attestations : List Attestation) :
    (exampleAttested attestations).Keyed exampleSdk := by
  refine List.foldlRecOn _ _ (fun _ _ found => ?_) fun oracle keyed att _ => keyed.setAttestation att
  cases found

/-- Three nonces, and room for all. -/
theorem getMostRecentAttestations_all :
    ∃ returned, (exampleAttested [exampleAttestation 1 5, exampleAttestation 2 5,
        exampleAttestation 3 5]).getMostRecentAttestations 10 = .ok returned ∧
      MostRecent (exampleAttested [exampleAttestation 1 5, exampleAttestation 2 5,
        exampleAttestation 3 5]) 10 returned :=
  (getMostRecentAttestations_exact_iff (exampleAttested_keyed _) 10).mpr
    ⟨by decide, by decide +kernel⟩

/-- **The least recent one, and one of a conflict twice**: with room for one, the attestation of the first of
two nonces is returned; with room for two, one of two attestations of a nonce is returned twice. -/
theorem getMostRecentAttestations_least_and_twice :
    (exampleAttested [exampleAttestation 1 5, exampleAttestation 2 5]).getMostRecentAttestations 1 =
        .ok [exampleAttestation 1 5] ∧
      ¬ MostRecent (exampleAttested [exampleAttestation 1 5, exampleAttestation 2 5]) 1
        [exampleAttestation 1 5] ∧
      (exampleAttested [exampleAttestation 1 5, exampleAttestation 1 6]).getMostRecentAttestations 2 =
        .ok [exampleAttestation 1 6, exampleAttestation 1 6] ∧
      ¬ MostRecent (exampleAttested [exampleAttestation 1 5, exampleAttestation 1 6]) 2
        [exampleAttestation 1 6, exampleAttestation 1 6] := by
  refine ⟨by decide +kernel, fun recent => ?_, by decide +kernel, fun recent => ?_⟩
  · have later := recent.recent (exampleAttestation 2 5) (by decide +kernel) (by decide) _
      (List.mem_singleton_self _)
    revert later
    decide
  · exact absurd recent.distinct (by decide)

end NabBridge
