/-
**The power difference, on both sides.**

The module requests a validator set when the power difference to the latest one is large, and the
orchestrator computes the same difference in another way. For validator sets with distinct addresses, all
in one spelling, both sums are the distance of two weightings: one of address texts, the other one of
addresses.

`powerDiff_agrees`: the sum is a metric, bounded, the same in every order of the members, and the same on
both sides.
-/

import NabBridge.Orchestrator.PowerDiff
import NabBridge.Proof.Encoders
import NabBridge.System.Bridge
import NabBridge.Types.PowerDiff

namespace NabBridge

/-- The power of an address in a validator set; an absent address has none. -/
def powerOf (members : List BridgeValidator) (address : Bytes) : Nat :=
  ((members.find? fun member => member.ethereumAddress = address).map BridgeValidator.power).getD 0

/-- A validator set as `GetCurrentValset` makes it, with its addresses in one spelling. -/
structure BridgeSet (spelling : Spelling) (members : List BridgeValidator) : Prop where
  distinct : (members.map BridgeValidator.ethereumAddress).Nodup
  canonical : ∀ member ∈ members, spelling.Canonical member.ethereumAddress
  total : (members.map BridgeValidator.power).sum ≤ maxUint32

instance (spelling : Spelling) (members : List BridgeValidator) :
    Decidable (BridgeSet spelling members) :=
  decidable_of_iff
    ((members.map BridgeValidator.ethereumAddress).Nodup ∧
      (∀ member ∈ members, spelling.Canonical member.ethereumAddress) ∧
      (members.map BridgeValidator.power).sum ≤ maxUint32)
    ⟨fun ⟨distinct, canonical, total⟩ => ⟨distinct, canonical, total⟩,
      fun isSet => ⟨isSet.distinct, isSet.canonical, isSet.total⟩⟩

section Weighting

variable {spelling : Spelling} {members : List BridgeValidator}

theorem memberEntries_keys (members : List BridgeValidator) :
    (memberEntries members).map Prod.fst =
      (members.map BridgeValidator.ethereumAddress).map keyBytes := by
  rw [memberEntries, List.map_map, List.map_map]
  rfl

theorem degree_memberPowers (members : List BridgeValidator) :
    (memberPowers members).degree = (members.map BridgeValidator.power).sum := by
  rw [memberPowers, degree_tally, memberEntries, List.map_map]
  rfl

/-- **The weighting gives every address its power.** -/
theorem memberPowers_keyBytes (distinct : (members.map BridgeValidator.ethereumAddress).Nodup)
    (address : Bytes) : memberPowers members (keyBytes address) = powerOf members address := by
  unfold powerOf
  cases found : members.find? fun member => member.ethereumAddress = address with
  | none =>
      refine tally_apply_of_not_mem fun inside => ?_
      rw [memberEntries_keys, List.mem_map] at inside
      obtain ⟨text, known, same⟩ := inside
      obtain ⟨member, isMember, rfl⟩ := List.mem_map.mp known
      have other := List.find?_eq_none.mp found member isMember
      exact other (decide_eq_true (keyBytes_injective same))
  | some member =>
      have same : member.ethereumAddress = address := by simpa using List.find?_some found
      have isEntry : (keyBytes address, member.power) ∈ memberEntries members :=
        same ▸ List.mem_map_of_mem (List.mem_of_find?_eq_some found)
      refine tally_apply_of_mem ?_ isEntry
      rw [memberEntries_keys]
      exact distinct.map keyBytes_injective

/-- Two sets are the same weighting if every address has the same power in both. -/
theorem memberPowers_eq_iff {other : List BridgeValidator}
    (distinct : (members.map BridgeValidator.ethereumAddress).Nodup)
    (distinct' : (other.map BridgeValidator.ethereumAddress).Nodup) :
    memberPowers members = memberPowers other ↔
      ∀ address, powerOf members address = powerOf other address := by
  constructor
  · intro same address
    rw [← memberPowers_keyBytes distinct, ← memberPowers_keyBytes distinct', same]
  · intro same
    ext key
    by_cases spelled : ∃ address, keyBytes address = key
    · obtain ⟨address, rfl⟩ := spelled
      rw [memberPowers_keyBytes distinct, memberPowers_keyBytes distinct', same]
    · have nowhere : ∀ members, key ∉ (memberEntries members).map Prod.fst := by
        intro members inside
        rw [memberEntries_keys] at inside
        obtain ⟨address, -, isKey⟩ := List.mem_map.mp inside
        exact spelled ⟨address, isKey⟩
      rw [memberPowers, memberPowers, tally_apply_of_not_mem (nowhere _),
        tally_apply_of_not_mem (nowhere _)]

theorem BridgeSet.perm {arranged : List BridgeValidator} (isSet : BridgeSet spelling members)
    (perm : arranged.Perm members) : BridgeSet spelling arranged where
  distinct := (perm.map _).nodup_iff.mpr isSet.distinct
  canonical member inside := isSet.canonical member (perm.mem_iff.mp inside)
  total := (perm.map _).sum_eq.trans_le isSet.total

theorem memberPowers_perm {arranged : List BridgeValidator} (perm : arranged.Perm members) :
    memberPowers arranged = memberPowers members := tally_perm (perm.map _)

theorem BridgeSet.powerDiffTotal_eq {other : List BridgeValidator} (isSet : BridgeSet spelling members)
    (isOther : BridgeSet spelling other) :
    powerDiffTotal members other = distance (memberPowers members) (memberPowers other) := by
  have small : ∀ {members}, BridgeSet spelling members → ∀ key, memberPowers members key < 2 ^ 63 := by
    intro members isSet key
    have part := Finsupp.le_degree key (memberPowers members)
    have total := isSet.total
    rw [← degree_memberPowers] at total
    exact lt_of_le_of_lt (part.trans total) (by decide)
  exact NabBridge.powerDiffTotal_eq isSet.distinct (small isSet) (small isOther)

/-! ### The orchestrator's members -/

/-- The entries of a set as the orchestrator reads them. -/
def readEntries (members : List BridgeValidator) : List (EthAddress × Nat) :=
  members.map fun member => (hexToAddress member.ethereumAddress, member.power)

/-- An address, as the key of its spelling. -/
def Spelling.key (spelling : Spelling) : EthAddress ↪ StoreKey where
  toFun address := keyBytes (spelling.address address)
  inj' first second same := by
    have texts := keyBytes_injective same
    rw [← spelling.reads first, ← spelling.reads second, texts]

theorem BridgeSet.memberEntries_eq (isSet : BridgeSet spelling members) :
    memberEntries members =
      (readEntries members).map fun entry => (spelling.key entry.1, entry.2) := by
  rw [memberEntries, readEntries, List.map_map]
  refine List.map_congr_left fun member inside => Prod.ext ?_ rfl
  exact congrArg keyBytes (isSet.canonical member inside).symm

theorem BridgeSet.readEntries_distinct (isSet : BridgeSet spelling members) :
    ((readEntries members).map Prod.fst).Nodup := by
  have keys : ((memberEntries members).map Prod.fst).Nodup := by
    rw [memberEntries_keys]
    exact isSet.distinct.map keyBytes_injective
  rw [isSet.memberEntries_eq, List.map_map] at keys
  refine List.Nodup.of_map spelling.key ?_
  rwa [List.map_map]

theorem BridgeSet.hasEntries (isSet : BridgeSet spelling members) {crates : Orchestrator.Crates}
    (parses : ∀ text, validateEthAddress text = .ok () →
      crates.ethAddress text = some (hexToAddress text))
    {valset : Orchestrator.Valset}
    (read : valset.members = members.map (Orchestrator.ValsetMember.ofProto crates)) :
    valset.HasEntries (readEntries members) := by
  rw [Orchestrator.Valset.HasEntries, read, readEntries, List.map_map]
  refine List.map_congr_left fun member inside => ?_
  have valid : validateEthAddress member.ethereumAddress = .ok () := by
    rw [← isSet.canonical member inside]
    exact spelling.valid _
  rw [Orchestrator.ValsetMember.ofProto, parses _ valid]
  rfl

end Weighting

/-- **The power difference**: a metric on the powers of addresses, at most twice the full power, the same
for every order of the members and for both implementations. -/
theorem powerDiff_agrees (spelling : Spelling) {crates : Orchestrator.Crates}
    (parses : ∀ text, validateEthAddress text = .ok () →
      crates.ethAddress text = some (hexToAddress text))
    {a b c : List BridgeValidator} (isA : BridgeSet spelling a) (isB : BridgeSet spelling b)
    (isC : BridgeSet spelling c) :
    powerDiffTotal a b = powerDiffTotal b a ∧
    powerDiffTotal a c ≤ powerDiffTotal a b + powerDiffTotal b c ∧
    (powerDiffTotal a b = 0 ↔ ∀ address, powerOf a address = powerOf b address) ∧
    powerDiffTotal a b ≤ 2 * (2 ^ 32 - 1) ∧
    (∀ a' b', a'.Perm a → b'.Perm b → powerDiffTotal a' b' = powerDiffTotal a b) ∧
    ∀ self other : Orchestrator.Valset,
      self.members = a.map (Orchestrator.ValsetMember.ofProto crates) →
      other.members = b.map (Orchestrator.ValsetMember.ofProto crates) →
      self.powerDiffTotal other = some (powerDiffTotal a b) := by
  have bounded : powerDiffTotal a b ≤ 2 * (2 ^ 32 - 1) := by
    have both := distance_le (memberPowers a) (memberPowers b)
    have first := isA.total
    have second := isB.total
    rw [degree_memberPowers, degree_memberPowers] at both
    rw [isA.powerDiffTotal_eq isB]
    have scale : maxUint32 = 2 ^ 32 - 1 := rfl
    omega
  refine ⟨?_, ?_, ?_, bounded, fun a' b' permA permB => ?_, fun self other readA readB => ?_⟩
  · rw [isA.powerDiffTotal_eq isB, isB.powerDiffTotal_eq isA, distance_comm]
  · rw [isA.powerDiffTotal_eq isB, isB.powerDiffTotal_eq isC, isA.powerDiffTotal_eq isC]
    exact distance_triangle _ _ _
  · rw [isA.powerDiffTotal_eq isB, distance_eq_zero, memberPowers_eq_iff isA.distinct isB.distinct]
  · rw [(isA.perm permA).powerDiffTotal_eq (isB.perm permB), isA.powerDiffTotal_eq isB,
      memberPowers_perm permA, memberPowers_perm permB]
  · rw [Orchestrator.Valset.powerDiffTotal_eq (isA.hasEntries parses readA)
      (isB.hasEntries parses readB) isA.readEntries_distinct isB.readEntries_distinct]
    -- renaming addresses to the keys of their spellings leaves the distance alone
    have renamed : distance (tally (readEntries a)) (tally (readEntries b)) = powerDiffTotal a b := by
      rw [isA.powerDiffTotal_eq isB, memberPowers, memberPowers, isA.memberEntries_eq,
        isB.memberEntries_eq, tally_map, tally_map, distance_embDomain]
    rw [renamed, Nat.mod_eq_of_lt (lt_of_le_of_lt bounded (by decide))]

/-- Addresses in lower case. -/
def exampleLowerCase : Spelling :=
  ⟨hexOfAddress, id, validateEthAddress_hexOfAddress, hexToAddress_hexOfAddress⟩

/-- Two sets that share one member, read by the orchestrator. -/
theorem powerDiff_agrees_example :
    (⟨1, [⟨3, some 1⟩, ⟨4, some 2⟩], 0, none⟩ : Orchestrator.Valset).powerDiffTotal
        ⟨2, [⟨5, some 2⟩, ⟨6, some 3⟩], 0, none⟩ =
      some (powerDiffTotal [⟨3, hexOfAddress 1⟩, ⟨4, hexOfAddress 2⟩]
        [⟨5, hexOfAddress 2⟩, ⟨6, hexOfAddress 3⟩]) := by
  refine (powerDiff_agrees exampleLowerCase exampleCrates_lawful.ethAddress
    (c := [⟨3, hexOfAddress 1⟩]) ?_ ?_ ?_).2.2.2.2.2 _ _ ?_ ?_
  all_goals decide +kernel

end NabBridge
