/-
**The order of a validator set, on both sides.**

The module sorts the members of a validator set by power, largest first, and those of equal power by the
bytes of their address texts. The orchestrator sorts by power and, the other way round, by the parsed
address, and reverses the result; both files say that the two have to agree.

They do where for members of equal power the order of the texts is the order of the addresses
(`valset_order_agrees_iff`). Capital letters come before small ones, so `0xB…` is sorted before `0xa…`.
-/

import NabBridge.Proof.Encoders

namespace NabBridge

namespace Orchestrator

/-- An address as a number, with none below all. -/
def addressRank (ethAddress : Option EthAddress) : Nat := ethAddress.elim 0 fun address => address.val + 1

theorem compare_addresses (first second : Option EthAddress) :
    compare first second = compare (addressRank first) (addressRank second) := by
  cases first with
  | none =>
      cases second with
      | none => rfl
      | some address => exact (Nat.compare_eq_lt.mpr (Nat.succ_pos _)).symm
  | some address =>
      cases second with
      | none => exact (Nat.compare_eq_gt.mpr (Nat.succ_pos _)).symm
      | some other =>
          show compare address.val other.val = compare (address.val + 1) (other.val + 1)
          rw [Nat.compare_eq_ite_lt, Nat.compare_eq_ite_lt]
          simp only [Nat.add_lt_add_iff_right]

namespace ValsetMember

/-- The order of a validator set: by power, largest first, then by address. -/
def Precedes (first second : ValsetMember) : Prop :=
  second.power < first.power ∨
    first.power = second.power ∧ addressRank first.ethAddress ≤ addressRank second.ethAddress

theorem cmp_ne_gt_iff {first second : ValsetMember} :
    first.cmp second ≠ .gt ↔ second.Precedes first := by
  unfold cmp Precedes
  by_cases same : first.power = second.power
  · rw [if_neg (not_not.mpr same), compare_addresses, same, Nat.compare_swap, Nat.compare_ne_gt]
    exact ⟨fun below => Or.inr ⟨rfl, below⟩, fun precedes =>
      precedes.elim (fun less => absurd less (Nat.lt_irrefl _)) And.right⟩
  · rw [if_pos same, Nat.compare_ne_gt]
    constructor
    · exact fun below => Or.inl (Nat.lt_of_le_of_ne below same)
    · rintro (less | ⟨equal, _⟩)
      · exact less.le
      · exact absurd equal.symm same

theorem Precedes.total (first second : ValsetMember) :
    first.Precedes second ∨ second.Precedes first := by
  unfold Precedes
  omega

theorem Precedes.trans {first second third : ValsetMember} (left : first.Precedes second)
    (right : second.Precedes third) : first.Precedes third := by
  unfold Precedes at *
  omega

theorem Precedes.antisymm {first second : ValsetMember} (left : first.Precedes second)
    (right : second.Precedes first) : first = second := by
  unfold Precedes at left right
  have powers : first.power = second.power := by omega
  have ranks : addressRank first.ethAddress = addressRank second.ethAddress := by omega
  have addresses : first.ethAddress = second.ethAddress := by
    cases one : first.ethAddress with
    | none =>
        cases two : second.ethAddress with
        | none => rfl
        | some other => simp [one, two, addressRank] at ranks
    | some address =>
        cases two : second.ethAddress with
        | none => simp [one, two, addressRank] at ranks
        | some other =>
            simp only [one, two, addressRank, Option.elim_some, Nat.add_right_cancel_iff] at ranks
            rw [Fin.ext ranks]
  obtain ⟨power, address⟩ := first
  obtain ⟨power', address'⟩ := second
  exact congrArg₂ ValsetMember.mk powers addresses

end ValsetMember

theorem sortReversed_perm (members : List ValsetMember) : (sortReversed members).Perm members :=
  (List.reverse_perm _).trans (List.perm_insertionSort _ members)

/-- **Sorted and reversed**, a list is in the order of a validator set. -/
theorem sortReversed_pairwise (members : List ValsetMember) :
    (sortReversed members).Pairwise ValsetMember.Precedes := by
  have : Std.Total fun first second : ValsetMember => first.cmp second ≠ .gt :=
    ⟨fun first second => (ValsetMember.Precedes.total second first).imp
      ValsetMember.cmp_ne_gt_iff.mpr ValsetMember.cmp_ne_gt_iff.mpr⟩
  have : IsTrans ValsetMember fun first second => first.cmp second ≠ .gt :=
    ⟨fun _ _ _ left right => ValsetMember.cmp_ne_gt_iff.mpr
      ((ValsetMember.cmp_ne_gt_iff.mp right).trans (ValsetMember.cmp_ne_gt_iff.mp left))⟩
  unfold sortReversed
  rw [List.pairwise_reverse]
  exact (List.pairwise_insertionSort _ members).imp ValsetMember.cmp_ne_gt_iff.mp

/-- It is the one arrangement in that order. -/
theorem eq_sortReversed_iff {members arranged : List ValsetMember} (perm : arranged.Perm members) :
    arranged = sortReversed members ↔ arranged.Pairwise ValsetMember.Precedes := by
  constructor
  · rintro rfl
    exact sortReversed_pairwise members
  · intro sorted
    exact List.Perm.eq_of_pairwise (fun _ _ _ _ => ValsetMember.Precedes.antisymm) sorted
      (sortReversed_pairwise members) (perm.trans (sortReversed_perm members).symm)

end Orchestrator

/-! ### The module's order -/

/-- What `sort.Slice` can make of the members: it does not keep equal ones in order. -/
def SortedBySlice (members arranged : List BridgeValidator) : Prop :=
  arranged.Perm members ∧ arranged.Pairwise fun first second => second.before first = false

instance (members arranged : List BridgeValidator) : Decidable (SortedBySlice members arranged) := by
  unfold SortedBySlice; infer_instance

/-- A member may stand before another one. -/
theorem not_before_iff {first second : BridgeValidator} :
    second.before first = false ↔ second.power < first.power ∨
      first.power = second.power ∧ keyBytes first.ethereumAddress ≤ keyBytes second.ethereumAddress := by
  unfold BridgeValidator.before ethAddrLessThan
  split_ifs with same
  · rw [decide_eq_false_iff_not, not_lt]
    exact ⟨fun below => Or.inr ⟨same.symm, below⟩, fun either =>
      either.elim (fun less => absurd same less.ne) And.right⟩
  · rw [decide_eq_false_iff_not, Nat.not_lt]
    exact ⟨fun below => Or.inl (Nat.lt_of_le_of_ne below same), fun either =>
      either.elim Nat.le_of_lt fun both => absurd both.1.symm same⟩

/-- Of two members of equal power, the one with the smaller text has the smaller address. -/
def BridgeValidator.TextsFollow (first second : BridgeValidator) : Prop :=
  first.power = second.power → keyBytes first.ethereumAddress < keyBytes second.ethereumAddress →
    hexToAddress first.ethereumAddress ≤ hexToAddress second.ethereumAddress

instance (first second : BridgeValidator) : Decidable (first.TextsFollow second) := by
  unfold BridgeValidator.TextsFollow; infer_instance

/-- The texts of members of equal power are ordered as their addresses are. -/
def SpellingsOrdered (members : List BridgeValidator) : Prop :=
  ∀ first ∈ members, ∀ second ∈ members, first.TextsFollow second

instance (members : List BridgeValidator) : Decidable (SpellingsOrdered members) := by
  unfold SpellingsOrdered; infer_instance

/-- **Sorting gives a sorted list.** -/
theorem sortBridgeValidators_sorted (members : List BridgeValidator) :
    SortedBySlice members (sortBridgeValidators members) := by
  have : Std.Total fun first second : BridgeValidator => second.before first = false := by
    refine ⟨fun first second => ?_⟩
    rw [not_before_iff, not_before_iff]
    rcases Nat.lt_trichotomy first.power second.power with less | same | more
    · exact Or.inr (Or.inl less)
    · exact (le_total (keyBytes first.ethereumAddress) (keyBytes second.ethereumAddress)).imp
        (fun below => Or.inr ⟨same, below⟩) (fun above => Or.inr ⟨same.symm, above⟩)
    · exact Or.inl (Or.inl more)
  have : IsTrans BridgeValidator fun first second => second.before first = false := by
    refine ⟨fun first second third left right => ?_⟩
    rw [not_before_iff] at left right ⊢
    rcases left with more | ⟨same, below⟩
    · exact Or.inl (right.elim (fun less => less.trans more) fun both => both.1 ▸ more)
    · rw [same]
      exact right.imp_right fun both => ⟨both.1, below.trans both.2⟩
  exact ⟨sortBridgeValidators_perm members, List.pairwise_insertionSort _ members⟩

section Agreement

variable {crates : Orchestrator.Crates}

/-- **The orders agree** exactly where the texts of members of equal power are ordered as their addresses. -/
theorem valset_order_agrees_iff (lawful : crates.Lawful) {members : List BridgeValidator}
    (valid : ∀ member ∈ members, validateEthAddress member.ethereumAddress = .ok ()) :
    (∃ arranged, SortedBySlice members arranged) ∧
    ∀ arranged, SortedBySlice members arranged →
      (arranged.map (Orchestrator.ValsetMember.ofProto crates) =
          Orchestrator.sortReversed (members.map (Orchestrator.ValsetMember.ofProto crates)) ↔
        SpellingsOrdered members) := by
  refine ⟨⟨_, sortBridgeValidators_sorted members⟩, ?_⟩
  rintro arranged ⟨perm, sorted⟩
  have rank : ∀ member ∈ arranged, Orchestrator.addressRank
      (Orchestrator.ValsetMember.ofProto crates member).ethAddress =
        (hexToAddress member.ethereumAddress).val + 1 := by
    intro member inside
    rw [Orchestrator.ValsetMember.ofProto, lawful.ethAddress _ (valid member (perm.mem_iff.mp inside))]
    rfl
  rw [Orchestrator.eq_sortReversed_iff (perm.map _), List.pairwise_map]
  constructor
  · intro precedes
    -- whichever of the two stands first, the texts decide
    have follow : arranged.Pairwise BridgeValidator.TextsFollow := by
      refine precedes.imp_of_mem fun {first second} inFirst inSecond before same _ => ?_
      unfold Orchestrator.ValsetMember.Precedes at before
      rw [rank first inFirst, rank second inSecond] at before
      rcases before with less | ⟨_, below⟩
      · exact absurd same (Nat.ne_of_gt less)
      · exact Nat.le_of_succ_le_succ below
    have flipped : arranged.Pairwise (flip BridgeValidator.TextsFollow) := by
      refine sorted.imp fun {first second} notBefore same less => ?_
      rcases not_before_iff.mp notBefore with more | ⟨_, below⟩
      · exact absurd same (Nat.ne_of_lt more)
      · exact absurd less (not_lt.mpr below)
    have ordered := List.Pairwise.forall_of_forall_of_flip
      (fun member _ _ less => absurd less (lt_irrefl _)) follow flipped
    exact fun first inFirst second inSecond =>
      ordered (perm.mem_iff.mpr inFirst) (perm.mem_iff.mpr inSecond)
  · intro ordered
    refine sorted.imp_of_mem fun {first second} inFirst inSecond notBefore => ?_
    unfold Orchestrator.ValsetMember.Precedes
    rw [rank first inFirst, rank second inSecond]
    rcases not_before_iff.mp notBefore with less | ⟨same, below⟩
    · exact Or.inl less
    · refine Or.inr ⟨same, Nat.succ_le_succ ?_⟩
      rcases below.lt_or_eq with less | equal
      · exact ordered first (perm.mem_iff.mp inFirst) second (perm.mem_iff.mp inSecond) same less
      · rw [keyBytes_injective equal]

end Agreement

/-! ### Capital and small letters -/

section Examples

/-- Two members of equal power, with addresses that begin with `a` and with `b`. -/
def exampleSpelledMembers (first second : String) : List BridgeValidator :=
  [⟨7, ascii first ++ List.replicate 39 48⟩, ⟨7, ascii second ++ List.replicate 39 48⟩]

/-- **`0xB…` comes before `0xa…`** on one side, and after it on the other. -/
theorem valset_order_differs :
    (∀ member ∈ exampleSpelledMembers "0xa" "0xB", validateEthAddress member.ethereumAddress = .ok ()) ∧
    (exampleSpelledMembers "0xa" "0xB").Nodup ∧
    (sortBridgeValidators (exampleSpelledMembers "0xa" "0xB")).map
        (Orchestrator.ValsetMember.ofProto exampleCrates) ≠
      Orchestrator.sortReversed ((exampleSpelledMembers "0xa" "0xB").map
        (Orchestrator.ValsetMember.ofProto exampleCrates)) := by
  decide +kernel

/-- In small letters the two sides agree. -/
theorem valset_order_agrees_lower :
    (sortBridgeValidators (exampleSpelledMembers "0xb" "0xa")).map
        (Orchestrator.ValsetMember.ofProto exampleCrates) =
      Orchestrator.sortReversed ((exampleSpelledMembers "0xb" "0xa").map
        (Orchestrator.ValsetMember.ofProto exampleCrates)) := by
  have valid : ∀ member ∈ exampleSpelledMembers "0xb" "0xa",
      validateEthAddress member.ethereumAddress = .ok () := by
    decide +kernel
  exact ((valset_order_agrees_iff exampleCrates_lawful valid).2 _
    (sortBridgeValidators_sorted _)).mpr (by decide +kernel)

end Examples

end NabBridge
