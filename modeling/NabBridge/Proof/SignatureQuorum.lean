/-
**The quorum check, read exactly.**

The loop of `checkValidatorSignatures` adds powers in a `uint256`, without a check for overflow, and
breaks at the first entry at which the sum passes the threshold. Whether it returns depends on the sums
as they wrap around and on the entries before that point.

* `StopsAt`: the point at which the loop breaks;
* `checkValidatorSignatures_iff`: the check returns exactly if the loop has such a point and all signed
  entries before it verify;
* `signatureQuorum`: there the exact sum passes the threshold too, and it is enough that a prefix
  verifies whose sums never wrap around.
-/

import NabBridge.Contract.Signatures

namespace NabBridge

/-! ### Signed entries -/

/-- The entries among the first `count` that carry a signature. -/
def signedEntries (v : List UInt8) (count : Nat) : List Nat :=
  (List.range count).filter fun i => (v[i]?).getD 0 ≠ 0

/-- Their power, not reduced. -/
def signedPower (powers : List Nat) (v : List UInt8) (count : Nat) : Nat :=
  ((signedEntries v count).map (powerAt powers)).sum

/-- The loop breaks after `stop` entries: the sum, as it wraps around, passes the threshold there for
the first time. -/
structure StopsAt (powers : List Nat) (v : List UInt8) (powerThreshold start stop : Nat) : Prop where
  enough : powerThreshold < (start + signedPower powers v stop) % 2 ^ 256
  first : ∀ earlier < stop, (start + signedPower powers v earlier) % 2 ^ 256 ≤ powerThreshold

theorem mem_signedEntries {v : List UInt8} {count i : Nat} :
    i ∈ signedEntries v count ↔ i < count ∧ (v[i]?).getD 0 ≠ 0 := by
  simp [signedEntries]

theorem signedEntries_nodup (v : List UInt8) (count : Nat) : (signedEntries v count).Nodup :=
  List.nodup_range.filter _

@[simp] theorem signedPower_zero (powers : List Nat) (v : List UInt8) : signedPower powers v 0 = 0 :=
  rfl

theorem signedEntries_cons (v₀ : UInt8) (v : List UInt8) (count : Nat) :
    signedEntries (v₀ :: v) (count + 1) =
      (if v₀ ≠ 0 then [0] else []) ++ (signedEntries v count).map Nat.succ := by
  have later : ((List.range count).map Nat.succ).filter (fun i => ((v₀ :: v)[i]?).getD 0 ≠ 0) =
      (signedEntries v count).map Nat.succ := by
    rw [List.filter_map]
    rfl
  rw [signedEntries, List.range_succ_eq_map, List.filter_cons, later]
  by_cases skipped : v₀ = 0
  · simp [skipped]
  · simp [skipped]

/-- The first entry is counted if it carries a signature. -/
theorem signedPower_cons (power : Nat) (powers : List Nat) (v₀ : UInt8) (v : List UInt8)
    (count : Nat) :
    signedPower (power :: powers) (v₀ :: v) (count + 1) =
      (if v₀ ≠ 0 then power else 0) + signedPower powers v count := by
  have later : ((signedEntries v count).map Nat.succ).map (powerAt (power :: powers)) =
      (signedEntries v count).map (powerAt powers) := by
    rw [List.map_map]
    rfl
  rw [signedPower, signedEntries_cons, List.map_append, later, List.sum_append]
  by_cases skipped : v₀ = 0
  · simp [skipped, signedPower]
  · simp [skipped, signedPower, powerAt]

/-! ### The stopping point -/

theorem StopsAt.unique {powers : List Nat} {v : List UInt8} {powerThreshold start stop stop' : Nat}
    (stops : StopsAt powers v powerThreshold start stop)
    (stops' : StopsAt powers v powerThreshold start stop') : stop = stop' := by
  rcases lt_trichotomy stop stop' with before | same | after
  · exact absurd stops.enough (not_lt.mpr (stops'.first stop before))
  · exact same
  · exact absurd stops'.enough (not_lt.mpr (stops.first stop' after))

/-- Wherever the wrapped sum passes the threshold, the loop has stopped. -/
theorem exists_stopsAt {powers : List Nat} {v : List UInt8} {powerThreshold start count : Nat}
    (enough : powerThreshold < (start + signedPower powers v count) % 2 ^ 256) :
    ∃ stop ≤ count, StopsAt powers v powerThreshold start stop := by
  have somewhere : ∃ stop, powerThreshold < (start + signedPower powers v stop) % 2 ^ 256 :=
    ⟨count, enough⟩
  exact ⟨Nat.find somewhere, Nat.find_min' somewhere enough, Nat.find_spec somewhere,
    fun earlier before => not_lt.mp (Nat.find_min somewhere before)⟩

theorem not_stopsAt_zero {powers : List Nat} {v : List UInt8} {powerThreshold start : Nat}
    (low : start ≤ powerThreshold) : ¬ StopsAt powers v powerThreshold start 0 := by
  intro stops
  have enough := stops.enough
  rw [signedPower_zero, Nat.add_zero] at enough
  exact absurd enough (not_lt.mpr ((Nat.mod_le _ _).trans low))

/-- The loop after its first entry starts with the sum it has there. -/
theorem stopsAt_cons {power : Nat} {powers : List Nat} {v₀ : UInt8} {v : List UInt8}
    {powerThreshold start stop : Nat} (low : start ≤ powerThreshold) :
    StopsAt (power :: powers) (v₀ :: v) powerThreshold start (stop + 1) ↔
      StopsAt powers v powerThreshold ((start + if v₀ ≠ 0 then power else 0) % 2 ^ 256) stop := by
  have sums : ∀ count, (start + signedPower (power :: powers) (v₀ :: v) (count + 1)) % 2 ^ 256 =
      ((start + if v₀ ≠ 0 then power else 0) % 2 ^ 256 + signedPower powers v count) % 2 ^ 256 := by
    intro count
    rw [signedPower_cons, Nat.mod_add_mod, Nat.add_assoc]
  constructor
  · intro stops
    refine ⟨sums stop ▸ stops.enough, fun earlier before => ?_⟩
    exact sums earlier ▸ stops.first (earlier + 1) (Nat.succ_lt_succ before)
  · intro stops
    refine ⟨(sums stop).symm ▸ stops.enough, fun earlier before => ?_⟩
    cases earlier with
    | zero =>
        rw [signedPower_zero, Nat.add_zero]
        exact (Nat.mod_le _ _).trans low
    | succ earlier => exact (sums earlier).symm ▸ stops.first earlier (Nat.lt_of_succ_lt_succ before)

/-! ### The check -/

/-- All signed entries before `stop` verify. -/
def VerifiedBefore (evm : Evm) (theHash : Bytes) (validators : List EthAddress) (v : List UInt8)
    (r s : List Bytes) (stop : Nat) : Prop :=
  ∀ i ∈ signedEntries v stop, Verifies evm theHash validators v r s i

theorem verifiedBefore_cons {evm : Evm} {theHash : Bytes} {signer : EthAddress}
    {signers : List EthAddress} {v₀ : UInt8} {v : List UInt8} {r₀ s₀ : Bytes} {r s : List Bytes}
    {stop : Nat} :
    VerifiedBefore evm theHash (signer :: signers) (v₀ :: v) (r₀ :: r) (s₀ :: s) (stop + 1) ↔
      (v₀ ≠ 0 → verifySig evm signer theHash v₀ r₀ s₀ = true) ∧
      VerifiedBefore evm theHash signers v r s stop := by
  constructor
  · refine fun verified => ⟨fun signed => ?_, fun i member => ?_⟩
    · obtain ⟨_, _, _, _, isSigner, isV, isR, isS, _, passes⟩ :=
        verified 0 (mem_signedEntries.mpr ⟨Nat.succ_pos _, signed⟩)
      cases Option.some.inj isSigner
      cases Option.some.inj isV
      cases Option.some.inj isR
      cases Option.some.inj isS
      exact passes
    · obtain ⟨inside, signed⟩ := mem_signedEntries.mp member
      exact verified (i + 1) (mem_signedEntries.mpr ⟨Nat.succ_lt_succ inside, signed⟩)
  · rintro ⟨first, later⟩ i member
    obtain ⟨inside, signed⟩ := mem_signedEntries.mp member
    cases i with
    | zero => exact ⟨signer, v₀, r₀, s₀, rfl, rfl, rfl, rfl, signed, first signed⟩
    | succ i =>
        exact (later i (mem_signedEntries.mpr ⟨Nat.lt_of_succ_lt_succ inside, signed⟩)).cons
          signer v₀ r₀ s₀

/-- **The loop**: it ends above the threshold exactly if it has a stopping point before which all
signed entries verify. -/
theorem cumulativePower_enough_iff {evm : Evm} {theHash : Bytes} {powerThreshold start : Nat}
    {validators : List EthAddress} {powers : List Nat} {v : List UInt8} {r s : List Bytes}
    (ofPowers : powers.length = validators.length) (ofV : v.length = validators.length)
    (ofR : r.length = validators.length) (ofS : s.length = validators.length)
    (low : start ≤ powerThreshold) (small : start < 2 ^ 256) :
    (∃ final, cumulativePower evm theHash powerThreshold start validators powers v r s = .ok final ∧
        powerThreshold < final) ↔
      ∃ stop ≤ validators.length, StopsAt powers v powerThreshold start stop ∧
        VerifiedBefore evm theHash validators v r s stop := by
  induction validators generalizing start powers v r s with
  | nil =>
      constructor
      · rintro ⟨final, ended, enough⟩
        rw [cumulativePower] at ended
        cases ended
        exact absurd enough (not_lt.mpr low)
      · rintro ⟨stop, inside, stops, -⟩
        rw [Nat.le_zero.mp inside] at stops
        exact absurd stops (not_stopsAt_zero low)
  | cons signer signers ih =>
      obtain ⟨power, powers, rfl⟩ := List.exists_cons_of_length_eq_add_one ofPowers
      obtain ⟨v₀, v, rfl⟩ := List.exists_cons_of_length_eq_add_one ofV
      obtain ⟨r₀, r, rfl⟩ := List.exists_cons_of_length_eq_add_one ofR
      obtain ⟨s₀, s, rfl⟩ := List.exists_cons_of_length_eq_add_one ofS
      -- the stopping point is not at the start, so it is one of the rest, moved by one
      have moved : (∃ stop ≤ (signer :: signers).length,
          StopsAt (power :: powers) (v₀ :: v) powerThreshold start stop ∧
            VerifiedBefore evm theHash (signer :: signers) (v₀ :: v) (r₀ :: r) (s₀ :: s) stop) ↔
          (v₀ ≠ 0 → verifySig evm signer theHash v₀ r₀ s₀ = true) ∧
          ∃ stop ≤ signers.length,
            StopsAt powers v powerThreshold ((start + if v₀ ≠ 0 then power else 0) % 2 ^ 256) stop ∧
            VerifiedBefore evm theHash signers v r s stop := by
        constructor
        · rintro ⟨stop, inside, stops, verified⟩
          cases stop with
          | zero => exact absurd stops (not_stopsAt_zero low)
          | succ stop =>
              obtain ⟨first, later⟩ := verifiedBefore_cons.mp verified
              exact ⟨first, stop, Nat.le_of_succ_le_succ inside, (stopsAt_cons low).mp stops, later⟩
        · rintro ⟨first, stop, inside, stops, verified⟩
          exact ⟨stop + 1, Nat.succ_le_succ inside, (stopsAt_cons low).mpr stops,
            verifiedBefore_cons.mpr ⟨first, verified⟩⟩
      have rest := fun {next : Nat} => @ih next powers v r s (Nat.succ.inj ofPowers)
        (Nat.succ.inj ofV) (Nat.succ.inj ofR) (Nat.succ.inj ofS)
      rw [moved, cumulativePower]
      by_cases skipped : v₀ = 0
      · rw [if_neg (not_not.mpr skipped), if_neg (not_not.mpr skipped), Nat.add_zero,
          Nat.mod_eq_of_lt small, rest low small]
        exact ⟨fun found => ⟨fun signed => absurd skipped signed, found⟩, And.right⟩
      · rw [if_pos skipped, if_pos skipped]
        have reduced : (start + power) % 2 ^ 256 < 2 ^ 256 := Nat.mod_lt _ (by decide)
        split_ifs with verified enough
        · refine iff_of_true ⟨_, rfl, enough⟩ ⟨fun _ => verified, 0, Nat.zero_le _, ⟨?_, ?_⟩, ?_⟩
          · rwa [signedPower_zero, Nat.add_zero, Nat.mod_mod]
          · exact fun _ before => absurd before (Nat.not_lt_zero _)
          · exact fun _ member => absurd member List.not_mem_nil
        · rw [rest (not_lt.mp enough) reduced]
          exact ⟨fun found => ⟨fun _ => verified, found⟩, And.right⟩
        · refine iff_of_false ?_ fun found => verified (found.1 skipped)
          rintro ⟨final, ended, -⟩
          cases ended

/-- **When the check returns**: exactly if the loop has a stopping point and all signed entries before
it verify. -/
theorem checkValidatorSignatures_iff {evm : Evm} {validators : List EthAddress} {powers : List Nat}
    {v : List UInt8} {r s : List Bytes} {theHash : Bytes} {powerThreshold : Nat}
    (ofPowers : powers.length = validators.length) (ofV : v.length = validators.length)
    (ofR : r.length = validators.length) (ofS : s.length = validators.length) :
    checkValidatorSignatures evm validators powers v r s theHash powerThreshold = .ok () ↔
      ∃ stop ≤ validators.length, StopsAt powers v powerThreshold 0 stop ∧
        VerifiedBefore evm theHash validators v r s stop := by
  rw [← cumulativePower_enough_iff ofPowers ofV ofR ofS (Nat.zero_le _) (by norm_num)]
  unfold checkValidatorSignatures
  cases cumulativePower evm theHash powerThreshold 0 validators powers v r s with
  | error reason => simp
  | ok final => simp

/-- **The quorum check under wrap-around.** If the check returns, distinct entries that verify have,
exactly summed, more power than the threshold, and every signed entry before the stopping point
verifies. It does return if a prefix of the arrays verifies, with enough power and without a sum that
wraps around. -/
theorem signatureQuorum (evm : Evm) (validators : List EthAddress) (powers : List Nat)
    (v : List UInt8) (r s : List Bytes) (theHash : Bytes) (powerThreshold : Nat)
    (ofPowers : powers.length = validators.length) (ofV : v.length = validators.length)
    (ofR : r.length = validators.length) (ofS : s.length = validators.length) :
    (checkValidatorSignatures evm validators powers v r s theHash powerThreshold = .ok () →
      (∃ counted : List Nat, counted.Nodup ∧
        (∀ i ∈ counted, i < validators.length ∧ Verifies evm theHash validators v r s i) ∧
        powerThreshold < (counted.map (powerAt powers)).sum) ∧
      ∃ stop ≤ validators.length, StopsAt powers v powerThreshold 0 stop ∧
        ∀ i < stop, v[i]? ≠ some 0 → Verifies evm theHash validators v r s i) ∧
    (∀ length ≤ validators.length,
      (∀ i < length, v[i]? ≠ some 0 → Verifies evm theHash validators v r s i) →
      powerThreshold < signedPower powers v length →
      (∀ earlier ≤ length, signedPower powers v earlier ≤ 2 ^ 256 - 1) →
      checkValidatorSignatures evm validators powers v r s theHash powerThreshold = .ok ()) := by
  have signed : ∀ {i count}, count ≤ validators.length → i < count →
      ((v[i]?).getD 0 ≠ 0 ↔ v[i]? ≠ some 0) := by
    intro i count inside before
    rw [List.getElem?_eq_getElem (by omega : i < v.length), Option.getD_some]
    simp
  constructor
  · intro passed
    obtain ⟨stop, inside, stops, verified⟩ :=
      (checkValidatorSignatures_iff ofPowers ofV ofR ofS).mp passed
    refine ⟨⟨signedEntries v stop, signedEntries_nodup v stop, fun i member => ⟨?_, verified i member⟩,
      ?_⟩, stop, inside, stops, fun i before given => ?_⟩
    · exact lt_of_lt_of_le (mem_signedEntries.mp member).1 inside
    · have wrapped := stops.enough
      rw [Nat.zero_add] at wrapped
      exact lt_of_lt_of_le wrapped (Nat.mod_le _ _)
    · exact verified i (mem_signedEntries.mpr ⟨before, (signed inside before).mpr given⟩)
  · intro length inside verified enough exact'
    have unwrapped : powerThreshold < (0 + signedPower powers v length) % 2 ^ 256 := by
      have small := exact' length le_rfl
      rwa [Nat.zero_add, Nat.mod_eq_of_lt (by omega)]
    obtain ⟨stop, upTo, stops⟩ := exists_stopsAt unwrapped
    refine (checkValidatorSignatures_iff ofPowers ofV ofR ofS).mpr
      ⟨stop, upTo.trans inside, stops, fun i member => ?_⟩
    obtain ⟨before, given⟩ := mem_signedEntries.mp member
    exact verified i (by omega) ((signed inside (by omega)).mp given)

/-- Two validators of which the first one signs. -/
theorem signatureQuorum_first :
    checkValidatorSignatures ⟨fun _ => [], fun _ _ _ _ => some 7⟩ [7, 8] [3, 2 ^ 256 - 1] [27, 0]
      [[], []] [[], []] [] 2 = .ok () :=
  (signatureQuorum ⟨fun _ => [], fun _ _ _ _ => some 7⟩ [7, 8] [3, 2 ^ 256 - 1] [27, 0] [[], []]
    [[], []] [] 2 rfl rfl rfl rfl).2 1 (by decide)
    (fun i before _ => by
      obtain rfl : i = 0 := by omega
      exact ⟨7, 27, [], [], rfl, rfl, rfl, rfl, by decide, by decide⟩)
    (by decide)
    (fun earlier before => by
      rcases Nat.le_one_iff_eq_zero_or_eq_one.mp before with rfl | rfl
      · decide
      · decide)

end NabBridge
