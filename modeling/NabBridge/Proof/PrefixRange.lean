/-
**The range of a prefix is what begins with it.**

* `inPrefixRange_cons`: a range, digit by digit;
* `inPrefixRange_iff`: the keys in the range of a prefix are those that begin with it, and some that are
  shorter: the end has zeros where the carry went through, and its own beginnings lie before it
  (`FallsShort`);
* `Buffers.prefixRange_eq`: the loop over the bytes of a copy computes `prefixEnd`;
* `Buffers.prefixRange_exact`: both together.
-/

import NabBridge.Keeper.PrefixRange
import Mathlib.Data.List.Induction

namespace NabBridge

/-! ### The end of a range -/

section Digits

variable {p k bound : StoreKey} {digit digit' : Nat}

theorem prefixEnd_cons_of_some (digit : Nat) (ends : prefixEnd p = some bound) :
    prefixEnd (digit :: p) = some (digit :: bound) := by
  rw [prefixEnd, ends]

theorem prefixEnd_cons_of_none (overflows : prefixEnd p = none) (small : digit ≠ 255) :
    prefixEnd (digit :: p) = some ((digit + 1) :: List.replicate p.length 0) := by
  rw [prefixEnd, overflows]
  exact if_neg small

theorem prefixEnd_cons_255 (overflows : prefixEnd p = none) : prefixEnd (255 :: p) = none := by
  rw [prefixEnd, overflows]
  exact if_pos rfl

/-- A prefix in front of a range that has an end. -/
theorem prefixEnd_append (front : StoreKey) (ends : prefixEnd p = some bound) :
    prefixEnd (front ++ p) = some (front ++ bound) := by
  induction front with
  | nil => exact ends
  | cons digit front ih => exact prefixEnd_cons_of_some digit ih

theorem prefixEnd_replicate_255 (count : Nat) : prefixEnd (List.replicate count 255) = none := by
  induction count with
  | zero => rfl
  | succ count ih => exact prefixEnd_cons_255 ih

theorem length_prefixEnd (ends : prefixEnd p = some bound) : bound.length = p.length := by
  induction p generalizing bound with
  | nil => cases ends
  | cons digit p ih =>
      cases rest : prefixEnd p with
      | some bound' =>
          rw [prefixEnd_cons_of_some digit rest] at ends
          obtain rfl := Option.some.inj ends
          rw [List.length_cons, List.length_cons, ih rest]
      | none =>
          by_cases last : digit = 255
          · rw [last, prefixEnd_cons_255 rest] at ends
            cases ends
          · rw [prefixEnd_cons_of_none rest last] at ends
            obtain rfl := Option.some.inj ends
            simp

theorem cons_le_cons : (digit :: p : StoreKey) ≤ digit' :: k ↔ digit < digit' ∨ digit = digit' ∧ p ≤ k := by
  rw [← not_lt, List.cons_lt_cons_iff, ← not_lt]
  rcases lt_trichotomy digit digit' with below | rfl | above
  · simp [below, below.ne', below.not_gt]
  · simp
  · simp [above, above.ne', above.not_gt]

/-- What lies before zeros is fewer zeros. -/
theorem lt_replicate_zero {count : Nat} :
    k < List.replicate count 0 ↔ k <+: List.replicate count 0 ∧ k.length < count := by
  induction count generalizing k with
  | zero => simp
  | succ count ih =>
      cases k with
      | nil => simp [List.replicate_succ]
      | cons digit k =>
          rw [List.replicate_succ, List.cons_lt_cons_iff, List.cons_prefix_cons, ih, List.length_cons]
          constructor
          · rintro (below | ⟨same, starts, short⟩)
            · exact absurd below (Nat.not_lt_zero digit)
            · exact ⟨⟨same, starts⟩, Nat.succ_lt_succ short⟩
          · rintro ⟨⟨same, starts⟩, short⟩
            exact Or.inr ⟨same, starts, Nat.lt_of_succ_lt_succ short⟩

/-! ### The keys in a range -/

/-- **One digit of a range**: the key goes on inside of the range, or it is already one up, and then so
short that only zeros of the end are missing. -/
theorem inPrefixRange_cons (byte : digit' ≤ 255) :
    InPrefixRange (digit :: p) (digit' :: k) ↔ digit = digit' ∧ InPrefixRange p k ∨
      digit' = digit + 1 ∧ prefixEnd p = none ∧ k < List.replicate p.length 0 := by
  unfold InPrefixRange
  rw [cons_le_cons]
  cases rest : prefixEnd p with
  | some bound =>
      rw [prefixEnd_cons_of_some digit rest]
      simp only [Option.mem_some_iff, forall_eq', List.cons_lt_cons_iff, reduceCtorEq, false_and, and_false,
        or_false]
      constructor
      · rintro ⟨above | ⟨rfl, start⟩, below | ⟨same, stop⟩⟩ <;> first | omega | exact ⟨rfl, start, stop⟩
      · rintro ⟨rfl, start, stop⟩
        exact ⟨Or.inr ⟨rfl, start⟩, Or.inr ⟨rfl, stop⟩⟩
  | none =>
      by_cases last : digit = 255
      · subst last
        rw [prefixEnd_cons_255 rest]
        constructor
        · rintro ⟨above | ⟨rfl, start⟩, _⟩
          · omega
          · exact Or.inl ⟨rfl, start, fun _ none => nomatch none⟩
        · rintro (⟨rfl, start, _⟩ | ⟨up, _⟩)
          · exact ⟨Or.inr ⟨rfl, start⟩, fun _ none => nomatch none⟩
          · omega
      · rw [prefixEnd_cons_of_none rest last]
        simp only [Option.mem_some_iff, forall_eq', List.cons_lt_cons_iff]
        constructor
        · rintro ⟨above | ⟨rfl, start⟩, stop⟩
          · rcases stop with below | ⟨up, zeros⟩
            · omega
            · exact Or.inr ⟨up, trivial, zeros⟩
          · exact Or.inl ⟨rfl, start, fun _ none => nomatch none⟩
        · rintro (⟨rfl, start, _⟩ | ⟨rfl, _, zeros⟩)
          · exact ⟨Or.inr ⟨rfl, start⟩, Or.inl (Nat.lt_succ_self _)⟩
          · exact ⟨Or.inl (Nat.lt_succ_self _), Or.inr ⟨rfl, zeros⟩⟩

/-- A key that is in the range of a prefix although it does not begin with it: a beginning of the end. -/
def FallsShort (p k : StoreKey) : Prop :=
  p ≤ k ∧ k.length < p.length ∧ ∃ bound, prefixEnd p = some bound ∧ k <+: bound

instance (p k : StoreKey) : Decidable (FallsShort p k) :=
  decidable_of_iff (p ≤ k ∧ k.length < p.length ∧ ∃ bound ∈ prefixEnd p, k <+: bound) Iff.rfl

example : InPrefixRange [1, 255, 255] [2, 0] ∧ FallsShort [1, 255, 255] [2, 0] := by decide

theorem fallsShort_cons : FallsShort (digit :: p) (digit' :: k) ↔ digit = digit' ∧ FallsShort p k ∨
    digit' = digit + 1 ∧ digit ≠ 255 ∧ prefixEnd p = none ∧ k < List.replicate p.length 0 := by
  unfold FallsShort
  rw [cons_le_cons, List.length_cons, List.length_cons, Nat.succ_lt_succ_iff, lt_replicate_zero]
  cases rest : prefixEnd p with
  | some bound =>
      rw [prefixEnd_cons_of_some digit rest]
      simp only [Option.some.injEq, exists_eq_left', List.cons_prefix_cons, reduceCtorEq, false_and,
        and_false, or_false]
      constructor
      · rintro ⟨above | ⟨rfl, start⟩, short, same, begins⟩
        · omega
        · exact ⟨rfl, start, short, begins⟩
      · rintro ⟨rfl, start, short, begins⟩
        exact ⟨Or.inr ⟨rfl, start⟩, short, rfl, begins⟩
  | none =>
      simp only [reduceCtorEq, false_and, exists_false, and_false, false_or, true_and]
      by_cases last : digit = 255
      · subst last
        rw [prefixEnd_cons_255 rest]
        simp
      · rw [prefixEnd_cons_of_none rest last]
        simp only [Option.some.injEq, exists_eq_left', List.cons_prefix_cons]
        constructor
        · rintro ⟨_, short, up, begins⟩
          exact ⟨up, last, begins, short⟩
        · rintro ⟨rfl, _, begins, short⟩
          exact ⟨Or.inl (Nat.lt_succ_self _), short, rfl, begins⟩

/-- **The keys in the range of a prefix** begin with it or fall short. -/
theorem inPrefixRange_iff (bytes : ∀ digit ∈ k, digit ≤ 255) :
    InPrefixRange p k ↔ p <+: k ∨ FallsShort p k := by
  induction p generalizing k with
  | nil => exact ⟨fun _ => Or.inl List.nil_prefix, fun _ => ⟨not_lt.mp (List.not_lt_nil k), fun _ none => nomatch none⟩⟩
  | cons digit p ih =>
      cases k with
      | nil =>
          have above : ¬ digit :: p ≤ [] := by simp
          simp [InPrefixRange, FallsShort, above]
      | cons digit' k =>
          have byte := bytes digit' List.mem_cons_self
          rw [inPrefixRange_cons byte, ih fun other member => bytes other (List.mem_cons_of_mem _ member),
            List.cons_prefix_cons, fallsShort_cons]
          constructor
          · rintro (⟨same, begins | short⟩ | ⟨up, overflows, zeros⟩)
            · exact Or.inl ⟨same, begins⟩
            · exact Or.inr (Or.inl ⟨same, short⟩)
            · exact Or.inr (Or.inr ⟨up, by omega, overflows, zeros⟩)
          · rintro (⟨same, begins⟩ | ⟨same, short⟩ | ⟨up, _, overflows, zeros⟩)
            · exact Or.inl ⟨same, Or.inl begins⟩
            · exact Or.inl ⟨same, Or.inr short⟩
            · exact Or.inr ⟨up, overflows, zeros⟩

/-- **Among the keys that are long enough** only those that begin with the prefix. -/
theorem inPrefixRange_iff_starts (bytes : ∀ digit ∈ k, digit ≤ 255) (long : p.length ≤ k.length) :
    InPrefixRange p k ↔ p <+: k := by
  rw [inPrefixRange_iff bytes]
  refine ⟨fun inside => inside.resolve_right fun short => ?_, Or.inl⟩
  exact absurd short.2.1 (Nat.not_lt.mpr long)

end Digits

theorem keyBytes_le (bytes : Bytes) : ∀ digit ∈ keyBytes bytes, digit ≤ 255 := by
  intro digit member
  obtain ⟨byte, _, rfl⟩ := List.mem_map.mp member
  exact Nat.le_of_lt_succ byte.toNat_lt

theorem keyBytes_append (first second : Bytes) :
    keyBytes (first ++ second) = keyBytes first ++ keyBytes second := List.map_append

/-- Bytes begin with bytes where the digits do. -/
theorem keyBytes_prefix {first second : Bytes} :
    keyBytes first <+: keyBytes second ↔ first <+: second := by
  constructor
  · intro begins
    have taken := List.prefix_iff_eq_take.mp begins
    rw [keyBytes, keyBytes, ← List.map_take, List.length_map] at taken
    exact List.prefix_iff_eq_take.mpr (keyBytes_injective taken)
  · exact fun begins => begins.map _

/-! ### The loop over the bytes -/

/-- A byte that overflows. -/
theorem eq_255_of_add_one {byte : UInt8} (zero : byte + 1 = 0) : byte = 255 := by
  have := byte.toNat_lt
  have wraps := congrArg UInt8.toNat zero
  rw [UInt8.toNat_add, show (1 : UInt8).toNat = 1 from rfl, show (0 : UInt8).toNat = 0 from rfl] at wraps
  exact UInt8.toNat_inj.mp (show byte.toNat = 255 by omega)

theorem prefixEnd_overflows (count : Nat) :
    prefixEnd (keyBytes (List.replicate count 255)) = none := by
  rw [keyBytes, List.map_replicate]
  exact prefixEnd_replicate_255 count

/-- The byte that takes the carry. -/
theorem prefixEnd_takes (front : Bytes) {byte : UInt8} (takes : byte + 1 ≠ 0) (count : Nat) :
    prefixEnd (keyBytes (front ++ byte :: List.replicate count 255)) =
      some (keyBytes (front ++ (byte + 1) :: List.replicate count 0)) := by
  have small : byte.toNat ≠ 255 := by
    intro same
    obtain rfl : byte = 255 := UInt8.toNat_inj.mp same
    exact takes rfl
  have up : (byte + 1).toNat = byte.toNat + 1 := by
    have := byte.toNat_lt
    rw [UInt8.toNat_add, show (1 : UInt8).toNat = 1 from rfl]
    omega
  have ends := prefixEnd_cons_of_none (prefixEnd_overflows count) small
  rw [keyBytes_append, keyBytes_append]
  refine prefixEnd_append _ ?_
  simpa [keyBytes, up] using ends

namespace Buffers

variable {buffers : Buffers} {front rear : Bytes} {byte : UInt8}

/-- The slice that was allocated last. -/
theorem bytes_concat (buffers : Buffers) (last : Bytes) :
    bytes (buffers ++ [last]) buffers.length = last := by
  simp [bytes]

theorem byteAt_middle :
    byteAt (buffers ++ [front ++ byte :: rear]) buffers.length front.length = .ok byte := by
  rw [byteAt, bytes_concat]
  simp

theorem modify_concat (buffers : Buffers) (last : Bytes) (change : Bytes → Bytes) :
    (buffers ++ [last]).modify buffers.length change = buffers ++ [change last] := by
  rw [List.modify_eq_take_cons_drop (by simp)]
  simp

theorem increment_middle :
    increment (buffers ++ [front ++ byte :: rear]) buffers.length front.length =
      .ok (buffers ++ [front ++ (byte + 1) :: rear]) := by
  rw [increment, byteAt_middle, Outcome.ok_bind, Outcome.pure_eq, modify_concat]
  simp

/-- **The loop** on a copy in which one byte has gone up and the bytes behind it have overflowed: it stops
at the end of the range, or at a first byte that has overflowed, too. -/
theorem carry_eq (front : Bytes) (byte : UInt8) (count : Nat) : ∃ l allocated first,
    carry buffers.length front.length (buffers ++ [front ++ (byte + 1) :: List.replicate count 0]) =
      .ok (l, buffers ++ [allocated]) ∧
    byteAt (buffers ++ [allocated]) buffers.length 0 = .ok first ∧
    prefixEnd (keyBytes (front ++ byte :: List.replicate count 255)) =
      if l = 0 ∧ first = 0 then none else some (keyBytes allocated) := by
  induction front using List.reverseRecOn generalizing byte count with
  | nil =>
      refine ⟨0, _, byte + 1, rfl, @byteAt_middle buffers [] _ _, ?_⟩
      split_ifs with zero
      · rw [eq_255_of_add_one zero.2]
        exact prefixEnd_overflows (count + 1)
      · exact prefixEnd_takes [] (fun same => zero ⟨rfl, same⟩) count
  | append_singleton front previous ih =>
      have length : (front ++ [previous]).length = front.length + 1 := by simp
      have read := @byteAt_middle buffers (front ++ [previous]) (List.replicate count 0) (byte + 1)
      rw [length] at read ⊢
      rw [carry, read, Outcome.ok_bind]
      by_cases zero : byte + 1 = 0
      · -- the carry goes to the byte before
        obtain ⟨l, allocated, first, carried, firstIs, ends⟩ := ih previous (count + 1)
        refine ⟨l, allocated, first, ?_, firstIs, ?_⟩
        · rw [if_pos zero, zero, List.append_assoc, List.singleton_append, increment_middle, Outcome.ok_bind]
          exact carried
        · rw [eq_255_of_add_one zero, List.append_assoc]
          exact ends
      · obtain ⟨head, rest, headIs⟩ := List.exists_cons_of_ne_nil
          (show front ++ [previous] ≠ [] by simp)
        refine ⟨front.length + 1, _, head, if_neg zero, ?_, ?_⟩
        · rw [headIs]
          exact @byteAt_middle buffers [] _ head
        · rw [if_neg fun both => Nat.succ_ne_zero _ both.1]
          exact prefixEnd_takes (front ++ [previous]) zero count

/-- **What `prefixRange` computes**: the slice itself as the start, and as the end a new slice that holds
`prefixEnd`, or nil. -/
theorem prefixRange_eq {slice : Nat} {p : Bytes} (there : buffers[slice]? = some p) (nonempty : p ≠ []) :
    ∃ stop allocated, prefixRange buffers (some slice) = .ok (some slice, stop, buffers ++ [allocated]) ∧
      (stop = none ∧ prefixEnd (keyBytes p) = none ∨
        stop = some buffers.length ∧ prefixEnd (keyBytes p) = some (keyBytes allocated)) := by
  have held : bytes buffers slice = p := by rw [bytes, there, Option.getD_some]
  obtain ⟨front, last, rfl⟩ := (List.eq_nil_or_concat p).resolve_left nonempty
  rw [List.concat_eq_append] at held ⊢
  have length : (front ++ [last]).length = front.length + 1 := by simp
  -- the copy that is written to
  have copied : copy (buffers ++ [List.replicate (front.length + 1) 0]) buffers.length slice =
      buffers ++ [front ++ [last]] := by
    have below : slice < buffers.length := (List.getElem?_eq_some_iff.mp there).1
    have same : bytes (buffers ++ [List.replicate (front.length + 1) 0]) slice = front ++ [last] := by
      rw [← held, bytes, bytes, List.getElem?_append_left below]
    rw [copy, same, modify_concat, List.length_replicate, ← length, List.take_length, length]
    simp
  have up : increment (buffers ++ [front ++ [last]]) buffers.length front.length =
      .ok (buffers ++ [front ++ [last + 1]]) := increment_middle
  obtain ⟨l, allocated, first, carried, firstIs, ends⟩ := @carry_eq buffers front last 0
  refine ⟨if l = 0 ∧ first = 0 then none else some buffers.length, allocated, ?_, ?_⟩
  · rw [prefixRange]
    simp only [held, length, Nat.succ_ne_zero, if_false, make, Nat.add_sub_cancel, copied, up,
      Outcome.ok_bind]
    rw [List.replicate_zero] at carried
    rw [carried, Outcome.ok_bind]
    simp only [firstIs, Outcome.ok_bind, Outcome.pure_eq]
  · rw [List.replicate_zero] at ends
    rw [ends]
    split_ifs
    · exact Or.inl ⟨rfl, rfl⟩
    · exact Or.inr ⟨rfl, rfl⟩

/-- **`prefixRange` delimits exactly the prefix.** It returns, for every slice that is not empty: the start
is the slice, no slice there was is written to, and among the keys that are at least as long as the prefix
those from the start on and before the end are the ones that begin with it. -/
theorem prefixRange_exact (buffers : Buffers) (slice : Nat) (p : Bytes)
    (there : buffers[slice]? = some p) (nonempty : p ≠ []) : ∃ stop after,
    prefixRange buffers (some slice) = .ok (some slice, stop, after) ∧ buffers <+: after ∧
    ∀ k : Bytes, p.length ≤ k.length →
      ((keyBytes p ≤ keyBytes k ∧ (stop = none ∨ ∃ number, stop = some number ∧
          keyBytes k < keyBytes (bytes after number))) ↔ p <+: k) := by
  obtain ⟨stop, allocated, computed, ends⟩ := prefixRange_eq there nonempty
  refine ⟨stop, _, computed, List.prefix_append _ _, fun k long => ?_⟩
  rw [← keyBytes_prefix, ← inPrefixRange_iff_starts (keyBytes_le k) (by simpa using long), InPrefixRange]
  rcases ends with ⟨rfl, none⟩ | ⟨rfl, some⟩
  · rw [none]
    simp
  · rw [some]
    simp [bytes_concat]

/-- A prefix of `0xff` alone has no end, and the carry of another goes through. -/
theorem prefixRange_exact_examples :
    (∃ stop after, prefixRange [[255, 255], [15, 42, 255, 255]] (some 1) = .ok (some 1, stop, after) ∧
      [[255, 255], [15, 42, 255, 255]] <+: after ∧
      ∀ k : Bytes, 4 ≤ k.length →
        ((keyBytes [15, 42, 255, 255] ≤ keyBytes k ∧ (stop = none ∨ ∃ number, stop = some number ∧
          keyBytes k < keyBytes (bytes after number))) ↔ [15, 42, 255, 255] <+: k)) ∧
    prefixRange [[255, 255], [15, 42, 255, 255]] (some 0) =
      .ok (some 0, none, [[255, 255], [15, 42, 255, 255], [0, 0]]) :=
  ⟨prefixRange_exact _ 1 [15, 42, 255, 255] rfl (by decide), by decide⟩

end Buffers

end NabBridge
