/-
**Reading an encoding by hand.**

A log is taken apart without an ABI decoder: at fixed places, and at places computed from the lengths
read on the way. `slice?` is a range of a byte string, which is an error where the string is too short;
`beValue` is a big-endian number.

* `slice?_append`: the range of the middle part of three;
* `beValue_wordBytes`: a word is read back;
* `beValue_drop_wordBytes`: so is an address from the last 20 bytes of a word;
* `slice?_words`: the words of an array.
-/

import NabBridge.Lib.Abi
import Mathlib.Data.List.Induction
import Mathlib.Tactic.Ring

namespace NabBridge

/-- `&data[start..stop]`; `none` is out of range. -/
def slice? (data : Bytes) (start stop : Nat) : Option Bytes :=
  if start ≤ stop ∧ stop ≤ data.length then some ((data.drop start).take (stop - start)) else none

/-- The number a big-endian byte string spells. -/
def beValue (bytes : Bytes) : Nat := bytes.foldl (fun value byte => value * 256 + byte.toNat) 0

/-! ### Ranges -/

/-- **The middle one of three parts.** -/
theorem slice?_append {data first middle last : Bytes} {start stop : Nat}
    (parts : data = first ++ (middle ++ last)) (begins : start = first.length)
    (ends : stop = start + middle.length) : slice? data start stop = some middle := by
  subst parts begins ends
  have fits : first.length ≤ first.length + middle.length ∧
      first.length + middle.length ≤ (first ++ (middle ++ last)).length := by
    rw [List.length_append, List.length_append]
    omega
  rw [slice?, if_pos fits, List.drop_left, Nat.add_sub_cancel_left, List.take_left]

/-- The end of a range. -/
theorem slice?_drop {data bytes : Bytes} {start stop : Nat} (slice : slice? data start stop = some bytes)
    (count : Nat) (fits : start + count ≤ stop) :
    slice? data (start + count) stop = some (bytes.drop count) := by
  rw [slice?] at slice ⊢
  split_ifs at slice with inside
  obtain rfl := Option.some.inj slice
  rw [if_pos ⟨fits, inside.2⟩, List.drop_take, List.drop_drop, Nat.sub_sub]

/-! ### Numbers -/

theorem foldl_beValue (bytes : Bytes) (start : Nat) :
    bytes.foldl (fun value byte => value * 256 + byte.toNat) start =
      start * 256 ^ bytes.length + beValue bytes := by
  induction bytes generalizing start with
  | nil => simp [beValue]
  | cons byte rest ih =>
      rw [beValue, List.foldl_cons, List.foldl_cons, ih, ih (0 * 256 + byte.toNat), List.length_cons,
        pow_succ]
      ring

theorem beValue_append (first second : Bytes) :
    beValue (first ++ second) = beValue first * 256 ^ second.length + beValue second := by
  rw [beValue, List.foldl_append, foldl_beValue]
  rfl

theorem beValue_lt (bytes : Bytes) : beValue bytes < 256 ^ bytes.length := by
  induction bytes using List.reverseRecOn with
  | nil => decide
  | append_singleton rest byte ih =>
      have small : byte.toNat < 256 := byte.toNat_lt
      have single : beValue [byte] = byte.toNat := by simp [beValue]
      rw [beValue_append, List.length_append, List.length_singleton, pow_one, single, pow_succ]
      calc beValue rest * 256 + byte.toNat < (beValue rest + 1) * 256 := by omega
        _ ≤ 256 ^ rest.length * 256 := Nat.mul_le_mul_right 256 ih

/-- The digits of a number spell it. -/
theorem foldl_beDigits {width : Nat} (positive : 0 < width) (value : Nat) :
    (beDigits width value).foldl (fun total digit => total * 256 + digit) 0 = value := by
  induction width, value using beDigits.induct with
  | case1 value => exact absurd positive (lt_irrefl 0)
  | case2 value => simp [beDigits]
  | case3 width value ih =>
      rw [beDigits, List.foldl_append, ih (Nat.succ_pos _)]
      simp only [List.foldl_cons, List.foldl_nil]
      omega

/-- **A word is read back.** -/
theorem beValue_wordBytes {value : Nat} (small : value < 2 ^ 256) :
    beValue (wordBytes value) = value := by
  have digits := foldl_beDigits (by decide : 0 < 32) value
  rw [← toNat_wordBytes small, List.foldl_map] at digits
  exact digits

/-- **An address is read back** from the last 20 bytes of its word. -/
theorem beValue_drop_wordBytes {value : Nat} (small : value < 2 ^ 160) :
    beValue ((wordBytes value).drop 12) = value := by
  have whole := beValue_wordBytes (small.trans (by decide : 2 ^ 160 < 2 ^ 256))
  have length : ((wordBytes value).drop 12).length = 20 := by simp
  have below := beValue_lt ((wordBytes value).drop 12)
  rw [← List.take_append_drop 12 (wordBytes value), beValue_append, length] at whole
  rw [length] at below
  have size : (256 : Nat) ^ 20 = 2 ^ 160 := by norm_num
  rw [size] at whole below
  -- a first part that is not zero would be too much
  have zero : beValue ((wordBytes value).take 12) = 0 := by
    by_contra nonzero
    have := Nat.le_mul_of_pos_left (2 ^ 160) (Nat.pos_of_ne_zero nonzero)
    omega
  rw [zero] at whole
  omega

/-! ### Arrays -/

/-- **The words of an array**, which starts after the first part. -/
theorem slice?_words {data first last : Bytes} {values : List Nat} {start index : Nat}
    (parts : data = first ++ (values.flatMap wordBytes ++ last)) (begins : start = first.length)
    (inside : index < values.length) :
    slice? data (index * 32 + start) (index * 32 + start + 32) = some (wordBytes values[index]) := by
  have split : values.flatMap wordBytes = (values.take index).flatMap wordBytes ++
      (wordBytes values[index] ++ (values.drop (index + 1)).flatMap wordBytes) := by
    conv_lhs => rw [← List.take_append_drop index values, List.flatMap_append,
      List.drop_eq_getElem_cons inside, List.flatMap_cons]
  have length : ((values.take index).flatMap wordBytes).length = index * 32 := by
    rw [List.length_flatMap]
    simp [Nat.min_eq_left inside.le]
  have around : data = (first ++ (values.take index).flatMap wordBytes) ++
      (wordBytes values[index] ++ ((values.drop (index + 1)).flatMap wordBytes ++ last)) := by
    rw [parts, split]
    simp only [List.append_assoc]
  refine slice?_append around ?_ (by simp)
  rw [List.length_append, length, begins, Nat.add_comm]

end NabBridge
