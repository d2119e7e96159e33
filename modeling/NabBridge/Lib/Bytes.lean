/-
**Byte strings: separators, decimal numerals, big-endian digits.**

Text records are built by writing fields one after the other with a separator between them. What
makes such a record readable again is always the same: the text before the first separator does
not contain it. `append_cons_inj` states this once, for any class of symbols, and the lemmas about
decimal numerals say which symbols a numeral is made of.

Binary keys are built from fields of a fixed width. `beDigits width value` is the big-endian
expansion of `value` in base 256; its leading digit keeps whatever does not fit below it, so that
the expansion of an unbounded counter is still injective (`beDigits_inj`). For
`value < 256 ^ width` every digit is a byte.
-/

import Mathlib.Data.List.Basic
import Mathlib.Data.List.Lex
import Mathlib.Tactic.Common
import Mathlib.Tactic.Ring

namespace NabBridge

/-- A byte string. -/
abbrev Bytes := List UInt8

/-- A property of all items is decided by walking the items, where their type is finite, too. -/
instance (priority := 1100) decidableForallMem {α : Type} (property : α → Prop) [DecidablePred property]
    (items : List α) : Decidable (∀ item ∈ items, property item) := List.decidableBAll property items

/-- The byte of an ASCII character. -/
def asciiByte (char : Char) : UInt8 := char.toNat.toUInt8

/-- The bytes of an ASCII text. -/
def ascii (text : String) : Bytes := text.toList.map asciiByte

/-! ### Splitting at the first symbol outside a class -/

section Split

variable {α : Type}

/-- **The first symbol outside a class splits a string in one way.** -/
theorem append_cons_inj (inside : α → Prop) {front front' : List α} {stop stop' : α}
    {rest rest' : List α} (all : ∀ symbol ∈ front, inside symbol)
    (all' : ∀ symbol ∈ front', inside symbol) (out : ¬ inside stop) (out' : ¬ inside stop')
    (equal : front ++ stop :: rest = front' ++ stop' :: rest') :
    front = front' ∧ stop = stop' ∧ rest = rest' := by
  induction front generalizing front' with
  | nil =>
      cases front' with
      | nil => simpa using equal
      | cons head tail =>
          have same : stop = head := by simpa using (List.cons.inj equal).1
          exact absurd (all' head List.mem_cons_self) (same ▸ out)
  | cons head tail ih =>
      cases front' with
      | nil =>
          have same : head = stop' := by simpa using (List.cons.inj equal).1
          exact absurd (all head List.mem_cons_self) (same ▸ out')
      | cons head' tail' =>
          obtain ⟨sameHead, sameTail⟩ := List.cons.inj equal
          obtain ⟨fronts, stops, rests⟩ := ih
            (fun symbol member => all symbol (List.mem_cons_of_mem _ member))
            (fun symbol member => all' symbol (List.mem_cons_of_mem _ member)) sameTail
          exact ⟨by rw [sameHead, fronts], stops, rests⟩

/-- A separator that neither front contains splits a string in one way. -/
theorem split_first {separator : α} {front front' rest rest' : List α}
    (free : separator ∉ front) (free' : separator ∉ front')
    (equal : front ++ separator :: rest = front' ++ separator :: rest') :
    front = front' ∧ rest = rest' := by
  obtain ⟨fronts, _, rests⟩ := append_cons_inj (fun symbol => symbol ≠ separator)
    (fun symbol member same => free (same ▸ member))
    (fun symbol member same => free' (same ▸ member)) (by simp) (by simp) equal
  exact ⟨fronts, rests⟩

/-- A separator that neither rear contains splits a string in one way. -/
theorem split_last {separator : α} {front front' rear rear' : List α}
    (free : separator ∉ rear) (free' : separator ∉ rear')
    (equal : front ++ separator :: rear = front' ++ separator :: rear') :
    front = front' ∧ rear = rear' := by
  have reversed : rear.reverse ++ separator :: front.reverse =
      rear'.reverse ++ separator :: front'.reverse := by
    simpa using congrArg List.reverse equal
  obtain ⟨rears, fronts⟩ := split_first (by simpa using free) (by simpa using free') reversed
  exact ⟨List.reverse_injective fronts, List.reverse_injective rears⟩

end Split

/-! ### Decimal numerals -/

/-- The symbols `0` to `9`. -/
def IsDigit (byte : UInt8) : Prop := 48 ≤ byte.toNat ∧ byte.toNat ≤ 57

instance : DecidablePred IsDigit := fun byte => by unfold IsDigit; infer_instance

/-- The decimal numeral of a natural number. -/
def decimal (value : Nat) : Bytes := (Nat.toDigits 10 value).map asciiByte

theorem asciiByte_toNat_of_isDigit {char : Char} (digit : char.isDigit = true) :
    (asciiByte char).toNat = char.toNat := by
  have bound : char.toNat ≤ 57 := by
    simp only [Char.isDigit, ge_iff_le, Bool.and_eq_true, decide_eq_true_eq] at digit
    exact UInt32.le_iff_toNat_le.mp digit.2
  simp only [asciiByte, Nat.toUInt8, UInt8.toNat_ofNat']
  omega

theorem isDigit_of_mem_decimal {value : Nat} {byte : UInt8} (member : byte ∈ decimal value) :
    IsDigit byte := by
  obtain ⟨char, inDigits, rfl⟩ := List.mem_map.mp member
  have digit := Nat.isDigit_of_mem_toDigits (by decide) (by decide) inDigits
  have range := digit
  simp only [Char.isDigit, ge_iff_le, Bool.and_eq_true, decide_eq_true_eq] at range
  rw [IsDigit, asciiByte_toNat_of_isDigit digit]
  exact ⟨UInt32.le_iff_toNat_le.mp range.1, UInt32.le_iff_toNat_le.mp range.2⟩

theorem decimal_ne_nil (value : Nat) : decimal value ≠ [] := by
  simp [decimal, Nat.toDigits_ne_nil]

/-- The number a numeral stands for. -/
def ofDecimal (text : Bytes) : Nat :=
  Nat.ofDigitChars 10 (text.map fun byte => Char.ofNat byte.toNat) 0

theorem ofDecimal_decimal (value : Nat) : ofDecimal (decimal value) = value := by
  have back : (decimal value).map (fun byte => Char.ofNat byte.toNat) = Nat.toDigits 10 value := by
    rw [decimal, List.map_map]
    refine (List.map_congr_left fun char member => ?_).trans (List.map_id _)
    have digit := Nat.isDigit_of_mem_toDigits (by decide) (by decide) member
    rw [Function.comp_apply, asciiByte_toNat_of_isDigit digit, Char.ofNat_toNat, id]
  rw [ofDecimal, back, Nat.ofDigitChars_ten_toDigits]

/-- **A numeral determines its number.** -/
theorem decimal_injective : Function.Injective decimal :=
  Function.LeftInverse.injective ofDecimal_decimal

theorem not_mem_decimal {byte : UInt8} (outside : ¬ IsDigit byte) (value : Nat) :
    byte ∉ decimal value := fun member => outside (isDigit_of_mem_decimal member)

/-- The decimal numeral of an integer, with a leading minus when it is negative. -/
def decimalInt : Int → Bytes
  | .ofNat value => decimal value
  | .negSucc value => 45 :: decimal (value + 1)

theorem decimalInt_injective : Function.Injective decimalInt := by
  have clash : ∀ first second : Nat, decimal first ≠ 45 :: decimal (second + 1) := by
    intro first second equal
    have member : (45 : UInt8) ∈ decimal first := equal ▸ List.mem_cons_self
    exact not_mem_decimal (by decide) first member
  intro first second equal
  cases first with
  | ofNat value =>
      cases second with
      | ofNat value' => exact congrArg Int.ofNat (decimal_injective equal)
      | negSucc value' => exact absurd equal (clash value value')
  | negSucc value =>
      cases second with
      | ofNat value' => exact absurd equal.symm (clash value' value)
      | negSucc value' =>
          have tails := decimal_injective (List.cons.inj equal).2
          rw [Nat.add_right_cancel tails]

theorem mem_decimalInt {byte : UInt8} {value : Int} (member : byte ∈ decimalInt value) :
    byte = 45 ∨ IsDigit byte := by
  cases value with
  | ofNat magnitude => exact Or.inr (isDigit_of_mem_decimal member)
  | negSucc magnitude =>
      rcases List.mem_cons.mp member with minus | digit
      · exact Or.inl minus
      · exact Or.inr (isDigit_of_mem_decimal digit)

/-! ### Big-endian digits of a fixed width -/

/-- The `width` big-endian base-256 digits of a number; the leading digit is not reduced. -/
def beDigits : Nat → Nat → List Nat
  | 0, _ => []
  | 1, value => [value]
  | width + 2, value => beDigits (width + 1) (value / 256) ++ [value % 256]

@[simp] theorem length_beDigits (width value : Nat) : (beDigits width value).length = width := by
  induction width, value using beDigits.induct with
  | case1 value => rfl
  | case2 value => rfl
  | case3 width value ih => rw [beDigits, List.length_append, ih]; rfl

/-- **The digits of a positive width determine the number.** -/
theorem beDigits_inj {width first second : Nat} (positive : 0 < width)
    (equal : beDigits width first = beDigits width second) : first = second := by
  induction width, first using beDigits.induct generalizing second with
  | case1 first => exact absurd positive (lt_irrefl 0)
  | case2 first => simpa [beDigits] using equal
  | case3 width first ih =>
      rw [beDigits, beDigits] at equal
      obtain ⟨high, low⟩ := List.append_inj equal (by simp)
      have quotients : first / 256 = second / 256 := ih (Nat.succ_pos _) high
      have remainders : first % 256 = second % 256 := by simpa using low
      rw [← Nat.div_add_mod first 256, ← Nat.div_add_mod second 256, quotients, remainders]

/-- Lists of one length keep their order when something is appended. -/
theorem append_lt_append {first second : List Nat} (same : first.length = second.length)
    (less : first < second) (after after' : List Nat) : first ++ after < second ++ after' := by
  induction first generalizing second with
  | nil =>
      rw [List.eq_nil_of_length_eq_zero same.symm] at less
      exact absurd less (lt_irrefl _)
  | cons digit rest ih =>
      cases second with
      | nil => cases same
      | cons digit' rest' =>
          rcases List.cons_lt_cons_iff.mp less with smaller | ⟨rfl, later⟩
          · exact List.cons_lt_cons_iff.mpr (Or.inl smaller)
          · exact List.cons_lt_cons_iff.mpr (Or.inr ⟨rfl, ih (Nat.succ.inj same) later⟩)

/-- **Digits of one width are ordered as the numbers are.** -/
theorem beDigits_strictMono {width : Nat} (positive : 0 < width) : StrictMono (beDigits width) := by
  intro first second less
  induction width, first using beDigits.induct generalizing second with
  | case1 first => exact absurd positive (lt_irrefl 0)
  | case2 first => exact List.cons_lt_cons_iff.mpr (Or.inl less)
  | case3 width first ih =>
      rw [beDigits, beDigits]
      rcases (Nat.div_le_div_right less.le).lt_or_eq with high | high
      · exact append_lt_append (by simp) (ih (Nat.succ_pos _) high) _ _
      · rw [high]
        have low : first % 256 < second % 256 := by
          have start := Nat.div_add_mod first 256
          have final := Nat.div_add_mod second 256
          omega
        exact List.append_left_lt (List.cons_lt_cons_iff.mpr (Or.inl low))

/-- The digits of a number that fits are bytes. -/
theorem lt_of_mem_beDigits {width value digit : Nat} (fits : value < 256 ^ width)
    (member : digit ∈ beDigits width value) : digit < 256 := by
  induction width, value using beDigits.induct with
  | case1 value => exact absurd member List.not_mem_nil
  | case2 value =>
      rw [beDigits, List.mem_singleton] at member
      rwa [member, ← pow_one 256]
  | case3 width value ih =>
      rw [beDigits, List.mem_append, List.mem_singleton] at member
      rcases member with high | low
      · refine ih ?_ high
        rw [Nat.div_lt_iff_lt_mul (by decide), ← pow_succ]
        exact fits
      · rw [low]
        exact Nat.mod_lt _ (by decide)

end NabBridge
