/-
**The contract ABI.**

Arguments of a call, the fields of a log and the preimages of signed hashes are all laid out the same
way: one 32-byte head per argument, then the tails. A static argument is its own head; a dynamic one
has in its head the offset of its tail, counted from the start of the heads.

`abiEncode` covers the argument types the bridge uses: single words, fixed 32-byte strings, byte
strings, and arrays of words.

* `abiEncode_inj`: argument lists of the same types with the same encoding are equal. The heads of the
  two lists have the same length, so heads and tails separate; a static argument is read off its head,
  and a dynamic one off the tails, whose length words say where each of them ends. The offsets in the
  heads are not needed for it.
* `abiEncode_congr`: how far a `bytes32` is filled up before it is encoded does not matter.
* `abiEncode_bytes32_pair`: two leading `bytes32` are read off whatever follows them.
-/

import NabBridge.Lib.Bytes

namespace NabBridge

/-- A word: 32 bytes, big-endian. -/
def wordBytes (value : Nat) : Bytes := (beDigits 32 (value % 2 ^ 256)).map Nat.toUInt8

@[simp] theorem length_wordBytes (value : Nat) : (wordBytes value).length = 32 := by
  simp [wordBytes]

/-- A byte string cut or filled with zeros on the right to `width` bytes. -/
def rightPad (width : Nat) (data : Bytes) : Bytes :=
  data.take width ++ List.replicate (width - data.length) 0

/-- The length of a byte string rounded up to whole words. -/
def paddedLength (length : Nat) : Nat := (length + 31) / 32 * 32

/-- An argument. -/
inductive AbiValue where
  /-- `uint256`, `uint8`, `address` -/
  | word (value : Nat)
  /-- `bytes32` -/
  | bytes32 (data : Bytes)
  /-- `bytes`, `string` -/
  | bytes (data : Bytes)
  /-- `uint256[]`, `address[]` -/
  | words (values : List Nat)
  deriving DecidableEq, Repr

/-- The tail of an argument; static arguments have none. -/
def AbiValue.tail : AbiValue → Bytes
  | word _ => []
  | bytes32 _ => []
  | bytes data => wordBytes data.length ++ rightPad (paddedLength data.length) data
  | words values => wordBytes values.length ++ values.flatMap wordBytes

/-- The head of an argument whose tail starts at `offset`. -/
def AbiValue.head (offset : Nat) : AbiValue → Bytes
  | word value => wordBytes value
  | bytes32 data => rightPad 32 data
  | bytes _ => wordBytes offset
  | words _ => wordBytes offset

/-- The heads of the arguments whose tails start at `offset`. -/
def abiHeads : Nat → List AbiValue → Bytes
  | _, [] => []
  | offset, value :: rest => value.head offset ++ abiHeads (offset + value.tail.length) rest

/-- `abi.encode` -/
def abiEncode (values : List AbiValue) : Bytes :=
  abiHeads (32 * values.length) values ++ values.flatMap AbiValue.tail

theorem length_rightPad (width : Nat) (data : Bytes) : (rightPad width data).length = width := by
  unfold rightPad
  rw [List.length_append, List.length_take, List.length_replicate]
  omega

theorem rightPad_of_length {width : Nat} {data : Bytes} (length : data.length = width) :
    rightPad width data = data := by
  unfold rightPad
  rw [List.take_of_length_le (le_of_eq length), length, Nat.sub_self, List.replicate_zero,
    List.append_nil]

/-! ### Fixed strings are padded -/

/-- The argument with a fixed string filled up. -/
def AbiValue.padded : AbiValue → AbiValue
  | bytes32 data => .bytes32 (rightPad 32 data)
  | value => value

theorem AbiValue.head_padded (offset : Nat) (value : AbiValue) :
    value.padded.head offset = value.head offset := by
  cases value with
  | bytes32 data => exact rightPad_of_length (length_rightPad 32 data)
  | word value => rfl
  | bytes data => rfl
  | words values => rfl

theorem AbiValue.tail_padded (value : AbiValue) : value.padded.tail = value.tail := by
  cases value <;> rfl

theorem abiHeads_map_padded (offset : Nat) (values : List AbiValue) :
    abiHeads offset (values.map AbiValue.padded) = abiHeads offset values := by
  induction values generalizing offset with
  | nil => rfl
  | cons value rest ih =>
      rw [List.map_cons, abiHeads, abiHeads, ih, AbiValue.head_padded, AbiValue.tail_padded]

theorem abiEncode_map_padded (values : List AbiValue) :
    abiEncode (values.map AbiValue.padded) = abiEncode values := by
  unfold abiEncode
  rw [abiHeads_map_padded, List.length_map, List.flatMap_map]
  simp only [AbiValue.tail_padded]

/-- **Padding does not show**: arguments that differ in it have one encoding. -/
theorem abiEncode_congr {values values' : List AbiValue}
    (same : values.map AbiValue.padded = values'.map AbiValue.padded) :
    abiEncode values = abiEncode values' := by
  rw [← abiEncode_map_padded values, same, abiEncode_map_padded]

/-! ### Reading an encoding back -/

/-- The type of an argument. -/
inductive AbiType where
  | word
  | bytes32
  | bytes
  | words
  deriving DecidableEq, Repr

def AbiValue.type : AbiValue → AbiType
  | word _ => .word
  | bytes32 _ => .bytes32
  | bytes _ => .bytes
  | words _ => .words

/-- The argument is in the range of its type. -/
def AbiValue.InRange : AbiValue → Prop
  | word value => value < 2 ^ 256
  | bytes32 data => data.length = 32
  | bytes data => data.length < 2 ^ 256
  | words values => values.length < 2 ^ 256 ∧ ∀ value ∈ values, value < 2 ^ 256

instance AbiValue.inRangeDecidable (value : AbiValue) : Decidable value.InRange := by
  rcases value <;> unfold AbiValue.InRange <;> infer_instance

theorem toNat_wordBytes {value : Nat} (small : value < 2 ^ 256) :
    (wordBytes value).map UInt8.toNat = beDigits 32 value := by
  have fits : ∀ digit ∈ beDigits 32 value, digit < 256 := fun digit member =>
    lt_of_mem_beDigits (lt_of_lt_of_eq small (by norm_num)) member
  unfold wordBytes
  rw [Nat.mod_eq_of_lt small, List.map_map]
  conv_rhs => rw [← List.map_id (beDigits 32 value)]
  refine List.map_congr_left fun digit member => ?_
  simp [Nat.mod_eq_of_lt (fits digit member)]

theorem wordBytes_inj {first second : Nat} (small : first < 2 ^ 256) (small' : second < 2 ^ 256)
    (equal : wordBytes first = wordBytes second) : first = second := by
  have digits := congrArg (List.map UInt8.toNat) equal
  rw [toNat_wordBytes small, toNat_wordBytes small'] at digits
  exact beDigits_inj (by decide) digits

theorem flatMap_wordBytes_inj {first second : List Nat} {rest rest' : Bytes}
    (length : first.length = second.length) (small : ∀ value ∈ first, value < 2 ^ 256)
    (small' : ∀ value ∈ second, value < 2 ^ 256)
    (equal : first.flatMap wordBytes ++ rest = second.flatMap wordBytes ++ rest') :
    first = second ∧ rest = rest' := by
  induction first generalizing second with
  | nil =>
      obtain rfl : second = [] := List.length_eq_zero_iff.mp length.symm
      exact ⟨rfl, by simpa using equal⟩
  | cons value values ih =>
      cases second with
      | nil => cases length
      | cons value' values' =>
          rw [List.flatMap_cons, List.flatMap_cons, List.append_assoc, List.append_assoc] at equal
          obtain ⟨here, later⟩ := List.append_inj equal (by simp)
          have same : value = value' :=
            wordBytes_inj (small value List.mem_cons_self) (small' value' List.mem_cons_self) here
          obtain ⟨others, ends⟩ := ih (Nat.succ.inj length)
            (fun other member => small other (List.mem_cons_of_mem _ member))
            (fun other member => small' other (List.mem_cons_of_mem _ member)) later
          exact ⟨by rw [same, others], ends⟩

theorem le_paddedLength (length : Nat) : length ≤ paddedLength length := by
  unfold paddedLength
  omega

theorem rightPad_inj {width : Nat} {first second : Bytes} (length : first.length = second.length)
    (fits : first.length ≤ width) (equal : rightPad width first = rightPad width second) :
    first = second := by
  unfold rightPad at equal
  rw [List.take_of_length_le fits, List.take_of_length_le (length ▸ fits)] at equal
  exact (List.append_inj equal length).1

@[simp] theorem AbiValue.length_head (offset : Nat) (value : AbiValue) :
    (value.head offset).length = 32 := by
  cases value with
  | word value => exact length_wordBytes value
  | bytes32 data => exact length_rightPad 32 data
  | bytes data => exact length_wordBytes offset
  | words values => exact length_wordBytes offset

theorem length_abiHeads (offset : Nat) (values : List AbiValue) :
    (abiHeads offset values).length = 32 * values.length := by
  induction values generalizing offset with
  | nil => rfl
  | cons value rest ih =>
      rw [abiHeads, List.length_append, ih, AbiValue.length_head, List.length_cons]
      ring

/-- **An argument is read off its head and its tail**, and its tail ends where it says. -/
theorem AbiValue.read {first second : AbiValue} {offset offset' : Nat} {rest rest' : Bytes}
    (types : first.type = second.type) (range : first.InRange) (range' : second.InRange)
    (heads : first.head offset = second.head offset')
    (tails : first.tail ++ rest = second.tail ++ rest') : first = second ∧ rest = rest' := by
  cases first with
  | word value =>
      cases second with
      | word value' => exact ⟨by rw [wordBytes_inj range range' heads], tails⟩
      | bytes32 => cases types
      | bytes => cases types
      | words => cases types
  | bytes32 data =>
      cases second with
      | bytes32 data' =>
          have same : data = data' :=
            rightPad_inj (Eq.trans range (Eq.symm range')) (le_of_eq range) heads
          exact ⟨by rw [same], tails⟩
      | word => cases types
      | bytes => cases types
      | words => cases types
  | bytes data =>
      cases second with
      | bytes data' =>
          simp only [AbiValue.tail, List.append_assoc] at tails
          obtain ⟨lengths, tails⟩ := List.append_inj tails (by simp)
          have length : data.length = data'.length := wordBytes_inj range range' lengths
          obtain ⟨contents, ends⟩ := List.append_inj tails (by simp [length_rightPad, length])
          rw [← length] at contents
          exact ⟨by rw [rightPad_inj length (le_paddedLength _) contents], ends⟩
      | word => cases types
      | bytes32 => cases types
      | words => cases types
  | words values =>
      cases second with
      | words values' =>
          simp only [AbiValue.tail, List.append_assoc] at tails
          obtain ⟨lengths, tails⟩ := List.append_inj tails (by simp)
          have length : values.length = values'.length := wordBytes_inj range.1 range'.1 lengths
          obtain ⟨contents, ends⟩ := flatMap_wordBytes_inj length range.2 range'.2 tails
          exact ⟨by rw [contents], ends⟩
      | word => cases types
      | bytes32 => cases types
      | bytes => cases types

theorem abi_read_all {values values' : List AbiValue} {offset offset' : Nat}
    (types : values.map AbiValue.type = values'.map AbiValue.type)
    (range : ∀ value ∈ values, value.InRange) (range' : ∀ value ∈ values', value.InRange)
    (heads : abiHeads offset values = abiHeads offset' values')
    (tails : values.flatMap AbiValue.tail = values'.flatMap AbiValue.tail) : values = values' := by
  induction values generalizing values' offset offset' with
  | nil => exact (List.map_eq_nil_iff.mp types.symm).symm
  | cons value rest ih =>
      cases values' with
      | nil => cases types
      | cons value' rest' =>
          obtain ⟨type, types⟩ := List.cons.inj types
          obtain ⟨head, heads⟩ := List.append_inj heads (by simp)
          rw [List.flatMap_cons, List.flatMap_cons] at tails
          obtain ⟨same, tails⟩ := AbiValue.read type (range value List.mem_cons_self)
            (range' value' List.mem_cons_self) head tails
          have others : rest = rest' :=
            ih types (fun other member => range other (List.mem_cons_of_mem _ member))
              (fun other member => range' other (List.mem_cons_of_mem _ member)) heads tails
          rw [same, others]

/-- **The encoding is injective on the argument lists of given types.** -/
theorem abiEncode_inj {values values' : List AbiValue}
    (types : values.map AbiValue.type = values'.map AbiValue.type)
    (range : ∀ value ∈ values, value.InRange) (range' : ∀ value ∈ values', value.InRange)
    (equal : abiEncode values = abiEncode values') : values = values' := by
  have count : values.length = values'.length := by simpa using congrArg List.length types
  obtain ⟨heads, tails⟩ := List.append_inj equal (by simp [length_abiHeads, count])
  exact abi_read_all types range range' heads tails

/-- **Two leading `bytes32`** are read off whatever follows them. -/
theorem abiEncode_bytes32_pair {first second first' second' : Bytes} {rest rest' : List AbiValue}
    (equal : abiEncode (.bytes32 first :: .bytes32 second :: rest) =
      abiEncode (.bytes32 first' :: .bytes32 second' :: rest')) :
    rightPad 32 first = rightPad 32 first' ∧ rightPad 32 second = rightPad 32 second' := by
  simp only [abiEncode, abiHeads, AbiValue.head, List.append_assoc] at equal
  obtain ⟨one, equal⟩ := List.append_inj equal (by simp [length_rightPad])
  obtain ⟨two, _⟩ := List.append_inj equal (by simp [length_rightPad])
  exact ⟨one, two⟩

end NabBridge
