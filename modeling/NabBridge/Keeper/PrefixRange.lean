/-
**The range of a prefix.**

Iterators over the keys that begin with a prefix walk from the prefix to the end that `prefixRange` computes:
a copy of it, plus one. Byte slices are in memory here, so that a write into one of them can be told from a
write into another.
-/

import NabBridge.Lib.Outcome
import NabBridge.Types.Keys

namespace NabBridge

/-- The byte slices in memory; a slice is the number of its buffer. -/
abbrev Buffers := List Bytes

/-- The panics of `prefixRange`. -/
inductive RangePanic where
  /-- `nil key not allowed` -/
  | nilKey
  /-- `index out of range` -/
  | indexOutOfRange
  deriving DecidableEq, Repr

abbrev RangeResult (α : Type) := Outcome Empty RangePanic α

namespace Buffers

/-- The bytes of a slice. -/
def bytes (buffers : Buffers) (slice : Nat) : Bytes := (buffers[slice]?).getD []

/-- `make([]byte, len)` -/
def make (buffers : Buffers) (length : Nat) : Nat × Buffers :=
  (buffers.length, buffers ++ [List.replicate length 0])

/-- `copy(dst, src)` -/
def copy (buffers : Buffers) (dst src : Nat) : Buffers :=
  buffers.modify dst fun old =>
    (buffers.bytes src).take old.length ++ old.drop (buffers.bytes src).length

/-- `slice[index]` -/
def byteAt (buffers : Buffers) (slice index : Nat) : RangeResult UInt8 :=
  match (buffers.bytes slice)[index]? with
  | none => .panic .indexOutOfRange
  | some byte => .ok byte

/-- `slice[index]++` -/
def increment (buffers : Buffers) (slice index : Nat) : RangeResult Buffers := do
  let byte ← buffers.byteAt slice index
  pure (buffers.modify slice fun old => old.set index (byte + 1))

/-- The loop of `prefixRange`, from an index whose byte has gone up: while that byte has overflowed, the one
before it goes up, too. Also the index where it stops. -/
def carry (slice : Nat) : Nat → Buffers → RangeResult (Nat × Buffers)
  | 0, buffers => pure (0, buffers)
  | l + 1, buffers => do
      let byte ← buffers.byteAt slice (l + 1)
      if byte = 0 then
        let buffers ← buffers.increment slice l
        carry slice l buffers
      else pure (l + 1, buffers)

/-- `prefixRange`: the start, the end, and the memory afterwards; `none` is nil. -/
def prefixRange (buffers : Buffers) (prefixKey : Option Nat) :
    RangeResult (Option Nat × Option Nat × Buffers) :=
  match prefixKey with
  | none => .panic .nilKey
  | some slice =>
      let length := (buffers.bytes slice).length
      if length = 0 then pure (none, none, buffers)
      else do
        let (stop, buffers) := buffers.make length
        let buffers := buffers.copy stop slice
        let buffers ← buffers.increment stop (length - 1)
        let (l, buffers) ← carry stop (length - 1) buffers
        let first ← buffers.byteAt stop 0
        pure (some slice, if l = 0 ∧ first = 0 then none else some stop, buffers)

end Buffers

end NabBridge
