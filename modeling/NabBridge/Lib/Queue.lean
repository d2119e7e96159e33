/-
**Queues that are served from the front.**

A worker looks at the head of a queue, one item at a time or a whole chunk. An item that it cannot serve
stays where it is and holds up what is behind it.

* `iterate_serve`: what is left after a number of turns;
* `exists_iterate_serve_eq_nil_iff`: the queue runs empty exactly when every item can be served;
* `filter_not_mem_take`: a queue without its first items, told by membership.
-/

import Mathlib.Data.List.TakeDrop
import Mathlib.Data.List.TakeWhile
import Mathlib.Data.List.Nodup
import Mathlib.Logic.Function.Iterate
import Mathlib.Tactic.Common

namespace NabBridge

variable {α : Type}

/-- One turn at a queue: the head goes, if it can be served. -/
def serve (ready : α → Bool) : List α → List α
  | [] => []
  | item :: rest => if ready item then rest else item :: rest

/-- **What is left after a number of turns.** -/
theorem iterate_serve (ready : α → Bool) (queue : List α) (turns : Nat) :
    (serve ready)^[turns] queue = queue.drop (min turns (queue.takeWhile ready).length) := by
  induction turns generalizing queue with
  | zero => rw [Nat.zero_min, List.drop_zero, Function.iterate_zero, id]
  | succ turns ih =>
      rw [Function.iterate_succ_apply, ih]
      cases queue with
      | nil => simp [serve]
      | cons item rest =>
          rw [serve]
          split_ifs with served
          · rw [List.takeWhile_cons_of_pos served, List.length_cons, Nat.succ_min_succ,
              List.drop_succ_cons]
          · rw [List.takeWhile_cons_of_neg served, List.length_nil, Nat.min_zero, Nat.min_zero]

/-- **A queue runs empty** exactly when every item can be served. -/
theorem exists_iterate_serve_eq_nil_iff (ready : α → Bool) (queue : List α) :
    (∃ turns, (serve ready)^[turns] queue = []) ↔ ∀ item ∈ queue, ready item = true := by
  have counts : (queue.takeWhile ready).length ≤ queue.length :=
    (List.takeWhile_prefix ready).length_le
  constructor
  · rintro ⟨turns, empty⟩
    rw [iterate_serve, List.drop_eq_nil_iff] at empty
    exact List.takeWhile_eq_self_iff.mp ((List.takeWhile_prefix ready).eq_of_length (by omega))
  · intro all
    refine ⟨queue.length, ?_⟩
    rw [iterate_serve, List.takeWhile_eq_self_iff.mpr all, Nat.min_self, List.drop_length]

/-- Chunks from the front. -/
theorem iterate_drop (chunk : Nat) (queue : List α) (turns : Nat) :
    (List.drop chunk)^[turns] queue = queue.drop (chunk * turns) := by
  induction turns generalizing queue with
  | zero => rfl
  | succ turns ih =>
      rw [Function.iterate_succ_apply, ih, List.drop_drop, Nat.mul_succ, Nat.add_comm]

/-- **A queue without its first items.** -/
theorem filter_not_mem_take [DecidableEq α] {queue : List α} (nodup : queue.Nodup) (count : Nat) :
    (queue.filter fun item => item ∉ queue.take count) = queue.drop count := by
  have apart : ∀ item ∈ queue.drop count, item ∉ queue.take count := fun item later =>
    fun earlier => (List.disjoint_take_drop nodup (Nat.le_refl _)) earlier later
  have split := List.take_append_drop count queue
  calc (queue.filter fun item => item ∉ queue.take count)
      = ((queue.take count ++ queue.drop count).filter fun item => item ∉ queue.take count) := by
        rw [split]
    _ = queue.drop count := by
        rw [List.filter_append, List.filter_eq_nil_iff.mpr (fun item member => by simpa using member),
          List.nil_append, List.filter_eq_self.mpr fun item later => by simpa using apart item later]

end NabBridge
