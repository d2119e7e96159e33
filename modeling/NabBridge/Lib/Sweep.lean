/-
**Sweeping a collection with a cursor.**

Items have a place on a line. From time to time a sweep handles some of the stored items that lie beyond
a cursor, in some order, and moves the cursor to the place of the last one. In between items come and go.

* `Once`: nothing was handled twice, and what was handled and is still there lies behind the cursor. A
  sweep keeps this if it moves the cursor past everything it handles (`Once.sweep`); items may go
  (`Once.shrink`) and come, if they were not handled before (`Once.grow`). The cursor may even be
  reset, if nothing lies behind it (`Once.reset`).
* `Covered`: whatever is behind the cursor was handled. A sweep keeps this if it leaves nothing out
  (`Covered.sweep`), and new items have to come beyond the cursor (`Covered.grow`).
* `swept_sorted`: where the cursor is after a sweep in the order of the places.
-/

import Mathlib.Data.List.Nodup
import Mathlib.Data.List.Pairwise
import Mathlib.Data.Set.Insert
import Mathlib.Tactic.Common

namespace NabBridge

variable {α : Type} {place : α → Nat} {stored : Set α} {cursor : Nat} {handled items : List α}

/-- Where the cursor is after a sweep over the items. -/
def swept (place : α → Nat) (cursor : Nat) (items : List α) : Nat :=
  (items.getLast?.map place).getD cursor

@[simp] theorem swept_nil : swept place cursor [] = cursor := rfl

theorem swept_append_singleton (item : α) : swept place cursor (items ++ [item]) = place item := by
  rw [swept, List.getLast?_concat]
  rfl

/-- A sweep beyond the cursor does not move it back. -/
theorem le_swept (beyond : ∀ item ∈ items, cursor < place item) :
    cursor ≤ swept place cursor items := by
  rcases items.eq_nil_or_concat with rfl | ⟨before, last, rfl⟩
  · exact Nat.le_refl cursor
  · rw [List.concat_eq_append, swept_append_singleton]
    exact Nat.le_of_lt (beyond last (by simp))

/-- **A sweep in the order of the places** moves the cursor past everything it handles. -/
theorem swept_sorted (sorted : items.Pairwise fun first second => place first ≤ place second) :
    ∀ item ∈ items, place item ≤ swept place cursor items := by
  rcases items.eq_nil_or_concat with rfl | ⟨before, last, rfl⟩
  · exact fun _ member => absurd member List.not_mem_nil
  · intro item member
    rw [List.concat_eq_append] at sorted member ⊢
    rw [swept_append_singleton]
    rcases List.mem_append.mp member with earlier | here
    · exact (List.pairwise_append.mp sorted).2.2 item earlier last (List.mem_singleton_self last)
    · rw [List.mem_singleton.mp here]

/-- The cursor is where it was, or at one of the items. -/
theorem swept_eq (place : α → Nat) (cursor : Nat) (items : List α) :
    swept place cursor items = cursor ∨ ∃ item ∈ items, swept place cursor items = place item := by
  rcases items.eq_nil_or_concat with rfl | ⟨before, last, rfl⟩
  · exact Or.inl rfl
  · refine Or.inr ⟨last, by simp, ?_⟩
    rw [List.concat_eq_append, swept_append_singleton]

/-- Nothing was handled twice, and what was handled and is still stored is not beyond the cursor. -/
structure Once (place : α → Nat) (stored : Set α) (cursor : Nat) (handled : List α) : Prop where
  nodup : handled.Nodup
  behind : ∀ item ∈ handled, item ∈ stored → place item ≤ cursor

namespace Once

theorem initially (stored : Set α) (cursor : Nat) : Once place stored cursor [] :=
  ⟨List.nodup_nil, fun _ member => absurd member List.not_mem_nil⟩

/-- **A sweep** handles items beyond the cursor and leaves the cursor past all of them. -/
theorem sweep (once : Once place stored cursor handled) (distinct : items.Nodup)
    (present : ∀ item ∈ items, item ∈ stored ∧ cursor < place item) {cursor' : Nat}
    (forward : cursor ≤ cursor') (past : ∀ item ∈ items, place item ≤ cursor') :
    Once place stored cursor' (handled ++ items) := by
  refine ⟨List.nodup_append.mpr ⟨once.nodup, distinct, ?_⟩, fun item member isStored => ?_⟩
  · rintro item earlier other now rfl
    have behind := once.behind item earlier (present item now).1
    exact absurd (present item now).2 (Nat.not_lt.mpr behind)
  · rcases List.mem_append.mp member with earlier | now
    · exact Nat.le_trans (once.behind item earlier isStored) forward
    · exact past item now

theorem shrink (once : Once place stored cursor handled) {stored' : Set α} (fewer : stored' ⊆ stored) :
    Once place stored' cursor handled :=
  ⟨once.nodup, fun item member isStored => once.behind item member (fewer isStored)⟩

/-- Items that were not handled may come. -/
theorem grow (once : Once place stored cursor handled) {stored' : Set α}
    (unseen : ∀ item ∈ stored', item ∈ stored ∨ item ∉ handled) :
    Once place stored' cursor handled := by
  refine ⟨once.nodup, fun item member isStored => ?_⟩
  rcases unseen item isStored with earlier | new
  · exact once.behind item member earlier
  · exact absurd member new

/-- **The cursor may be reset** when everything that is stored lies beyond it. -/
theorem reset (once : Once place stored cursor handled) (beyond : ∀ item ∈ stored, cursor < place item)
    {stored' : Set α} (same : stored' ⊆ stored) (cursor' : Nat) :
    Once place stored' cursor' handled := by
  refine ⟨once.nodup, fun item member isStored => ?_⟩
  have behind := once.behind item member (same isStored)
  exact absurd (beyond item (same isStored)) (Nat.not_lt.mpr behind)

end Once

/-- Whatever is stored behind the cursor was handled. -/
def Covered (place : α → Nat) (stored : Set α) (cursor : Nat) (handled : List α) : Prop :=
  ∀ item ∈ stored, place item ≤ cursor → item ∈ handled

namespace Covered

/-- **A sweep that leaves nothing out** between the two places of the cursor. -/
theorem sweep (covered : Covered place stored cursor handled) {cursor' : Nat}
    (complete : ∀ item ∈ stored, cursor < place item → place item ≤ cursor' → item ∈ items) :
    Covered place stored cursor' (handled ++ items) := by
  intro item isStored behind
  by_cases earlier : place item ≤ cursor
  · exact List.mem_append_left _ (covered item isStored earlier)
  · exact List.mem_append_right _ (complete item isStored (Nat.not_le.mp earlier) behind)

theorem shrink (covered : Covered place stored cursor handled) {stored' : Set α}
    (fewer : stored' ⊆ stored) : Covered place stored' cursor handled :=
  fun item isStored behind => covered item (fewer isStored) behind

/-- New items come beyond the cursor. -/
theorem grow (covered : Covered place stored cursor handled) {stored' : Set α}
    (beyond : ∀ item ∈ stored', item ∈ stored ∨ cursor < place item) :
    Covered place stored' cursor handled := by
  intro item isStored behind
  rcases beyond item isStored with earlier | new
  · exact covered item earlier behind
  · exact absurd new (Nat.not_lt.mpr behind)

end Covered

end NabBridge
