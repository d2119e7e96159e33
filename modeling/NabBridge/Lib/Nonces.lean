/-
**High-water marks.**

A party that must not accept the same number twice keeps, for every key, the highest number it has
accepted, and accepts only higher ones. `Rising mark issued` relates the marks to the history: for
each key the numbers went up, and none is above the mark. `Rising.issue` is the step, and
`Rising.nodup` the reason for the marks.
-/

import Mathlib.Logic.Function.Basic
import Mathlib.Data.List.Nodup
import Mathlib.Tactic.Common

namespace NabBridge

/-- For each key the numbers of the history go up, and stay up to its mark. -/
structure Rising {κ : Type} (mark : κ → Nat) (issued : List (κ × Nat)) : Prop where
  increasing : issued.Pairwise fun first second => first.1 = second.1 → first.2 < second.2
  below : ∀ entry ∈ issued, entry.2 ≤ mark entry.1

namespace Rising

variable {κ : Type} {mark : κ → Nat} {issued : List (κ × Nat)}

theorem empty (mark : κ → Nat) : Rising mark [] :=
  ⟨List.Pairwise.nil, fun _ member => absurd member List.not_mem_nil⟩

/-- **A number above the mark** may be issued, and becomes the mark. -/
theorem issue [DecidableEq κ] (rising : Rising mark issued) {key : κ} {number : Nat}
    (higher : mark key < number) :
    Rising (Function.update mark key number) (issued ++ [(key, number)]) := by
  refine ⟨?_, fun entry member => ?_⟩
  · rw [List.pairwise_append]
    refine ⟨rising.increasing, List.pairwise_singleton _ _, fun old inside new isNew same => ?_⟩
    rw [List.mem_singleton.mp isNew] at same ⊢
    have bound := rising.below old inside
    rw [show old.1 = key from same] at bound
    exact Nat.lt_of_le_of_lt bound higher
  · rcases List.mem_append.mp member with old | new
    · have bound := rising.below entry old
      by_cases same : entry.1 = key
      · rw [same, Function.update_self]
        rw [same] at bound
        exact Nat.le_of_lt (Nat.lt_of_le_of_lt bound higher)
      · rwa [Function.update_of_ne same]
    · rw [List.mem_singleton.mp new]
      exact Nat.le_of_eq (Function.update_self key number mark).symm

/-- Marks may go up. -/
theorem raise (rising : Rising mark issued) {mark' : κ → Nat} (higher : ∀ key, mark key ≤ mark' key) :
    Rising mark' issued :=
  ⟨rising.increasing, fun entry member =>
    Nat.le_trans (rising.below entry member) (higher entry.1)⟩

/-- Nothing is issued twice. -/
theorem nodup (rising : Rising mark issued) : issued.Nodup := by
  refine rising.increasing.imp fun {first second} higher same => ?_
  exact absurd (higher (congrArg Prod.fst same)) (by rw [same]; exact Nat.lt_irrefl _)

end Rising

end NabBridge
