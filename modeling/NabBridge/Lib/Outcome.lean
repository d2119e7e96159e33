/-
**Three-way results.**

A handler of a replicated state machine can succeed, return an error, or panic. The first two are
ordinary: an error is reported and the enclosing transaction is rolled back. A panic is rolled back
inside a transaction and halts the machine outside of one, so the two must not be confused.

`Outcome` is the monad of such handlers. `bind_eq_ok` takes a sequence of calls apart without
unfolding it. `Meets post allowed` says what a handler may end in: a value with the property `post`,
any error, or a panic in `allowed`; `Meets.bind` and `Meets.foldlM` are its rules for sequences and
for loops, the latter with a loop invariant.
-/

import Mathlib.Tactic.Common

namespace NabBridge

/-- The result of a handler: a value, an error, or a panic. -/
inductive Outcome (ε π α : Type) : Type where
  | ok (value : α)
  | error (reason : ε)
  | panic (reason : π)
  deriving DecidableEq, Repr

namespace Outcome

variable {ε π α β : Type}

/-- Run the continuation on a value; an error or a panic stops the sequence. -/
protected def bind : Outcome ε π α → (α → Outcome ε π β) → Outcome ε π β
  | ok value, next => next value
  | error reason, _ => error reason
  | panic reason, _ => panic reason

instance : Monad (Outcome ε π) where
  pure := ok
  bind := Outcome.bind

@[simp] theorem pure_eq (value : α) : (pure value : Outcome ε π α) = ok value := rfl

@[simp] theorem ok_bind (value : α) (next : α → Outcome ε π β) : (ok value >>= next) = next value :=
  rfl

@[simp] theorem error_bind (reason : ε) (next : α → Outcome ε π β) :
    ((error reason : Outcome ε π α) >>= next) = error reason := rfl

@[simp] theorem panic_bind (reason : π) (next : α → Outcome ε π β) :
    ((panic reason : Outcome ε π α) >>= next) = panic reason := rfl

theorem bind_eq_ok {first : Outcome ε π α} {next : α → Outcome ε π β} {value : β} :
    (first >>= next) = ok value ↔ ∃ middle, first = ok middle ∧ next middle = ok value := by
  cases first <;> simp

instance : LawfulMonad (Outcome ε π) := LawfulMonad.mk' (Outcome ε π)
  (fun outcome => by cases outcome <;> rfl) (fun _ _ => rfl)
  (fun outcome _ _ => by cases outcome <;> rfl)

/-- Every result of a sequence of calls is the result of one of them. -/
theorem exists_of_mem_mapM {f : α → Outcome ε π β} {items : List α} {results : List β}
    (mapped : items.mapM f = ok results) {result : β} (member : result ∈ results) :
    ∃ item ∈ items, f item = ok result := by
  induction items generalizing results with
  | nil =>
      obtain rfl := ok.inj mapped
      exact absurd member List.not_mem_nil
  | cons item rest ih =>
      rw [List.mapM_cons] at mapped
      obtain ⟨head, first, mapped⟩ := bind_eq_ok.mp mapped
      obtain ⟨others, second, mapped⟩ := bind_eq_ok.mp mapped
      obtain rfl := ok.inj mapped
      rcases List.mem_cons.mp member with rfl | later
      · exact ⟨item, List.mem_cons_self, first⟩
      · obtain ⟨other, inRest, call⟩ := ih second later
        exact ⟨other, List.mem_cons_of_mem _ inRest, call⟩

/-- Every call of a sequence that succeeds has a result among the results. -/
theorem exists_of_mapM_eq_ok {f : α → Outcome ε π β} {items : List α} {results : List β}
    (mapped : items.mapM f = ok results) {item : α} (member : item ∈ items) :
    ∃ result ∈ results, f item = ok result := by
  induction items generalizing results with
  | nil => exact absurd member List.not_mem_nil
  | cons head rest ih =>
      rw [List.mapM_cons] at mapped
      obtain ⟨first, called, mapped⟩ := bind_eq_ok.mp mapped
      obtain ⟨others, second, mapped⟩ := bind_eq_ok.mp mapped
      obtain rfl := ok.inj mapped
      rcases List.mem_cons.mp member with rfl | later
      · exact ⟨first, List.mem_cons_self, called⟩
      · obtain ⟨result, inside, call⟩ := ih second later
        exact ⟨result, List.mem_cons_of_mem _ inside, call⟩

/-- A sequence of calls that all succeed. -/
theorem mapM_eq_ok {f : α → Outcome ε π β} {g : α → β} {items : List α}
    (each : ∀ item ∈ items, f item = ok (g item)) : items.mapM f = ok (items.map g) := by
  induction items with
  | nil => rfl
  | cons item rest ih =>
      rw [List.mapM_cons, each item List.mem_cons_self,
        ih fun other member => each other (List.mem_cons_of_mem _ member)]
      rfl

/-- **A sequence of calls whose results are known**, where they are there. -/
theorem mapM_eq_ok_iff {f : α → Outcome ε π β} {g : α → β} {condition : α → Prop} {items : List α}
    (each : ∀ item ∈ items, ∀ result, f item = ok result ↔ result = g item ∧ condition item)
    (results : List β) :
    items.mapM f = ok results ↔ results = items.map g ∧ ∀ item ∈ items, condition item := by
  induction items generalizing results with
  | nil =>
      rw [List.mapM_nil, pure_eq, ok.injEq, eq_comm]
      simp
  | cons item rest ih =>
      rw [List.mapM_cons, bind_eq_ok, List.map_cons, List.forall_mem_cons]
      have later := ih fun other member => each other (List.mem_cons_of_mem _ member)
      constructor
      · rintro ⟨head, first, mapped⟩
        obtain ⟨others, second, done⟩ := bind_eq_ok.mp mapped
        obtain ⟨rfl, here⟩ := (each item List.mem_cons_self head).mp first
        obtain ⟨rfl, there⟩ := (later others).mp second
        exact ⟨(ok.inj done).symm, here, there⟩
      · rintro ⟨rfl, here, there⟩
        exact ⟨g item, (each item List.mem_cons_self _).mpr ⟨rfl, here⟩,
          bind_eq_ok.mpr ⟨rest.map g, (later _).mpr ⟨rfl, there⟩, rfl⟩⟩

/-- A field of the results that each call determines, along a sequence of calls. -/
theorem map_of_mapM_eq_ok {γ : Type} {f : α → Outcome ε π β} {g : α → γ} {h : β → γ} {items : List α}
    {results : List β} (each : ∀ item ∈ items, ∀ result, f item = ok result → h result = g item)
    (mapped : items.mapM f = ok results) : results.map h = items.map g := by
  induction items generalizing results with
  | nil =>
      obtain rfl := ok.inj mapped
      rfl
  | cons item rest ih =>
      rw [List.mapM_cons] at mapped
      obtain ⟨head, first, mapped⟩ := bind_eq_ok.mp mapped
      obtain ⟨others, second, mapped⟩ := bind_eq_ok.mp mapped
      obtain rfl := ok.inj mapped
      rw [List.map_cons, List.map_cons, each item List.mem_cons_self head first,
        ih (fun other member => each other (List.mem_cons_of_mem _ member)) second]

/-- A transaction: an error or a panic leaves the state as it was. -/
def deliver (outcome : Outcome ε π α) (before : α) : α :=
  match outcome with
  | ok after => after
  | _ => before

/-- The value of a call outside of a transaction that cannot halt on an error; a panic halts. -/
def value? : Outcome ε π α → Option α
  | ok value => some value
  | _ => none

theorem value?_eq_some {outcome : Outcome ε π α} {value : α} :
    outcome.value? = some value ↔ outcome = ok value := by
  cases outcome <;> simp [value?]

/-- The error of a call that ends in one. -/
def error? : Outcome ε π α → Option ε
  | error reason => some reason
  | _ => none

theorem error?_eq_some {outcome : Outcome ε π α} {reason : ε} :
    outcome.error? = some reason ↔ outcome = error reason := by
  cases outcome <;> simp [error?]

/-- A value with the property `post`, any error, or a panic in `allowed`. -/
def Meets (outcome : Outcome ε π α) (post : α → Prop) (allowed : π → Prop) : Prop :=
  match outcome with
  | ok value => post value
  | error _ => True
  | panic reason => allowed reason

section Rules

variable {post post' : α → Prop} {allowed allowed' : π → Prop}

@[simp] theorem meets_ok {value : α} : (ok value : Outcome ε π α).Meets post allowed ↔ post value :=
  Iff.rfl

@[simp] theorem meets_error {reason : ε} : (error reason : Outcome ε π α).Meets post allowed :=
  trivial

@[simp] theorem meets_panic {reason : π} :
    (panic reason : Outcome ε π α).Meets post allowed ↔ allowed reason := Iff.rfl

theorem Meets.ok {outcome : Outcome ε π α} {value : α} (meets : outcome.Meets post allowed)
    (equal : outcome = .ok value) : post value := by
  subst equal
  exact meets

theorem Meets.panic {outcome : Outcome ε π α} {reason : π} (meets : outcome.Meets post allowed)
    (equal : outcome = .panic reason) : allowed reason := by
  subst equal
  exact meets

theorem Meets.imp {outcome : Outcome ε π α} (meets : outcome.Meets post allowed)
    (weaker : ∀ value, post value → post' value)
    (more : ∀ reason, allowed reason → allowed' reason) : outcome.Meets post' allowed' := by
  cases outcome with
  | ok value => exact weaker value meets
  | error reason => trivial
  | panic reason => exact more reason meets

theorem Meets.bind {first : Outcome ε π α} {next : α → Outcome ε π β} {final : β → Prop}
    (meets : first.Meets post allowed)
    (continues : ∀ value, post value → (next value).Meets final allowed) :
    (first >>= next).Meets final allowed := by
  cases first with
  | ok value => exact continues value meets
  | error reason => trivial
  | panic reason => exact meets

/-- **The loop rule**: what every round keeps, the whole loop keeps. -/
theorem Meets.foldlM {γ : Type} {items : List γ} {body : α → γ → Outcome ε π α} {start : α}
    (round : ∀ state, ∀ item ∈ items, post state → (body state item).Meets post allowed)
    (initially : post start) : (items.foldlM body start).Meets post allowed := by
  induction items generalizing start with
  | nil => exact initially
  | cons item rest ih =>
      rw [List.foldlM_cons]
      refine (round start item List.mem_cons_self initially).bind fun state kept => ?_
      exact ih (fun state' item' member => round state' item' (List.mem_cons_of_mem _ member)) kept

/-- **A loop gets somewhere** when one of its rounds does, and no later round leaves. -/
theorem foldlM_reaches {γ : Type} {items : List γ} {body : α → γ → Outcome ε π α} {chosen : γ}
    {start final : α} (kept goal : α → Prop) (member : chosen ∈ items)
    (keeps : ∀ state, ∀ item ∈ items, ∀ next, kept state → body state item = .ok next → kept next)
    (reaches : ∀ state next, kept state → body state chosen = .ok next → goal next)
    (stays : ∀ state, ∀ item ∈ items, ∀ next, goal state → body state item = .ok next → goal next)
    (initially : kept start) (ended : items.foldlM body start = .ok final) : goal final := by
  induction items generalizing start with
  | nil => exact absurd member List.not_mem_nil
  | cons item rest ih =>
      rw [List.foldlM_cons] at ended
      obtain ⟨middle, first, done⟩ := bind_eq_ok.mp ended
      rcases List.mem_cons.mp member with rfl | later
      · have afterwards : (rest.foldlM body middle).Meets goal fun _ => True := by
          refine Meets.foldlM (fun state item inRest holds => ?_) (reaches start middle initially first)
          cases round : body state item with
          | ok next => exact stays state item (List.mem_cons_of_mem _ inRest) next holds round
          | error reason => trivial
          | panic reason => trivial
        exact afterwards.ok done
      · exact ih later (fun state other inRest => keeps state other (List.mem_cons_of_mem _ inRest))
          (fun state other inRest => stays state other (List.mem_cons_of_mem _ inRest))
          (keeps start item List.mem_cons_self middle initially first) done

end Rules

end Outcome

/-! ### Results without panics -/

theorem except_bind_eq_ok {ε α β : Type} {first : Except ε α}
    {next : α → Except ε β} {value : β} :
    (first >>= next) = .ok value ↔ ∃ middle, first = .ok middle ∧ next middle = .ok value := by
  cases first with
  | error reason =>
      refine ⟨fun bad => ?_, fun found => ?_⟩
      · cases bad
      · obtain ⟨_, bad, _⟩ := found
        cases bad
  | ok middle =>
      exact ⟨fun done => ⟨middle, rfl, done⟩, fun ⟨_, same, done⟩ => by cases same; exact done⟩

theorem except_eq_ok_of_toOption {ε α : Type} {result : Except ε α} {value : α}
    (some : result.toOption = some value) : result = .ok value := by
  cases result with
  | error reason => cases some
  | ok there => rw [Option.some.inj some]

end NabBridge
