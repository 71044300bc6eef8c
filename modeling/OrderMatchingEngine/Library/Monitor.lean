import Mathlib.Data.Finset.Insert
import Mathlib.Data.Finset.Erase
import Mathlib.Tactic.Common

/-!
# Library.Monitor

A mutex and a condition variable, shared by threads of any type.

The mutex is its holder, and `Exclusive` says that it has the one holder that the threads' places in
their code ask for. The condition variable is the set of the threads that sleep at it. A thread in
`wait(lock, predicate)` goes through the places of `Wait`. It evaluates the predicate with the mutex
held, and gives the mutex up and falls asleep in one step.
-/

namespace Monitor

universe u

variable {τ : Type u}

/-! ### Waiting -/

/-- Where a thread is in `wait(lock, predicate)`, which starts with the mutex being taken. -/
inductive Wait
  /-- It takes the mutex next: for the first time, or after it was woken. -/
  | locking
  /-- It evaluates the predicate next. -/
  | checking
  /-- It found the predicate false, and sleeps next. -/
  | parking
  deriving DecidableEq, Repr

/-- The places with the mutex held. -/
@[simp] def Wait.holds : Wait → Bool
  | .locking => false
  | .checking | .parking => true

/-! ### The mutex -/

/-- The holder of the mutex is the thread that is at a place where it is held. -/
def Exclusive (holder : Option τ) (holds : τ → Bool) : Prop :=
  ∀ x, holds x = true ↔ holder = some x

namespace Exclusive

variable {holder : Option τ} {holds holds' : τ → Bool} {x y : τ}

/-- **Mutual exclusion.** -/
theorem unique (h : Exclusive holder holds) (hx : holds x = true) (hy : holds y = true) : x = y :=
  Option.some.inj (((h x).mp hx).symm.trans ((h y).mp hy))

/-- Nobody is at such a place while the mutex is free. -/
theorem free (h : Exclusive none holds) (x : τ) : holds x = false := by
  have hx := h x
  simpa using hx

/-- A step between two places of the same kind. -/
theorem keep (h : Exclusive holder holds) (hsame : ∀ y, holds' y = holds y) :
    Exclusive holder holds' :=
  fun y => by rw [hsame y]; exact h y

/-- A thread takes the mutex. -/
theorem acquire (h : Exclusive none holds) (hx : holds' x = true)
    (hothers : ∀ y, y ≠ x → holds' y = holds y) : Exclusive (some x) holds' := by
  intro y
  by_cases hy : y = x
  · simp [hy, hx]
  · have hne : x ≠ y := fun heq => hy heq.symm
    simp [hothers y hy, h.free y, hne]

/-- The holder gives the mutex up. -/
theorem release (h : Exclusive holder holds) (hheld : holds x = true) (hx : holds' x = false)
    (hothers : ∀ y, y ≠ x → holds' y = holds y) : Exclusive none holds' := by
  intro y
  by_cases hy : y = x
  · simp [hy, hx]
  · have hfree : holds y ≠ true := fun hholds => hy (h.unique hholds hheld)
    simp [hothers y hy, hfree]

end Exclusive

/-! ### The condition variable -/

section Notify

variable [DecidableEq τ]

/-- `notify_one()`: it wakes `woken`, which is a thread that sleeps if there is one. -/
def notifyOne (woken : Option τ) (sleepers : Finset τ) : Option (Finset τ) :=
  match woken with
  | some x => if x ∈ sleepers then some (sleepers.erase x) else none
  | none => if sleepers = ∅ then some ∅ else none

variable {woken : Option τ} {sleepers sleepers' : Finset τ}

/-- Who sleeps after a notification. -/
theorem mem_of_notifyOne (h : notifyOne woken sleepers = some sleepers') (x : τ) :
    x ∈ sleepers' ↔ x ∈ sleepers ∧ woken ≠ some x := by
  cases woken with
  | none =>
      simp only [notifyOne, Option.ite_none_right_eq_some, Option.some.injEq] at h
      obtain ⟨rfl, rfl⟩ := h
      simp
  | some y =>
      simp only [notifyOne, Option.ite_none_right_eq_some, Option.some.injEq] at h
      obtain ⟨-, rfl⟩ := h
      rw [Finset.mem_erase, and_comm]
      simp [eq_comm]

/-- Who was woken slept. -/
theorem slept_of_notifyOne {x : τ} (h : notifyOne (some x) sleepers = some sleepers') :
    x ∈ sleepers := by
  by_contra hx
  simp [notifyOne, hx] at h

/-- A notification can always be made, and can wake any given thread that sleeps. -/
theorem exists_notifyOne (sleepers : Finset τ) (x : τ) :
    ∃ woken sleepers', notifyOne woken sleepers = some sleepers' ∧
      (x ∈ sleepers → woken = some x) := by
  by_cases hx : x ∈ sleepers
  · exact ⟨some x, sleepers.erase x, by simp [notifyOne, hx], fun _ => rfl⟩
  · rcases sleepers.eq_empty_or_nonempty with rfl | ⟨y, hy⟩
    · exact ⟨none, ∅, by simp [notifyOne], fun h => absurd h hx⟩
    · exact ⟨some y, sleepers.erase y, by simp [notifyOne, hy], fun h => absurd h hx⟩

end Notify

end Monitor
