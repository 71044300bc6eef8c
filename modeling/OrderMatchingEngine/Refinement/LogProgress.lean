import Mathlib.Algebra.BigOperators.Group.Finset.Basic
import Mathlib.Algebra.Order.Ring.Nat
import Mathlib.Algebra.Order.BigOperators.Group.Finset
import OrderMatchingEngine.Refinement.Logging

/-!
# OrderMatchingEngine.Refinement.LogProgress

How long the threads of the logger can go on when nobody calls it any more.

A step is *internal* if it goes on with a call that was made before. A run of internal steps is
bounded (`internal_bounded`): only a notification sends sleeping threads round their loops again,
and each notification is owed for a call that was made, or for the lines in the queue.
-/

namespace OrderMatchingEngine

open Monitor (Wait)

namespace Logger

variable {θ : Type}

/-! ### Sums over threads -/

section Sums

variable {f g : θ → Nat} {busy : Finset θ}

/-- One thread gives up `k`, and no other gains. -/
theorem sum_add_le [DecidableEq θ] {t : θ} {k : Nat} (ht : t ∈ busy) (hat : g t + k ≤ f t)
    (hothers : ∀ u, u ≠ t → g u = f u) :
    (∑ u ∈ busy, g u) + k ≤ ∑ u ∈ busy, f u := by
  have hrest : ∑ u ∈ busy.erase t, g u = ∑ u ∈ busy.erase t, f u :=
    Finset.sum_congr rfl fun u hu => hothers u (Finset.ne_of_mem_erase hu)
  rw [← Finset.add_sum_erase busy f ht, ← Finset.add_sum_erase busy g ht, hrest]
  omega

/-- No thread gains more than `k`. -/
theorem sum_le_add {k : Nat} (h : ∀ u, g u ≤ f u + k) :
    ∑ u ∈ busy, g u ≤ (∑ u ∈ busy, f u) + k * busy.card := by
  calc ∑ u ∈ busy, g u ≤ ∑ u ∈ busy, (f u + k) := Finset.sum_le_sum fun u _ => h u
    _ = (∑ u ∈ busy, f u) + k * busy.card := by
      rw [Finset.sum_add_distrib, Finset.sum_const_nat fun _ _ => rfl, Nat.mul_comm]

end Sums

/-! ### The measure -/

/-- The step goes on with a call that was made before. -/
def Step.internal : Step θ → Bool
  | .setMinLevel _ | .setMinLevelStr _ | .logInternal _ _ _ _ _ | .flush _ | .setExitFlag => false
  | .wakeSpuriously _ => false
  | .push _ | .notifyOne _ _ | .lock _ | .check _ | .sleep _ => true
  | .pop | .write | .relock | .notifyAll | .leave | .notifyExit | .join => true

/-- The notifications that a client owes. A line that is to be pushed counts for the worker, too. -/
@[simp] def Client.owed : Client → Nat
  | .pushing _ => 3
  | .notifying => 1
  | .idle | .flushing _ => 0

/-- The worker owes a notification when it is in its inner loop, or has reason to enter it. -/
def workerOwed (s : Logger θ) : Nat :=
  match s.worker with
  | .waiting _ => if s.predicate .worker then 1 else 0
  | .draining | .writing _ | .relocking => 1
  | .leaving | .exited => 0

@[simp] def Destructor.owed : Destructor → Nat
  | .notifying => 1
  | .before | .joining | .done => 0

/-- The notifications that the busy clients and the other threads owe. -/
def owed (busy : Finset θ) (s : Logger θ) : Nat :=
  (∑ t ∈ busy, (s.clients t).owed) + s.workerOwed + s.destructor.owed

/-- The steps that a thread can take in `wait` before it sleeps. -/
@[simp] def waitSteps (asleep : Bool) : Wait → Nat
  | .locking => if asleep then 0 else 3
  | .checking => 2
  | .parking => 1

theorem workerOwed_le (s : Logger θ) : s.workerOwed ≤ 1 := by
  unfold workerOwed
  split
  · split <;> omega
  · exact Nat.le_refl 1
  · exact Nat.le_refl 1
  · exact Nat.le_refl 1
  · exact Nat.zero_le 1
  · exact Nat.zero_le 1

variable [DecidableEq θ]

/-- The steps that a client can take in `flush` before it sleeps. -/
def clientSteps (s : Logger θ) (t : θ) : Nat :=
  match s.clients t with
  | .flushing w => waitSteps (decide (.client t ∈ s.cv)) w
  | .idle | .pushing _ | .notifying => 0

/-- The steps that the worker can take without a line from the queue. -/
def workerSteps (s : Logger θ) : Nat :=
  match s.worker with
  | .waiting w => waitSteps (decide (.worker ∈ s.cv)) w
  | .draining => 1
  | .writing _ => 3
  | .relocking => 2
  | .leaving => 4
  | .exited => 0

@[simp] def Destructor.steps : Destructor → Nat
  | .joining => 1
  | .before | .notifying | .done => 0

/-- The steps that can be taken without a notification. -/
def steps (busy : Finset θ) (s : Logger θ) : Nat :=
  (∑ t ∈ busy, s.clientSteps t) + s.workerSteps + 3 * s.logQueue.length + s.destructor.steps

theorem waitSteps_le (asleep : Bool) (w : Wait) : waitSteps asleep w ≤ 3 := by
  cases w <;> cases asleep <;> simp

theorem clientSteps_le (s : Logger θ) (t : θ) : s.clientSteps t ≤ 3 := by
  unfold clientSteps
  split
  · exact waitSteps_le _ _
  · omega
  · omega
  · omega

theorem workerSteps_le (s : Logger θ) : s.workerSteps ≤ 4 := by
  unfold workerSteps
  split
  · exact (waitSteps_le _ _).trans (by omega)
  all_goals omega

theorem Destructor.steps_le (d : Destructor) : d.steps ≤ 1 := by
  cases d <;> simp

/-! ### One step -/

/-- The measure goes down: by a notification, or by a step on the way to the next one. -/
def Decreases (busy : Finset θ) (s s' : Logger θ) : Prop :=
  owed busy s' < owed busy s ∧ steps busy s' ≤ steps busy s + (3 * busy.card + 8) ∨
    owed busy s' ≤ owed busy s ∧ steps busy s' < steps busy s

variable {busy : Finset θ} {s s' : Logger θ}

/-- A notification, or a line that is pushed. -/
theorem decreases_of_notify (hqueue : s'.logQueue.length ≤ s.logQueue.length + 1)
    (howed : owed busy s' < owed busy s) : Decreases busy s s' := by
  refine .inl ⟨howed, ?_⟩
  have hclients : ∑ t ∈ busy, s'.clientSteps t ≤ (∑ t ∈ busy, s.clientSteps t) + 3 * busy.card :=
    sum_le_add fun t => (s'.clientSteps_le t).trans (Nat.le_add_left _ _)
  have hworker := s'.workerSteps_le
  have hdestructor := s'.destructor.steps_le
  unfold steps
  omega

/-- A step of the worker that notifies nobody. -/
theorem decreases_of_worker (hclients : s'.clients = s.clients)
    (hcv : ∀ t, .client t ∈ s'.cv ↔ .client t ∈ s.cv) (hdestructor : s'.destructor = s.destructor)
    (howed : s'.workerOwed ≤ s.workerOwed)
    (hsteps : s'.workerSteps + 3 * s'.logQueue.length < s.workerSteps + 3 * s.logQueue.length) :
    Decreases busy s s' := by
  have hsame : ∀ t, s'.clientSteps t = s.clientSteps t := fun t => by
    simp only [clientSteps, hclients, hcv]
  refine .inr ⟨?_, ?_⟩
  · simp only [owed, hclients, hdestructor]
    omega
  · simp only [steps, hsame, hdestructor]
    omega

/-- A step of a client that notifies nobody. -/
theorem decreases_of_client {t : θ} {place : Client} (ht : t ∈ busy)
    (hclients : s'.clients = Function.update s.clients t place)
    (hcv : ∀ x, x ≠ .client t → (x ∈ s'.cv ↔ x ∈ s.cv)) (hworker : s'.worker = s.worker)
    (hqueue : s'.logQueue = s.logQueue) (hexit : s'.exitFlag = s.exitFlag)
    (hdestructor : s'.destructor = s.destructor) (howed : place.owed ≤ (s.clients t).owed)
    (hsteps : s'.clientSteps t + 1 ≤ s.clientSteps t) : Decreases busy s s' := by
  have hsumOwed := sum_add_le (g := fun u => (s'.clients u).owed) (f := fun u => (s.clients u).owed)
    ht (k := 0) (by simpa [hclients] using howed) fun u hu => by
      simp only [hclients, Function.update_of_ne hu]
  have hsumSteps := sum_add_le ht hsteps fun u hu => by
    have hmem := hcv (.client u) (by simpa using hu)
    simp only [clientSteps, hclients, Function.update_of_ne hu, hmem]
  have hworkerOwed : s'.workerOwed = s.workerOwed := by
    unfold workerOwed predicate
    rw [hworker, hqueue, hexit]
  have hworkerSteps : s'.workerSteps = s.workerSteps := by
    simp only [workerSteps, hworker, hcv .worker (by simp)]
  refine .inr ⟨?_, ?_⟩
  · simp only [owed, hworkerOwed, hdestructor]
    omega
  · simp only [steps, hworkerSteps, hqueue, hdestructor]
    omega

/-- A client owes less, by more than what the worker comes to owe. -/
theorem owed_lt_of_client {t : θ} {old place : Client} (k : Nat) (ht : t ∈ busy)
    (hold : s.clients t = old) (hclients : s'.clients = Function.update s.clients t place)
    (hdestructor : s'.destructor = s.destructor) (hplace : place.owed + (k + 1) ≤ old.owed)
    (hworker : s'.workerOwed ≤ s.workerOwed + k) : owed busy s' < owed busy s := by
  have hsum := sum_add_le (g := fun u => (s'.clients u).owed) (f := fun u => (s.clients u).owed)
    ht (by simpa [hclients, hold] using hplace) fun u hu => by
      simp only [hclients, Function.update_of_ne hu]
  simp only [owed, hdestructor]
  omega

/-- **One internal step** decreases the measure. -/
theorem Moves.decreases {a : Step θ} {e : Effect} (h : s.Sound)
    (hbusy : ∀ t, t ∉ busy → s.clients t = .idle) (hm : s.Moves a e s') (ha : a.internal = true) :
    Decreases busy s s' := by
  have hmem : ∀ {t place}, s.clients t = place → place ≠ .idle → t ∈ busy :=
    fun {t _} hplace hne => by_contra fun hnot => hne (hplace.symm.trans (hbusy t hnot))
  cases hm with
  | setMinLevel _ | setMinLevelStr _ | discard _ _ | logInternal _ _ | flush _ | wakeSpuriously _
  | setExitFlag _ => simp [Step.internal] at ha
  | push hpushing hfree =>
      have hin := hmem hpushing (by simp)
      refine decreases_of_notify (by simp) (owed_lt_of_client 1 hin hpushing rfl rfl ?_ ?_)
      · simp
      · exact (workerOwed_le _).trans (Nat.le_add_left _ _)
  | notifyOne hnotifying hnotify =>
      have hin := hmem hnotifying (by simp)
      refine decreases_of_notify (Nat.le_succ _) (owed_lt_of_client 0 hin hnotifying rfl rfl ?_ ?_)
      · simp
      · exact Nat.le_refl _
  | notifyAll hworker hqueue =>
      refine decreases_of_notify (Nat.le_succ _) ?_
      simp [owed, workerOwed, hworker]
  | notifyExit hnotifying =>
      refine decreases_of_notify (Nat.le_succ _) ?_
      simp [owed, workerOwed, predicate, hnotifying]
  | lockClient hflushing hfree hawake =>
      have hin := hmem hflushing (by simp)
      refine decreases_of_client hin rfl (fun _ _ => Iff.rfl) rfl rfl rfl rfl ?_ ?_
      · simp
      · simp [clientSteps, hflushing, hawake]
  | flushed hflushing _ | parkClient hflushing _ =>
      have hin := hmem hflushing (by simp)
      refine decreases_of_client hin rfl (fun _ _ => Iff.rfl) rfl rfl rfl rfl ?_ ?_
      · simp
      · simp [clientSteps, hflushing]
  | sleepClient hflushing =>
      have hin := hmem hflushing (by simp)
      refine decreases_of_client hin rfl (fun _ hx => by simp [hx]) rfl rfl rfl rfl ?_ ?_
      · simp
      · simp [clientSteps, hflushing]
  | lockWorker hworker hfree hawake =>
      refine decreases_of_worker rfl (fun _ => Iff.rfl) rfl ?_ ?_
      · simp [workerOwed, hworker, predicate]
      · simp [workerSteps, hworker, hawake]
  | drain hworker hready =>
      refine decreases_of_worker rfl (fun _ => Iff.rfl) rfl ?_ ?_
      · simp [workerOwed, hworker, predicate_worker.mpr hready]
      · simp [workerSteps, hworker]
  | parkWorker hworker _ _ | sleepWorker hworker =>
      refine decreases_of_worker rfl (fun _ => by simp) rfl ?_ ?_
      · simp [workerOwed, hworker, predicate]
      · simp [workerSteps, hworker]
  | pop hworker hqueue =>
      -- the line takes three steps: the write, the mutex, and the test of the queue
      refine decreases_of_worker rfl (fun _ => Iff.rfl) rfl ?_ ?_
      · simp [workerOwed, hworker]
      · simp [workerSteps, hworker, hqueue]
        omega
  | write hworker | relock hworker _ | exit hworker _ =>
      refine decreases_of_worker rfl (fun _ => Iff.rfl) rfl ?_ ?_
      · simp [workerOwed, hworker]
      · simp [workerSteps, hworker]
  | again hworker hexit =>
      -- the queue is empty and the flag is not set, so the worker owes nothing
      refine decreases_of_worker rfl (fun _ => Iff.rfl) rfl ?_ ?_
      · simp [workerOwed, hworker, predicate, hexit, h.emptied (.inr hworker)]
      · have hle := waitSteps_le (decide (.worker ∈ s.cv)) .locking
        simp only [workerSteps, hworker]
        omega
  | join hjoining hworker =>
      exact .inr ⟨by simp [owed, workerOwed, hjoining, predicate],
        by simp [steps, clientSteps, workerSteps, hjoining]⟩

/-! ### Runs -/

/-- No step moves more than one client. -/
theorem Moves.clients_cases {a : Step θ} {e : Effect} (hm : s.Moves a e s') :
    s'.clients = s.clients ∨ ∃ t place, s'.clients = Function.update s.clients t place := by
  cases hm <;> first | exact .inl rfl | exact .inr ⟨_, _, rfl⟩

/-- An internal step begins no call. -/
theorem Moves.idle_of_internal {a : Step θ} {e : Effect} (hm : s.Moves a e s')
    (ha : a.internal = true) {t : θ} (ht : s.clients t = .idle) : s'.clients t = .idle := by
  cases hm <;> grind [Function.update_apply, Step.internal]

/-- At any time only finitely many clients are in a call. -/
theorem exists_busy {isOpen : Bool} {tr : List (Step θ × Effect)} (h : Run (start θ isOpen) tr s) :
    ∃ busy : Finset θ, ∀ t, t ∉ busy → s.clients t = .idle := by
  refine h.invariant (fun _ s => ∃ busy : Finset θ, ∀ t, t ∉ busy → s.clients t = .idle)
    ⟨∅, fun _ _ => rfl⟩ ?_
  rintro tr s a e s' - ⟨busy, hbusy⟩ hs
  rcases (Moves.of_step hs).clients_cases with hclients | ⟨t, place, hclients⟩
  · exact ⟨busy, by rwa [hclients]⟩
  · refine ⟨insert t busy, fun u hu => ?_⟩
    rw [Finset.mem_insert, not_or] at hu
    rw [hclients, Function.update_of_ne hu.1]
    exact hbusy u hu.2

/-- **Internal steps come to an end.** -/
theorem internal_bounded (hsound : s.Sound) (hbusy : ∀ t, t ∉ busy → s.clients t = .idle)
    {tr : List (Step θ × Effect)}
    (h : Trace.Run (Trace.guarded (fun _ a => a.internal = true) (Trace.ofFun step)) s tr s') :
    tr.length ≤ owed busy s * (3 * busy.card + 8 + 1) + steps busy s := by
  refine h.length_le_lex (fun s => s.Sound ∧ ∀ t, t ∉ busy → s.clients t = .idle) ⟨hsound, hbusy⟩
    (owed busy) (steps busy) (3 * busy.card + 8) ?_
  rintro s a e s' ⟨hsound, hbusy⟩ ⟨ha, hs⟩
  have hm := Moves.of_step hs
  exact ⟨⟨hsound.moves hm, fun t ht => hm.idle_of_internal ha (hbusy t ht)⟩,
    hm.decreases hsound hbusy ha⟩

end Logger

end OrderMatchingEngine
