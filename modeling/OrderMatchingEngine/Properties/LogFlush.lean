import Mathlib.Data.List.DropRight
import OrderMatchingEngine.Refinement.Logging

/-!
# OrderMatchingEngine.Properties.LogFlush

What has been written when `Logger::flush` returns?

The worker takes a line off the queue and gives up the mutex to write it. `flush` looks at the queue
only, so it may return while the line is not in the file yet, and it does return where there is no
file at all. `flush_returns_iff` says when it keeps its promise. The file itself is in order: at any
time it has the first of the lines that were pushed.
-/

namespace OrderMatchingEngine

open Logger

namespace Logger

variable {θ : Type} [DecidableEq θ]

/-- A call of `flush` by `t`. -/
def Step.isFlush (t : θ) : Step θ → Bool
  | .flush u => u = t
  | _ => false

/-- The lines that were pushed before `t` last called `flush`. -/
def pushedBefore (t : θ) (tr : List (Step θ × Effect)) : List String :=
  pushed (tr.rdropWhile fun call => !call.1.isFlush t)

variable {s s' : Logger θ} {tr : List (Step θ × Effect)} {t : θ}

theorem pushedBefore_prefix_pushed (t : θ) (tr : List (Step θ × Effect)) :
    pushedBefore t tr <+: pushed tr := by
  obtain ⟨since, hsince⟩ := List.rdropWhile_prefix (fun call => !call.1.isFlush t) (l := tr)
  exact ⟨pushed since, by rw [pushedBefore, ← pushed_append, hsince]⟩

/-- `flush` returns when it sees the queue empty, and writes nothing. -/
theorem flushed_inv (hs : s.step (.check (.client t)) = some (.flushed, s')) :
    s.logQueue = [] ∧ s'.file = s.file := by
  cases Moves.of_step hs with
  | flushed hflushing hqueue => exact ⟨hqueue, rfl⟩

theorem isPrefix_iff_ne_concat {α : Type} {l m : List α} {x : α} (h : l <+: m ++ [x]) :
    l <+: m ↔ l ≠ m ++ [x] := by
  refine ⟨fun hm heq => ?_, (List.prefix_concat_iff.mp h).resolve_left⟩
  have hlen := hm.length_le
  rw [heq, List.length_append, List.length_singleton] at hlen
  omega

omit [DecidableEq θ] in
/-- When the queue is empty, the first of the lines that were pushed are in the file, unless the
worker has the last of them in its hand. -/
theorem Stored.written_iff (h : s.Stored tr) (hqueue : s.logQueue = []) {lines : List String}
    (hlines : lines <+: pushed tr) :
    lines <+: s.file ↔ lines = [] ∨
      s.isOpen = true ∧ ((∀ line, s.worker ≠ .writing line) ∨ lines ≠ pushed tr) := by
  cases hopen : s.isOpen with
  | false => simp [h.closed hopen]
  | true =>
      have hstored := h.opened hopen
      rw [hqueue, List.append_nil] at hstored
      by_cases hhand : s.worker.inHand = []
      · rw [hhand, List.append_nil] at hstored
        rw [hstored]
        exact iff_of_true hlines (.inr ⟨rfl, .inl (inHand_eq_nil.mp hhand)⟩)
      · obtain ⟨line, hwriting⟩ : ∃ line, s.worker = .writing line := by
          simpa [inHand_eq_nil] using hhand
        have hlast : pushed tr = s.file ++ [line] := by
          rw [← hstored, hwriting]
          rfl
        have hshort : lines <+: s.file ↔ lines ≠ pushed tr := by
          rw [hlast] at hlines ⊢
          exact isPrefix_iff_ne_concat hlines
        have hsome : lines = [] → lines ≠ pushed tr := by
          rintro rfl
          simp [hlast]
        rw [hshort]
        simp only [hwriting]
        constructor
        · exact fun hne => .inr ⟨trivial, .inr hne⟩
        · rintro (hnil | ⟨-, hnever | hne⟩)
          · exact hsome hnil
          · exact absurd rfl (hnever line)
          · exact hne

end Logger

/-- **`flush` flushes** exactly if there was nothing to write when it was called, or if the file is
open and, moreover, the worker does not have a line in its hand or one was pushed since. The file
always has the first of the lines that were pushed, each of them once. -/
theorem flush_returns_iff {θ : Type} [DecidableEq θ] {isOpen : Bool} {tr : List (Step θ × Effect)}
    {s : Logger θ} (h : Run (start θ isOpen) tr s) :
    s.file <+: pushed tr ∧ ((pushed tr).Nodup → s.file.Nodup) ∧
    ∀ t s', s.step (.check (.client t)) = some (.flushed, s') →
      (pushedBefore t tr <+: s'.file ↔ pushedBefore t tr = [] ∨ s.isOpen = true ∧
        ((∀ line, s.worker ≠ .writing line) ∨ pushedBefore t tr ≠ pushed tr)) := by
  have hstored := Stored.run h
  refine ⟨hstored.file_ordered, fun hnodup => hnodup.sublist hstored.file_ordered.sublist, ?_⟩
  intro t s' hs
  obtain ⟨hqueue, hfile⟩ := flushed_inv hs
  rw [hfile]
  exact hstored.written_iff hqueue (pushedBefore_prefix_pushed t tr)

/-! ### A line logged, and then a flush -/

/-- A client logs a line, and the worker takes it off the queue. -/
def lineTaken : List (Step Unit) :=
  [.logInternal () .info "--- Finished Matching Engine Test ---"
      ⟨17, "TearDown", "tests/test_matching_engine.cpp"⟩ "10:00:00.000000000",
    .push (), .notifyOne () none, .lock .worker, .check .worker, .pop]

/-- The client calls `flush`. -/
def flushCalled : List (Step Unit) := [.flush (), .lock (.client ())]

/-- The line is written before `flush` is called. -/
theorem flush_returns_late : ∃ tr s s', Run (start Unit true) tr s ∧
    s.step (.check (.client ())) = some (.flushed, s') ∧ pushedBefore () tr ≠ [] ∧
    pushedBefore () tr <+: s'.file := by
  have hexec : Trace.exec step (lineTaken ++ [.write, .relock, .notifyAll, .leave] ++ flushCalled)
    (start Unit true) = some (_, _) := rfl
  have hrun : Run (start Unit true) _ _ := .of_exec hexec
  refine ⟨_, _, _, hrun, rfl, List.cons_ne_nil _ _, ?_⟩
  exact ((flush_returns_iff hrun).2.2 () _ rfl).mpr (.inr ⟨rfl, .inl nofun⟩)

/-- `flush` returns while the worker has the line in its hand. -/
theorem flush_returns_early : ∃ tr s s', Run (start Unit true) tr s ∧
    s.step (.check (.client ())) = some (.flushed, s') ∧ ¬ pushedBefore () tr <+: s'.file := by
  have hexec : Trace.exec step (lineTaken ++ flushCalled) (start Unit true) = some (_, _) := rfl
  exact ⟨_, _, _, .of_exec hexec, rfl, fun h => List.cons_ne_nil _ _ (List.prefix_nil.mp h)⟩

end OrderMatchingEngine
