import Mathlib.Tactic.Common

/-!
# Library.Loop

`while` loops whose body may fail, run under a fuel bound.

A loop body maps a state to `Except ε (Iter σ)`: it fails, it leaves the loop
(`Iter.done`) or it goes round again (`Iter.next`). `run stuck body n` makes at most
`n` passes and reports `stuck` when the bound is reached, so a loop *terminates* from
`s` when some bound gives a result other than `stuck`.

The rules are the usual ones of a program logic for loops:

* `run_mono`: a larger bound does not change a result;
* `run_invariant`: partial correctness from an invariant;
* `run_total`, `run_variant`: total correctness, and termination, from an invariant and a measure;
* `run_ne_stuck`: termination of a loop whose body may fail;
* `run_diverges`: an invariant under which the body never leaves the loop;
* `run_map`: a functional simulation between two loops, pass by pass.
-/

namespace FuelLoop

universe u v w

/-- The outcome of one pass through a loop body. -/
inductive Iter (σ : Type u)
  /-- Leave the loop in state `s`. -/
  | done (s : σ)
  /-- Go round again from state `s`. -/
  | next (s : σ)

/-- Rename the state of a pass. -/
def Iter.map {σ : Type u} {τ : Type v} (f : σ → τ) : Iter σ → Iter τ
  | .done s => .done (f s)
  | .next s => .next (f s)

variable {ε : Type u} {σ : Type v} {τ : Type w}

/-- Run a loop for at most `n` passes; `stuck` reports an exhausted bound. -/
def run (stuck : ε) (body : σ → Except ε (Iter σ)) : Nat → σ → Except ε σ
  | 0, _ => .error stuck
  | n + 1, s =>
    match body s with
    | .error e => .error e
    | .ok (.done s') => .ok s'
    | .ok (.next s') => run stuck body n s'

/-- A mapped result is a success exactly when the result was. -/
theorem map_eq_ok {f : σ → τ} {x : Except ε σ} {t : τ} :
    x.map f = .ok t ↔ ∃ s, x = .ok s ∧ f s = t := by
  cases x <;> simp [Except.map]

/-- A mapped result is a failure exactly when the result was. -/
theorem map_eq_error {f : σ → τ} {x : Except ε σ} {e : ε} : x.map f = .error e ↔ x = .error e := by
  cases x <;> simp [Except.map]

/-- The loop goes round from `s₀` to the given state in some number of passes. -/
inductive Passes (body : σ → Except ε (Iter σ)) (s₀ : σ) : σ → Prop
  /-- Before the first pass. -/
  | start : Passes body s₀ s₀
  /-- One more pass. -/
  | next {s s' : σ} : Passes body s₀ s → body s = .ok (.next s') → Passes body s₀ s'

/-- An invariant of the passes holds between any two of them. -/
theorem Passes.invariant {body : σ → Except ε (Iter σ)} {s₀ s : σ} (I : σ → Prop)
    (hnext : ∀ s s', I s → body s = .ok (.next s') → I s') (hs : I s₀) (h : Passes body s₀ s) :
    I s := by
  induction h with
  | start => exact hs
  | next _ hb ih => exact hnext _ _ ih hb

section Rules

variable {stuck : ε} {body : σ → Except ε (Iter σ)}

theorem run_done {n : Nat} {s s' : σ} (h : body s = .ok (.done s')) :
    run stuck body (n + 1) s = .ok s' := by
  simp only [run, h]

theorem run_next {n : Nat} {s s' : σ} (h : body s = .ok (.next s')) :
    run stuck body (n + 1) s = run stuck body n s' := by
  simp only [run, h]

/-- A loop that has returned returns the same state under every larger bound. -/
theorem run_mono {n m : Nat} {s r : σ} (hnm : n ≤ m) (h : run stuck body n s = .ok r) :
    run stuck body m s = .ok r := by
  induction n generalizing m s with
  | zero => simp [run] at h
  | succ n ih =>
      obtain ⟨m, rfl⟩ : ∃ m', m = m' + 1 := ⟨m - 1, by omega⟩
      rcases hb : body s with e | s' | s'
      · simp [run, hb] at h
      · rw [run_done hb] at h ⊢
        exact h
      · rw [run_next hb] at h ⊢
        exact ih (by omega) h

/-- **Partial correctness.** When a loop returns, an invariant that every further pass
keeps held before the pass that left it. -/
theorem run_invariant (I : σ → Prop) (hnext : ∀ s s', I s → body s = .ok (.next s') → I s')
    {n : Nat} {s r : σ} (hs : I s) (h : run stuck body n s = .ok r) :
    ∃ s', I s' ∧ body s' = .ok (.done r) := by
  induction n generalizing s with
  | zero => simp [run] at h
  | succ n ih =>
      rcases hb : body s with e | s' | s'
      · simp [run, hb] at h
      · rw [run_done hb] at h
        obtain rfl := Except.ok.inj h
        exact ⟨s, hs, hb⟩
      · rw [run_next hb] at h
        exact ih (hnext s s' hs hb) h

/-- A loop fails because a pass does, or because the bound is reached. -/
theorem run_error {n : Nat} {s : σ} {e : ε} (h : run stuck body n s = .error e) :
    e = stuck ∨ ∃ s', body s' = .error e := by
  induction n generalizing s with
  | zero => exact .inl (Except.error.inj h).symm
  | succ n ih =>
      rcases hb : body s with e' | s' | s'
      · simp only [run, hb, Except.error.injEq] at h
        exact .inr ⟨s, h ▸ hb⟩
      · simp [run_done hb] at h
      · exact ih (run_next hb ▸ h)

/-- **Total correctness.** If, under the invariant, the body leaves the loop with `Q`, or keeps the
invariant and decreases the measure `μ`, then any bound above `μ s` is enough for `Q`. -/
theorem run_total (I Q : σ → Prop) (μ : σ → Nat)
    (hbody : ∀ s, I s → (∃ s', body s = .ok (.done s') ∧ Q s') ∨
      ∃ s', body s = .ok (.next s') ∧ I s' ∧ μ s' < μ s)
    {n : Nat} {s : σ} (hs : I s) (hn : μ s < n) : ∃ r, run stuck body n s = .ok r ∧ Q r := by
  induction n generalizing s with
  | zero => omega
  | succ n ih =>
      rcases hbody s hs with ⟨s', hb, hq⟩ | ⟨s', hb, hi, hlt⟩
      · exact ⟨s', run_done hb, hq⟩
      · rw [run_next hb]
        exact ih hi (by omega)

/-- **Termination.** If, under the invariant, the body never fails and every further pass
decreases the measure `μ`, then any bound above `μ s` is enough. -/
theorem run_variant (I : σ → Prop) (μ : σ → Nat)
    (hbody : ∀ s, I s → (∃ s', body s = .ok (.done s')) ∨
      ∃ s', body s = .ok (.next s') ∧ I s' ∧ μ s' < μ s)
    {n : Nat} {s : σ} (hs : I s) (hn : μ s < n) : ∃ r, run stuck body n s = .ok r := by
  have hbody' : ∀ s, I s → (∃ s', body s = .ok (.done s') ∧ True) ∨
      ∃ s', body s = .ok (.next s') ∧ I s' ∧ μ s' < μ s := by
    simpa only [and_true] using hbody
  obtain ⟨r, hr, -⟩ := run_total I (fun _ => True) μ hbody' hs hn
  exact ⟨r, hr⟩

/-- **No hanging.** If every further pass decreases the measure `μ`, under the invariant, then any
bound above `μ s` is enough for a loop whose body may fail. -/
theorem run_ne_stuck (I : σ → Prop) (μ : σ → Nat) (hstuck : ∀ s, body s ≠ .error stuck)
    (hnext : ∀ s s', I s → body s = .ok (.next s') → I s' ∧ μ s' < μ s)
    {n : Nat} {s : σ} (hs : I s) (hn : μ s < n) : run stuck body n s ≠ .error stuck := by
  induction n generalizing s with
  | zero => omega
  | succ n ih =>
      rcases hb : body s with e | s' | s'
      · intro h
        simp only [run, hb] at h
        exact hstuck s (by rw [hb, Except.error.inj h])
      · rw [run_done hb]
        exact nofun
      · rw [run_next hb]
        have hpass := hnext s s' hs hb
        exact ih hpass.1 (by omega)

/-- **Divergence.** A loop whose body goes round again from every state of an
invariant exhausts every bound. -/
theorem run_diverges (I : σ → Prop) (hbody : ∀ s, I s → ∃ s', body s = .ok (.next s') ∧ I s')
    (n : Nat) {s : σ} (hs : I s) : run stuck body n s = .error stuck := by
  induction n generalizing s with
  | zero => rfl
  | succ n ih =>
      obtain ⟨s', hb, hi⟩ := hbody s hs
      rw [run_next hb]
      exact ih hi

end Rules

/-- **Functional simulation.** If `f` maps each pass of one loop to a pass of the other
wherever the invariant `I` holds, it maps the whole run, failures included. -/
theorem run_map {stuck : ε} {body₁ : σ → Except ε (Iter σ)} {body₂ : τ → Except ε (Iter τ)}
    (f : σ → τ) (I : σ → Prop)
    (hbody : ∀ s, I s → body₂ (f s) = (body₁ s).map (Iter.map f))
    (hnext : ∀ s s', I s → body₁ s = .ok (.next s') → I s')
    (n : Nat) {s : σ} (hs : I s) :
    run stuck body₂ n (f s) = (run stuck body₁ n s).map f := by
  induction n generalizing s with
  | zero => rfl
  | succ n ih =>
      have h₂ := hbody s hs
      rcases hb : body₁ s with e | s' | s'
      · rw [hb] at h₂
        simp only [run, hb, h₂, Except.map]
      · rw [hb] at h₂
        rw [run_done (by simpa [Except.map, Iter.map] using h₂), run_done hb]
        rfl
      · rw [hb] at h₂
        rw [run_next (by simpa [Except.map, Iter.map] using h₂), run_next hb]
        exact ih (hnext s s' hs hb)

end FuelLoop
