import Mathlib.Data.List.Induction
import Mathlib.Tactic.Common

/-!
# Library.Trace

Runs of a labelled step relation, from one start state.

A step `step s i o s'` consumes the input `i` in state `s`, answers `o` and moves to
`s'`. `Run step s₀ tr s` says that the calls and answers recorded in `tr`, oldest first,
lead from `s₀` to `s`. A condition on the calls of a run is a *guard* on the step:
`guarded G step` takes only the steps whose state and input satisfy `G`.

Steps that a function computes can be run (`exec`), and a measure that every step decreases bounds
the length of a run (`Run.length_le`, and `Run.length_le_lex` for a measure of two levels).
-/

namespace Trace

universe u v w x y z

variable {σ : Type u} {ι : Type v} {ο : Type w}

/-- The steps of `step` whose state and input satisfy the guard. -/
def guarded (G : σ → ι → Prop) (step : σ → ι → ο → σ → Prop) : σ → ι → ο → σ → Prop :=
  fun s i o s' => G s i ∧ step s i o s'

/-- The steps that a function takes where it can. -/
def ofFun (f : σ → ι → Option (ο × σ)) : σ → ι → ο → σ → Prop :=
  fun s i o s' => f s i = some (o, s')

/-- Take the given steps, one after the other. -/
def exec (f : σ → ι → Option (ο × σ)) : List ι → σ → Option (List (ι × ο) × σ)
  | [], s => some ([], s)
  | i :: is, s =>
    match f s i with
    | none => none
    | some (o, s') => (exec f is s').map fun r => ((i, o) :: r.1, r.2)

/-- The calls and answers of `tr` lead from `s₀` to the given state. -/
inductive Run (step : σ → ι → ο → σ → Prop) (s₀ : σ) : List (ι × ο) → σ → Prop
  /-- The empty run. -/
  | nil : Run step s₀ [] s₀
  /-- One more call at the end. -/
  | snoc {tr : List (ι × ο)} {s s' : σ} {i : ι} {o : ο} :
      Run step s₀ tr s → step s i o s' → Run step s₀ (tr ++ [(i, o)]) s'

namespace Run

variable {step : σ → ι → ο → σ → Prop} {s₀ s s' : σ} {tr : List (ι × ο)}

/-- An empty run stays where it starts. -/
theorem nil_inv (h : Run step s₀ [] s) : s = s₀ := by
  generalize htr : ([] : List (ι × ο)) = tr at h
  cases h with
  | nil => rfl
  | snoc _ _ => simp at htr

/-- The last step of a run. -/
theorem last {i : ι} {o : ο} (h : Run step s₀ (tr ++ [(i, o)]) s) :
    ∃ s', Run step s₀ tr s' ∧ step s' i o s := by
  generalize htr : tr ++ [(i, o)] = tr' at h
  cases h with
  | nil => simp at htr
  | snoc hrun hs =>
      obtain ⟨rfl, hlast⟩ := List.append_inj' htr rfl
      obtain ⟨rfl, rfl⟩ := Prod.mk.inj (List.cons.inj hlast).1
      exact ⟨_, hrun, hs⟩

/-- A step in the middle of a run. -/
theorem middle {tr' : List (ι × ο)} {i : ι} {o : ο} (h : Run step s₀ (tr ++ (i, o) :: tr') s) :
    ∃ s₁ s₂, Run step s₀ tr s₁ ∧ step s₁ i o s₂ ∧ Run step s₂ tr' s := by
  induction tr' using List.reverseRecOn generalizing s with
  | nil =>
      obtain ⟨s₁, hrun, hs⟩ := h.last
      exact ⟨s₁, s, hrun, hs, .nil⟩
  | append_singleton tr' x ih =>
      rw [← List.cons_append, ← List.append_assoc] at h
      obtain ⟨s', hrun, hlast⟩ := h.last
      obtain ⟨s₁, s₂, hbefore, hs, hafter⟩ := ih hrun
      exact ⟨s₁, s₂, hbefore, hs, hafter.snoc hlast⟩

/-- One run after another. -/
theorem append {s₁ : σ} {tr' : List (ι × ο)} (h : Run step s₀ tr s₁) (h' : Run step s₁ tr' s) :
    Run step s₀ (tr ++ tr') s := by
  induction h' with
  | nil => rwa [List.append_nil]
  | snoc _ hs ih =>
      rw [← List.append_assoc]
      exact ih.snoc hs

/-- One call before a run. -/
theorem cons {s₁ : σ} {i : ι} {o : ο} (hs : step s₀ i o s₁) (h : Run step s₁ tr s) :
    Run step s₀ ((i, o) :: tr) s :=
  append (.snoc .nil hs) h

/-- What was executed is a run. -/
theorem of_exec {f : σ → ι → Option (ο × σ)} {is : List ι} (h : exec f is s₀ = some (tr, s)) :
    Run (ofFun f) s₀ tr s := by
  induction is generalizing s₀ tr with
  | nil =>
      obtain ⟨rfl, rfl⟩ := Prod.mk.inj (Option.some.inj h)
      exact .nil
  | cons i is ih =>
      unfold exec at h
      split at h
      · simp at h
      · rename_i o s₁ hs
        obtain ⟨r, hr, htr⟩ := Option.map_eq_some_iff.mp h
        obtain ⟨rfl, rfl⟩ := Prod.mk.inj htr
        exact cons hs (ih hr)

/-- **Invariant rule**, with the run so far in view: what earlier invariants say about the
state before a step may be used to show that the step keeps this one. -/
theorem invariant (I : List (ι × ο) → σ → Prop) (hinit : I [] s₀)
    (hstep : ∀ tr s i o s', Run step s₀ tr s → I tr s → step s i o s' → I (tr ++ [(i, o)]) s')
    (h : Run step s₀ tr s) : I tr s := by
  induction h with
  | nil => exact hinit
  | snoc hrun hs ih => exact hstep _ _ _ _ _ hrun ih hs

/-- A run of one step relation is a run of every larger one. -/
theorem mono {step' : σ → ι → ο → σ → Prop}
    (himp : ∀ s i o s', step s i o s' → step' s i o s') (h : Run step s₀ tr s) :
    Run step' s₀ tr s := by
  induction h with
  | nil => exact .nil
  | snoc _ hs ih => exact .snoc ih (himp _ _ _ _ hs)

/-- **Termination.** If, under the invariant, every step decreases the measure `μ`, a run is not
longer than the measure it has used up. -/
theorem length_le (I : σ → Prop) (hinit : I s₀) (μ : σ → Nat)
    (hstep : ∀ s i o s', I s → step s i o s' → I s' ∧ μ s' < μ s) (h : Run step s₀ tr s) :
    I s ∧ tr.length + μ s ≤ μ s₀ := by
  induction h with
  | nil => exact ⟨hinit, by simp⟩
  | snoc _ hs ih =>
      obtain ⟨hinv, hlt⟩ := hstep _ _ _ _ ih.1 hs
      rw [List.length_append, List.length_singleton]
      exact ⟨hinv, by omega⟩

/-- **Termination**, by a measure of two levels: a step that decreases the upper one may increase
the lower one by up to `c`. -/
theorem length_le_lex (I : σ → Prop) (hinit : I s₀) (upper lower : σ → Nat) (c : Nat)
    (hstep : ∀ s i o s', I s → step s i o s' → I s' ∧
      (upper s' < upper s ∧ lower s' ≤ lower s + c ∨ upper s' ≤ upper s ∧ lower s' < lower s))
    (h : Run step s₀ tr s) : tr.length ≤ upper s₀ * (c + 1) + lower s₀ := by
  have hbound := length_le I hinit (fun s => upper s * (c + 1) + lower s) ?_ h
  · exact Nat.le_trans (Nat.le_add_right _ _) hbound.2
  · intro s i o s' hinv hs
    obtain ⟨hinv', hdec⟩ := hstep s i o s' hinv hs
    refine ⟨hinv', ?_⟩
    rcases hdec with ⟨hupper, hlower⟩ | ⟨hupper, hlower⟩
    · have hmul := Nat.mul_le_mul_right (c + 1) (Nat.succ_le_of_lt hupper)
      rw [Nat.succ_mul] at hmul
      show upper s' * (c + 1) + lower s' < upper s * (c + 1) + lower s
      omega
    · have hmul := Nat.mul_le_mul_right (c + 1) hupper
      show upper s' * (c + 1) + lower s' < upper s * (c + 1) + lower s
      omega

/-- **Simulation rule.** A second system follows a run of the first, step by step or by
standing still, as long as the relation `R` between the two runs can be kept up. -/
theorem simulate {τ : Type x} {ι' : Type y} {ο' : Type z} {step' : τ → ι' → ο' → τ → Prop} {t₀ : τ}
    (R : List (ι × ο) → σ → List (ι' × ο') → τ → Prop) (hinit : R [] s₀ [] t₀)
    (hstep : ∀ tr s i o s' tr' t, Run step s₀ tr s → Run step' t₀ tr' t → R tr s tr' t →
      step s i o s' → ∃ tr'' t', Run step' t₀ tr'' t' ∧ R (tr ++ [(i, o)]) s' tr'' t')
    (h : Run step s₀ tr s) : ∃ tr' t, Run step' t₀ tr' t ∧ R tr s tr' t := by
  induction h with
  | nil => exact ⟨[], t₀, .nil, hinit⟩
  | snoc hrun hs ih =>
      obtain ⟨tr', t, hrun', hR⟩ := ih
      exact hstep _ _ _ _ _ _ _ hrun hrun' hR hs

/-- The same calls give the same answers and the same state when a step is determined
by its state and its input. -/
theorem deterministic
    (hdet : ∀ s i o o' s' s'', step s i o s' → step s i o' s'' → o = o' ∧ s' = s'')
    {tr' : List (ι × ο)} (h : Run step s₀ tr s) (h' : Run step s₀ tr' s')
    (hin : tr.map Prod.fst = tr'.map Prod.fst) : tr = tr' ∧ s = s' := by
  induction h generalizing tr' s' with
  | nil =>
      obtain rfl : tr' = [] := by simpa using hin.symm
      exact ⟨rfl, (nil_inv h').symm⟩
  | snoc _ hs ih =>
      cases h' with
      | nil => simp at hin
      | snoc hrun' hs' =>
          rw [List.map_append, List.map_append] at hin
          obtain ⟨hpre, hlast⟩ := List.append_inj' hin rfl
          obtain ⟨rfl, rfl⟩ := ih hrun' hpre
          obtain rfl := (List.cons.inj hlast).1
          obtain ⟨rfl, rfl⟩ := hdet _ _ _ _ _ _ hs hs'
          exact ⟨rfl, rfl⟩

end Run

end Trace
