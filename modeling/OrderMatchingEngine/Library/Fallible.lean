import Mathlib.Tactic.Common

/-!
# Library.Fallible

Folds whose steps may fail.

A fold over a list stops at the first step that fails. So a result has come through every step
(`foldlM_invariant`), and a failure has come through the steps before the one that failed
(`foldlM_error`). `Rel` compares two outcomes, and `foldlM_rel` two folds over one list, step by
step.
-/

namespace Fallible

universe u v w x y

variable {ε : Type u} {σ : Type v} {ε' : Type w} {τ : Type x} {α : Type y}

/-- Two outcomes are related: both are failures that `E` relates, or results that `R` does. -/
inductive Rel (E : ε → ε' → Prop) (R : σ → τ → Prop) : Except ε σ → Except ε' τ → Prop
  | error {e : ε} {e' : ε'} : E e e' → Rel E R (.error e) (.error e')
  | ok {s : σ} {t : τ} : R s t → Rel E R (.ok s) (.ok t)

theorem Rel.imp {E E' : ε → ε' → Prop} {R R' : σ → τ → Prop} {x : Except ε σ} {y : Except ε' τ}
    (hE : ∀ e e', E e e' → E' e e') (hR : ∀ s t, R s t → R' s t) (h : Rel E R x y) :
    Rel E' R' x y := by
  cases h with
  | error he => exact .error (hE _ _ he)
  | ok hr => exact .ok (hR _ _ hr)

/-- What is related to a result is a result. -/
theorem Rel.of_ok {E : ε → ε' → Prop} {R : σ → τ → Prop} {s : σ} {y : Except ε' τ}
    (h : Rel E R (.ok s) y) : ∃ t, y = .ok t ∧ R s t := by
  cases h with
  | ok hr => exact ⟨_, rfl, hr⟩

theorem Rel.trans {υ : Type x} {R : σ → τ → Prop} {R' : τ → υ → Prop} {R'' : σ → υ → Prop}
    {x : Except ε σ} {y : Except ε τ} {z : Except ε υ} (hR : ∀ s t u, R s t → R' t u → R'' s u)
    (h : Rel Eq R x y) (h' : Rel Eq R' y z) : Rel Eq R'' x z := by
  cases h with
  | error he =>
      cases h' with
      | error he' => exact .error (he.trans he')
  | ok hr =>
      cases h' with
      | ok hr' => exact .ok (hR _ _ _ hr hr')

/-- One computation, with two readings of its result. -/
theorem Rel.map {γ : Type y} {R : σ → τ → Prop} {f : γ → σ} {f' : γ → τ}
    (h : ∀ c, R (f c) (f' c)) (z : Except ε γ) : Rel Eq R (z.map f) (z.map f') := by
  cases z with
  | error e => exact .error rfl
  | ok c => exact .ok (h c)

section Folds

variable {f : σ → α → Except ε σ}

/-- The first step fails, or the fold goes on from its result. -/
theorem foldlM_cons (a : α) (l : List α) (s : σ) : (a :: l).foldlM f s =
    match f s a with
    | .error e => .error e
    | .ok s' => l.foldlM f s' := by
  rw [List.foldlM_cons]
  cases f s a <;> rfl

theorem foldlM_append (l l' : List α) (s : σ) : (l ++ l').foldlM f s =
    match l.foldlM f s with
    | .error e => .error e
    | .ok s' => l'.foldlM f s' := by
  rw [List.foldlM_append]
  cases l.foldlM f s <;> rfl

/-- **Invariant rule**, with the elements that are done in view. -/
theorem foldlM_invariant (I : List α → σ → Prop)
    (hstep : ∀ done a s s', I done s → f s a = .ok s' → I (done ++ [a]) s') {l : List α}
    {s s' : σ} (hs : I [] s) (h : l.foldlM f s = .ok s') : I l s' := by
  suffices hgen : ∀ done s, I done s → l.foldlM f s = .ok s' → I (done ++ l) s' from hgen [] s hs h
  clear hs h s
  intro done s hs h
  induction l generalizing done s with
  | nil =>
      obtain rfl := Except.ok.inj h
      rwa [List.append_nil]
  | cons a l ih =>
      rw [foldlM_cons] at h
      split at h
      · simp at h
      · rename_i s₁ ha
        have hrest := ih (done ++ [a]) s₁ (hstep _ _ _ _ hs ha) h
        rwa [List.append_assoc] at hrest

/-- **A failure** is the failure of one step, after the steps before it were made. -/
theorem foldlM_error {l : List α} {s : σ} {e : ε} (h : l.foldlM f s = .error e) :
    ∃ done a rest s', l = done ++ a :: rest ∧ done.foldlM f s = .ok s' ∧ f s' a = .error e := by
  induction l generalizing s with
  | nil => simp [pure, Except.pure] at h
  | cons a l ih =>
      rw [foldlM_cons] at h
      split at h
      · rename_i e' ha
        obtain rfl := Except.error.inj h
        exact ⟨[], a, l, s, rfl, rfl, ha⟩
      · rename_i s₁ ha
        obtain ⟨done, b, rest, s', rfl, hdone, hb⟩ := ih h
        exact ⟨a :: done, b, rest, s', rfl, by rw [foldlM_cons, ha]; exact hdone, hb⟩

/-- **Simulation rule**: folds whose steps keep two states related have related outcomes. -/
theorem foldlM_rel {E : ε → ε' → Prop} {R : σ → τ → Prop} {f' : τ → α → Except ε' τ}
    (hstep : ∀ a s t, R s t → Rel E R (f s a) (f' t a)) (l : List α) {s : σ} {t : τ}
    (h : R s t) : Rel E R (l.foldlM f s) (l.foldlM f' t) := by
  induction l generalizing s t with
  | nil => exact .ok h
  | cons a l ih =>
      rw [foldlM_cons, foldlM_cons]
      have hfirst := hstep a s t h
      generalize f s a = x at hfirst ⊢
      generalize f' t a = y at hfirst ⊢
      cases hfirst with
      | error he => exact .error he
      | ok hr => exact ih hr

/-- `P` holds of every step of a fold, in the state that the steps before it left. -/
def Along (f : σ → α → Except ε σ) (P : σ → α → Prop) : List α → σ → Prop
  | [], _ => True
  | a :: l, s => P s a ∧ ∀ s', f s a = .ok s' → Along f P l s'

variable {P : σ → α → Prop} (Bad Other : ε → Prop)

/-- **Blame rule.** If steps with `P` do not fail badly, neither does a fold with `P` all along. -/
theorem foldlM_along
    (hstep : ∀ s a e, P s a → f s a = .error e → ¬ Bad e) {l : List α} {s : σ}
    {e : ε} (hP : Along f P l s) (h : l.foldlM f s = .error e) : ¬ Bad e := by
  induction l generalizing s with
  | nil => simp [pure, Except.pure] at h
  | cons a l ih =>
      obtain ⟨ha, hl⟩ := hP
      rw [foldlM_cons] at h
      split at h
      · rename_i e' hfail
        obtain rfl := Except.error.inj h
        exact hstep s a _ ha hfail
      · rename_i s' hs'
        exact ih (hl s' hs') h

/-- **Blame rule.** If steps without `P` fail, badly or otherwise, so does a fold that does not have
it all along. -/
theorem foldlM_not_along
    (hstep : ∀ s a, ¬ P s a → ∃ e, f s a = .error e ∧ (Bad e ∨ Other e)) {l : List α} {s : σ}
    (hP : ¬ Along f P l s) : ∃ e, l.foldlM f s = .error e ∧ (Bad e ∨ Other e) := by
  induction l generalizing s with
  | nil => exact absurd trivial hP
  | cons a l ih =>
      rw [foldlM_cons]
      by_cases ha : P s a
      · have hl : ¬ ∀ s', f s a = .ok s' → Along f P l s' := fun hl => hP ⟨ha, hl⟩
        push Not at hl
        obtain ⟨s', hs', hl⟩ := hl
        rw [hs']
        exact ih hl
      · obtain ⟨e, he, hbad⟩ := hstep s a ha
        exact ⟨e, by rw [he], hbad⟩

end Folds

end Fallible
