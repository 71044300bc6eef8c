import Mathlib.Algebra.BigOperators.Group.List.Basic
import Mathlib.Algebra.Order.Ring.Nat
import Mathlib.Tactic.Common

/-!
# Library.Greedy

Greedy allocation of a demand over a queue of suppliers.

`amounts need caps` are the quantities taken when a demand of `need` is served from
suppliers of the given capacities, first come first served; no supplier is asked once the
demand is met. `leftover` is what remains of the queue: the exhausted suppliers are gone,
and `use x n` is a supplier `x` from which `n` was taken.
-/

namespace Greedy

universe u

/-- The quantities taken from the suppliers that are asked. -/
def amounts : Nat → List Nat → List Nat
  | _, [] => []
  | need, cap :: caps => if need = 0 then [] else min need cap :: amounts (need - cap) caps

/-- The queue that is left. -/
def leftover {β : Type u} (cap : β → Nat) (use : β → Nat → β) : Nat → List β → List β
  | _, [] => []
  | need, x :: xs =>
    if need = 0 then x :: xs
    else if cap x ≤ need then leftover cap use (need - cap x) xs
    else use x need :: xs

@[simp] theorem amounts_nil (need : Nat) : amounts need [] = [] := rfl

@[simp] theorem amounts_zero (caps : List Nat) : amounts 0 caps = [] := by
  cases caps <;> rfl

theorem amounts_cons {need : Nat} (h : need ≠ 0) (cap : Nat) (caps : List Nat) :
    amounts need (cap :: caps) = min need cap :: amounts (need - cap) caps := by
  rw [amounts, if_neg h]

/-- Greedy allocation meets the demand, or takes all there is. -/
theorem amounts_sum (need : Nat) (caps : List Nat) :
    (amounts need caps).sum = min need caps.sum := by
  induction caps generalizing need with
  | nil => simp
  | cons cap caps ih =>
      by_cases h : need = 0
      · simp [h]
      · rw [amounts_cons h, List.sum_cons, ih, List.sum_cons]
        omega

/-- A demand for all that the first suppliers have takes all they have, and nothing else. -/
theorem amounts_sum_append {caps : List Nat} (hpos : ∀ cap ∈ caps, 0 < cap) (rest : List Nat) :
    amounts caps.sum (caps ++ rest) = caps := by
  induction caps with
  | nil => exact amounts_zero rest
  | cons cap caps ih =>
      obtain ⟨hcap, hcaps⟩ := List.forall_mem_cons.mp hpos
      rw [List.sum_cons, List.cons_append, amounts_cons (by omega), Nat.add_sub_cancel_left,
        ih hcaps, Nat.min_eq_right (Nat.le_add_right ..)]

/-- No more suppliers are asked than there are. -/
theorem amounts_length_le (need : Nat) (caps : List Nat) :
    (amounts need caps).length ≤ caps.length := by
  induction caps generalizing need with
  | nil => simp
  | cons cap caps ih =>
      by_cases h : need = 0
      · simp [h]
      · rw [amounts_cons h]
        exact Nat.succ_le_succ (ih _)

section Leftover

variable {β : Type u} {cap : β → Nat} {use : β → Nat → β}

@[simp] theorem leftover_nil (need : Nat) : leftover cap use need [] = [] := rfl

@[simp] theorem leftover_zero (xs : List β) : leftover cap use 0 xs = xs := by
  cases xs <;> rfl

theorem leftover_cons {need : Nat} (h : need ≠ 0) (x : β) (xs : List β) :
    leftover cap use need (x :: xs) =
      if cap x ≤ need then leftover cap use (need - cap x) xs else use x need :: xs := by
  rw [leftover, if_neg h]

/-- Who is left is as before, or something was taken from it. -/
theorem mem_leftover {need : Nat} {xs : List β} {x : β} (h : x ∈ leftover cap use need xs) :
    x ∈ xs ∨ ∃ y ∈ xs, ∃ n, x = use y n := by
  induction xs generalizing need with
  | nil => exact .inl h
  | cons y xs ih =>
      by_cases hneed : need = 0
      · rw [hneed, leftover_zero] at h
        exact .inl h
      rw [leftover_cons hneed] at h
      split at h
      · exact (ih h).imp (List.mem_cons_of_mem y) fun ⟨z, hz, hx⟩ =>
          ⟨z, List.mem_cons_of_mem y hz, hx⟩
      · rcases List.mem_cons.mp h with rfl | hx
        · exact .inr ⟨y, List.mem_cons_self, need, rfl⟩
        · exact .inl (List.mem_cons_of_mem y hx)

/-- **Two demands are served like their sum**, if a supplier from which something was taken is one
with less to give. -/
theorem leftover_add (hcap : ∀ x n, n ≤ cap x → cap (use x n) = cap x - n)
    (huse : ∀ x m n, use (use x m) n = use x (m + n)) (m n : Nat) (xs : List β) :
    leftover cap use n (leftover cap use m xs) = leftover cap use (m + n) xs := by
  induction xs generalizing m with
  | nil => simp
  | cons x xs ih =>
      by_cases hm : m = 0
      · rw [hm, leftover_zero, Nat.zero_add]
      rw [leftover_cons hm, leftover_cons (by omega : m + n ≠ 0)]
      by_cases hall : cap x ≤ m
      · rw [if_pos hall, if_pos (by omega), ih, Nat.sub_add_comm hall]
      rw [if_neg hall]
      by_cases hn : n = 0
      · rw [hn, leftover_zero, Nat.add_zero, if_neg hall]
      -- the supplier that met the first demand serves the second one
      rw [leftover_cons hn, hcap x m (by omega), huse]
      by_cases hrest : cap x ≤ m + n
      · rw [if_pos (by omega), if_pos hrest]
        congr 1
        omega
      · rw [if_neg (by omega), if_neg hrest]

end Leftover

end Greedy
