import Mathlib.Data.List.Basic
import Mathlib.Tactic.Common

/-!
# Library.Ranking

Sorting by a comparison that ranks the elements at hand.

`mergeSort` asks for a comparison that is total and transitive on the whole type. Here it is
enough that the comparison puts the elements of one list into a strict sequence: `Ranks le l`
says that `l` is that sequence, and sorting any permutation of `l` gives `l`.
-/

namespace Ranking

universe u

variable {β : Type u}

/-- The comparison ranks the elements of the list in the order in which it lists them. -/
structure Ranks (le : β → β → Bool) (l : List β) : Prop where
  refl : ∀ x ∈ l, le x x = true
  strict : l.Pairwise fun x y => le x y = true ∧ le y x = false

variable {le : β → β → Bool} {l : List β}

section Position

variable [DecidableEq β]

/-- A ranked list compares its elements by their positions. -/
theorem Ranks.le_eq (h : Ranks le l) {x y : β} (hx : x ∈ l) (hy : y ∈ l) :
    le x y = decide (l.idxOf x ≤ l.idxOf y) := by
  have hi := List.idxOf_lt_length_of_mem hx
  have hj := List.idxOf_lt_length_of_mem hy
  have hstrict := List.pairwise_iff_getElem.mp h.strict
  rcases Nat.lt_trichotomy (l.idxOf x) (l.idxOf y) with hlt | heq | hgt
  · have hle := (hstrict _ _ hi hj hlt).1
    rw [List.getElem_idxOf, List.getElem_idxOf] at hle
    simp [hle, Nat.le_of_lt hlt]
  · obtain rfl := (List.idxOf_inj hx).mp heq
    simp [h.refl x hx]
  · have hle := (hstrict _ _ hj hi hgt).2
    rw [List.getElem_idxOf, List.getElem_idxOf] at hle
    simp [hle, Nat.not_le.mpr hgt]

/-- **Sorting finds the ranked list**, from any order of its elements. -/
theorem Ranks.mergeSort_eq (h : Ranks le l) {l' : List β} (hperm : l'.Perm l) :
    l'.mergeSort le = l := by
  -- on the elements of the list the comparison is that of positions, which is a total order
  let position (x y : β) : Bool := decide (l.idxOf x ≤ l.idxOf y)
  have hmap := List.map_mergeSort (f := id) (l := l') (r := le) (s := position)
    (fun x hx y hy => h.le_eq (hperm.mem_iff.mp hx) (hperm.mem_iff.mp hy))
  rw [List.map_id, List.map_id] at hmap
  have hsorted : (l'.mergeSort position).Pairwise fun x y => position x y = true :=
    List.pairwise_mergeSort
      (fun _ _ _ h₁ h₂ => by simp only [position, decide_eq_true_eq] at *; omega)
      (fun _ _ => by simp only [position, Bool.or_eq_true, decide_eq_true_eq]; omega) l'
  rw [hmap]
  refine List.Perm.eq_of_pairwise ?_ hsorted ?_
    ((List.mergeSort_perm _ _).trans hperm)
  · intro x y hx hy hxy hyx
    rw [List.mem_mergeSort, hperm.mem_iff] at hx
    simp only [position, decide_eq_true_eq] at hxy hyx
    exact (List.idxOf_inj hx).mp (Nat.le_antisymm hxy hyx)
  · refine h.strict.imp_of_mem fun {x y} hx hy hxy => ?_
    exact (h.le_eq hx hy).symm.trans hxy.1

end Position

end Ranking
