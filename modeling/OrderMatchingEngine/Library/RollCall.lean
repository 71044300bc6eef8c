import Mathlib.Data.Finset.Card
import Mathlib.Data.List.Perm.Basic
import Mathlib.Tactic.Common

/-!
# Library.RollCall

Going through a list by index while it changes.

An iterator that keeps an index into a live list gives the member at the index and moves on, until
the index is not below the length. Members join at the end and leave anywhere meanwhile. `called` is
who was given so far.

Nobody is called twice (`Valid.next`). Who leaves after having been called moves the others down,
and one of them past the index: at the end, no more members were missed than members have left after
they were called (`Valid.missed_le`). If none of these has left, everybody was called
(`Valid.complete`).
-/

namespace RollCall

universe u

variable {β : Type u} [DecidableEq β] {members called : List β} {index : Nat} {x : β}

/-- The state of a roll call: nobody is there twice or was called twice, and who was called and is
still there is below the index. -/
structure Valid (members : List β) (index : Nat) (called : List β) : Prop where
  members_nodup : members.Nodup
  called_nodup : called.Nodup
  length : called.length = index
  below : ∀ x ∈ called, x ∈ members → x ∈ members.take index

namespace Valid

omit [DecidableEq β] in
theorem start (h : members.Nodup) : Valid members 0 [] := ⟨h, .nil, rfl, by simp⟩

omit [DecidableEq β] in
/-- **The next one was not called before.** -/
theorem notMem (h : Valid members index called) (hx : members[index]? = some x) :
    x ∉ called := by
  intro hcalled
  obtain ⟨hlt, hget⟩ := List.getElem?_eq_some_iff.mp hx
  have hbelow := h.below x hcalled (hget ▸ List.getElem_mem hlt)
  obtain ⟨i, hi, hxi⟩ := List.mem_take_iff_getElem.mp hbelow
  have heq := (List.Nodup.getElem_inj_iff h.members_nodup).mp (hxi.trans hget.symm)
  omega

omit [DecidableEq β] in
theorem next (h : Valid members index called) (hx : members[index]? = some x) :
    Valid members (index + 1) (called ++ [x]) := by
  obtain ⟨hlt, hget⟩ := List.getElem?_eq_some_iff.mp hx
  refine ⟨h.members_nodup, ?_, ?_, ?_⟩
  · refine List.nodup_append.mpr ⟨h.called_nodup, List.nodup_singleton x, ?_⟩
    rintro y hy z hz rfl
    exact h.notMem hx (List.mem_singleton.mp hz ▸ hy)
  · rw [List.length_append, List.length_singleton, h.length]
  · intro y hy hmem
    rw [List.take_add_one, List.mem_append]
    rcases List.mem_append.mp hy with hy | hy
    · exact .inl (h.below y hy hmem)
    · rw [List.mem_singleton.mp hy, hx]
      exact .inr (by simp)

omit [DecidableEq β] in
theorem join (h : Valid members index called) (hx : x ∉ members) (hnew : x ∉ called) :
    Valid (members ++ [x]) index called := by
  refine ⟨List.nodup_append.mpr ⟨h.members_nodup, List.nodup_singleton x, ?_⟩, h.called_nodup,
    h.length, fun y hy hmem => ?_⟩
  · rintro y hy z hz rfl
    exact hx (List.mem_singleton.mp hz ▸ hy)
  · rcases List.mem_append.mp hmem with hmem | hmem
    · rw [List.take_append]
      exact List.mem_append_left _ (h.below y hy hmem)
    · exact absurd (List.mem_singleton.mp hmem ▸ hy) hnew

theorem leave (h : Valid members index called) (x : β) : Valid (members.erase x) index called := by
  refine ⟨h.members_nodup.erase x, h.called_nodup, h.length, fun y hy hmem => ?_⟩
  obtain ⟨hne, hmem⟩ := h.members_nodup.mem_erase_iff.mp hmem
  have hbelow := h.below y hy hmem
  have hlen : (members.take index).length ≤ index := List.length_take_le index members
  rw [← List.take_append_drop index members]
  by_cases hx : x ∈ members.take index
  · rw [List.erase_append_left _ hx, List.take_append, List.take_of_length_le]
    · exact List.mem_append_left _ ((List.mem_erase_of_ne hne).mpr hbelow)
    · exact List.length_erase_le.trans hlen
  · rw [List.erase_append_right _ hx, List.take_append, List.take_of_length_le hlen]
    exact List.mem_append_left _ hbelow

/-- **Who was missed**: no more than have left after they were called. -/
theorem missed_le (h : Valid members index called) (hend : members.length ≤ index) :
    (members.filter fun x => x ∉ called).length ≤ (called.filter fun x => x ∉ members).length := by
  have hboth : (members.filter fun x => x ∈ called).length =
      (called.filter fun x => x ∈ members).length := by
    refine ((List.perm_ext_iff_of_nodup (h.members_nodup.filter _)
      (h.called_nodup.filter _)).mpr fun x => ?_).length_eq
    simp [and_comm]
  have hmembers := members.length_eq_length_filter_add fun x => decide (x ∈ called)
  have hcalled := called.length_eq_length_filter_add fun x => decide (x ∈ members)
  rw [h.length] at hcalled
  simp only [← decide_not] at hmembers hcalled
  omega

/-- **Everybody was called** if nobody who was has left. -/
theorem complete (h : Valid members index called) (hend : members.length ≤ index)
    (hstay : ∀ x ∈ called, x ∈ members) : ∀ x ∈ members, x ∈ called := by
  have hleft : (called.filter fun x => x ∉ members) = [] :=
    List.filter_eq_nil_iff.mpr fun x hx => by simpa using hstay x hx
  have hmissed := h.missed_le hend
  rw [hleft, List.length_nil, Nat.le_zero, List.length_eq_zero_iff] at hmissed
  intro x hx
  have hcalled := List.filter_eq_nil_iff.mp hmissed x hx
  simpa using hcalled

end Valid

end RollCall
