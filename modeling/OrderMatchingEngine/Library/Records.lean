import Mathlib.Tactic.Common
import OrderMatchingEngine.Library.Loop

/-!
# Library.Records

Files of records of one fixed size.

A `Packed β n` is a record of `n` units of `β`. A file is a list of units: records are appended
to it as they are, and `read?` takes the next one from its front, or reports a short read.

`run_reader` is the rule for a loop that reads a file to its end: on a file that holds whole
records, and after them fewer units than a record has, the loop folds its body over the records.
-/

namespace Records

universe u v w

/-- A record of exactly `n` units. -/
structure Packed (β : Type u) (n : Nat) where
  units : List β
  size : units.length = n
  deriving DecidableEq, Repr

variable {β : Type u} {n : Nat}

/-- What records leave in a file when they are written one after the other. -/
def written (recs : List (Packed β n)) : List β := recs.flatMap Packed.units

@[simp] theorem written_nil : written ([] : List (Packed β n)) = [] := rfl

@[simp] theorem written_cons (r : Packed β n) (recs : List (Packed β n)) :
    written (r :: recs) = r.units ++ written recs := rfl

theorem written_append (recs recs' : List (Packed β n)) :
    written (recs ++ recs') = written recs ++ written recs' := List.flatMap_append

theorem length_written (recs : List (Packed β n)) : (written recs).length = recs.length * n := by
  induction recs with
  | nil => simp
  | cons r recs ih => rw [written_cons, List.length_append, r.size, ih, List.length_cons,
      Nat.succ_mul, Nat.add_comm]

/-- Read the next record; `none` is a short read. -/
def read? (n : Nat) (file : List β) : Option (Packed β n × List β) :=
  if h : n ≤ file.length then
    some (⟨file.take n, List.length_take_of_le h⟩, file.drop n)
  else none

/-- What was written is read back. -/
theorem read?_append (r : Packed β n) (rest : List β) :
    read? n (r.units ++ rest) = some (r, rest) := by
  obtain ⟨units, rfl⟩ := r
  simp [read?]

theorem read?_short {file : List β} (h : file.length < n) : read? n file = none :=
  dif_neg (Nat.not_le_of_lt h)

section Reader

open FuelLoop (Iter)

variable {ε : Type v} {σ : Type w}

/-- One pass of a loop that reads records until a read is short. -/
def reader (body : Packed β n → σ → Except ε σ) (x : List β × σ) : Except ε (Iter (List β × σ)) :=
  match read? n x.1 with
  | none => .ok (.done x)
  | some (r, rest) => (body r x.2).map fun s => .next (rest, s)

/-- The body made for each of the records. -/
def forEach (body : Packed β n → σ → Except ε σ) : List (Packed β n) → σ → Except ε σ
  | [], s => .ok s
  | r :: recs, s =>
    match body r s with
    | .error e => .error e
    | .ok s' => forEach body recs s'

theorem forEach_append {body : Packed β n → σ → Except ε σ} {recs recs' : List (Packed β n)}
    {s s' : σ} (h : forEach body recs s = .ok s') :
    forEach body (recs ++ recs') s = forEach body recs' s' := by
  induction recs generalizing s with
  | nil =>
      obtain rfl := Except.ok.inj h
      rfl
  | cons r recs ih =>
      unfold forEach at h
      rw [List.cons_append, forEach]
      split at h
      · simp at h
      · exact ih h

theorem forEach_append_error {body : Packed β n → σ → Except ε σ} {recs recs' : List (Packed β n)}
    {s : σ} {e : ε} (h : forEach body recs s = .error e) :
    forEach body (recs ++ recs') s = .error e := by
  induction recs generalizing s with
  | nil => simp [forEach] at h
  | cons r recs ih =>
      unfold forEach at h
      rw [List.cons_append, forEach]
      split at h
      · exact h
      · exact ih h

/-- A body that succeeds wherever another does, with the same result, does so for a whole
file. -/
theorem forEach_mono {body body' : Packed β n → σ → Except ε σ}
    (himp : ∀ r s s', body r s = .ok s' → body' r s = .ok s') {recs : List (Packed β n)} {s s' : σ}
    (h : forEach body recs s = .ok s') : forEach body' recs s = .ok s' := by
  induction recs generalizing s with
  | nil => exact h
  | cons r recs ih =>
      unfold forEach at h ⊢
      split at h
      · simp at h
      · rename_i s₁ hs
        rw [himp _ _ _ hs]
        exact ih h

/-- **Reader rule.** The loop makes its body for each whole record and stops at the rest. -/
theorem run_reader {stuck : ε} {body : Packed β n → σ → Except ε σ} {recs : List (Packed β n)}
    {tail : List β} (htail : tail.length < n) {bound : Nat} (hbound : recs.length < bound) (s : σ) :
    FuelLoop.run stuck (reader body) bound (written recs ++ tail, s) =
      (forEach body recs s).map fun s' => (tail, s') := by
  induction recs generalizing bound s with
  | nil =>
      obtain ⟨bound, rfl⟩ : ∃ b, bound = b + 1 := ⟨bound - 1, by simp at hbound; omega⟩
      refine FuelLoop.run_done ?_
      rw [written_nil, List.nil_append, reader, read?_short htail]
  | cons r recs ih =>
      obtain ⟨bound, rfl⟩ : ∃ b, bound = b + 1 := ⟨bound - 1, by simp at hbound; omega⟩
      have hread : read? n (written (r :: recs) ++ tail) = some (r, written recs ++ tail) := by
        rw [written_cons, List.append_assoc, read?_append]
      unfold forEach
      rcases hb : body r s with e | s'
      · have hpass : reader body (written (r :: recs) ++ tail, s) = .error e := by
          simp only [reader, hread, hb, Except.map]
        simp only [FuelLoop.run, hpass, Except.map]
      · have hpass : reader body (written (r :: recs) ++ tail, s) =
            .ok (.next (written recs ++ tail, s')) := by
          simp only [reader, hread, hb, Except.map]
        rw [FuelLoop.run_next hpass]
        exact ih (by simp at hbound; omega) s'

end Reader

end Records
