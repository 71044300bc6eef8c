import Mathlib.Data.List.Basic
import OrderMatchingEngine.Library.Loop

/-!
# Library.ShortReads

Reads that may give less than they were asked for.

A read gives something as long as the stream is not at its end, and no more than it was asked for
(`read_spec`); it may also raise. A loop that reads on until there is enough ends with as much, or
with all that is left of the stream (`fill_spec`).
-/

universe u

open FuelLoop (Iter)

/-- A stream that is read: what is still to come, and how often it was read. -/
structure Source (β : Type u) where
  coming : List β
  reads : Nat := 0
  deriving DecidableEq, Repr

namespace Source

variable {β : Type u}

/-- Read at most `n` elements. The stream gives at most `gives k` of them in its `k`-th read, or
the read raises. -/
def read (gives : Nat → Option Nat) (n : Nat) (s : Source β) : Option (List β × Source β) :=
  (gives s.reads).map fun most =>
    let size := min n (max 1 most)
    (s.coming.take size, { coming := s.coming.drop size, reads := s.reads + 1 })

/-- Why a loop did not return. -/
inductive Failure
  | raised
  | hangs
  deriving DecidableEq, Repr

/-- One pass of a loop that reads until it has `n` elements or the stream is at its end. -/
def fillBody (gives : Nat → Option Nat) (n : Nat) (x : List β × Source β) :
    Except Failure (Iter (List β × Source β)) :=
  if x.1.length < n then
    match x.2.read gives (n - x.1.length) with
    | none => .error .raised
    | some (chunk, s) =>
      if chunk.isEmpty then .ok (.done (x.1, s)) else .ok (.next (x.1 ++ chunk, s))
  else .ok (.done x)

/-- The loop. -/
def fill (gives : Nat → Option Nat) (n : Nat) (s : Source β) :
    Except Failure (List β × Source β) :=
  FuelLoop.run .hangs (fillBody gives n) (n + 1) ([], s)

variable {gives : Nat → Option Nat} {n : Nat} {s s' : Source β} {got : List β}

/-- **A read** takes a front of the stream off it: no more than it was asked for, and something
where there is something. -/
theorem read_spec (h : s.read gives n = some (got, s')) :
    got ++ s'.coming = s.coming ∧ got.length ≤ n ∧ (0 < n → got = [] → s.coming = []) := by
  obtain ⟨most, -, hread⟩ := Option.map_eq_some_iff.mp h
  obtain ⟨rfl, rfl⟩ := Prod.mk.inj hread
  refine ⟨List.take_append_drop _ _, ?_, fun hn hnil => ?_⟩
  · rw [List.length_take]
    omega
  · rcases List.take_eq_nil_iff.mp hnil with hzero | hnone
    · omega
    · exact hnone

/-- A read gives all that it was asked for if this much is there and given. -/
theorem read_whole {most : Nat} (hgives : gives s.reads = some most) (hmost : n ≤ most)
    (hn : 0 < n) : s.read gives n = some (s.coming.take n, ⟨s.coming.drop n, s.reads + 1⟩) := by
  have hsize : min n (max 1 most) = n := by omega
  rw [read, hgives, Option.map_some, hsize]

/-- What the loop has and what is still to come. -/
theorem fillBody_next {x y : List β × Source β} (h : fillBody gives n x = .ok (.next y)) :
    y.1 ++ y.2.coming = x.1 ++ x.2.coming ∧ y.1.length ≤ n ∧ x.1.length < y.1.length := by
  unfold fillBody at h
  split at h
  · rename_i hshort
    split at h
    · simp at h
    · rename_i chunk s₁ hread
      obtain ⟨hcoming, hlen, -⟩ := read_spec hread
      split at h
      · simp at h
      · rename_i hsome
        obtain rfl := Iter.next.inj (Except.ok.inj h)
        have hpos := List.length_pos_iff.mpr (mt List.isEmpty_iff.mpr hsome)
        refine ⟨?_, ?_, ?_⟩
        · rw [List.append_assoc, hcoming]
        · rw [List.length_append]
          omega
        · rw [List.length_append]
          omega
  · simp at h

/-- The loop ends with as much as it wants, or at the end of the stream. -/
theorem fillBody_done {x y : List β × Source β} (h : fillBody gives n x = .ok (.done y)) :
    y.1 = x.1 ∧ y.2.coming = x.2.coming ∧ (y.1.length < n → y.2.coming = []) := by
  unfold fillBody at h
  split at h
  · rename_i hshort
    split at h
    · simp at h
    · rename_i chunk s₁ hread
      obtain ⟨hcoming, -, hnil⟩ := read_spec hread
      split at h
      · rename_i hnone
        obtain rfl := Iter.done.inj (Except.ok.inj h)
        have hchunk := List.isEmpty_iff.mp hnone
        have hend := hnil (Nat.sub_pos_of_lt hshort) hchunk
        rw [hchunk, List.nil_append] at hcoming
        exact ⟨rfl, hcoming, fun _ => hcoming.trans hend⟩
      · simp at h
  · rename_i hlong
    obtain rfl := Iter.done.inj (Except.ok.inj h)
    exact ⟨rfl, rfl, fun hshort => absurd hshort hlong⟩

/-- **The loop** raises, or takes off the stream as much as it wants, or all of it. -/
theorem fill_spec (gives : Nat → Option Nat) (n : Nat) (s : Source β) :
    s.fill gives n = .error .raised ∨
      ∃ got s', s.fill gives n = .ok (got, s') ∧ got ++ s'.coming = s.coming ∧
        got.length ≤ n ∧ (got.length < n → s'.coming = []) := by
  have hnext : ∀ x y : List β × Source β, x.1 ++ x.2.coming = s.coming ∧ x.1.length ≤ n →
      fillBody gives n x = .ok (.next y) → y.1 ++ y.2.coming = s.coming ∧ y.1.length ≤ n := by
    rintro x y ⟨hcoming, -⟩ hy
    obtain ⟨hsame, hlen, -⟩ := fillBody_next hy
    exact ⟨hsame.trans hcoming, hlen⟩
  have hstart : ([] : List β) ++ s.coming = s.coming ∧ ([] : List β).length ≤ n :=
    ⟨rfl, Nat.zero_le n⟩
  rcases hfill : s.fill gives n with e | ⟨got, s'⟩
  · cases e with
    | raised => exact .inl rfl
    | hangs =>
        refine absurd hfill (FuelLoop.run_ne_stuck (fun x : List β × Source β => x.1.length ≤ n)
          (fun x => n - x.1.length) (fun x => ?_) (fun x y hx hy => ?_) (Nat.zero_le n) ?_)
        · unfold fillBody
          split
          · split
            · simp
            · split <;> simp
          · simp
        · obtain ⟨-, hlen, hlt⟩ := fillBody_next hy
          exact ⟨hlen, by omega⟩
        · exact Nat.lt_succ_of_le (Nat.sub_le n _)
  · obtain ⟨x, ⟨hcoming, hlen⟩, hdone⟩ := FuelLoop.run_invariant
      (fun x : List β × Source β => x.1 ++ x.2.coming = s.coming ∧ x.1.length ≤ n) hnext hstart
      hfill
    obtain ⟨hgot, hrest, hend⟩ : got = x.1 ∧ s'.coming = x.2.coming ∧
      (got.length < n → s'.coming = []) := fillBody_done hdone
    exact .inr ⟨got, s', rfl, by rw [hgot, hrest, hcoming], hgot ▸ hlen, hend⟩

/-- The loop raises only where a read does. -/
theorem fill_ne_raised (hgives : ∀ k, (gives k).isSome = true) (n : Nat) (s : Source β) :
    s.fill gives n ≠ .error .raised := by
  intro h
  rcases FuelLoop.run_error h with hstuck | ⟨x, hbody⟩
  · exact Failure.noConfusion hstuck
  · unfold fillBody at hbody
    split at hbody
    · split at hbody
      · rename_i hread
        have hsome := hgives x.2.reads
        rw [Option.map_eq_none_iff.mp hread] at hsome
        exact Bool.noConfusion hsome
      · split at hbody <;> simp at hbody
    · simp at hbody

end Source
