import Mathlib.Algebra.Order.Ring.Nat
import OrderMatchingEngine.Library.Loop

/-!
# Library.Framing

Streams that are cut into frames.

A `Framing` says how long the frame at the front of a buffer is, as soon as the whole frame is
there. The frames of a buffer and the rest behind them follow; and it does not matter in which
pieces a buffer was filled (`frames_append`, `rest_append`).

`run_receiver` is the rule for a loop that takes frames off a buffer in its state: the loop folds
its handler over the frames of the buffer and leaves the rest.
-/

universe u v w

/-- The size of the frame at the front of a buffer, which later input does not change. -/
structure Framing (β : Type u) where
  size : List β → Option Nat
  pos : ∀ {buf n}, size buf = some n → 0 < n
  le : ∀ {buf n}, size buf = some n → n ≤ buf.length
  stable : ∀ {buf n}, size buf = some n → ∀ more, size (buf ++ more) = some n
  self : ∀ {buf n}, size buf = some n → size (buf.take n) = some n

namespace Framing

variable {β : Type u} (F : Framing β)

/-- Take at most `k` frames off a buffer. -/
def split : Nat → List β → List (List β) × List β
  | 0, buf => ([], buf)
  | k + 1, buf =>
    match F.size buf with
    | none => ([], buf)
    | some n =>
      let (frames, rest) := split k (buf.drop n)
      (buf.take n :: frames, rest)

/-- The frames of a buffer. -/
def frames (buf : List β) : List (List β) := (F.split buf.length buf).1

/-- What is behind the last frame. -/
def rest (buf : List β) : List β := (F.split buf.length buf).2

variable {F} {buf : List β} {n : Nat}

theorem length_drop_lt (h : F.size buf = some n) : (buf.drop n).length < buf.length := by
  have hpos := F.pos h
  have hle := F.le h
  rw [List.length_drop]
  omega

theorem split_none (h : F.size buf = none) (k : Nat) : F.split k buf = ([], buf) := by
  cases k with
  | zero => rfl
  | succ k => simp only [split, h]

/-- The length of a buffer bounds its frames. -/
theorem split_eq {k : Nat} (hk : buf.length ≤ k) : F.split k buf = (F.frames buf, F.rest buf) := by
  suffices h : ∀ j, buf.length ≤ j → F.split k buf = F.split j buf from h _ (Nat.le_refl _)
  induction k generalizing buf with
  | zero =>
      intro j _
      have hnil : F.size buf = none := by
        by_contra hne
        obtain ⟨n, hn⟩ := Option.ne_none_iff_exists'.mp hne
        have hlt := length_drop_lt hn
        omega
      rw [split_none hnil, split_none hnil]
  | succ k ih =>
      intro j hj
      rcases hsize : F.size buf with _ | n
      · rw [split_none hsize, split_none hsize]
      · have hlt := length_drop_lt hsize
        obtain ⟨j, rfl⟩ : ∃ j', j = j' + 1 := ⟨j - 1, by omega⟩
        simp only [split, hsize]
        rw [ih (by omega) j (by omega)]

theorem frames_none (h : F.size buf = none) : F.frames buf = [] := by
  rw [frames, split_none h]

theorem rest_none (h : F.size buf = none) : F.rest buf = buf := by
  rw [rest, split_none h]

theorem split_some (h : F.size buf = some n) :
    F.frames buf = buf.take n :: F.frames (buf.drop n) ∧ F.rest buf = F.rest (buf.drop n) := by
  have hlt := length_drop_lt h
  obtain ⟨k, hk⟩ : ∃ k, buf.length = k + 1 := ⟨buf.length - 1, by omega⟩
  rw [frames, rest, hk]
  simp only [split, h]
  rw [split_eq (by omega)]
  exact ⟨rfl, rfl⟩

/-- **Induction on frames**: what holds of a buffer without a frame, and of a buffer if it holds of
what is behind its first frame, holds of every buffer. -/
theorem induct {P : List β → Prop} (hnone : ∀ buf, F.size buf = none → P buf)
    (hsome : ∀ buf n, F.size buf = some n → P (buf.drop n) → P buf) (buf : List β) : P buf := by
  induction hlen : buf.length using Nat.strongRecOn generalizing buf with
  | ind len ih =>
      rcases hsize : F.size buf with _ | n
      · exact hnone buf hsize
      · exact hsome buf n hsize (ih _ (hlen ▸ length_drop_lt hsize) _ rfl)

variable (F)

/-- The frames and the rest are the buffer. -/
theorem flatten_frames (buf : List β) : (F.frames buf).flatten ++ F.rest buf = buf := by
  induction buf using F.induct with
  | hnone buf h => rw [frames_none h, rest_none h, List.flatten_nil, List.nil_append]
  | hsome buf n h ih =>
      obtain ⟨hframes, hrest⟩ := split_some h
      rw [hframes, hrest, List.flatten_cons, List.append_assoc, ih, List.take_append_drop]

/-- The rest does not start with a frame. -/
theorem size_rest (buf : List β) : F.size (F.rest buf) = none := by
  induction buf using F.induct with
  | hnone buf h => rw [rest_none h, h]
  | hsome buf n h ih => rw [(split_some h).2, ih]

/-- Each frame is one. -/
theorem size_frame {buf frame : List β} (h : frame ∈ F.frames buf) :
    F.size frame = some frame.length := by
  induction buf using F.induct with
  | hnone buf hsize => simp [frames_none hsize] at h
  | hsome buf n hsize ih =>
      rw [(split_some hsize).1, List.mem_cons] at h
      rcases h with rfl | h
      · rw [F.self hsize, List.length_take_of_le (F.le hsize)]
      · exact ih h

/-- **Later input** adds the frames that it completes. -/
theorem frames_append (buf more : List β) :
    F.frames (buf ++ more) = F.frames buf ++ F.frames (F.rest buf ++ more) := by
  induction buf using F.induct with
  | hnone buf h => rw [frames_none h, rest_none h, List.nil_append]
  | hsome buf n h ih =>
      obtain ⟨hframes, hrest⟩ := split_some h
      rw [(split_some (F.stable h more)).1, List.take_append_of_le_length (F.le h),
        List.drop_append_of_le_length (F.le h), ih, hframes, hrest, List.cons_append]

theorem rest_append (buf more : List β) : F.rest (buf ++ more) = F.rest (F.rest buf ++ more) := by
  induction buf using F.induct with
  | hnone buf h => rw [rest_none h]
  | hsome buf n h ih =>
      rw [(split_some (F.stable h more)).2, List.drop_append_of_le_length (F.le h), ih,
        (split_some h).2]

/-- A stream that can be cut into frames and a rest without a frame is cut like that. -/
theorem frames_unique {frames : List (List β)} {tail : List β}
    (hframes : ∀ frame ∈ frames, F.size frame = some frame.length) (htail : F.size tail = none) :
    F.frames (frames.flatten ++ tail) = frames ∧ F.rest (frames.flatten ++ tail) = tail := by
  induction frames with
  | nil => exact ⟨frames_none htail, rest_none htail⟩
  | cons frame frames ih =>
      obtain ⟨hframe, hframes⟩ := List.forall_mem_cons.mp hframes
      obtain ⟨hih, hih'⟩ := ih hframes
      have hsize := F.stable hframe (frames.flatten ++ tail)
      obtain ⟨hcons, hrest⟩ := split_some hsize
      rw [List.flatten_cons, List.append_assoc, hcons, hrest, List.take_left, List.drop_left, hih,
        hih']
      exact ⟨rfl, rfl⟩

section Arrived

variable {α : Type v} (size : α → Nat)

/-- The first of these frames, as far as they are within the first `n` units of their stream. -/
def arrived : Nat → List α → List α
  | _, [] => []
  | n, a :: as => if size a ≤ n then a :: arrived (n - size a) as else []

variable {size}

/-- The frames that have arrived are those in front of one of which something is missing. -/
theorem arrived_append {front rest : List α} {k : Nat} (hrest : ∀ a ∈ rest.head?, k < size a) :
    arrived size ((front.map size).sum + k) (front ++ rest) = front := by
  induction front with
  | nil =>
      cases rest with
      | nil => rfl
      | cons a rest =>
          have hlt : k < size a := hrest a rfl
          rw [List.nil_append, arrived, if_neg (by simpa using hlt)]
  | cons a front ih =>
      rw [List.map_cons, List.sum_cons, List.cons_append, arrived, if_pos (by omega)]
      rw [show size a + (front.map size).sum + k - size a = (front.map size).sum + k by omega, ih]

theorem arrived_map {γ : Type w} (f : γ → α) (n : Nat) (cs : List γ) :
    arrived size n (cs.map f) = (arrived (fun c => size (f c)) n cs).map f := by
  induction cs generalizing n with
  | nil => rfl
  | cons c cs ih =>
      rw [List.map_cons, arrived, arrived, ih]
      split <;> rfl

theorem arrived_front (n : Nat) (as : List α) : arrived size n as <+: as := by
  induction as generalizing n with
  | nil => exact List.nil_prefix
  | cons a as ih =>
      rw [arrived]
      split
      · exact (List.prefix_cons_inj a).mpr (ih _)
      · exact List.nil_prefix

theorem arrived_all {n : Nat} {as : List α} (h : n = (as.map size).sum) :
    arrived size n as = as := by
  have hnone : ∀ a ∈ ([] : List α).head?, 0 < size a := fun _ ha => nomatch ha
  have happend : arrived size ((as.map size).sum + 0) (as ++ []) = as := arrived_append hnone
  rwa [List.append_nil, Nat.add_zero, ← h] at happend

end Arrived

/-! ### Loops that take frames off a buffer -/

section Receiver

open FuelLoop (Iter)

variable {ε : Type v} {σ : Type w} (buffer : σ → List β) (setBuffer : List β → σ → σ)
  (handle : List β → σ → Except ε σ)

/-- Handle a frame, then erase it from the buffer. -/
def consume (s : σ) (frame : List β) : Except ε σ :=
  (handle frame s).map fun s' => setBuffer ((buffer s').drop frame.length) s'

/-- One pass of a loop that takes frames off the buffer until there is none. -/
def receiver (s : σ) : Except ε (Iter σ) :=
  match F.size (buffer s) with
  | none => .ok (.done s)
  | some n => (consume buffer setBuffer handle s ((buffer s).take n)).map .next

variable {buffer setBuffer handle}

theorem buffer_consume (hset : ∀ b s, buffer (setBuffer b s) = b)
    (hkeep : ∀ frame s s', handle frame s = .ok s' → buffer s' = buffer s) {s s' : σ}
    {frame : List β} (h : consume buffer setBuffer handle s frame = .ok s') :
    buffer s' = (buffer s).drop frame.length := by
  obtain ⟨s₁, hs₁, rfl⟩ := FuelLoop.map_eq_ok.mp h
  rw [hset, hkeep frame s s₁ hs₁]

/-- **Receiver rule.** A loop whose handler leaves the buffer alone folds it over the frames, under
every bound above the length of the buffer. -/
theorem run_receiver (hset : ∀ b s, buffer (setBuffer b s) = b)
    (hkeep : ∀ frame s s', handle frame s = .ok s' → buffer s' = buffer s) {stuck : ε} {s : σ}
    {bound : Nat} (hbound : (buffer s).length < bound) :
    FuelLoop.run stuck (F.receiver buffer setBuffer handle) bound s =
      (F.frames (buffer s)).foldlM (consume buffer setBuffer handle) s := by
  induction hbuf : buffer s using F.induct generalizing s bound with
  | hnone buf h =>
      subst hbuf
      obtain ⟨bound, rfl⟩ : ∃ b, bound = b + 1 := ⟨bound - 1, by omega⟩
      rw [frames_none h]
      exact FuelLoop.run_done (by rw [receiver, h])
  | hsome buf n h ih =>
      subst hbuf
      obtain ⟨bound, rfl⟩ : ∃ b, bound = b + 1 := ⟨bound - 1, by omega⟩
      rw [(split_some h).1, List.foldlM_cons]
      rcases hc : consume buffer setBuffer handle s ((buffer s).take n) with e | s'
      · have hpass : F.receiver buffer setBuffer handle s = .error e := by
          simp only [receiver, h, hc, Except.map]
        simp only [FuelLoop.run, hpass]
        rfl
      · have hpass : F.receiver buffer setBuffer handle s = .ok (.next s') := by
          simp only [receiver, h, hc, Except.map]
        have hbuf' := buffer_consume hset hkeep hc
        rw [List.length_take_of_le (F.le h)] at hbuf'
        have hlt := length_drop_lt h
        rw [FuelLoop.run_next hpass, ih (by rw [hbuf']; omega) hbuf']
        rfl

/-- Folding the handler over the frames leaves the rest. -/
theorem buffer_foldlM (hset : ∀ b s, buffer (setBuffer b s) = b)
    (hkeep : ∀ frame s s', handle frame s = .ok s' → buffer s' = buffer s) {s s' : σ}
    (h : (F.frames (buffer s)).foldlM (consume buffer setBuffer handle) s = .ok s') :
    buffer s' = F.rest (buffer s) := by
  induction hbuf : buffer s using F.induct generalizing s with
  | hnone buf hsize =>
      subst hbuf
      rw [frames_none hsize] at h
      obtain rfl := Except.ok.inj h
      rw [rest_none hsize]
  | hsome buf n hsize ih =>
      subst hbuf
      rw [(split_some hsize).1, List.foldlM_cons] at h
      rcases hc : consume buffer setBuffer handle s ((buffer s).take n) with e | s₁
      · simp [hc, bind, Except.bind] at h
      · have hbuf' := buffer_consume hset hkeep hc
        rw [List.length_take_of_le (F.le hsize)] at hbuf'
        rw [hc] at h
        rw [(split_some hsize).2]
        exact ih (by rw [hbuf']; exact h) hbuf'

end Receiver

end Framing
