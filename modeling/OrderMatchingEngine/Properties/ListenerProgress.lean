import OrderMatchingEngine.Refinement.Listening

/-!
# OrderMatchingEngine.Properties.ListenerProgress

Does the inner loop of `tcp_listener_loop` end on any bytes?

A message is as long as its header says, and the listener does not compare that with the header
itself, as `onMessage` of the engine does. So a pass over a header that says less than five takes
less than the header off the buffer, and one over a header that says zero takes nothing. Whether
there is such a header can be told from the buffer (`listener_progress`). The example is a buffer
that the engine itself fills: a log-in response that was cut, and a report behind it.
-/

namespace OrderMatchingEngine

open GatewayService
open FuelLoop (Passes)

namespace GatewayService

variable (raises : HandlerCall → Bool)

/-- The inner loop ends, and each pass that does not leave it takes at least a header off the
buffer. -/
def Progresses (l₀ : Listener) : Prop :=
  (∃ bound, FuelLoop.run .hangs (listenerBody raises) bound l₀ ≠ .error .hangs) ∧
  ∀ l l', Passes (listenerBody raises) l₀ l → listenerBody raises l = .ok (.next l') →
    l'.buffer.length + 5 ≤ l.buffer.length

/-- A header that does not count itself, and no handler that raises on the payload, which is then
empty. -/
def Undersized (buffer : List UInt8) : Prop :=
  5 ≤ buffer.length ∧ headerMsgLen buffer < 5 ∧
    (handlerCall? (headerType buffer).toNat []).any raises = false

/-- A message that the listener takes as a whole, if it comes to it. -/
def Handled (p : List UInt8) : Prop := Sized p ∧ (frontCall p).any raises = false

variable {raises} {l₀ l : Listener}

theorem frontCall_short {buffer : List UInt8} (h : headerMsgLen buffer ≤ 5) :
    frontCall buffer = handlerCall? (headerType buffer).toNat [] := by
  rw [frontCall, List.drop_eq_nil_of_le]
  rw [List.length_take]
  exact Nat.le_trans (Nat.min_le_left _ _) h

/-- A pass that goes on goes on behind the message at the front. -/
theorem listenerBody_next {l' : Listener} (h : listenerBody raises l = .ok (.next l')) :
    HasMessage l.buffer ∧ (frontCall l.buffer).any raises = false ∧ l' = l.advance := by
  rcases listenerBody_cases raises l with
    ⟨-, hdone⟩ | ⟨-, -, hraised⟩ | ⟨hmessage, hreturns, hnext⟩
  · rw [hdone] at h
    cases h
  · rw [hraised] at h
    cases h
  · rw [hnext] at h
    cases h
    exact ⟨hmessage, hreturns, rfl⟩

theorem listenerBody_ne_hangs (l : Listener) : listenerBody raises l ≠ .error .hangs := by
  rcases listenerBody_cases raises l with ⟨-, h⟩ | ⟨-, -, h⟩ | ⟨-, -, h⟩ <;> rw [h] <;> exact nofun

theorem listenerBody_advance (hmessage : HasMessage l.buffer)
    (hreturns : (frontCall l.buffer).any raises = false) :
    listenerBody raises l = .ok (.next l.advance) := by
  rcases listenerBody_cases raises l with ⟨hwaits, -⟩ | ⟨-, hraises, -⟩ | ⟨-, -, hnext⟩
  · exact absurd hmessage hwaits
  · exact Bool.noConfusion (hraises.symm.trans hreturns)
  · exact hnext

/-- **A header that says zero** is read again and again. -/
theorem listener_hangs (hheader : 5 ≤ l.buffer.length) (hzero : headerMsgLen l.buffer = 0)
    (hreturns : (handlerCall? (headerType l.buffer).toNat []).any raises = false) (bound : Nat) :
    FuelLoop.run .hangs (listenerBody raises) bound l = .error .hangs := by
  refine FuelLoop.run_diverges (fun s => s.buffer = l.buffer) (fun s hs => ?_) bound rfl
  rw [← hs] at hheader hzero hreturns
  rw [← frontCall_short (by omega)] at hreturns
  refine ⟨_, listenerBody_advance ⟨hheader, by omega⟩ hreturns, ?_⟩
  rw [← hs, Listener.advance, hzero, List.drop_zero]

theorem listenerBody_handled {p behind : List UInt8} (hp : Handled raises p)
    (hbuffer : l.buffer = p ++ behind) :
    listenerBody raises l = .ok (.next l.advance) ∧ l.advance.buffer = behind := by
  refine ⟨listenerBody_advance ?_ ?_, by rw [advance_of_sized hp.1 hbuffer]⟩
  · rw [hbuffer]
    exact hasMessage_append hp.1 behind
  · rw [hbuffer, frontCall_append hp.1, hp.2]

/-- **Messages that are handled** are passed over. -/
theorem passes_handled {frames : List (List UInt8)} {rest : List UInt8}
    (hframes : ∀ p ∈ frames, Handled raises p) (hbuffer : l₀.buffer = frames.flatten ++ rest) :
    ∃ l, Passes (listenerBody raises) l₀ l ∧ l.buffer = rest := by
  induction frames using List.reverseRecOn generalizing rest with
  | nil => exact ⟨l₀, .start, hbuffer⟩
  | append_singleton frames p ih =>
      obtain ⟨hframes, hp⟩ := List.forall_mem_append.mp hframes
      rw [List.flatten_append, List.flatten_singleton, List.append_assoc] at hbuffer
      obtain ⟨l, hl, hrest⟩ := ih hframes hbuffer
      obtain ⟨hnext, hadvance⟩ := listenerBody_handled (hp p List.mem_cons_self) hrest
      exact ⟨l.advance, hl.next hnext, hadvance⟩

/-- Only messages that are handled have been taken off the buffer. -/
def Passed (raises : HandlerCall → Bool) (l₀ l : Listener) : Prop :=
  ∃ frames : List (List UInt8), (∀ p ∈ frames, Handled raises p) ∧
    l₀.buffer = frames.flatten ++ l.buffer

/-- **One pass**, if no header on its way is undersized: it takes the header at least. -/
theorem Passed.next (hsized : ∀ l, Passed raises l₀ l → ¬ Undersized raises l.buffer)
    (h : Passed raises l₀ l) {l' : Listener} (hnext : listenerBody raises l = .ok (.next l')) :
    Passed raises l₀ l' ∧ l'.buffer.length + 5 ≤ l.buffer.length := by
  obtain ⟨hmessage, hreturns, rfl⟩ := listenerBody_next hnext
  have hlen : 5 ≤ headerMsgLen l.buffer := by
    by_contra hlt
    refine hsized l h ⟨hmessage.1, Nat.lt_of_not_le hlt, ?_⟩
    rw [← frontCall_short (by omega), hreturns]
  have htaken : (l.buffer.take (headerMsgLen l.buffer)).length = headerMsgLen l.buffer :=
    List.length_take_of_le hmessage.2
  have hp : Sized (l.buffer.take (headerMsgLen l.buffer)) := by
    rw [Sized, headerMsgLen_take hlen, htaken]
    exact ⟨hlen, rfl⟩
  have hsplit := List.take_append_drop (headerMsgLen l.buffer) l.buffer
  obtain ⟨frames, hframes, hbuffer⟩ := h
  refine ⟨⟨frames ++ [l.buffer.take (headerMsgLen l.buffer)], ?_, ?_⟩, ?_⟩
  · refine List.forall_mem_append.mpr ⟨hframes, List.forall_mem_singleton.mpr ⟨hp, ?_⟩⟩
    rw [← frontCall_append hp (l.buffer.drop (headerMsgLen l.buffer)), hsplit, hreturns]
  · rw [List.flatten_append, List.flatten_singleton, List.append_assoc, Listener.advance, hsplit,
      hbuffer]
  · show (l.buffer.drop (headerMsgLen l.buffer)).length + 5 ≤ l.buffer.length
    have hle := hmessage.2
    rw [List.length_drop]
    omega

end GatewayService

/-- **The listener makes progress** exactly if no header is undersized that stands behind messages
which it handles. -/
theorem listener_progress (raises : HandlerCall → Bool) (l₀ : Listener) :
    Progresses raises l₀ ↔
      ∀ frames rest, l₀.buffer = List.flatten frames ++ rest → (∀ p ∈ frames, Handled raises p) →
        ¬ Undersized raises rest := by
  constructor
  · rintro ⟨-, hprogress⟩ frames rest hbuffer hframes ⟨hheader, hlen, hreturns⟩
    obtain ⟨l, hl, rfl⟩ := passes_handled hframes hbuffer
    have hmessage : HasMessage l.buffer := ⟨hheader, by omega⟩
    rw [← frontCall_short (by omega)] at hreturns
    have htaken : (l.buffer.drop (headerMsgLen l.buffer)).length + 5 ≤ l.buffer.length :=
      hprogress l l.advance hl (listenerBody_advance hmessage hreturns)
    rw [List.length_drop] at htaken
    omega
  · intro hsized
    have hpassed : ∀ l, Passed raises l₀ l → ¬ Undersized raises l.buffer :=
      fun l ⟨frames, hframes, hbuffer⟩ => hsized frames l.buffer hbuffer hframes
    have hstart : Passed raises l₀ l₀ := ⟨[], nofun, rfl⟩
    refine ⟨⟨l₀.buffer.length + 1, ?_⟩, fun l l' hl hnext => ?_⟩
    · refine FuelLoop.run_ne_stuck (Passed raises l₀) (·.buffer.length) listenerBody_ne_hangs ?_
        hstart (Nat.lt_succ_self _)
      intro l l' hl hnext
      obtain ⟨hl', hlt⟩ := hl.next hpassed hnext
      exact ⟨hl', by omega⟩
    · have hl' : Passed raises l₀ l := hl.invariant (Passed raises l₀)
        (fun s s' hs hs' => (hs.next hpassed hs').1) hstart
      exact (hl'.next hpassed hnext).2

/-! ### A buffer that is never left -/

/-- A log-in response. -/
def loginAnswer : Message := .loginResponse { status := 1, message := strncpy [79, 75] 49 }

/-- The report of a new order for ten lots. -/
def tenLotsReport : Message :=
  .executionReport
    { clientOrderId := 1
      userId := 2
      executionId := 3
      symbol := strncpy [65] 9
      side := 0
      price := .num 3
      quantity := 10
      filledQuantity := 0
      status := 0 }

/-- The socket accepts ten bytes of the answer, and then the whole report. -/
def spinningWrites : List (Write UInt8) :=
  [ShortWrites.accepting 10 (loginAnswer.bytes fun _ => 0),
    ShortWrites.accepting 65 (tenLotsReport.bytes fun _ => 0)]

/-- **The listener hangs** on what these writes leave in its buffer: behind the first 56 bytes it
reads a header of type 10 and length 0. -/
theorem listener_spins : (∀ w ∈ spinningWrites, Sized w.packet) ∧
    ∀ raises, ¬ Progresses raises { buffer := TcpServer.outgoing spinningWrites } ∧
      ∀ bound, FuelLoop.run .hangs (listenerBody raises) bound
        { buffer := TcpServer.outgoing spinningWrites } = .error .hangs := by
  refine ⟨by decide, fun raises => ?_⟩
  suffices hangs : ∀ bound, FuelLoop.run .hangs (listenerBody raises) bound
      { buffer := TcpServer.outgoing spinningWrites } = .error .hangs from
    ⟨fun h => h.1.elim fun bound hbound => hbound (hangs bound), hangs⟩
  intro bound
  cases bound with
  | zero => rfl
  | succ bound =>
      rw [FuelLoop.run_next (listenerBody_advance (by decide) rfl)]
      exact listener_hangs (by decide) (by decide) rfl bound

end OrderMatchingEngine
