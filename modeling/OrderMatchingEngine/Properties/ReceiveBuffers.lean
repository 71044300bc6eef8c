import OrderMatchingEngine.Refinement.Messages

/-!
# OrderMatchingEngine.Properties.ReceiveBuffers

How much a receive buffer holds.

What `onMessage` leaves in the buffer of a client is the stream behind its last whole packet. That
is less than a packet, unless it begins with a header of a bad length: `onMessage` reports one and
returns, without taking it off the buffer, so the buffer grows from then on (`onMessage_invalid`).
-/

namespace OrderMatchingEngine

/-- Whole packets, each as long as its header says. -/
def WholePackets (msgs : List (List UInt8)) : Prop :=
  ∀ msgData ∈ msgs,
    5 ≤ msgData.length ∧ msgData.length ≤ 1024 ∧ headerMsgLen msgData = msgData.length

/-- Wherever the stream can be cut behind a packet, no header with a bad length follows. -/
def WellFramed (stream : List UInt8) : Prop :=
  ∀ msgs tail, WholePackets msgs → stream = msgs.flatten ++ tail → ¬ InvalidHeader tail

theorem wholePackets_iff {msgs : List (List UInt8)} :
    WholePackets msgs ↔ ∀ msgData ∈ msgs, packets.size msgData = some msgData.length := by
  refine forall₂_congr fun msgData _ => ?_
  rw [packets_size_eq_some]
  omega

/-- A stream has one place where it may stop being packets. -/
theorem wellFramed_iff (stream : List UInt8) :
    WellFramed stream ↔ ¬ InvalidHeader (packets.rest stream) := by
  constructor
  · intro h
    refine h (packets.frames stream) _ ?_ (packets.flatten_frames stream).symm
    exact wholePackets_iff.mpr fun msgData hmem => packets.size_frame hmem
  · intro h msgs tail hmsgs hstream hbad
    have hnone : packets.size tail = none := packets_size_eq_none.mpr (.inl hbad)
    rw [hstream, (packets.frames_unique (wholePackets_iff.mp hmsgs) hnone).2] at h
    exact h hbad

/-- What is behind the last packet is less than one, or begins with a bad header. -/
theorem length_rest_lt {stream : List UInt8} (h : ¬ InvalidHeader (packets.rest stream)) :
    (packets.rest stream).length < 1024 := by
  have hnone := (packets_size_eq_none.mp (packets.size_rest stream)).resolve_left h
  omega

theorem InvalidHeader.append {bytes : List UInt8} (h : InvalidHeader bytes) (more : List UInt8) :
    InvalidHeader (bytes ++ more) := by
  obtain ⟨hlen, hbad⟩ := h
  rw [InvalidHeader, headerMsgLen_append hlen, List.length_append]
  exact ⟨by omega, hbad⟩

namespace ClientGateway

variable {clock : Nat → Timestamp} {fuel : Nat} {g : ClientGateway} {p : Progress} {fd : Int}
  {events : List Event}

/-- **A bad header stays**, and so does everything that comes after it. -/
theorem onMessage_invalid (clock : Nat → Timestamp) (fuel : Nat) (now : Nat → Nat → Timestamp)
    (data : List UInt8) (h : InvalidHeader (g.buffer fd ++ data)) :
    g.onMessage clock fuel now fd data = .ok ⟨g.setBuffer fd (g.buffer fd ++ data), [], []⟩ := by
  have hnone : packets.size (g.buffer fd ++ data) = none := packets_size_eq_none.mpr (.inl h)
  rw [onMessage_eq, packets.frames_none hnone]
  rfl

/-- **The receive buffer of a connection is bounded exactly as long as its stream consists of
packets**: after every run it holds less than a maximal packet, and does not begin with a header
that is never taken off, if and only if no header with a bad length came in behind a packet. -/
theorem receive_buffer_bounded (hg : g.Idle) (h : g.run clock fuel events = .ok p) (fd : Int) :
    ((p.gateway.buffer fd).length < 1024 ∧ ¬ InvalidHeader (p.gateway.buffer fd)) ↔
      WellFramed (received fd events) := by
  rw [(run_ok hg h fd).1, wellFramed_iff]
  constructor
  · exact fun hbounded => hbounded.2
  · exact fun hvalid => ⟨length_rest_lt hvalid, hvalid⟩

/-! ### A concrete stream -/

/-- A client connects, sends a header whose length is 0, and then 1019 more bytes. -/
def badHeader : List Event :=
  [.connection 4, .message 4 (fun _ _ => 0) [0, 0, 76, 0, 0],
    .message 4 (fun _ _ => 0) (List.replicate 1019 0)]

/-- What is buffered then. -/
theorem run_badHeader : ∃ p, started.run (fun _ => 0) 10 badHeader = .ok p ∧
    p.gateway.buffer 4 = [0, 0, 76, 0, 0] ++ List.replicate 1019 0 := by
  let g₁ := (started.onConnection 4).setBuffer 4 [0, 0, 76, 0, 0]
  have hheader : (started.onConnection 4).onMessage (fun _ => 0) 10 (fun _ _ => 0) 4
      [0, 0, 76, 0, 0] = .ok ⟨g₁, [], []⟩ := onMessage_invalid _ _ _ _ (by decide)
  have hmore : g₁.onMessage (fun _ => 0) 10 (fun _ _ => 0) 4 (List.replicate 1019 0) =
      .ok ⟨g₁.setBuffer 4 ([0, 0, 76, 0, 0] ++ List.replicate 1019 0), [], []⟩ :=
    onMessage_invalid _ _ _ _ (InvalidHeader.append (by decide) _)
  refine ⟨⟨g₁.setBuffer 4 ([0, 0, 76, 0, 0] ++ List.replicate 1019 0), [], []⟩, ?_, ?_⟩
  · simp only [run, badHeader, Fallible.foldlM_cons, proceed, deliver, Progress.andThen, hheader,
      hmore]
    rfl
  · dsimp only
    rw [buffer_setBuffer]

/-- **A header with length 0 makes the buffer grow** to 1024 bytes and beyond. -/
theorem bad_header_fills_buffer : ∃ p, started.run (fun _ => 0) 10 badHeader = .ok p ∧
    ¬ (p.gateway.buffer 4).length < 1024 ∧ InvalidHeader (p.gateway.buffer 4) := by
  obtain ⟨p, hrun, hbuffer⟩ := run_badHeader
  refine ⟨p, hrun, ?_⟩
  rw [hbuffer]
  refine ⟨?_, InvalidHeader.append (by decide) _⟩
  rw [List.length_append, List.length_replicate]
  decide

/-- The condition fails there. -/
theorem receive_buffer_bounded_badHeader : ∃ p, started.run (fun _ => 0) 10 badHeader = .ok p ∧
    ((p.gateway.buffer 4).length < 1024 ∧ ¬ InvalidHeader (p.gateway.buffer 4) ↔
      WellFramed (received 4 badHeader)) := by
  obtain ⟨p, hrun, -⟩ := run_badHeader
  exact ⟨p, hrun, receive_buffer_bounded idle_started hrun 4⟩

end ClientGateway

end OrderMatchingEngine
