import OrderMatchingEngine.Refinement.Listening

/-!
# OrderMatchingEngine.Properties.OutgoingStream

When does the stream to a client stay in frame?

`sendPacket` does not look at how much `send` accepted. So a message that was cut stays cut, and the
next one that is accepted begins in its middle. The bytes are part of whole messages exactly if that
never happens (`stream_in_frame`), and then `tcp_listener_loop` takes whole messages only. The
example is a log-in response that was cut, and an execution report of which the listener takes the
second half for a message.
-/

namespace OrderMatchingEngine

open ClientGateway GatewayService ShortWrites TcpServer

/-- **The outgoing stream is in frame** exactly if nothing is accepted behind a packet that was cut;
bytes are told apart by their places here. In such a stream of sized packets the listener takes
packets that were sent, in order, and nothing else. All the packets of the engine are sized. -/
theorem stream_in_frame (writes : List (Write UInt8)) :
    (InFrame (traced 0 writes) ↔ Unbroken writes) ∧
    (outgoing (traced 0 writes)).map Prod.snd = outgoing writes ∧
    (Unbroken writes → (∀ w ∈ writes, Sized w.packet) →
      ∃ whole, whole.Sublist (writes.map (·.packet)) ∧ outgoing writes <+: whole.flatten ∧
        ∀ raises chunks, chunks.flatten <+: outgoing writes → ∃ received,
          received <+: chunks.flatten ∧
            TakesOnly whole received (tcpListenerLoop raises chunks {})) ∧
    ∀ clock fuel now fd data g r g', processPacket clock fuel now fd data g = .ok (r, g') →
      ∀ m ∈ r.sent, ∀ junk, Sized (m.message.bytes junk) := by
  refine ⟨inFrame_traced, ?_, fun hunbroken hsized => ?_,
    fun _ _ _ _ _ _ _ _ hp _ hm junk => (processPacket_shaped hp hm).sized junk⟩
  · rw [outgoing_eq, outgoing_eq, delivered_traced]
  · obtain ⟨whole, hsub, hfront⟩ := hunbroken.whole
    rw [outgoing_eq]
    refine ⟨whole, hsub, hfront, fun raises chunks hchunks => ?_⟩
    have hsized' : ∀ p ∈ whole, Sized p := fun p hp => by
      obtain ⟨w, hw, rfl⟩ := List.mem_map.mp (hsub.subset hp)
      exact hsized w hw
    have hinit : Following whole [] {} := ⟨List.nil_prefix, rfl⟩
    have hreceived : [] ++ chunks.flatten <+: whole.flatten := hchunks.trans hfront
    exact tcpListenerLoop_following raises hsized' hreceived hinit

/-! ### A message that was cut -/

/-- A client that connects, logs in and orders 4933 lots at 100.0. -/
def cutEvents : List Event :=
  [.connection 4,
    .message 4 (fun _ _ => 0) ([0, 0, 76, 45, 0] ++ List.replicate 40 0 ++
      ([0, 0, 78, 49, 0] ++ [1, 0, 0, 0, 0, 0, 0, 0] ++ [1, 0, 0, 0, 0, 0, 0, 0] ++
        [65, 0, 0, 0, 0, 0, 0, 0, 0, 0] ++ [0] ++ [1] ++ [0, 0, 0, 0, 0, 0, 0x59, 0x40] ++
        [0x45, 0x13, 0, 0, 0, 0, 0, 0]))]

/-- What it is sent. -/
def cutPackets : List (List UInt8) :=
  ((run (fun _ => 0) 10 cutEvents started).toOption.map fun p =>
    p.sent.map fun m => m.message.bytes fun _ => 0).getD []

/-- The socket accepts ten bytes of the first message, and then the whole second one. -/
def cutWrites : List (Write UInt8) :=
  List.zipWith accepting [10, 65] cutPackets

/-- **The rest of a message that was cut is never sent**: the listener takes the end of the next one
for a report. -/
theorem stream_torn : ∃ p, run (fun _ => 0) 10 cutEvents started = .ok p ∧
    cutWrites.map (·.packet) = p.sent.map (fun m => m.message.bytes fun _ => 0) ∧
    ¬ InFrame cutWrites ∧
    ∃ l, tcpListenerLoop (fun _ => false) [outgoing cutWrites] {} = .ok l ∧
      ∃ m ∈ l.taken, m ∉ cutWrites.map (·.packet) := by
  refine ⟨_, rfl, rfl, ?_, _, rfl, _, List.mem_cons_self, by decide⟩
  rintro ⟨whole, hwhole, hfront⟩
  cases whole with
  | nil => exact absurd hfront (by decide)
  | cons q whole =>
      have hq : q ∈ cutWrites.map (·.packet) := hwhole q List.mem_cons_self
      have hlong : ∀ q ∈ cutWrites.map (·.packet), 11 ≤ q.length ∧
          (delivered cutWrites).take 11 ≠ q.take 11 := by decide
      obtain ⟨hlen, hne⟩ := hlong q hq
      refine hne ?_
      rw [List.flatten_cons] at hfront
      have htake := hfront.take 11
      rw [List.take_append_of_le_length hlen] at htake
      exact htake.eq_of_length (by rw [List.length_take_of_le hlen]; decide)

/-- A message that was dropped as a whole. -/
theorem stream_in_frame_dropped : ∃ writes : List (Write UInt8),
    writes.map (·.packet) = cutPackets ∧ InFrame (traced 0 writes) ∧
      ∃ (whole : List (List UInt8)) (received : List UInt8),
        whole.Sublist cutPackets ∧ outgoing writes <+: whole.flatten ∧
          TakesOnly whole received (tcpListenerLoop (fun _ => false) [outgoing writes] {}) := by
  let writes : List (Write UInt8) := List.zipWith accepting [0, 65] cutPackets
  have hunbroken : Unbroken writes := by decide
  obtain ⟨hiff, -, hlistener, -⟩ := stream_in_frame writes
  obtain ⟨whole, hsub, hfront, htakes⟩ := hlistener hunbroken (by decide)
  obtain ⟨received, -, htakes⟩ := htakes (fun _ => false) [outgoing writes]
    (by rw [List.flatten_singleton])
  exact ⟨writes, rfl, hiff.mpr hunbroken, whole, received, hsub, hfront, htakes⟩

end OrderMatchingEngine
