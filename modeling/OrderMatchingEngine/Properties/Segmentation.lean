import OrderMatchingEngine.Refinement.Messages

/-!
# OrderMatchingEngine.Properties.Segmentation

The pieces in which a stream arrives do not matter.

Packets are cut off the stream where its headers say (`Framing.frames_append`), and handlers
neither read nor change receive buffers. So however a stream is cut into calls of `onMessage`, the
same packets are handed to `processPacket` in the same order, from states that agree, and the same
bytes are left (`segmentation_irrelevant`). The clock readings differ from one way to the other,
but only the timestamps of trades and trade updates come from them.
-/

namespace OrderMatchingEngine

namespace ClientGateway

open Fallible (Rel)

variable {clock : Nat → Timestamp} {fuel : Nat} {now now' : Nat → Nat → Timestamp} {fd : Int}
  {g g' : ClientGateway}

/-- The packets handed to `processPacket`, up to the end or to the one the process died of. -/
def handedOver : Except Crash Progress → List (List UInt8)
  | .error crash => crash.handed
  | .ok p => p.handed

/-- Two courses hand over the same packets, but for some that the second has handed over before, and
end alike: of the same fault, or in states that agree. -/
def SameCourse (before : List (List UInt8)) :
    Except Crash Progress → Except Crash Progress → Prop :=
  Rel (fun crash crash' => crash'.handed = before ++ crash.handed ∧ crash'.fault = crash.fault)
    (fun p p' => p'.handed = before ++ p.handed ∧ Agree p.gateway p'.gateway)

/-- The same packet, from states that agree, at whatever time. -/
theorem takePacket_alike {s t : Progress} {before : List (List UInt8)} (msgData : List UInt8)
    (hhanded : t.handed = before ++ s.handed) (hagree : Agree s.gateway t.gateway) :
    SameCourse before (takePacket clock fuel now fd s msgData)
      (takePacket clock fuel now' fd t msgData) := by
  have hprocess : Rel Eq
      (fun x y : Reporting × ClientGateway => x.1.fault = y.1.fault ∧ True ∧ Agree x.2 y.2)
      (processPacket clock fuel (now s.handed.length) fd msgData s.gateway)
      (processPacket clock fuel (now' t.handed.length) fd msgData t.gateway) := by
    refine (processPacket_agree hagree msgData).trans ?_ (processPacket_now _ _ msgData t.gateway)
    intro x y z hxy hyz
    exact ⟨hxy.1 ▸ hyz.1, trivial, hyz.2 ▸ hxy.2⟩
  exact (takePacket_rel (S := fun _ _ => True) hhanded trivial hprocess).imp
    (fun _ _ h => ⟨h.1, h.2.2⟩) (fun _ _ h => ⟨h.1, h.2.2⟩)

theorem SameCourse.andThen {before : List (List UInt8)} {p : Progress} {x y : Except Crash Progress}
    (h : SameCourse (before ++ p.handed) x y) : SameCourse before (p.andThen x) y := by
  cases h with
  | error hcrash => exact .error ⟨by rw [hcrash.1, List.append_assoc], hcrash.2⟩
  | ok hend => exact .ok ⟨by rw [hend.1, List.append_assoc], hend.2⟩

/-- A piece of a stream, with the clock readings made while it is processed. -/
abbrev Chunk := (Nat → Nat → Timestamp) × List UInt8

/-- The calls of `onMessage` for the pieces of a stream. -/
def messages (fd : Int) (chunks : List Chunk) : List Event :=
  chunks.map fun chunk => .message fd chunk.1 chunk.2

/-- The stream that the pieces make up. -/
def stream (chunks : List Chunk) : List UInt8 := (chunks.map Prod.snd).flatten

theorem stream_cons (chunk : Chunk) (chunks : List Chunk) :
    stream (chunk :: chunks) = chunk.2 ++ stream chunks := by
  rw [stream, List.map_cons, List.flatten_cons]
  rfl

/-- **Pieces, one after the other**, are the packets of the whole stream, one after the other. -/
theorem run_messages (now : Nat → Nat → Timestamp) (chunks : List Chunk) {t : Progress}
    (hagree : Agree g t.gateway) (hstart : chunks = [] → packets.frames (g.buffer fd) = []) :
    SameCourse t.handed (g.run clock fuel (messages fd chunks))
      ((packets.frames (g.buffer fd ++ stream chunks)).foldlM
        (takePacket clock fuel now fd) t) := by
  induction chunks generalizing g t with
  | nil =>
      rw [stream, List.map_nil, List.flatten_nil, List.append_nil, hstart rfl]
      exact .ok ⟨(List.append_nil _).symm, hagree⟩
  | cons chunk chunks ih =>
      have hfirst : SameCourse t.handed (g.onMessage clock fuel chunk.1 fd chunk.2)
          ((packets.frames (g.buffer fd ++ chunk.2)).foldlM (takePacket clock fuel now fd) t) := by
        rw [onMessage_eq]
        exact Fallible.foldlM_rel (fun msgData _ _ h => takePacket_alike msgData h.1 h.2) _
          ⟨(List.append_nil _).symm, (Agree.of_setBuffer fd _ g).trans hagree⟩
      rw [stream_cons, ← List.append_assoc, packets.frames_append, Fallible.foldlM_append]
      rw [messages, List.map_cons, run_cons, deliver]
      generalize hcall : g.onMessage clock fuel chunk.1 fd chunk.2 = x at hfirst ⊢
      generalize (packets.frames (g.buffer fd ++ chunk.2)).foldlM (takePacket clock fuel now fd) t =
        y at hfirst ⊢
      cases hfirst with
      | error hcrash => exact .error hcrash
      | @ok p t' hend =>
          -- the next piece finds what this one left behind its packets
          have hrest := (onMessage_ok hcall).2.1
          have hlater := ih hend.2 fun _ => by
            rw [hrest]
            exact packets.frames_none (packets.size_rest _)
          rw [hrest, hend.1] at hlater
          exact hlater.andThen

/-- What the pieces leave in the buffer. -/
theorem run_messages_buffer {chunk : Chunk} {chunks : List Chunk} {p : Progress}
    (h : g.run clock fuel (messages fd (chunk :: chunks)) = .ok p) :
    p.gateway.buffer fd = packets.rest (g.buffer fd ++ stream (chunk :: chunks)) := by
  induction chunks generalizing g chunk p with
  | nil =>
      rw [messages, List.map_cons, run_cons, deliver] at h
      split at h
      · simp at h
      · rename_i q hcall
        obtain ⟨q', hq', rfl⟩ := andThen_ok h
        obtain rfl := Except.ok.inj hq'
        rw [stream_cons, stream, List.map_nil, List.flatten_nil, List.append_nil chunk.2]
        exact (onMessage_ok hcall).2.1
  | cons chunk' chunks ih =>
      rw [messages, List.map_cons, run_cons, deliver] at h
      split at h
      · simp at h
      · rename_i q hcall
        obtain ⟨q', hq', rfl⟩ := andThen_ok h
        rw [stream_cons, ← List.append_assoc, packets.rest_append, ← (onMessage_ok hcall).2.1]
        show q'.gateway.buffer fd = _
        exact ih hq'

/-- **Packets do not depend on how the stream arrives.** However it is cut into calls of
`onMessage`, one call with the whole of it hands over the same packets and ends alike, with the
same bytes in the buffer. The packets are as long as their headers say and are, with what is left,
the stream. And the loop ends, under every bound above the length of the buffer. -/
theorem segmentation_irrelevant (clock : Nat → Timestamp) (fuel : Nat)
    (now : Nat → Nat → Timestamp) (fd : Int) (g : ClientGateway) (chunk : Chunk)
    (chunks : List Chunk) :
    let whole := stream (chunk :: chunks)
    let cut := g.run clock fuel (messages fd (chunk :: chunks))
    let once := g.onMessage clock fuel now fd whole
    SameCourse [] cut once ∧
      (∀ p p', cut = .ok p → once = .ok p' → p.gateway.buffer fd = p'.gateway.buffer fd) ∧
      (∀ msgData ∈ handedOver once, msgData.length = headerMsgLen msgData ∧
        5 ≤ msgData.length ∧ msgData.length ≤ 1024) ∧
      (∀ p, once = .ok p → p.handed.flatten ++ p.gateway.buffer fd = g.buffer fd ++ whole) ∧
      ∀ stuck bound, (g.buffer fd ++ whole).length < bound →
        FuelLoop.run stuck (onMessageBody clock fuel now fd) bound
          ⟨g.setBuffer fd (g.buffer fd ++ whole), [], []⟩ = once := by
  intro whole cut once
  refine ⟨?_, ?_, ?_, ?_, ?_⟩
  · show SameCourse [] _ (g.onMessage clock fuel now fd whole)
    rw [onMessage_eq]
    exact run_messages now (chunk :: chunks) (t := ⟨g.setBuffer fd (g.buffer fd ++ whole), [], []⟩)
      (Agree.of_setBuffer fd _ g).symm (by simp)
  · intro p p' hcut honce
    rw [run_messages_buffer hcut, (onMessage_ok honce).2.1]
  · intro msgData hmem
    have hframe : msgData ∈ packets.frames (g.buffer fd ++ whole) := by
      generalize honce : once = x at hmem
      cases x with
      | error crash => exact (onMessage_error honce).1.subset hmem
      | ok p =>
          rw [← (onMessage_ok honce).1]
          exact hmem
    obtain ⟨hlen, hmin, hmax, -⟩ := packets_size_eq_some.mp (packets.size_frame hframe)
    exact ⟨hlen, hmin, hmax⟩
  · intro p honce
    obtain ⟨hhanded, hrest, -⟩ := onMessage_ok honce
    rw [hhanded, hrest, packets.flatten_frames]
  · intro stuck bound hbound
    show _ = g.onMessage clock fuel now fd whole
    rw [onMessage_eq, onMessageLoop_eq stuck (by rwa [buffer_setBuffer])]
    dsimp only
    rw [buffer_setBuffer]

/-- A log-in in two pieces is the log-in, and leaves nothing behind. -/
theorem segmentation_irrelevant_login :
    let chunks : List Chunk := [(fun _ _ => 1, [0, 0, 76]), (fun _ _ => 2, [5, 0])]
    SameCourse [] ((started.onConnection 4).run (fun _ => 0) 10 (messages 4 chunks))
        ((started.onConnection 4).onMessage (fun _ => 0) 10 (fun _ _ => 0) 4 [0, 0, 76, 5, 0]) ∧
      ∃ p, (started.onConnection 4).onMessage (fun _ => 0) 10 (fun _ _ => 0) 4 [0, 0, 76, 5, 0] =
          .ok p ∧ p.handed.flatten ++ p.gateway.buffer 4 = [0, 0, 76, 5, 0] := by
  have hcut := segmentation_irrelevant (fun _ => 0) 10 (fun _ _ => 0) 4 (started.onConnection 4)
    (fun _ _ => 1, [0, 0, 76]) [(fun _ _ => 2, [5, 0])]
  exact ⟨hcut.1, _, rfl, hcut.2.2.2.1 _ rfl⟩

end ClientGateway

end OrderMatchingEngine
