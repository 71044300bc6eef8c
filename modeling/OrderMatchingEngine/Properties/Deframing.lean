import OrderMatchingEngine.Library.Framing
import OrderMatchingEngine.Refinement.Listening

/-!
# OrderMatchingEngine.Properties.Deframing

Does `gateway.py` get out of the stream what the engine put into it?

The listener knows a message by its header only. So all that it needs is that the header has the
type of the message and its size (`Message.Framed`), as those of the engine do. Then, in whatever
pieces the stream comes in, it has called the handlers for just the messages that are there as a
whole (`deframes_exactly`).
-/

namespace OrderMatchingEngine

open ClientGateway GatewayService

/-! ### Messages and their headers -/

/-- The type of a struct. -/
def Message.kind : Message → MessageType
  | .loginResponse _ => .loginResponse
  | .executionReport _ => .executionReport
  | .marketDataSnapshot _ => .marketDataSnapshot
  | .tradeUpdate _ => .tradeUpdate

/-- The header of a message. -/
def Message.header : Message → MessageHeader
  | .loginResponse resp => resp.header
  | .executionReport report => report.header
  | .marketDataSnapshot snapshot => snapshot.header
  | .tradeUpdate msg => msg.header

section Messages

variable (junk : Nat → UInt8)

/-- What is behind the header. -/
def Message.payload (m : Message) : List UInt8 := (m.bytes junk).drop 5

/-- The header has the type and the size of the message. -/
def Message.Framed (m : Message) : Prop :=
  m.header.type = m.kind ∧ m.header.msgLen.toNat = (m.bytes junk).length

instance (m : Message) : Decidable (m.Framed junk) := inferInstanceAs (Decidable (_ ∧ _))

/-- The call that a message is to get: reports and snapshots have a handler, and it is given the
payload. -/
def Message.call? (m : Message) : Option HandlerCall :=
  match m.kind with
  | .executionReport => some (.handleExecution (m.payload junk))
  | .marketDataSnapshot => some (.handleSnapshot (m.payload junk))
  | .loginResponse | .tradeUpdate => none

variable {junk} {m : Message}

theorem Message.bytes_eq (m : Message) : m.bytes junk = m.header.bytes ++ m.payload junk := by
  have hstruct : ∃ rest, m.bytes junk = m.header.bytes ++ rest := by
    cases m <;> exact ⟨_, rfl⟩
  obtain ⟨rest, hbytes⟩ := hstruct
  rw [payload, hbytes, List.drop_left' m.header.length_bytes]

theorem Message.Framed.sized (h : m.Framed junk) : Sized (m.bytes junk) := by
  refine ⟨?_, ?_⟩
  · rw [m.bytes_eq, List.length_append, MessageHeader.length_bytes]
    exact Nat.le_add_right 5 _
  · rw [← h.2, m.bytes_eq, headerMsgLen_bytes]

theorem Message.Shaped.framed (h : m.Shaped) (junk : Nat → UInt8) : m.Framed junk := by
  have htype : m.header.type = m.kind := by
    cases m with
    | loginResponse => exact congrArg MessageHeader.type h.1
    | executionReport => exact congrArg MessageHeader.type h.1
    | marketDataSnapshot => exact congrArg MessageHeader.type h.1
    | tradeUpdate => exact congrArg MessageHeader.type h.1
  have hlen := (h.sized junk).2
  rw [m.bytes_eq, headerMsgLen_bytes, ← m.bytes_eq] at hlen
  exact ⟨htype, hlen⟩

/-- **The listener's call for a message** is the one that it is to get. -/
theorem Message.Framed.frontCall (h : m.Framed junk) :
    frontCall (m.bytes junk) = m.call? junk := by
  rw [GatewayService.frontCall, h.sized.2, List.take_length, call?, ← payload]
  rw [m.bytes_eq, headerType_bytes, h.1]
  cases m.kind <;> rfl

end Messages

/-! ### The calls of the listener -/

namespace GatewayService

/-- The listener has taken the first of these messages, and made the calls for them. -/
structure Dispatching (whole : List (List UInt8)) (received : List UInt8) (l : Listener) : Prop
    extends Following whole received l where
  calls : l.calls = l.taken.filterMap frontCall

variable {raises : HandlerCall → Bool} {whole : List (List UInt8)} {received : List UInt8}
  {l : Listener}

theorem Dispatching.advance (hsized : ∀ p ∈ whole, Sized p) (hfront : received <+: whole.flatten)
    (h : Dispatching whole received l) (hmessage : HasMessage l.buffer) :
    Dispatching whole received l.advance := by
  refine ⟨(h.toFollowing.advance hsized hfront hmessage).1, ?_⟩
  obtain ⟨p, behind, rest, rfl, hp, hbuffer⟩ := h.next hsized hfront hmessage
  rw [advance_of_sized hp hbuffer]
  show l.calls ++ (frontCall p).toList = (l.taken ++ [p]).filterMap frontCall
  rw [List.filterMap_append, h.calls]
  cases hcall : frontCall p <;> simp [hcall]

/-- **One pass**, if no handler raises: it waits, or takes the next message. -/
theorem listenerBody_dispatching (hsized : ∀ p ∈ whole, Sized p)
    (hreturns : ∀ p ∈ whole, (frontCall p).any raises = false)
    (hfront : received <+: whole.flatten) (h : Dispatching whole received l) :
    (¬ HasMessage l.buffer ∧ listenerBody raises l = .ok (.done l)) ∨
      (listenerBody raises l = .ok (.next l.advance) ∧ Dispatching whole received l.advance ∧
        l.advance.buffer.length < l.buffer.length) := by
  rcases listenerBody_cases raises l with
    hdone | ⟨hmessage, hraises, -⟩ | ⟨hmessage, -, hnext⟩
  · exact .inl hdone
  · obtain ⟨p, behind, rest, rfl, hp, hbuffer⟩ := h.next hsized hfront hmessage
    rw [hbuffer, frontCall_append hp, hreturns p (by simp)] at hraises
    exact Bool.noConfusion hraises
  · exact .inr ⟨hnext, h.advance hsized hfront hmessage,
      (h.toFollowing.advance hsized hfront hmessage).2⟩

/-- Whatever the handlers do: it may also end on the message that it took. -/
theorem listenerBody_dispatches (raises : HandlerCall → Bool) (hsized : ∀ p ∈ whole, Sized p) :
    Passing raises (Dispatching whole)
      (fun e => ∃ taken, e = .raised taken (taken.filterMap frontCall) ∧ taken <+: whole)
      whole.flatten := by
  intro received l hfront h
  rcases listenerBody_cases raises l with
    ⟨-, hdone⟩ | ⟨hmessage, -, hraised⟩ | ⟨hmessage, -, hnext⟩
  · exact .inl hdone
  · have hadvance := h.advance hsized hfront hmessage
    exact .inr (.inl ⟨_, hraised, l.advance.taken, by rw [hadvance.calls], hadvance.taken⟩)
  · exact .inr (.inr ⟨_, hnext, h.advance hsized hfront hmessage,
      (h.toFollowing.advance hsized hfront hmessage).2⟩)

/-- **The inner loop** ends, and leaves no whole message in the buffer. -/
theorem receiveData_dispatching (hsized : ∀ p ∈ whole, Sized p)
    (hreturns : ∀ p ∈ whole, (frontCall p).any raises = false) {data : List UInt8}
    (hfront : received ++ data <+: whole.flatten) (h : Dispatching whole received l) :
    ∃ l', receiveData raises data l = .ok l' ∧ Dispatching whole (received ++ data) l' ∧
      ¬ HasMessage l'.buffer := by
  have hmore : Dispatching whole (received ++ data) { l with buffer := l.buffer ++ data } :=
    ⟨h.append data, h.calls⟩
  refine FuelLoop.run_total (Dispatching whole (received ++ data)) _ (·.buffer.length) ?_ hmore
    (Nat.lt_succ_self _)
  intro s hs
  rcases listenerBody_dispatching hsized hreturns hfront hs with ⟨hnone, hdone⟩ | hnext
  · exact .inl ⟨s, hdone, hs, hnone⟩
  · exact .inr ⟨_, hnext⟩

/-- **The listener has called the handlers** for what it received, whatever the pieces. -/
theorem tcpListenerLoop_dispatching (hsized : ∀ p ∈ whole, Sized p)
    (hreturns : ∀ p ∈ whole, (frontCall p).any raises = false) {chunks : List (List UInt8)}
    (hchunks : [] ∉ chunks) (hfront : received ++ chunks.flatten <+: whole.flatten)
    (h : Dispatching whole received l) (hnone : ¬ HasMessage l.buffer) :
    ∃ l', tcpListenerLoop raises chunks l = .ok l' ∧
      Dispatching whole (received ++ chunks.flatten) l' ∧ ¬ HasMessage l'.buffer := by
  induction chunks generalizing received l with
  | nil =>
      rw [List.flatten_nil, List.append_nil]
      exact ⟨l, rfl, h, hnone⟩
  | cons data chunks ih =>
      obtain ⟨hdata, hchunks⟩ := not_or.mp (mt List.mem_cons.mpr hchunks)
      rw [List.flatten_cons, ← List.append_assoc] at hfront ⊢
      obtain ⟨l₁, hreceive, h₁, hnone₁⟩ := receiveData_dispatching hsized hreturns
        ((List.prefix_append _ _).trans hfront) h
      have hsome : data.isEmpty = false := List.isEmpty_eq_false_iff.mpr (Ne.symm hdata)
      rw [tcpListenerLoop, hsome, if_neg Bool.false_ne_true, hreceive]
      exact ih hchunks hfront h₁ hnone₁

/-- The calls that the listener has made when it ends. -/
def callsMade : Except ListenerError Listener → List HandlerCall
  | .ok l => l.calls
  | .error (.raised _ calls) => calls
  | .error .hangs => []

/-- **The listener calls the handlers** for the first messages of a stream, up to one on which a
handler raises, whatever the pieces. -/
theorem callsMade_eq (raises : HandlerCall → Bool) (hsized : ∀ p ∈ whole, Sized p)
    {chunks : List (List UInt8)} (hfront : chunks.flatten <+: whole.flatten) :
    ∃ taken, taken <+: whole ∧
      callsMade (tcpListenerLoop raises chunks {}) = taken.filterMap frontCall := by
  have hstart : Dispatching whole [] {} := ⟨⟨List.nil_prefix, rfl⟩, rfl⟩
  have hreceived : [] ++ chunks.flatten <+: whole.flatten := hfront
  obtain ⟨received, -, hends⟩ := tcpListenerLoop_ends (listenerBody_dispatches raises hsized)
    (fun _ data _ h => ⟨h.append data, h.calls⟩) hreceived hstart
  rcases hloop : tcpListenerLoop raises chunks {} with e | l
  · rw [hloop] at hends
    obtain ⟨taken, rfl, htaken⟩ := hends
    exact ⟨taken, htaken, rfl⟩
  · rw [hloop] at hends
    exact ⟨l.taken, hends.taken, hends.calls⟩

/-- Without a whole message in its buffer, the listener has taken those that arrived. -/
theorem Dispatching.arrived (hsized : ∀ p ∈ whole, Sized p) (hfront : received <+: whole.flatten)
    (h : Dispatching whole received l) (hnone : ¬ HasMessage l.buffer) :
    l.taken = Framing.arrived List.length received.length whole := by
  obtain ⟨rest, rfl, hbuffer⟩ := h.coming hfront
  have hmissing : ∀ p ∈ rest.head?, l.buffer.length < p.length := by
    intro p hp
    obtain ⟨rest', rfl⟩ := List.head?_eq_some_iff.mp hp
    have hsize : Sized p := hsized p (by simp)
    rw [List.flatten_cons] at hbuffer
    rcases Nat.lt_or_ge l.buffer.length 5 with hshort | hheader
    · exact Nat.lt_of_lt_of_le hshort hsize.1
    · rw [← headerMsgLen_front hsize hheader hbuffer]
      exact Nat.lt_of_not_le fun hle => hnone ⟨hheader, hle⟩
  rw [← h.received, List.length_append, List.length_flatten, Framing.arrived_append hmissing]

end GatewayService

/-- **The listener deframes exactly what was sent.** After any pieces of the stream it has called
the handlers of the reports and snapshots that are there as a whole, in order, each once and with
its own payload, if these return; at the end of the stream those are all. The messages of the engine
are framed like this. -/
theorem deframes_exactly (sent : List (Message × (Nat → UInt8))) (raises : HandlerCall → Bool)
    (chunks : List (List UInt8)) (hframed : ∀ s ∈ sent, s.1.Framed s.2)
    (hreturns : ∀ s ∈ sent, (s.1.call? s.2).any raises = false) (hchunks : [] ∉ chunks)
    (hfront : chunks.flatten <+: (sent.map fun s => s.1.bytes s.2).flatten) :
    (∃ l, tcpListenerLoop raises chunks {} = .ok l ∧
      l.calls = (Framing.arrived (fun s => (s.1.bytes s.2).length) chunks.flatten.length
        sent).filterMap (fun s => s.1.call? s.2) ∧
      (chunks.flatten = (sent.map fun s => s.1.bytes s.2).flatten →
        l.calls = sent.filterMap fun s => s.1.call? s.2)) ∧
    ∀ clock fuel now fd data g r g', processPacket clock fuel now fd data g = .ok (r, g') →
      ∀ m ∈ r.sent, ∀ junk, m.message.Framed junk := by
  refine ⟨?_, fun _ _ _ _ _ _ _ _ hp _ hm junk => (processPacket_shaped hp hm).framed junk⟩
  have hsized : ∀ p ∈ sent.map fun s => s.1.bytes s.2, Sized p := by
    intro p hp
    obtain ⟨s, hs, rfl⟩ := List.mem_map.mp hp
    exact (hframed s hs).sized
  have hcalls : ∀ p ∈ sent.map fun s => s.1.bytes s.2, (frontCall p).any raises = false := by
    intro p hp
    obtain ⟨s, hs, rfl⟩ := List.mem_map.mp hp
    rw [(hframed s hs).frontCall, hreturns s hs]
  have hstart : Dispatching (sent.map fun s => s.1.bytes s.2) [] {} :=
    ⟨⟨List.nil_prefix, rfl⟩, rfl⟩
  obtain ⟨l, hl, h, hnone⟩ := tcpListenerLoop_dispatching hsized hcalls hchunks hfront hstart
    fun h => absurd h.1 (by decide)
  rw [List.nil_append] at h
  have harrived : l.calls = (Framing.arrived (fun s => (s.1.bytes s.2).length) chunks.flatten.length
      sent).filterMap (fun s => s.1.call? s.2) := by
    rw [h.calls, h.arrived hsized hfront hnone, Framing.arrived_map, List.filterMap_map]
    exact List.filterMap_congr fun s hs =>
      (hframed s ((Framing.arrived_front _ _).subset hs)).frontCall
  refine ⟨l, hl, harrived, fun hall => ?_⟩
  rw [harrived, Framing.arrived_all]
  rw [hall, List.length_flatten, List.map_map]
  rfl

/-- A trade, and the report of the order that made it. -/
def tradeAndReport : List (Message × (Nat → UInt8)) :=
  [(.tradeUpdate
      { symbol := strncpy [65] 9
        price := .num 3
        quantity := 10
        timestamp := 5
        makeSide := 0 }, fun _ => 7),
    (.executionReport
      { clientOrderId := 1
        userId := 2
        executionId := 3
        symbol := strncpy [65] 9
        side := 0
        price := .num 3
        quantity := 10
        filledQuantity := 10
        status := 2 }, fun _ => 7)]

/-- The handler of the report is called with its last byte. -/
theorem deframes_exactly_pieces :
    let stream := (tradeAndReport.map fun s => s.1.bytes s.2).flatten
    (∃ l, tcpListenerLoop (fun _ => false) [stream.take 3, (stream.drop 3).take 101] {} = .ok l ∧
      l.calls = []) ∧
    ∃ l, tcpListenerLoop (fun _ => false) [stream.take 3, (stream.drop 3).take 101, stream.drop 104]
        {} = .ok l ∧
      l.calls = tradeAndReport.filterMap fun s => s.1.call? s.2 := by
  intro stream
  refine ⟨?_, ?_⟩
  · obtain ⟨⟨l, hl, hcalls, -⟩, -⟩ := deframes_exactly tradeAndReport (fun _ => false)
      [stream.take 3, (stream.drop 3).take 101] (by decide) (by decide) (by decide) (by decide)
    exact ⟨l, hl, hcalls.trans (by decide)⟩
  · obtain ⟨⟨l, hl, -, hcalls⟩, -⟩ := deframes_exactly tradeAndReport (fun _ => false)
      [stream.take 3, (stream.drop 3).take 101, stream.drop 104] (by decide) (by decide)
      (by decide) (by decide)
    exact ⟨l, hl, hcalls (by decide)⟩

end OrderMatchingEngine
