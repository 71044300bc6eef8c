import OrderMatchingEngine.Layout
import OrderMatchingEngine.Refinement.Wire
import OrderMatchingEngine.Streams

/-!
# OrderMatchingEngine.Refinement.Listening

`tcp_listener_loop` on a stream of whole messages.

The engine's messages have the length that their header says (`processPacket_sized`). On a stream of
such messages, cut off anywhere and received in any pieces, the listener takes one message after the
other (`tcpListenerLoop_following`).
-/

namespace OrderMatchingEngine

open FuelLoop (Iter)
open StructFormat (encode unpack)

/-! ### The messages of the engine -/

/-- A message of the length that its header says. -/
def Sized (packet : List UInt8) : Prop := 5 ≤ packet.length ∧ headerMsgLen packet = packet.length

instance (packet : List UInt8) : Decidable (Sized packet) := inferInstanceAs (Decidable (_ ∧ _))

/-- A message as the engine makes them: the header of its type, nine bytes of a symbol, and no more
than five entries in a ladder. -/
def Message.Shaped : Message → Prop
  | .loginResponse resp => resp.header = ⟨0, .loginResponse, 56⟩ ∧ resp.message.length = 49
  | .executionReport report =>
    report.header = ⟨0, .executionReport, 65⟩ ∧ report.symbol.length = 9
  | .marketDataSnapshot snapshot => snapshot.header = ⟨0, .marketDataSnapshot, 183⟩ ∧
    snapshot.symbol.length = 9 ∧ snapshot.bids.length ≤ 5 ∧ snapshot.asks.length ≤ 5
  | .tradeUpdate msg => msg.header = ⟨0, .tradeUpdate, 40⟩ ∧ msg.symbol.length = 9

theorem headerType_bytes (header : MessageHeader) (rest : List UInt8) :
    headerType (header.bytes ++ rest) = header.type.code := by
  have hfront : (encode 2 header.seqNum.toNat).length = 2 := by simp
  have hfield : ((header.bytes ++ rest).drop 2).take 1 = [header.type.code] := by
    rw [MessageHeader.bytes, List.append_assoc, List.append_assoc, List.drop_left' hfront]
    rfl
  rw [headerType, hfield]
  exact UInt8.ofNat_toNat

theorem headerMsgLen_bytes (header : MessageHeader) (rest : List UInt8) :
    headerMsgLen (header.bytes ++ rest) = header.msgLen.toNat := by
  have hfront : (encode 2 header.seqNum.toNat ++ [header.type.code]).length = 3 := by simp
  have hfield : ((header.bytes ++ rest).drop 3).take 2 = encode 2 header.msgLen.toNat := by
    rw [MessageHeader.bytes, List.append_assoc, ← hfront, List.drop_left]
    exact List.take_left' (by simp)
  rw [headerMsgLen, hfield, littleEndian_eq, StructFormat.decode_encode]
  exact Nat.mod_eq_of_lt header.msgLen.toNat_lt

/-- **The header says the size of the struct.** -/
theorem Message.Shaped.sized {m : Message} (h : m.Shaped) (junk : Nat → UInt8) :
    Sized (m.bytes junk) := by
  suffices hlen : ∃ (header : MessageHeader) (rest : List UInt8),
      m.bytes junk = header.bytes ++ rest ∧ 5 + rest.length = header.msgLen.toNat by
    obtain ⟨header, rest, hbytes, hsize⟩ := hlen
    rw [hbytes, Sized, headerMsgLen_bytes, List.length_append, MessageHeader.length_bytes]
    exact ⟨Nat.le_add_right 5 _, hsize.symm⟩
  cases m with
  | loginResponse resp =>
      obtain ⟨hheader, hmessage⟩ := h
      refine ⟨resp.header, _, rfl, ?_⟩
      rw [hheader, List.length_append, length_characters junk 6 (by omega)]
      rfl
  | executionReport report =>
      obtain ⟨hheader, hsymbol⟩ := h
      refine ⟨report.header, _, rfl, ?_⟩
      simp only [List.length_append, StructFormat.length_encode, List.length_singleton,
        length_characters junk 29 (show report.symbol.length ≤ 10 by omega), hheader]
      rfl
  | marketDataSnapshot snapshot =>
      obtain ⟨hheader, hsymbol, hbids, hasks⟩ := h
      refine ⟨snapshot.header, _, rfl, ?_⟩
      simp only [List.length_append, StructFormat.length_encode, length_ladderBytes junk _ hbids,
        length_ladderBytes junk _ hasks,
        length_characters junk 5 (show snapshot.symbol.length ≤ 10 by omega), hheader]
      rfl
  | tradeUpdate msg =>
      obtain ⟨hheader, hsymbol⟩ := h
      refine ⟨msg.header, _, rfl, ?_⟩
      simp only [List.length_append, StructFormat.length_encode, List.length_singleton,
        length_characters junk 5 (show msg.symbol.length ≤ 10 by omega), hheader]
      rfl

namespace ClientGateway

section Answers

variable {clock now : Nat → Timestamp} {fuel : Nat} {fd : Int} {data : List UInt8}
  {g g' : ClientGateway} {r : Reporting}

theorem snapshot?_shaped {symbol : Symbol} {snapshot : MarketDataSnapshot}
    (h : g.snapshot? symbol = some snapshot) : Message.Shaped (.marketDataSnapshot snapshot) := by
  unfold snapshot? at h
  split at h
  · simp at h
  · rename_i book _
    obtain rfl := Option.some.inj h
    refine ⟨rfl, length_strncpy symbol 9, ?_, ?_⟩ <;> simp [OrderBook.getL2Quote]

theorem shaped_broadcastMarketData {symbol : Symbol} {m : Sent}
    (h : m ∈ g.broadcastMarketData symbol) : m.message.Shaped := by
  unfold broadcastMarketData at h
  split at h
  · simp at h
  · rename_i snapshot hsnapshot
    obtain ⟨fd', -, rfl⟩ := List.mem_map.mp h
    exact snapshot?_shaped hsnapshot

theorem shaped_broadcastTradeUpdate {timestamp : Timestamp} {t : Trade Int} {m : Sent}
    (h : m ∈ g.broadcastTradeUpdate timestamp t) : m.message.Shaped := by
  obtain ⟨fd', -, rfl⟩ := List.mem_map.mp h
  exact ⟨rfl, length_strncpy t.symbol 9⟩

theorem shaped_cancelReport (req : OrderCancelRequest) (symbol : Symbol)
    (cancelledOrder : Option (Order Int)) :
    Message.Shaped (.executionReport (cancelReport req symbol cancelledOrder)) := by
  cases cancelledOrder <;> exact ⟨rfl, length_strncpy symbol 9⟩

/-- **Every message is shaped like this.** -/
theorem processPacket_shaped (h : processPacket clock fuel now fd data g = .ok (r, g'))
    {m : Sent} (hm : m ∈ r.sent) : m.message.Shaped := by
  cases processPacket_answered h with
  | dropped => nomatch hm
  | unknown => nomatch hm
  | login =>
      obtain rfl := List.mem_singleton.mp hm
      exact ⟨rfl, length_strncpy _ 49⟩
  | newOrder =>
      rcases mem_reports hm with rfl | ⟨t, -, ⟨o, rfl⟩ | ⟨o, qty, rfl⟩ | ⟨_, hm⟩⟩ | hm
      · exact ⟨rfl, length_strncpy _ 9⟩
      · exact ⟨rfl, length_strncpy _ 9⟩
      · exact ⟨rfl, length_strncpy _ 9⟩
      · exact shaped_broadcastTradeUpdate hm
      · exact shaped_broadcastMarketData hm
  | orderCancel =>
      rcases List.mem_cons.mp hm with rfl | hm
      · exact shaped_cancelReport _ _ _
      · exact shaped_broadcastMarketData hm
  | noBook => nomatch hm
  | snapshot _ _ _ hsnapshot =>
      obtain rfl := List.mem_singleton.mp hm
      exact snapshot?_shaped hsnapshot
  | subscription => nomatch hm

end Answers

end ClientGateway

/-! ### The listener -/

namespace GatewayService

theorem headerType_append {bytes : List UInt8} (h : 5 ≤ bytes.length) (more : List UInt8) :
    headerType (bytes ++ more) = headerType bytes := by
  unfold headerType
  rw [List.drop_append_of_le_length (by omega),
    List.take_append_of_le_length (by rw [List.length_drop]; omega)]

/-- The type that a header holds is its third byte. -/
theorem headerType_eq {bytes : List UInt8} (h : 5 ≤ bytes.length) :
    (headerType bytes).toNat = littleEndian (((bytes.take 5).drop 2).take 1) := by
  have hlt : littleEndian ((bytes.drop 2).take 1) < 256 := by
    have hbyte := StructFormat.decode_lt ((bytes.drop 2).take 1)
    rwa [List.length_take_of_le (by rw [List.length_drop]; omega), ← littleEndian_eq] at hbyte
  have hfield : ((bytes.take 5).drop 2).take 1 = (bytes.drop 2).take 1 := by
    rw [List.drop_take, List.take_take]
    rfl
  rw [hfield, headerType]
  exact Nat.mod_eq_of_lt hlt

/-- What the listener reads of a header. -/
theorem unpack_header {buffer : List UInt8} (h : 5 ≤ buffer.length) : ∃ seqNum,
    unpack headerFmt (buffer.take 5) =
      some [.int seqNum, .int (headerType buffer).toNat, .int (headerMsgLen buffer)] := by
  have hlen : (buffer.take 5).length = StructFormat.size headerFmt := by
    rw [List.length_take, Nat.min_eq_left h]
    rfl
  rw [headerType_eq h, ← headerMsgLen_take (Nat.le_refl 5), headerMsgLen, littleEndian_eq,
    littleEndian_eq, StructFormat.unpack_eq_readAt hlen]
  exact ⟨_, rfl⟩

/-- The buffer has a header, and as much as the header says. -/
def HasMessage (buffer : List UInt8) : Prop :=
  5 ≤ buffer.length ∧ headerMsgLen buffer ≤ buffer.length

instance (buffer : List UInt8) : Decidable (HasMessage buffer) :=
  inferInstanceAs (Decidable (_ ∧ _))

/-- The call for what the listener takes for the first message of its buffer. -/
def frontCall (buffer : List UInt8) : Option HandlerCall :=
  handlerCall? (headerType buffer).toNat ((buffer.take (headerMsgLen buffer)).drop 5)

/-- The listener has handled the first message of its buffer. -/
def Listener.advance (l : Listener) : Listener where
  buffer := l.buffer.drop (headerMsgLen l.buffer)
  taken := l.taken ++ [l.buffer.take (headerMsgLen l.buffer)]
  calls := l.calls ++ (frontCall l.buffer).toList

/-- **One pass** waits, or takes a message, on which a handler raises or not. -/
theorem listenerBody_cases (raises : HandlerCall → Bool) (l : Listener) :
    (¬ HasMessage l.buffer ∧ listenerBody raises l = .ok (.done l)) ∨
    (HasMessage l.buffer ∧ (frontCall l.buffer).any raises = true ∧
      listenerBody raises l = .error (.raised l.advance.taken l.advance.calls)) ∨
    (HasMessage l.buffer ∧ (frontCall l.buffer).any raises = false ∧
      listenerBody raises l = .ok (.next l.advance)) := by
  unfold listenerBody
  by_cases hshort : l.buffer.length < 5
  · exact .inl ⟨fun h => Nat.not_le.mpr hshort h.1, if_pos hshort⟩
  obtain ⟨seqNum, hheader⟩ := unpack_header (Nat.le_of_not_lt hshort)
  rw [if_neg hshort, hheader]
  dsimp only
  by_cases hwait : l.buffer.length < headerMsgLen l.buffer
  · exact .inl ⟨fun h => Nat.not_le.mpr hwait h.2, if_pos hwait⟩
  rw [if_neg hwait]
  have hmessage : HasMessage l.buffer := ⟨Nat.le_of_not_lt hshort, Nat.le_of_not_lt hwait⟩
  by_cases hraises : (frontCall l.buffer).any raises = true
  · exact .inr (.inl ⟨hmessage, hraises, if_pos hraises⟩)
  · exact .inr (.inr ⟨hmessage, Bool.not_eq_true _ ▸ hraises, if_neg hraises⟩)

/-- The listener has taken the first of these messages, and nothing is lost of what it received. -/
structure Following (whole : List (List UInt8)) (received : List UInt8) (l : Listener) : Prop where
  taken : l.taken <+: whole
  received : l.taken.flatten ++ l.buffer = received

/-- What the listener took for messages are the first of these, whether it goes on or not. -/
def TakesOnly (whole : List (List UInt8)) (received : List UInt8) :
    Except ListenerError Listener → Prop
  | .ok l => Following whole received l
  | .error (.raised taken _) => taken <+: whole
  | .error .hangs => False

variable {whole : List (List UInt8)} {received : List UInt8} {l : Listener}

/-- More input. -/
theorem Following.append (h : Following whole received l) (data : List UInt8) :
    Following whole (received ++ data) { l with buffer := l.buffer ++ data } := by
  refine ⟨h.taken, ?_⟩
  show l.taken.flatten ++ (l.buffer ++ data) = received ++ data
  rw [← List.append_assoc, h.received]

/-- The buffer is the front of the messages that are to come. -/
theorem Following.coming (h : Following whole received l) (hfront : received <+: whole.flatten) :
    ∃ rest, whole = l.taken ++ rest ∧ l.buffer <+: rest.flatten := by
  obtain ⟨rest, rfl⟩ := h.taken
  rw [← h.received, List.flatten_append, List.prefix_append_right_inj] at hfront
  exact ⟨rest, rfl, hfront⟩

/-- A buffer with a header has that of the next message. -/
theorem headerMsgLen_front {p more buffer : List UInt8} (hp : Sized p)
    (hbuffer : 5 ≤ buffer.length) (hfront : buffer <+: p ++ more) :
    headerMsgLen buffer = p.length := by
  rw [List.prefix_iff_eq_take.mp hfront, headerMsgLen_take hbuffer, headerMsgLen_append hp.1, hp.2]

theorem hasMessage_append {p : List UInt8} (hp : Sized p) (behind : List UInt8) :
    HasMessage (p ++ behind) := by
  rw [HasMessage, headerMsgLen_append hp.1, hp.2, List.length_append]
  exact ⟨Nat.le_add_right_of_le hp.1, Nat.le_add_right _ _⟩

theorem frontCall_append {p : List UInt8} (hp : Sized p) (behind : List UInt8) :
    frontCall (p ++ behind) = frontCall p := by
  rw [frontCall, frontCall, headerMsgLen_append hp.1, headerType_append hp.1, hp.2, List.take_left,
    List.take_length]

/-- A message at the front of a buffer is the one that the listener takes. -/
theorem advance_of_sized {p behind : List UInt8} (hp : Sized p) (hbuffer : l.buffer = p ++ behind) :
    l.advance =
      { buffer := behind, taken := l.taken ++ [p], calls := l.calls ++ (frontCall p).toList } := by
  have hlen : headerMsgLen l.buffer = p.length := by rw [hbuffer, headerMsgLen_append hp.1, hp.2]
  rw [Listener.advance, hlen, hbuffer, frontCall_append hp, List.take_left, List.drop_left]

/-- A buffer that has a message begins with the next one. -/
theorem Following.next (hsized : ∀ p ∈ whole, Sized p) (hfront : received <+: whole.flatten)
    (h : Following whole received l) (hmessage : HasMessage l.buffer) :
    ∃ p behind rest, whole = l.taken ++ p :: rest ∧ Sized p ∧ l.buffer = p ++ behind := by
  obtain ⟨rest, rfl, hbuffer⟩ := h.coming hfront
  cases rest with
  | nil =>
      rw [List.flatten_nil, List.prefix_nil] at hbuffer
      exact absurd (hbuffer ▸ hmessage.1) (by decide)
  | cons p rest =>
      have hp : Sized p := hsized p (by simp)
      rw [List.flatten_cons] at hbuffer
      have hlen := headerMsgLen_front hp hmessage.1 hbuffer
      -- the whole message is there
      obtain ⟨behind, hbehind⟩ : p <+: l.buffer :=
        List.prefix_of_prefix_length_le (List.prefix_append p _) hbuffer (hlen ▸ hmessage.2)
      exact ⟨p, behind, rest, rfl, hp, hbehind.symm⟩

/-- Taking the next message. -/
theorem Following.advance (hsized : ∀ p ∈ whole, Sized p) (hfront : received <+: whole.flatten)
    (h : Following whole received l) (hmessage : HasMessage l.buffer) :
    Following whole received l.advance ∧ l.advance.buffer.length < l.buffer.length := by
  obtain ⟨p, behind, rest, rfl, hp, hbuffer⟩ := h.next hsized hfront hmessage
  rw [advance_of_sized hp hbuffer]
  refine ⟨⟨⟨rest, by simp⟩, ?_⟩, ?_⟩
  · show (l.taken ++ [p]).flatten ++ behind = received
    rw [← h.received, hbuffer]
    simp
  · show behind.length < l.buffer.length
    have hpos := hp.1
    rw [hbuffer, List.length_append]
    omega

variable (raises : HandlerCall → Bool)

section Rule

variable {P : List UInt8 → Listener → Prop} {E : ListenerError → Prop} {bytes : List UInt8}

/-- The listener ends like this, or on an error like that. -/
def Ends (P : Listener → Prop) (E : ListenerError → Prop) : Except ListenerError Listener → Prop
  | .ok l => P l
  | .error e => E e

/-- A pass on what has been received waits, ends the loop on an error, or takes something off the
buffer and goes on. -/
def Passing (P : List UInt8 → Listener → Prop) (E : ListenerError → Prop) (bytes : List UInt8) :
    Prop :=
  ∀ received l, received <+: bytes → P received l →
    listenerBody raises l = .ok (.done l) ∨ (∃ e, listenerBody raises l = .error e ∧ E e) ∨
      ∃ l', listenerBody raises l = .ok (.next l') ∧ P received l' ∧
        l'.buffer.length < l.buffer.length

variable {raises}

/-- The inner loop ends like its passes. -/
theorem listenerLoop_ends (hbody : Passing raises P E bytes) (hfront : received <+: bytes)
    (h : P received l) {bound : Nat} (hbound : l.buffer.length < bound) :
    Ends (P received) E (FuelLoop.run .hangs (listenerBody raises) bound l) := by
  induction bound generalizing l with
  | zero => omega
  | succ bound ih =>
      rcases hbody received l hfront h with hdone | ⟨e, he, herror⟩ | ⟨l', hnext, h', hlt⟩
      · rw [FuelLoop.run_done hdone]
        exact h
      · rw [FuelLoop.run, he]
        exact herror
      · rw [FuelLoop.run_next hnext]
        exact ih h' (by omega)

/-- **The rule for the listener.** What its passes and more input preserve holds when the listener
ends, unless it ends on an error of a pass. -/
theorem tcpListenerLoop_ends (hbody : Passing raises P E bytes)
    (hmore : ∀ received data l, P received l →
      P (received ++ data) { l with buffer := l.buffer ++ data })
    {chunks : List (List UInt8)} (hfront : received ++ chunks.flatten <+: bytes)
    (h : P received l) :
    ∃ received', received' <+: received ++ chunks.flatten ∧
      Ends (P received') E (tcpListenerLoop raises chunks l) := by
  induction chunks generalizing received l with
  | nil => exact ⟨received, List.prefix_append _ _, h⟩
  | cons data chunks ih =>
      rw [tcpListenerLoop]
      split
      · exact ⟨received, List.prefix_append _ _, h⟩
      · rw [List.flatten_cons, ← List.append_assoc] at hfront ⊢
        have hdata : Ends (P (received ++ data)) E (receiveData raises data l) :=
          listenerLoop_ends hbody ((List.prefix_append _ _).trans hfront) (hmore _ data _ h)
            (Nat.lt_succ_self _)
        generalize receiveData raises data l = x at hdata
        cases x with
        | error e => exact ⟨received ++ data, List.prefix_append _ _, hdata⟩
        | ok l' => exact ih hfront hdata

end Rule

/-- **One pass** waits, takes the next message and ends there, or takes it and goes on. -/
theorem listenerBody_following (hsized : ∀ p ∈ whole, Sized p) (hfront : received <+: whole.flatten)
    (h : Following whole received l) :
    listenerBody raises l = .ok (.done l) ∨
      (∃ taken calls, listenerBody raises l = .error (.raised taken calls) ∧ taken <+: whole) ∨
      ∃ l', listenerBody raises l = .ok (.next l') ∧ Following whole received l' ∧
        l'.buffer.length < l.buffer.length := by
  rcases listenerBody_cases raises l with
    ⟨-, hdone⟩ | ⟨hmessage, -, hraised⟩ | ⟨hmessage, -, hnext⟩
  · exact .inl hdone
  · exact .inr (.inl ⟨_, _, hraised, (h.advance hsized hfront hmessage).1.taken⟩)
  · exact .inr (.inr ⟨_, hnext, h.advance hsized hfront hmessage⟩)

/-- **The listener takes only whole messages**, whatever the pieces in which it receives them. -/
theorem tcpListenerLoop_following (hsized : ∀ p ∈ whole, Sized p) {chunks : List (List UInt8)}
    (hfront : received ++ chunks.flatten <+: whole.flatten) (h : Following whole received l) :
    ∃ received', received' <+: received ++ chunks.flatten ∧
      TakesOnly whole received' (tcpListenerLoop raises chunks l) := by
  have hbody : Passing raises (Following whole)
      (fun e => ∃ taken calls, e = .raised taken calls ∧ taken <+: whole) whole.flatten := by
    intro received l hfront h
    rcases listenerBody_following raises hsized hfront h with
      hdone | ⟨taken, calls, hraised, htaken⟩ | hnext
    · exact .inl hdone
    · exact .inr (.inl ⟨_, hraised, taken, calls, rfl, htaken⟩)
    · exact .inr (.inr hnext)
  obtain ⟨received', hreceived, hends⟩ :=
    tcpListenerLoop_ends hbody (fun _ data _ h => h.append data) hfront h
  refine ⟨received', hreceived, ?_⟩
  rcases hloop : tcpListenerLoop raises chunks l with e | l'
  · rw [hloop] at hends
    obtain ⟨taken, calls, rfl, htaken⟩ := hends
    exact htaken
  · rw [hloop] at hends
    exact hends

end GatewayService

end OrderMatchingEngine
