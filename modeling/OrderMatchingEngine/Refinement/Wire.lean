import OrderMatchingEngine.GatewayCodec
import OrderMatchingEngine.Refinement.Messages

/-!
# OrderMatchingEngine.Refinement.Wire

The requests of `gateway.py` under the structs of `protocol.h`.

Both sides describe a message on their own: one by format strings, one by packed structs. A message
of the service is one packet, of the type that its method chose, and holds at every offset of the
struct what was packed there (`placeOrder_read` and its siblings).
-/

namespace OrderMatchingEngine

open StructFormat (Code Value decode fit pack readAt store)
open Records (Packed)

theorem littleEndian_eq (bytes : List UInt8) : littleEndian bytes = decode bytes := by
  induction bytes with
  | nil => rfl
  | cons byte bytes ih => rw [littleEndian, decode, ih]

namespace GatewayService

/-! ### Strings -/

theorem encode_inj {s s' : String} (h : encode s = encode s') : s = s' := by
  have hutf8 : s.toList.utf8Encode = s'.toList.utf8Encode := congrArg List.toByteArray h
  rw [← String.toByteArray_ofList, ← String.toByteArray_ofList, String.toByteArray_inj,
    String.ofList_toList, String.ofList_toList] at hutf8
  exact hutf8

/-- Where the symbol is to be ten bytes, filling up and cutting is the item's part. -/
theorem fit_ljust (width : Nat) (bytes : List UInt8) :
    fit width (ljust bytes width) = fit width bytes := by
  rcases Nat.le_total width bytes.length with hle | hle
  · have hlong : ljust bytes width = bytes := by
      rw [ljust, Nat.sub_eq_zero_of_le hle, List.replicate_zero, List.append_nil]
    rw [hlong]
  · have hlen : (ljust bytes width).length = width := by
      rw [ljust, List.length_append, List.length_replicate, Nat.add_sub_cancel' hle]
    rw [StructFormat.fit_eq_self hlen, fit, List.take_of_length_le hle, ljust]

/-- A byte string without trailing white space. -/
def strip (bytes : List UInt8) : List UInt8 := (bytes.reverse.dropWhile isSpace).reverse

theorem strip_of_last {bytes : List UInt8} (h : ∀ byte ∈ bytes.getLast?, isSpace byte = false) :
    strip bytes = bytes := by
  unfold strip
  rw [← List.head?_reverse] at h
  rcases hrev : bytes.reverse with _ | ⟨byte, rest⟩
  · rw [List.dropWhile_nil, ← hrev, List.reverse_reverse]
  · rw [List.dropWhile_cons_of_neg (by simpa using h byte (by rw [hrev]; rfl)), ← hrev,
      List.reverse_reverse]

/-- **`clean_symbol` undoes the padding** of a string without NULs, but not the cut. -/
theorem cleanSymbol_fit {bytes : List UInt8} (h : ∀ byte ∈ bytes, byte ≠ 0) (width : Nat) :
    cleanSymbol (fit width bytes) = strip (bytes.take width) := by
  have hkept : (bytes.take width).filter (· ≠ 0) = bytes.take width :=
    List.filter_eq_self.mpr fun byte hbyte => by simpa using h byte (List.mem_of_mem_take hbyte)
  have hpadding : (List.replicate (width - bytes.length) (0 : UInt8)).filter (· ≠ 0) = [] :=
    List.filter_eq_nil_iff.mpr fun byte hbyte => by simp [List.eq_of_mem_replicate hbyte]
  rw [cleanSymbol, fit, List.filter_append, hkept, hpadding, List.append_nil, strip]

/-! ### Packets -/

variable {format : List Code} {values : List Value} {msgType : Nat} {data : List UInt8}

/-- A message to the engine: a header with the length of the whole, and the payload behind it. -/
structure Packet (format : List Code) (values : List Value) (msgType : Nat) (data : List UInt8) :
    Prop where
  length : data.length = 5 + StructFormat.size format
  headerType : headerType data = .ofNat msgType
  headerMsgLen : headerMsgLen data = data.length
  payload : readAt data 5 format = List.zipWith store format values

theorem Packet.of_pack {seqNum : Nat} (h : (pack format values).bind (fun payLoad =>
      (pack headerFmt [.int seqNum, .int msgType, .int (5 + payLoad.length)]).map (· ++ payLoad)) =
        some data) : Packet format values msgType data := by
  obtain ⟨payLoad, hpayLoad, hsend⟩ := Option.bind_eq_some_iff.mp h
  obtain ⟨header, hheader, rfl⟩ := Option.map_eq_some_iff.mp hsend
  have hsize := StructFormat.length_pack hpayLoad
  have hlen : (header ++ payLoad).length = 5 + StructFormat.size format := by
    rw [List.length_append, StructFormat.length_pack hheader, hsize]
    rfl
  have hread := StructFormat.readAt_pack (StructFormat.pack_append hheader hpayLoad)
  obtain ⟨-, hread⟩ := List.cons.inj hread
  obtain ⟨htype, hread⟩ := List.cons.inj hread
  obtain ⟨hmsgLen, hread⟩ := List.cons.inj hread
  refine ⟨hlen, ?_, ?_, hread⟩
  · unfold OrderMatchingEngine.headerType
    rw [littleEndian_eq]
    exact congrArg UInt8.ofNat (Value.int.inj htype)
  · unfold OrderMatchingEngine.headerMsgLen
    rw [littleEndian_eq, hlen, ← hsize]
    exact Value.int.inj hmsgLen

theorem Packet.of_sendToOme (h : (pack format values).bind (sendToOme msgType) = some data) :
    Packet format values msgType data := .of_pack h

/-- Values that suit the format are sent. -/
theorem exists_packet {seqNum : Nat} (hsuits : List.Forall₂ StructFormat.Suits format values)
    (hseq : seqNum < 65536) (htype : msgType < 256) (hsize : StructFormat.size format < 65531) :
    ∃ data, (pack format values).bind (fun payLoad =>
      (pack headerFmt [.int seqNum, .int msgType, .int (5 + payLoad.length)]).map (· ++ payLoad)) =
        some data := by
  obtain ⟨payLoad, hpayLoad⟩ := StructFormat.exists_pack hsuits
  have hlen : 5 + payLoad.length < 65536 := by
    rw [StructFormat.length_pack hpayLoad]
    omega
  obtain ⟨header, hheader⟩ : ∃ header,
      pack headerFmt [.int seqNum, .int msgType, .int (5 + payLoad.length)] = some header :=
    StructFormat.exists_pack (.cons hseq (.cons htype (.cons hlen .nil)))
  refine ⟨header ++ payLoad, ?_⟩
  rw [hpayLoad, Option.bind_some, hheader]
  rfl

theorem exists_sendToOme (hsuits : List.Forall₂ StructFormat.Suits format values)
    (htype : msgType < 256) (hsize : StructFormat.size format < 65531) :
    ∃ data, (pack format values).bind (sendToOme msgType) = some data :=
  exists_packet hsuits (by decide) htype hsize

/-- The service's messages are packets to the engine. -/
theorem Packet.size (h : Packet format values msgType data)
    (hsize : StructFormat.size format ≤ 1019) : packets.size data = some data.length := by
  rw [packets_size_eq_some, h.headerMsgLen, h.length]
  omega

/-- The request that a packet of the right length is. -/
theorem Packet.read? (h : Packet format values msgType data) {n : Nat}
    (hn : 5 + StructFormat.size format = n) :
    ∃ req : Packed UInt8 n, req.units = data ∧ Records.read? n data = some (req, []) := by
  obtain ⟨req, hreq⟩ : ∃ req : Packed UInt8 n, req.units = data := ⟨⟨data, h.length.trans hn⟩, rfl⟩
  refine ⟨req, hreq, ?_⟩
  have hread := Records.read?_append req []
  rwa [List.append_nil, hreq] at hread

/-- A flag fits into a byte. -/
theorem flag_lt (p : Prop) [Decidable p] : (if p then 0 else 1) < 256 ^ 1 := by
  split <;> omega

/-! ### The four requests, and the log-in -/

section Requests

variable {orderId userId : Nat}

theorem placeOrder_packet {request : TradingPb2.NewOrderRequest}
    (h : placeOrder orderId userId request = some data) :
    Packet newOrderFmt
      [.int orderId, .int userId, .bytes (ljust (encode request.symbol) 10),
        .int (if request.side = TradingPb2.buy then 0 else 1),
        .int (if request.type = TradingPb2.market then 0 else 1), .double request.price,
        .int request.quantity.toNat] msgNewOrder data := .of_sendToOme h

/-- **A new order**, as `struct NewOrderRequest` has it. -/
theorem placeOrder_read {request : TradingPb2.NewOrderRequest}
    (h : placeOrder orderId userId request = some data) :
    ∃ req : NewOrderRequest, Records.read? 49 data = some (req, []) ∧
      req.clientOrderId = .ofNat orderId ∧ req.userId = .ofNat userId ∧
      req.symbol = fit 10 (encode request.symbol) ∧
      req.side = (if request.side = TradingPb2.buy then 0 else 1) ∧
      req.type = (if request.type = TradingPb2.market then 0 else 1) ∧
      UInt64.ofNat (littleEndian (field req 33 8)) = request.price ∧
      req.quantity = request.quantity := by
  have hpacket := placeOrder_packet h
  obtain ⟨req, rfl, hread⟩ := hpacket.read? (n := 49) rfl
  have hvalues : [Value.int (decode (field req 5 8)), .int (decode (field req 13 8)),
      .bytes (field req 21 10), .int (decode (field req 31 1)), .int (decode (field req 32 1)),
      .double (.ofNat (decode (field req 33 8))), .int (decode (field req 41 8))] = _ :=
    hpacket.payload
  simp only [newOrderFmt, List.zipWith_cons_cons, store, fit_ljust, List.cons.injEq,
    Value.int.injEq, Value.bytes.injEq, Value.double.injEq, ← littleEndian_eq] at hvalues
  obtain ⟨hid, huser, hsymbol, hside, htype, hprice, hquantity, -⟩ := hvalues
  refine ⟨req, hread, by rw [NewOrderRequest.clientOrderId, hid],
    by rw [NewOrderRequest.userId, huser], hsymbol, ?_, ?_, hprice, ?_⟩
  · rw [NewOrderRequest.side, hside]
    split <;> rfl
  · rw [NewOrderRequest.type, htype]
    split <;> rfl
  · rw [NewOrderRequest.quantity, hquantity, UInt64.ofNat_toNat]

theorem cancelOrder_packet {request : TradingPb2.CancelOrderRequest}
    (h : cancelOrder userId request = some data) :
    Packet cancelReqFmt
      [.int request.orderId.toNat, .int userId, .bytes (ljust (encode request.symbol) 10),
        .int (if request.side = TradingPb2.buy then 0 else 1)] msgCancelOrder data :=
  .of_sendToOme h

/-- **A cancel**, as `struct OrderCancelRequest` has it. -/
theorem cancelOrder_read {request : TradingPb2.CancelOrderRequest}
    (h : cancelOrder userId request = some data) :
    ∃ req : OrderCancelRequest, Records.read? 32 data = some (req, []) ∧
      req.clientOrderId = request.orderId ∧ req.userId = .ofNat userId ∧
      req.symbol = fit 10 (encode request.symbol) ∧
      req.side = (if request.side = TradingPb2.buy then 0 else 1) := by
  have hpacket := cancelOrder_packet h
  obtain ⟨req, rfl, hread⟩ := hpacket.read? (n := 32) rfl
  have hvalues : [Value.int (decode (field req 5 8)), .int (decode (field req 13 8)),
      .bytes (field req 21 10), .int (decode (field req 31 1))] = _ := hpacket.payload
  simp only [cancelReqFmt, List.zipWith_cons_cons, store, fit_ljust, List.cons.injEq,
    Value.int.injEq, Value.bytes.injEq, ← littleEndian_eq] at hvalues
  obtain ⟨hid, huser, hsymbol, hside, -⟩ := hvalues
  refine ⟨req, hread, by rw [OrderCancelRequest.clientOrderId, hid, UInt64.ofNat_toNat],
    by rw [OrderCancelRequest.userId, huser], hsymbol, ?_⟩
  rw [OrderCancelRequest.side, hside]
  split <;> rfl

theorem streamMarketData_packet {symbol : String} (h : streamMarketData symbol = some data) :
    Packet subReqFmt [.bytes (ljust (encode symbol) 10), .int 1] msgSubscribe data :=
  .of_sendToOme h

/-- **A subscription**, as `struct SubscriptionRequest` has it. -/
theorem streamMarketData_read {symbol : String} (h : streamMarketData symbol = some data) :
    ∃ req : SubscriptionRequest, Records.read? 16 data = some (req, []) ∧
      req.symbol = fit 10 (encode symbol) ∧ req.isSubscribe = 1 := by
  have hpacket := streamMarketData_packet h
  obtain ⟨req, rfl, hread⟩ := hpacket.read? (n := 16) rfl
  have hvalues : [Value.bytes (field req 5 10), .int (decode (field req 15 1))] = _ :=
    hpacket.payload
  simp only [subReqFmt, List.zipWith_cons_cons, store, fit_ljust, List.cons.injEq,
    Value.int.injEq, Value.bytes.injEq, ← littleEndian_eq] at hvalues
  obtain ⟨hsymbol, hsubscribe, -⟩ := hvalues
  exact ⟨req, hread, hsymbol, by rw [SubscriptionRequest.isSubscribe, hsubscribe]; rfl⟩

theorem requestMarketDataSnapshot_packet {symbol : String}
    (h : requestMarketDataSnapshot symbol = some data) :
    Packet [.bytes 10] [.bytes (ljust (encode symbol) 10)] 77 data := .of_sendToOme h

/-- **A market data request**, as `struct MarketDataRequest` has it. -/
theorem requestMarketDataSnapshot_read {symbol : String}
    (h : requestMarketDataSnapshot symbol = some data) :
    ∃ req : MarketDataRequest, Records.read? 15 data = some (req, []) ∧
      req.symbol = fit 10 (encode symbol) := by
  have hpacket := requestMarketDataSnapshot_packet h
  obtain ⟨req, rfl, hread⟩ := hpacket.read? (n := 15) rfl
  have hvalues : [Value.bytes (field req 5 10)] = _ := hpacket.payload
  simp only [List.zipWith_cons_cons, store, fit_ljust, List.cons.injEq, Value.bytes.injEq]
    at hvalues
  exact ⟨req, hread, hvalues.1⟩

theorem connectToOme_packet (h : connectToOme = some data) :
    ∃ values, Packet loginFmt values 76 data := ⟨_, .of_sendToOme h⟩

end Requests

/-! ### The handlers they reach -/

section Handlers

variable {orderId userId : Nat} (clock : Nat → Timestamp) (fuel : Nat) (now : Nat → Timestamp)
  (fd : Int) (g : ClientGateway)

open ClientGateway

theorem placeOrder_processed {request : TradingPb2.NewOrderRequest}
    (h : placeOrder orderId userId request = some data) {req : NewOrderRequest}
    (hread : Records.read? 49 data = some (req, [])) :
    processPacket clock fuel now fd data g = handleNewOrder clock now fuel fd req [] g := by
  have htype : requestType? data = some .newOrder := by
    rw [requestType?, (placeOrder_packet h).headerType]
    rfl
  rw [processPacket, htype]
  exact withRequest_read hread _

theorem cancelOrder_processed {request : TradingPb2.CancelOrderRequest}
    (h : cancelOrder userId request = some data) {req : OrderCancelRequest}
    (hread : Records.read? 32 data = some (req, [])) :
    processPacket clock fuel now fd data g = handleOrderCancel fd req g := by
  have htype : requestType? data = some .orderCancel := by
    rw [requestType?, (cancelOrder_packet h).headerType]
    rfl
  rw [processPacket, htype]
  exact withRequest_read hread _

theorem streamMarketData_processed {symbol : String} (h : streamMarketData symbol = some data)
    {req : SubscriptionRequest} (hread : Records.read? 16 data = some (req, [])) :
    processPacket clock fuel now fd data g = .ok (handleSubscriptionRequest fd req g) := by
  have htype : requestType? data = some .subscriptionRequest := by
    rw [requestType?, (streamMarketData_packet h).headerType]
    rfl
  rw [processPacket, htype]
  exact withRequest_read hread _

theorem requestMarketDataSnapshot_processed {symbol : String}
    (h : requestMarketDataSnapshot symbol = some data) {req : MarketDataRequest}
    (hread : Records.read? 15 data = some (req, [])) :
    processPacket clock fuel now fd data g = .ok (handleMarketDataRequest fd req g) := by
  have htype : requestType? data = some .marketDataRequest := by
    rw [requestType?, (requestMarketDataSnapshot_packet h).headerType]
    rfl
  rw [processPacket, htype]
  exact withRequest_read hread _

theorem connectToOme_processed (h : connectToOme = some data) :
    processPacket clock fuel now fd data g = .ok (handleLogin fd g) := by
  obtain ⟨_, hpacket⟩ := connectToOme_packet h
  have htype : requestType? data = some .loginRequest := by
    rw [requestType?, hpacket.headerType]
    rfl
  rw [processPacket, htype]

end Handlers

end GatewayService

end OrderMatchingEngine
