import OrderMatchingEngine.Properties.Segmentation
import OrderMatchingEngine.Refinement.Wire

/-!
# OrderMatchingEngine.Properties.RequestWire

Requests survive the wire.

What `gateway.py` packs is a packet to the engine, which hands it to the handler of the same request
with the same fields (`Rpc.handled`). The packets of a stream are cut where they were put together
(`Framing.frames_unique`), however the stream arrives; so the engine acts on the very requests that
were sent, in order (`requests_survive`).
-/

namespace OrderMatchingEngine

open ClientGateway
open StructFormat (fit)

namespace GatewayService

/-- What the service sends to the engine: its log-in, and the requests of its users. -/
inductive Rpc
  | connectToOme
  | placeOrder (orderId userId : UInt64) (request : TradingPb2.NewOrderRequest)
  | cancelOrder (userId : UInt64) (request : TradingPb2.CancelOrderRequest)
  | streamMarketData (symbol : String)
  | requestMarketDataSnapshot (symbol : String)
  deriving DecidableEq, Repr

namespace Rpc

/-- The bytes that are sent. -/
def packed : Rpc → Option (List UInt8)
  | connectToOme => GatewayService.connectToOme
  | placeOrder orderId userId request =>
    GatewayService.placeOrder orderId.toNat userId.toNat request
  | cancelOrder userId request => GatewayService.cancelOrder userId.toNat request
  | streamMarketData symbol => GatewayService.streamMarketData symbol
  | requestMarketDataSnapshot symbol => GatewayService.requestMarketDataSnapshot symbol

/-- The symbol of a request. -/
def symbol? : Rpc → Option String
  | connectToOme => none
  | placeOrder _ _ request => some request.symbol
  | cancelOrder _ request => some request.symbol
  | streamMarketData symbol => some symbol
  | requestMarketDataSnapshot symbol => some symbol

/-- The order that a user places. -/
def order (orderId userId : UInt64) (request : TradingPb2.NewOrderRequest) : Order Int :=
  { id := orderId
    symbol := encode request.symbol
    userId := userId
    side := if request.side = TradingPb2.buy then .buy else .sell
    type := if request.type = TradingPb2.market then .market else .limit
    price := .ofBits request.price
    quantity := request.quantity
    timestamp := 0 }

/-- The engine processes the packet `data` of `fd` by the handler of this request, which finds its
fields in it. -/
def Handled (fd : Int) (data : List UInt8) : Rpc → Prop
  | connectToOme => ∀ clock fuel now g,
    processPacket clock fuel now fd data g = .ok (handleLogin fd g)
  | placeOrder orderId userId request => ∃ req : OrderMatchingEngine.NewOrderRequest,
    (∀ clock fuel now g,
      processPacket clock fuel now fd data g = handleNewOrder clock now fuel fd req [] g) ∧
    req.order = order orderId userId request ∧
    UInt64.ofNat (littleEndian (field req 33 8)) = request.price
  | cancelOrder userId request => ∃ req : OrderCancelRequest,
    (∀ clock fuel now g, processPacket clock fuel now fd data g = handleOrderCancel fd req g) ∧
    req.clientOrderId = request.orderId ∧ req.userId = userId ∧
    cleanSymbol req.symbol = encode request.symbol ∧
    req.side = if request.side = TradingPb2.buy then 0 else 1
  | streamMarketData symbol => ∃ req : SubscriptionRequest,
    (∀ clock fuel now g,
      processPacket clock fuel now fd data g = .ok (handleSubscriptionRequest fd req g)) ∧
    cleanSymbol req.symbol = encode symbol ∧ req.isSubscribe = 1
  | requestMarketDataSnapshot symbol => ∃ req : OrderMatchingEngine.MarketDataRequest,
    (∀ clock fuel now g,
      processPacket clock fuel now fd data g = .ok (handleMarketDataRequest fd req g)) ∧
    cleanSymbol req.symbol = encode symbol

end Rpc

/-- A symbol of 1 to 10 ASCII bytes, without NUL and without trailing white space. -/
structure IsSymbol (s : String) : Prop where
  pos : 0 < (encode s).length
  le : (encode s).length ≤ 10
  ascii : ∀ byte ∈ encode s, byte < 128
  noNul : ∀ byte ∈ encode s, byte ≠ 0
  last : ∀ byte ∈ (encode s).getLast?, isSpace byte = false

instance (s : String) : Decidable (IsSymbol s) :=
  decidable_of_iff (0 < (encode s).length ∧ (encode s).length ≤ 10 ∧
      (encode s).all (fun byte => byte < 128 && byte != 0) = true ∧
      (encode s).getLast?.all (!isSpace ·) = true) <| by
    simp only [List.all_eq_true, Bool.and_eq_true, decide_eq_true_eq, bne_iff_ne,
      Option.all_eq_true, Bool.not_eq_true', ← Option.mem_def]
    exact ⟨fun ⟨pos, le, bytes, last⟩ =>
        ⟨pos, le, fun byte hb => (bytes byte hb).1, fun byte hb => (bytes byte hb).2, last⟩,
      fun ⟨pos, le, ascii, noNul, last⟩ =>
        ⟨pos, le, fun byte hb => ⟨ascii byte hb, noNul byte hb⟩, last⟩⟩

/-- Such a symbol is the same after `clean_symbol`. -/
theorem IsSymbol.cleanSymbol {s : String} (h : IsSymbol s) :
    cleanSymbol (fit 10 (encode s)) = encode s := by
  rw [cleanSymbol_fit h.noNul, List.take_of_length_le h.le, strip_of_last h.last]

/-! ### One request -/

namespace Rpc

theorem packed_packet {rpc : Rpc} {data : List UInt8} (h : rpc.packed = some data) :
    packets.size data = some data.length := by
  cases rpc with
  | connectToOme =>
      obtain ⟨_, hpacket⟩ := connectToOme_packet h
      exact hpacket.size (by decide)
  | placeOrder orderId userId request => exact (placeOrder_packet h).size (by decide)
  | cancelOrder userId request => exact (cancelOrder_packet h).size (by decide)
  | streamMarketData symbol => exact (streamMarketData_packet h).size (by decide)
  | requestMarketDataSnapshot symbol => exact (requestMarketDataSnapshot_packet h).size (by decide)

theorem exists_packed (rpc : Rpc) : ∃ data, rpc.packed = some data := by
  cases rpc with
  | connectToOme =>
      show ∃ data, GatewayService.connectToOme = some data
      unfold GatewayService.connectToOme
      refine exists_sendToOme ?_ (by decide) (by decide)
      exact .cons trivial (.cons trivial .nil)
  | placeOrder orderId userId request =>
      refine exists_sendToOme ?_ (by decide) (by decide)
      exact .cons orderId.toNat_lt (.cons userId.toNat_lt (.cons trivial (.cons (flag_lt _)
        (.cons (flag_lt _) (.cons trivial (.cons request.quantity.toNat_lt .nil))))))
  | cancelOrder userId request =>
      refine exists_sendToOme ?_ (by decide) (by decide)
      exact .cons request.orderId.toNat_lt (.cons userId.toNat_lt (.cons trivial
        (.cons (flag_lt _) .nil)))
  | streamMarketData symbol =>
      show ∃ data, GatewayService.streamMarketData symbol = some data
      unfold GatewayService.streamMarketData
      refine exists_sendToOme ?_ (by decide) (by decide)
      exact .cons trivial (.cons (show 1 < 256 ^ 1 by decide) .nil)
  | requestMarketDataSnapshot symbol =>
      show ∃ data, GatewayService.requestMarketDataSnapshot symbol = some data
      unfold GatewayService.requestMarketDataSnapshot
      refine exists_sendToOme ?_ (by decide) (by decide)
      exact .cons trivial .nil

/-- **One request** arrives at its handler, with its fields. -/
theorem handled {rpc : Rpc} {data : List UInt8} (fd : Int) (h : rpc.packed = some data)
    (hsymbol : ∀ s ∈ rpc.symbol?, IsSymbol s) : rpc.Handled fd data := by
  cases rpc with
  | connectToOme => exact fun clock fuel now g => connectToOme_processed clock fuel now fd g h
  | placeOrder orderId userId request =>
      obtain ⟨req, hread, hid, huser, hsym, hside, htype, hprice, hquantity⟩ := placeOrder_read h
      refine ⟨req, fun clock fuel now g => placeOrder_processed clock fuel now fd g h hread, ?_,
        hprice⟩
      have hclean := (hsymbol request.symbol rfl).cleanSymbol
      have hbuy : req.side = 0 ↔ request.side = TradingPb2.buy := by
        rw [hside]
        split <;> simp_all
      have hmarket : req.type = 0 ↔ request.type = TradingPb2.market := by
        rw [htype]
        split <;> simp_all
      rw [NewOrderRequest.order, Rpc.order, hid, huser, hsym, hclean, hquantity,
        UInt64.ofNat_toNat, UInt64.ofNat_toNat, NewOrderRequest.price, hprice,
        if_congr hbuy rfl rfl, if_congr hmarket rfl rfl]
  | cancelOrder userId request =>
      obtain ⟨req, hread, hid, huser, hsym, hside⟩ := cancelOrder_read h
      refine ⟨req, fun clock fuel now g => cancelOrder_processed clock fuel now fd g h hread, hid,
        ?_, ?_, hside⟩
      · rw [huser, UInt64.ofNat_toNat]
      · rw [hsym, (hsymbol request.symbol rfl).cleanSymbol]
  | streamMarketData symbol =>
      obtain ⟨req, hread, hsym, hsubscribe⟩ := streamMarketData_read h
      refine ⟨req, fun clock fuel now g => streamMarketData_processed clock fuel now fd g h hread,
        ?_, hsubscribe⟩
      rw [hsym, (hsymbol symbol rfl).cleanSymbol]
  | requestMarketDataSnapshot symbol =>
      obtain ⟨req, hread, hsym⟩ := requestMarketDataSnapshot_read h
      refine ⟨req, fun clock fuel now g =>
        requestMarketDataSnapshot_processed clock fuel now fd g h hread, ?_⟩
      rw [hsym, (hsymbol symbol rfl).cleanSymbol]

/-- The packets of requests, one for each. -/
theorem exists_all_packed (fd : Int) {rpcs : List Rpc}
    (hsymbol : ∀ rpc ∈ rpcs, ∀ s ∈ rpc.symbol?, IsSymbol s) :
    ∃ datas, List.Forall₂ (fun rpc data => rpc.packed = some data ∧ rpc.Handled fd data) rpcs
        datas ∧ ∀ data ∈ datas, packets.size data = some data.length := by
  induction rpcs with
  | nil => exact ⟨[], .nil, by simp⟩
  | cons rpc rpcs ih =>
      obtain ⟨hfirst, hrest⟩ := List.forall_mem_cons.mp hsymbol
      obtain ⟨data, hdata⟩ := exists_packed rpc
      obtain ⟨datas, hdatas, hsizes⟩ := ih hrest
      exact ⟨data :: datas, .cons ⟨hdata, handled fd hdata hfirst⟩ hdatas,
        List.forall_mem_cons.mpr ⟨packed_packet hdata, hsizes⟩⟩

end Rpc

/-! ### A stream of requests -/

/-- **Requests survive the wire.** Whatever the service sends over a connection, log-in included, is
packed; and in whatever pieces the bytes arrive, the engine hands over the packets of these requests
in order and takes the course of doing so one by one, each by its handler with its fields. It can
stop before the end only where the process dies, and leaves nothing in the buffer if it does not. -/
theorem requests_survive (clock : Nat → Timestamp) (fuel : Nat) (now : Nat → Nat → Timestamp)
    (fd : Int) (g : ClientGateway) (hbuffer : g.buffer fd = []) (rpcs : List Rpc)
    (hsymbol : ∀ rpc ∈ rpcs, ∀ s ∈ rpc.symbol?, IsSymbol s) :
    ∃ datas,
      List.Forall₂ (fun rpc data => rpc.packed = some data ∧ rpc.Handled fd data) rpcs datas ∧
      ∀ chunks, stream chunks = datas.flatten →
        let course := g.run clock fuel (messages fd chunks)
        SameCourse [] course (datas.foldlM (takePacket clock fuel now fd) ⟨g, [], []⟩) ∧
          handedOver course <+: datas ∧
          ∀ p, course = .ok p → p.handed = datas ∧ p.gateway.buffer fd = [] := by
  obtain ⟨datas, hdatas, hsizes⟩ := Rpc.exists_all_packed fd hsymbol
  refine ⟨datas, hdatas, fun chunks hstream => ?_⟩
  have hframes : packets.frames (g.buffer fd ++ stream chunks) = datas ∧
      packets.rest (g.buffer fd ++ stream chunks) = [] := by
    rw [hbuffer, hstream, List.nil_append, ← List.append_nil datas.flatten]
    exact packets.frames_unique hsizes packets_size_nil
  have hcourse : SameCourse [] (g.run clock fuel (messages fd chunks))
      (datas.foldlM (takePacket clock fuel now fd) ⟨g, [], []⟩) := by
    rw [← hframes.1]
    refine run_messages now chunks (t := ⟨g, [], []⟩) (Agree.refl g) fun _ => ?_
    rw [hbuffer, packets.frames_none packets_size_nil]
  have hrest : ∀ p, g.run clock fuel (messages fd chunks) = .ok p → p.gateway.buffer fd = [] := by
    intro p hp
    rcases chunks with _ | ⟨chunk, chunks⟩
    · obtain rfl := Except.ok.inj hp
      exact hbuffer
    · rw [run_messages_buffer hp, hframes.2]
  refine ⟨hcourse, ?_⟩
  generalize g.run clock fuel (messages fd chunks) = course at hcourse hrest ⊢
  generalize htaken : datas.foldlM (takePacket clock fuel now fd) ⟨g, [], []⟩ = taken at hcourse
  cases hcourse with
  | error hcrash =>
      have hfront := (takePackets_error htaken).1
      rw [hcrash.1] at hfront
      exact ⟨hfront, by simp⟩
  | @ok p p' hend =>
      have hhanded : p.handed = datas := hend.1.symm.trans (takePackets_ok htaken).1
      refine ⟨by rw [← hhanded]; exact List.prefix_refl _, fun q hq => ?_⟩
      obtain rfl := Except.ok.inj hq
      exact ⟨hhanded, hrest _ rfl⟩

/-- A log-in and an order in two pieces. -/
theorem requests_survive_twoPieces :
    let order : TradingPb2.NewOrderRequest :=
      ⟨"ABCDEFGHIJ", 0, 1, 0x4059000000000000, 0xffffffffffffffff⟩
    ∃ datas, List.Forall₂ (fun rpc data => rpc.packed = some data ∧ rpc.Handled 4 data)
        [Rpc.connectToOme, .placeOrder 1 7 order] datas ∧
      ∀ chunks, stream chunks = datas.flatten →
        handedOver (started.run (fun _ => 0) 10 (messages 4 chunks)) <+: datas := by
  intro order
  obtain ⟨datas, hdatas, hrun⟩ := requests_survive (fun _ => 0) 10 (fun _ _ => 0) 4 started rfl
    [.connectToOme, .placeOrder 1 7 order] (by decide)
  exact ⟨datas, hdatas, fun chunks hstream => (hrun chunks hstream).2.1⟩

end GatewayService

end OrderMatchingEngine
