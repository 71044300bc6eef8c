import OrderMatchingEngine.Refinement.Messages

/-!
# OrderMatchingEngine.Properties.PacketReads

What handlers read of their packets.

The length of a packet is checked against bounds that are the same for all types, and then the
packet is read as the struct of its type. So handlers stay inside the packet exactly if the packets
of clients who have logged in hold their structs, and, where a new order trades, the symbol is
followed by a NUL somewhere in the packet (`reads_within_packets`).
-/

namespace OrderMatchingEngine

open FuelLoop (Iter)

/-- Ways of dying outside a packet. -/
def Fault.PastEnd (fault : Fault) : Prop := fault = .outOfBounds ∨ fault = .unterminatedString

/-- Ways of dying inside the engine. -/
def Fault.InEngine (fault : Fault) : Prop := fault = .outOfFuel ∨ fault = .invalidIterator

/-- How many bytes the handler of a type reads of its packet. That of log-ins reads nothing. -/
def RequestType.size : RequestType → Nat
  | .loginRequest => 0
  | .newOrder => 49
  | .orderCancel => 32
  | .marketDataRequest => 15
  | .subscriptionRequest => 16

namespace MatchingEngine

section Engine

variable {α : Type} [LinearOrder α] {clock : Nat → Timestamp} {fuel : Nat}

/-- A new order trades: it gets a slot and is valid, and the best order on the other side is not
beyond its price. -/
def Trades [Zero α] (e : MatchingEngine α) (o : Order α) : Prop :=
  ∃ own best, e.orderPool.freeIndices.head? = some own ∧ validateOrder o = true ∧
    (e.bookOf o.symbol).bestOf o.side.opposite = some best ∧
    QueueBook.refuses o.side o (Function.update e.cells own o best) = false

theorem cancel_error {cells : Slot → Order α} {id : OrderID} {book : OrderBook α} {fault : Fault}
    (h : book.cancelOrder cells id = .error fault) : fault = .invalidIterator := by
  unfold OrderBook.cancelOrder at h
  split at h
  · simp at h
  · dsimp only at h
    split at h
    · simp at h
    · split at h
      · simp at h
      · exact (Except.error.inj h).symm

/-- The engine dies in its own ways only. -/
theorem cancelOrder_error {id : OrderID} {symbol : Symbol} {side : Int} {e : MatchingEngine α}
    {fault : Fault} (h : cancelOrder id symbol side e = .error fault) : fault.InEngine := by
  unfold cancelOrder at h
  dsimp only at h
  split at h
  · rename_i hcancel
    obtain rfl := Except.error.inj h
    exact .inr (cancel_error hcancel)
  · simp at h
  · simp at h

theorem matchBodyOf_error {sd : OrderSide} {own : Slot} {s : Matching α} {fault : Fault}
    (h : matchBodyOf clock sd own s = .error fault) : fault = .invalidIterator := by
  rcases matchBodyOf_cases clock sd own s with
    ⟨-, hdone⟩ | ⟨-, best, s₁, -, -, hnext | ⟨x, book, -, hnext⟩ | ⟨fault', hcancel, hfail⟩⟩
  · simp [h] at hdone
  · simp [h] at hnext
  · simp [h] at hnext
  · obtain rfl := Except.error.inj (h.symm.trans hfail)
    exact cancel_error hcancel

theorem processOrder_error [Zero α] {o : Order α} {e : MatchingEngine α} {fault : Fault}
    (h : processOrder clock fuel o e = .error fault) : fault.InEngine := by
  rcases hfree : e.orderPool.freeIndices with _ | ⟨own, rest⟩
  · simp [processOrder_exhausted hfree] at h
  · rcases hv : validateOrder o with _ | _
    · simp [processOrder_invalid hfree hv] at h
    · rw [processOrder_accepted hfree hv] at h
      split at h
      · simp at h
      · split at h
        · rename_i hloop
          obtain rfl := Except.error.inj h
          rcases FuelLoop.run_error hloop with hstuck | ⟨s', hpass⟩
          · exact .inl hstuck
          · exact .inr (matchBodyOf_error hpass)
        · simp at h

/-! ### Orders that trade -/

/-- A pass that goes on has met an order and made a trade. -/
theorem matchBodyOf_next {sd : OrderSide} {own : Slot} {s s' : Matching α}
    (h : matchBodyOf clock sd own s = .ok (.next s')) :
    Meets sd own s.engine.cells s.book ∧ s'.trades ≠ [] := by
  rcases matchBodyOf_cases clock sd own s with
    ⟨-, hdone⟩ | ⟨hmeets, best, s₁, -, rfl, hnext | ⟨x, book, -, hnext⟩ | ⟨fault, -, hfail⟩⟩
  · simp [h] at hdone
  · obtain rfl := Iter.next.inj (Except.ok.inj (h.symm.trans hnext))
    exact ⟨hmeets, List.concat_ne_nil _ _⟩
  · obtain rfl := Iter.next.inj (Except.ok.inj (h.symm.trans hnext))
    exact ⟨hmeets, List.concat_ne_nil _ _⟩
  · simp [h] at hfail

/-- A loop trades exactly if its first pass does. -/
theorem matchAgainst_trades {sd : OrderSide} {own : Slot} {book : OrderBook α}
    {e : MatchingEngine α} {s : Matching α} (h : matchAgainst clock sd fuel own book e = .ok s) :
    s.trades ≠ [] ↔ Meets sd own e.cells book := by
  unfold matchAgainst at h
  cases fuel with
  | zero => simp [FuelLoop.run] at h
  | succ fuel =>
      rcases hfirst : matchBodyOf clock sd own ⟨e, book, []⟩ with fault | s' | s'
      · simp [FuelLoop.run, hfirst] at h
      · rw [FuelLoop.run_done hfirst, Except.ok.injEq] at h
        subst h
        obtain ⟨rfl, hmeets⟩ := matchBodyOf_done hfirst
        exact iff_of_false (fun hne => hne rfl) hmeets
      · rw [FuelLoop.run_next hfirst] at h
        -- trades are only added, so the first one stays
        obtain ⟨s₁, hs₁, hdone⟩ := FuelLoop.run_invariant (fun s => s.trades ≠ [])
          (fun _ _ _ hnext => (matchBodyOf_next hnext).2) (matchBodyOf_next hfirst).2 h
        rw [(matchBodyOf_done hdone).1]
        exact iff_of_true hs₁ (matchBodyOf_next hfirst).1

theorem processOrder_trades [Zero α] {o : Order α} {e e' : MatchingEngine α} {out : Outcome α}
    (ho : validateOrder o = true → o.remainingQty ≠ 0) (hfok : o.type ≠ .fok)
    (h : processOrder clock fuel o e = .ok (out, e')) : out.trades ≠ [] ↔ e.Trades o := by
  unfold Trades
  cases processOrder_cases h with
  | exhausted hfree => simp [hfree]
  | invalid hfree hv => simp [hv]
  | killed _ _ hkill => exact absurd hkill hfok
  | @settled own rest s hfree hv hloop =>
      have htrades := matchAgainst_trades hloop
      rw [(accepted_spec o own rest e).1] at htrades
      rw [htrades, Meets, Function.update_self, hfree]
      simp [ho hv, hv]

end Engine

end MatchingEngine

theorem Fault.InEngine.not_pastEnd {fault : Fault} (h : fault.InEngine) : ¬ fault.PastEnd := by
  rcases h with rfl | rfl <;> simp [Fault.PastEnd]

namespace ClientGateway

open MatchingEngine (processOrder)

variable {clock now : Nat → Timestamp} {fuel : Nat} {g : ClientGateway} {fd : Int}
  {msgData : List UInt8} {fault : Fault}

/-- The packet holds what its handler reads of it: the request, and, if that is an order that
trades, a NUL from its symbol on. -/
def HoldsRequest (fd : Int) (g : ClientGateway) (msgData : List UInt8) : Prop :=
  ∀ type, requestType? msgData = some type → g.LoggedIn fd →
    type.size ≤ msgData.length ∧
      (type = .newOrder → ∀ req behind, Records.read? 49 msgData = some (req, behind) →
        g.engine.Trades (NewOrderRequest.order req) → 0 ∈ msgData.drop 21)

theorem holdsRequest_iff {type : RequestType} (htype : requestType? msgData = some type)
    (hin : g.LoggedIn fd) : HoldsRequest fd g msgData ↔ type.size ≤ msgData.length ∧
      (type = .newOrder → ∀ req behind, Records.read? 49 msgData = some (req, behind) →
        g.engine.Trades (NewOrderRequest.order req) → 0 ∈ msgData.drop 21) := by
  constructor
  · exact fun h => h type htype hin
  · intro h type' htype' _
    obtain rfl := Option.some.inj (htype.symm.trans htype')
    exact h

/-- How a handler ended, if it did not finish. -/
def faultOf : Except Fault (Reporting × ClientGateway) → Option Fault
  | .error fault => some fault
  | .ok (r, _) => r.fault

/-- A handler died outside its packet. -/
def DiesPastEnd (x : Except Fault (Reporting × ClientGateway)) : Prop :=
  ∃ fault, faultOf x = some fault ∧ fault.PastEnd

/-- A handler died inside the engine. -/
def DiesInEngine (x : Except Fault (Reporting × ClientGateway)) : Prop :=
  ∃ fault, faultOf x = some fault ∧ fault.InEngine

theorem not_diesPastEnd {x : Except Fault (Reporting × ClientGateway)} (h : faultOf x = none) :
    ¬ DiesPastEnd x := by
  rintro ⟨fault, hfault, -⟩
  simp [h] at hfault

/-! ### One packet -/

/-- The C string of a symbol goes on in the rest of the packet. -/
theorem symbolString_bytes {req : NewOrderRequest} {behind : List UInt8}
    (hread : Records.read? 49 msgData = some (req, behind)) :
    req.units.drop 21 ++ behind = msgData.drop 21 := by
  unfold Records.read? at hread
  split at hread
  · obtain ⟨rfl, rfl⟩ := Prod.mk.inj (Option.some.inj hread)
    have hbehind : msgData.drop 49 = (msgData.drop 21).drop 28 := by rw [List.drop_drop]
    dsimp only
    rw [List.drop_take, hbehind, List.take_append_drop]
  · simp at hread

/-- The reports on the counterparties run past the packet exactly if no NUL ends the symbol. -/
theorem reportingBook_pastEnd {req : NewOrderRequest} {behind : List UInt8}
    (hread : Records.read? 49 msgData = some (req, behind)) (e : MatchingEngine Int) :
    (∃ fault, reportingBook req behind e = .error fault ∧ fault.PastEnd) ↔
      0 ∉ msgData.drop 21 := by
  unfold reportingBook NewOrderRequest.symbolString
  rw [symbolString_bytes hread]
  by_cases hnul : 0 ∈ msgData.drop 21
  · have hcontains : (msgData.drop 21).contains 0 = true := List.contains_iff_mem.mpr hnul
    dsimp only
    rw [if_pos hcontains]
    dsimp only
    refine iff_of_false ?_ (fun hne => hne hnul)
    rintro ⟨fault, hfault, hpast⟩
    split at hfault
    · obtain rfl := Except.error.inj hfault
      simp [Fault.PastEnd] at hpast
    · simp at hfault
  · have hcontains : (msgData.drop 21).contains 0 ≠ true := fun h =>
      hnul (List.contains_iff_mem.mp h)
    dsimp only
    rw [if_neg hcontains]
    exact iff_of_true ⟨_, rfl, .inr rfl⟩ hnul

/-- A new order leaves its packet exactly if it trades and no NUL ends its symbol, unless the
engine dies before. -/
theorem handleNewOrder_pastEnd {req : NewOrderRequest} {behind : List UInt8}
    (hin : g.LoggedIn fd) (hread : Records.read? 49 msgData = some (req, behind)) :
    DiesInEngine (handleNewOrder clock now fuel fd req behind g) ∨
      (DiesPastEnd (handleNewOrder clock now fuel fd req behind g) ↔
        g.engine.Trades req.order ∧ 0 ∉ msgData.drop 21) := by
  rw [handleNewOrder_eq hin]
  rcases hp : processOrder clock fuel req.order (g.log req.units).engine with fault | ⟨out, e⟩
  · exact .inl ⟨fault, rfl, MatchingEngine.processOrder_error hp⟩
  · refine .inr ?_
    rw [(log_frame req.units g).1] at hp
    have hlive : MatchingEngine.validateOrder req.order = true → req.order.remainingQty ≠ 0 := by
      intro hv hzero
      have hpos := (order_live hv).unfilled_pos
      rw [Order.unfilled_eq_zero.mpr hzero] at hpos
      exact Nat.lt_irrefl 0 hpos
    rw [← MatchingEngine.processOrder_trades hlive (order_type req).1 hp,
      ← reportingBook_pastEnd hread e]
    show (∃ fault, Reporting.fault _ = some fault ∧ fault.PastEnd) ↔ _
    rw [reports_fault]
    rcases out.trades with _ | ⟨t, trades⟩
    · simp
    · dsimp only
      cases reportingBook req behind e <;> simp

theorem withRequest_eq (hin : g.LoggedIn fd) (n : Nat) (msgData : List UInt8)
    (handler : Records.Packed UInt8 n → List UInt8 →
      Except Fault (Reporting × ClientGateway)) :
    (msgData.length < n ∧ withRequest n fd msgData g handler = .error .outOfBounds) ∨
      ∃ req behind, n ≤ msgData.length ∧ Records.read? n msgData = some (req, behind) ∧
        withRequest n fd msgData g handler = handler req behind := by
  unfold withRequest Records.read?
  by_cases hlen : n ≤ msgData.length
  · rw [dif_pos hlen]
    exact .inr ⟨_, _, hlen, rfl, rfl⟩
  · rw [dif_neg hlen]
    dsimp only
    rw [if_pos hin]
    exact .inl ⟨Nat.lt_of_not_le hlen, rfl⟩

/-- A request that is laid over a packet that is too short. -/
theorem diesPastEnd_short {x : Except Fault (Reporting × ClientGateway)} {type : RequestType}
    (htype : requestType? msgData = some type) (hin : g.LoggedIn fd)
    (hshort : msgData.length < type.size) (hx : x = .error .outOfBounds) :
    DiesPastEnd x ↔ ¬ HoldsRequest fd g msgData := by
  rw [holdsRequest_iff htype hin, hx]
  exact iff_of_true ⟨_, rfl, .inl rfl⟩ fun h => Nat.not_le_of_lt hshort h.1

/-- A request that needs no more than its bytes, on a packet that has them. -/
theorem diesPastEnd_long {x : Except Fault (Reporting × ClientGateway)} {type : RequestType}
    (htype : requestType? msgData = some type) (hin : g.LoggedIn fd)
    (hlong : type.size ≤ msgData.length) (horder : type ≠ .newOrder) (hx : faultOf x = none) :
    DiesPastEnd x ↔ ¬ HoldsRequest fd g msgData := by
  rw [holdsRequest_iff htype hin]
  exact iff_of_false (not_diesPastEnd hx) fun h => h ⟨hlong, fun h' => absurd h' horder⟩

/-- A new order that has its bytes lacks something only if it trades and no NUL ends its symbol. -/
theorem trades_unterminated_iff {req : NewOrderRequest} {behind : List UInt8}
    (htype : requestType? msgData = some .newOrder) (hin : g.LoggedIn fd)
    (hlong : 49 ≤ msgData.length) (hread : Records.read? 49 msgData = some (req, behind)) :
    g.engine.Trades req.order ∧ 0 ∉ msgData.drop 21 ↔ ¬ HoldsRequest fd g msgData := by
  rw [holdsRequest_iff htype hin]
  constructor
  · exact fun htrades hall => htrades.2 (hall.2 rfl req behind hread htrades.1)
  · intro hlacks
    by_contra hnot
    refine hlacks ⟨hlong, fun _ req' behind' hread' htrades => ?_⟩
    obtain ⟨rfl, rfl⟩ := Prod.mk.inj (Option.some.inj (hread.symm.trans hread'))
    by_contra hnul
    exact hnot ⟨htrades, hnul⟩

/-- **A handler leaves its packet exactly if the packet does not hold what it reads**, unless the
engine dies before. -/
theorem processPacket_pastEnd (clock now : Nat → Timestamp) (fuel : Nat) (fd : Int)
    (g : ClientGateway) (msgData : List UInt8) :
    DiesInEngine (processPacket clock fuel now fd msgData g) ∨
      (DiesPastEnd (processPacket clock fuel now fd msgData g) ↔
        ¬ HoldsRequest fd g msgData) := by
  by_cases hlogin : requestType? msgData = some .loginRequest
  · -- a log-in is not read, whoever sends it
    refine .inr (iff_of_false (not_diesPastEnd ?_) fun hlacks => hlacks ?_)
    · rw [processPacket, hlogin]
      rfl
    · intro type htype _
      obtain rfl := Option.some.inj (hlogin.symm.trans htype)
      exact ⟨Nat.zero_le _, fun h => by simp at h⟩
  by_cases hin : g.LoggedIn fd
  · unfold processPacket
    rcases htype : requestType? msgData with _ | type
    · refine .inr (iff_of_false (not_diesPastEnd rfl) fun hlacks => hlacks ?_)
      intro type htype'
      simp [htype] at htype'
    · cases type with
      | loginRequest => exact absurd htype hlogin
      | newOrder =>
          rcases withRequest_eq hin 49 msgData _ with ⟨hshort, hx⟩ | ⟨req, behind, hlong, hread, hx⟩
          · exact .inr (diesPastEnd_short htype hin hshort hx)
          · dsimp only
            rw [hx]
            exact (handleNewOrder_pastEnd hin hread).imp_right fun h =>
              h.trans (trades_unterminated_iff htype hin hlong hread)
      | orderCancel =>
          rcases withRequest_eq hin 32 msgData _ with ⟨hshort, hx⟩ | ⟨req, behind, hlong, -, hx⟩
          · exact .inr (diesPastEnd_short htype hin hshort hx)
          · dsimp only
            rw [hx, handleOrderCancel_eq hin]
            rcases hc : MatchingEngine.cancelOrder _ _ _ (g.log (Records.Packed.units req)).engine
              with fault | y
            · exact .inl ⟨fault, rfl, MatchingEngine.cancelOrder_error hc⟩
            · exact .inr (diesPastEnd_long htype hin hlong (by simp) rfl)
      | marketDataRequest =>
          rcases withRequest_eq hin 15 msgData _ with ⟨hshort, hx⟩ | ⟨req, behind, hlong, -, hx⟩
          · exact .inr (diesPastEnd_short htype hin hshort hx)
          · refine .inr (diesPastEnd_long htype hin hlong (by simp) ?_)
            dsimp only
            rw [hx, handleMarketDataRequest_eq hin]
            split <;> rfl
      | subscriptionRequest =>
          rcases withRequest_eq hin 16 msgData _ with ⟨hshort, hx⟩ | ⟨req, behind, hlong, -, hx⟩
          · exact .inr (diesPastEnd_short htype hin hshort hx)
          · refine .inr (diesPastEnd_long htype hin hlong (by simp) ?_)
            dsimp only
            rw [hx, handleSubscriptionRequest_eq hin]
            rfl
  · obtain ⟨g', hdrop, -⟩ := processPacket_dropped clock fuel now hin hlogin
    rw [hdrop]
    refine .inr (iff_of_false (not_diesPastEnd rfl) fun hlacks => hlacks ?_)
    exact fun _ _ hin' => absurd hin' hin

/-! ### Runs -/

theorem takePacket_fault {now : Nat → Nat → Timestamp} {p : Progress} {crash : Crash}
    (h : takePacket clock fuel now fd p msgData = .error crash) :
    faultOf (processPacket clock fuel (now p.handed.length) fd msgData p.gateway) =
      some crash.fault := by
  rcases takePacket_error h with ⟨hp, -⟩ | ⟨r, g, hp, hfault, -⟩
  · rw [hp]
    rfl
  · rw [hp]
    exact hfault

theorem takePacket_dies {now : Nat → Nat → Timestamp} {p : Progress}
    (h : faultOf (processPacket clock fuel (now p.handed.length) fd msgData p.gateway) =
      some fault) :
    ∃ crash, takePacket clock fuel now fd p msgData = .error crash ∧ crash.fault = fault := by
  rcases htake : takePacket clock fuel now fd p msgData with crash | p'
  · exact ⟨crash, rfl, Option.some.inj ((takePacket_fault htake).symm.trans h)⟩
  · obtain ⟨r, g', hp, hnone, -⟩ := takePacket_ok htake
    rw [hp] at h
    exact absurd (hnone.symm.trans h) (by simp)

/-- Every packet that a message completes holds what its handler reads, in the state that the
packets before it leave. -/
def MessageHolds (clock : Nat → Timestamp) (fuel : Nat) (g : ClientGateway) : Event → Prop
  | .message fd now data =>
    Fallible.Along (takePacket clock fuel now fd) (fun p => HoldsRequest fd p.gateway)
      (packets.frames (g.buffer fd ++ data)) ⟨g.setBuffer fd (g.buffer fd ++ data), [], []⟩
  | _ => True

/-- Every packet of a run does. -/
def PacketsHold (clock : Nat → Timestamp) (fuel : Nat) (events : List Event) (g : ClientGateway) :
    Prop :=
  Fallible.Along (proceed clock fuel) (fun p => MessageHolds clock fuel p.gateway) events
    ⟨g, [], []⟩

theorem deliver_holds {event : Event} {crash : Crash} (hholds : MessageHolds clock fuel g event)
    (h : g.deliver clock fuel event = .error crash) : ¬ crash.fault.PastEnd := by
  cases event with
  | connection fd => simp [deliver] at h
  | disconnection fd => simp [deliver] at h
  | message fd now data =>
      rw [deliver, onMessage_eq] at h
      refine Fallible.foldlM_along (fun crash => crash.fault.PastEnd) ?_ hholds h
      intro p msgData crash hpacket htake
      have hfault := takePacket_fault htake
      rcases processPacket_pastEnd clock (now p.handed.length) fuel fd p.gateway msgData with
        ⟨fault, hdies, hengine⟩ | hiff
      · obtain rfl := Option.some.inj (hfault.symm.trans hdies)
        exact hengine.not_pastEnd
      · exact fun hpast => hiff.mp ⟨_, hfault, hpast⟩ hpacket

theorem deliver_lacks {event : Event} (hlacks : ¬ MessageHolds clock fuel g event) :
    ∃ crash, g.deliver clock fuel event = .error crash ∧
      (crash.fault.PastEnd ∨ crash.fault.InEngine) := by
  cases event with
  | connection fd => exact absurd trivial hlacks
  | disconnection fd => exact absurd trivial hlacks
  | message fd now data =>
      rw [deliver, onMessage_eq]
      refine Fallible.foldlM_not_along (fun crash => crash.fault.PastEnd)
        (fun crash => crash.fault.InEngine) ?_ hlacks
      intro p msgData hpacket
      rcases processPacket_pastEnd clock (now p.handed.length) fuel fd p.gateway msgData with
        ⟨fault, hdies, hengine⟩ | hiff
      · obtain ⟨crash, htake, rfl⟩ := takePacket_dies hdies
        exact ⟨crash, htake, .inr hengine⟩
      · obtain ⟨fault, hdies, hpast⟩ := hiff.mpr hpacket
        obtain ⟨crash, htake, rfl⟩ := takePacket_dies hdies
        exact ⟨crash, htake, .inl hpast⟩

theorem proceed_error {p : Progress} {event : Event} {crash : Crash} :
    proceed clock fuel p event = .error crash ↔ ∃ crash', p.gateway.deliver clock fuel event =
      .error crash' ∧ crash = ⟨p.handed ++ crash'.handed, p.sent ++ crash'.sent, crash'.fault⟩ := by
  unfold proceed
  cases p.gateway.deliver clock fuel event with
  | error crash' => simp [Progress.andThen, eq_comm]
  | ok q => simp [Progress.andThen]

/-- **Handlers read only their packets, exactly if the packets hold what they read.** While every
packet does, no run dies outside a packet. A run with a packet that does not dies there, unless
the engine dies before. -/
theorem reads_within_packets (clock : Nat → Timestamp) (fuel : Nat) (events : List Event)
    (g : ClientGateway) :
    (PacketsHold clock fuel events g →
        ∀ crash, g.run clock fuel events = .error crash → ¬ crash.fault.PastEnd) ∧
      (¬ PacketsHold clock fuel events g → ∃ crash, g.run clock fuel events = .error crash ∧
        (crash.fault.PastEnd ∨ crash.fault.InEngine)) := by
  constructor
  · intro hholds crash h
    refine Fallible.foldlM_along (fun crash => crash.fault.PastEnd) ?_ hholds h
    intro p event crash hmessage hproceed
    obtain ⟨crash', hdeliver, rfl⟩ := proceed_error.mp hproceed
    show ¬ crash'.fault.PastEnd
    exact deliver_holds hmessage hdeliver
  · intro hlacks
    refine Fallible.foldlM_not_along (fun crash => crash.fault.PastEnd)
      (fun crash => crash.fault.InEngine) ?_ hlacks
    intro p event hmessage
    obtain ⟨crash, hdeliver, hdies⟩ := deliver_lacks hmessage
    exact ⟨_, proceed_error.mpr ⟨crash, hdeliver, rfl⟩, hdies⟩

/-! ### A concrete client -/

/-- A log-in, and then an order without a user id, as the repository's stress client packs it: 41
bytes, to buy 10 lots of `AAPL` at 100.0 under the id 1000000. -/
def shortOrder : List Event :=
  [.connection 4, .message 4 (fun _ _ => 0) ([0, 0, 76, 45, 0] ++ List.replicate 40 32),
    .message 4 (fun _ _ => 0)
      ([0, 0, 78, 41, 0] ++ [64, 66, 15, 0, 0, 0, 0, 0] ++
        [65, 65, 80, 76, 32, 32, 32, 32, 32, 32] ++ [0] ++ [1] ++
        [0, 0, 0, 0, 0, 0, 0x59, 0x40] ++ [10, 0, 0, 0, 0, 0, 0, 0])]

/-- What is known when the process reads past the end of that order. -/
def shortOrderCrash : Crash :=
  { handed := [[0, 0, 76, 45, 0] ++ List.replicate 40 32,
      [0, 0, 78, 41, 0] ++ [64, 66, 15, 0, 0, 0, 0, 0] ++
        [65, 65, 80, 76, 32, 32, 32, 32, 32, 32] ++ [0] ++ [1] ++
        [0, 0, 0, 0, 0, 0, 0x59, 0x40] ++ [10, 0, 0, 0, 0, 0, 0, 0]]
    sent := [⟨4, .loginResponse loginResponse⟩]
    fault := .outOfBounds }

/-- **An order of 41 bytes is read past its end**: the request has 49. -/
theorem short_order_past_end :
    started.run (fun _ => 0) 10 shortOrder = .error shortOrderCrash ∧
      shortOrderCrash.fault.PastEnd :=
  ⟨rfl, .inl rfl⟩

/-- It does not hold what its handler reads. -/
theorem reads_within_packets_shortOrder : ¬ PacketsHold (fun _ => 0) 10 shortOrder started :=
  fun hholds => (reads_within_packets (fun _ => 0) 10 shortOrder started).1 hholds
    shortOrderCrash rfl (.inl rfl)

end ClientGateway

end OrderMatchingEngine
