import OrderMatchingEngine.ClientGateway
import OrderMatchingEngine.Refinement.Runs

/-!
# OrderMatchingEngine.Refinement.Handlers

What the handlers of requests do to the engine, and what they report.

A new order from a logged-in client is one call of `process_new_order`. The reports about it are
put together afterwards, from the trades and from a book that is looked up under the symbol bytes
of the request (`reportingBook`). `requestReports` says which reports that are.
-/

namespace OrderMatchingEngine

namespace ClientGateway

open MatchingEngine

variable {clock now : Nat → Timestamp} {fuel : Nat} {g g' : ClientGateway} {fd : Int}
  {req : NewOrderRequest} {behind : List UInt8} {r : Reporting}

/-! ### Requests and the engine -/

theorem session_frame (fd : Int) (g : ClientGateway) :
    (g.session fd).2.engine = g.engine ∧ (g.session fd).2.logOpen = g.logOpen ∧
      (g.session fd).2.eventLog = g.eventLog := by
  unfold session
  split <;> exact ⟨rfl, rfl, rfl⟩

/-- A client who has logged in has a session. -/
theorem session_of_loggedIn (hin : g.LoggedIn fd) : (g.session fd).2 = g := by
  unfold LoggedIn session at hin
  unfold session
  split
  · rfl
  · rename_i hnone
    simp [hnone] at hin

theorem log_frame (bytes : List UInt8) (g : ClientGateway) :
    (g.log bytes).engine = g.engine ∧ (g.log bytes).logOpen = g.logOpen ∧
      (g.log bytes).eventLog = if g.logOpen then g.eventLog ++ bytes else g.eventLog := by
  unfold log
  split <;> exact ⟨rfl, rfl, rfl⟩

/-- What is sent about an order after it was processed. -/
def reports (now : Nat → Timestamp) (req : NewOrderRequest) (behind : List UInt8) (fd : Int)
    (trades : List (Trade Int)) (g : ClientGateway) : Reporting :=
  (if trades.isEmpty then { sent := [⟨fd, .executionReport (newReport req.order)⟩] }
    else reportTrades now req behind fd g 0 req.order trades).andThen
      { sent := g.broadcastMarketData req.order.symbol }

/-- **A new order of a logged-in client**: the request is logged and its order processed; what is
sent follows from the trades and the state that this leaves. -/
theorem handleNewOrder_eq (hin : g.LoggedIn fd) :
    handleNewOrder clock now fuel fd req behind g =
      (processOrder clock fuel req.order (g.log req.units).engine).map fun x =>
        (reports now req behind fd x.1.trades { g.log req.units with engine := x.2 },
          { g.log req.units with engine := x.2 }) := by
  have hin' : (g.session fd).1.loggedIn = true := hin
  rw [handleNewOrder]
  simp only [hin', Bool.not_true, Bool.false_eq_true, if_false, session_of_loggedIn hin]
  rw [handleNewOrderInternal, processNewOrder]
  cases processOrder clock fuel req.order (g.log req.units).engine <;> rfl

theorem handleNewOrder_ok (hin : g.LoggedIn fd)
    (h : handleNewOrder clock now fuel fd req behind g = .ok (r, g')) :
    ∃ out engine, processOrder clock fuel req.order g.engine = .ok (out, engine) ∧
      g' = { g.log req.units with engine := engine } ∧
      r = reports now req behind fd out.trades g' := by
  rw [handleNewOrder_eq hin, FuelLoop.map_eq_ok, (log_frame req.units g).1] at h
  obtain ⟨⟨out, engine⟩, hp, hr⟩ := h
  obtain ⟨rfl, rfl⟩ := Prod.mk.inj hr
  exact ⟨out, engine, hp, rfl, rfl⟩

/-- The requests of others are dropped. -/
theorem handleNewOrder_dropped (hout : ¬ g.LoggedIn fd) :
    handleNewOrder clock now fuel fd req behind g = .ok ({}, (g.session fd).2) := by
  have hout' : (g.session fd).1.loggedIn = false := by simpa [LoggedIn] using hout
  rw [handleNewOrder]
  simp only [hout', Bool.not_false, if_true]

/-- **A cancel of a logged-in client**: the request is logged and is a call of `cancel_order`. -/
theorem handleOrderCancel_eq {req : OrderCancelRequest} (hin : g.LoggedIn fd) :
    handleOrderCancel fd req g =
      (cancelOrder req.clientOrderId (cleanSymbol req.symbol) req.side.toNat
        (g.log req.units).engine).map fun x =>
        ({ sent := ⟨fd, .executionReport (cancelReport req (cleanSymbol req.symbol) x.1)⟩ ::
            broadcastMarketData (cleanSymbol req.symbol) { g.log req.units with engine := x.2 } },
          { g.log req.units with engine := x.2 }) := by
  have hin' : (g.session fd).1.loggedIn = true := hin
  rw [handleOrderCancel]
  simp only [hin', Bool.not_true, Bool.false_eq_true, if_false, session_of_loggedIn hin]
  cases cancelOrder req.clientOrderId (cleanSymbol req.symbol) req.side.toNat
    (g.log req.units).engine <;> rfl

theorem handleOrderCancel_ok {req : OrderCancelRequest} (hin : g.LoggedIn fd)
    (h : handleOrderCancel fd req g = .ok (r, g')) :
    ∃ x engine, cancelOrder req.clientOrderId (cleanSymbol req.symbol) req.side.toNat g.engine =
        .ok (x, engine) ∧
      g' = { g.log req.units with engine := engine } ∧
      r = { sent := ⟨fd, .executionReport (cancelReport req (cleanSymbol req.symbol) x)⟩ ::
        g'.broadcastMarketData (cleanSymbol req.symbol) } := by
  rw [handleOrderCancel_eq hin, FuelLoop.map_eq_ok, (log_frame req.units g).1] at h
  obtain ⟨⟨x, engine⟩, hc, hr⟩ := h
  obtain ⟨rfl, rfl⟩ := Prod.mk.inj hr
  exact ⟨x, engine, hc, rfl, rfl⟩

theorem handleOrderCancel_dropped {req : OrderCancelRequest} (hout : ¬ g.LoggedIn fd) :
    handleOrderCancel fd req g = .ok ({}, (g.session fd).2) := by
  have hout' : (g.session fd).1.loggedIn = false := by simpa [LoggedIn] using hout
  rw [handleOrderCancel]
  simp only [hout', Bool.not_false, if_true]

theorem handleMarketDataRequest_eq {req : MarketDataRequest} (hin : g.LoggedIn fd) :
    handleMarketDataRequest fd req g =
      match g.snapshot? (cleanSymbol req.symbol) with
      | none => ({}, g)
      | some snapshot => ({ sent := [⟨fd, .marketDataSnapshot snapshot⟩] }, g) := by
  have hin' : (g.session fd).1.loggedIn = true := hin
  unfold handleMarketDataRequest
  cases hsnapshot : g.snapshot? (cleanSymbol req.symbol) <;>
    simp only [hin', Bool.not_true, Bool.false_eq_true, if_false, session_of_loggedIn hin,
      hsnapshot]

theorem handleMarketDataRequest_dropped {req : MarketDataRequest} (hout : ¬ g.LoggedIn fd) :
    handleMarketDataRequest fd req g = ({}, (g.session fd).2) := by
  have hout' : (g.session fd).1.loggedIn = false := by simpa [LoggedIn] using hout
  rw [handleMarketDataRequest]
  simp only [hout', Bool.not_false, if_true]

/-- The subscribers of a symbol after a subscription request. -/
def subscribers (fd : Int) (req : SubscriptionRequest) (fds : List Int) : List Int :=
  if req.isSubscribe ≠ 0 then insertFd fd fds else fds.filter (· ≠ fd)

theorem handleSubscriptionRequest_eq {req : SubscriptionRequest} (hin : g.LoggedIn fd) :
    handleSubscriptionRequest fd req g =
      ({}, { g with
        marketDataSubscriptions := g.marketDataSubscriptions.insert (cleanSymbol req.symbol)
          (subscribers fd req
            ((g.marketDataSubscriptions.lookup (cleanSymbol req.symbol)).getD [])) }) := by
  have hin' : (g.session fd).1.loggedIn = true := hin
  rw [handleSubscriptionRequest]
  simp only [hin', Bool.not_true, Bool.false_eq_true, if_false, session_of_loggedIn hin]
  rfl

theorem handleSubscriptionRequest_dropped {req : SubscriptionRequest} (hout : ¬ g.LoggedIn fd) :
    handleSubscriptionRequest fd req g = ({}, (g.session fd).2) := by
  have hout' : (g.session fd).1.loggedIn = false := by simpa [LoggedIn] using hout
  rw [handleSubscriptionRequest]
  simp only [hout', Bool.not_false, if_true]

/-! ### Orders of requests -/

theorem order_type (req : NewOrderRequest) :
    req.order.type ≠ .fok ∧ req.order.type ≠ .ioc ∧
      (req.order.type ≠ .market ↔ req.order.type = .limit) := by
  unfold NewOrderRequest.order
  dsimp only
  split <;> simp

/-- A valid order of a request wants its quantity. -/
theorem order_live {req : NewOrderRequest} (hv : validateOrder req.order = true) :
    req.order.Live := by
  unfold validateOrder at hv
  split at hv
  · simp at hv
  · rename_i hq
    exact UInt64.pos_iff_ne_zero.mpr hq

/-- An order whose id does not rest in its book is new there. -/
theorem fresh_of_not_rests {e : MatchingEngine Int}
    (hnew : ¬ e.Rests (cleanSymbol req.symbol) req.clientOrderId) :
    ∀ x ∈ (e.bookView req.order.symbol).allOrders, x.id ≠ req.order.id :=
  fun x hx hid => hnew ((rests_iff _ _ _).mpr ⟨x, hx, hid⟩)

/-- The trades made between two states. -/
def newTrades (g g' : ClientGateway) : List (Trade Int) :=
  g'.engine.tradeHistory.drop g.engine.tradeHistory.length

/-! ### Runs of requests -/

/-- The client of a request. -/
def Request.client : Request → Int
  | .newOrder fd _ _ => fd
  | .orderCancel fd _ => fd

/-- The call of the engine that a request of a logged-in client makes. -/
def Request.call : Request → Call Int
  | .newOrder _ req _ => .processNewOrder req.order
  | .orderCancel _ req =>
    .cancelOrder req.clientOrderId (cleanSymbol req.symbol) req.side.toNat

/-- **A request is a call**, or nothing for the engine if its client has not logged in. -/
theorem handles_call {i : Request} (h : Handles clock g i r g') :
    (¬ g.LoggedIn i.client ∧ g'.engine = g.engine) ∨
      (g.LoggedIn i.client ∧ ∃ ret, Returns clock g.engine i.call ret g'.engine) := by
  obtain ⟨now, fuel, h⟩ := h
  by_cases hin : g.LoggedIn i.client
  · refine .inr ⟨hin, ?_⟩
    cases i with
    | newOrder fd req behind =>
        obtain ⟨out, engine, hp, rfl, -⟩ := handleNewOrder_ok hin h
        exact ⟨_, .process hp⟩
    | orderCancel fd req =>
        obtain ⟨x, engine, hc, rfl, -⟩ := handleOrderCancel_ok hin h
        exact ⟨.cancelled x, 0, call_cancel.mpr ⟨x, hc, rfl⟩⟩
  · refine .inl ⟨hin, ?_⟩
    cases i with
    | newOrder fd req behind =>
        obtain ⟨-, rfl⟩ := Prod.mk.inj (Except.ok.inj (h.symm.trans (handleNewOrder_dropped hin)))
        exact (session_frame fd g).1
    | orderCancel fd req =>
        obtain ⟨-, rfl⟩ :=
          Prod.mk.inj (Except.ok.inj (h.symm.trans (handleOrderCancel_dropped hin)))
        exact (session_frame fd g).1

/-- An order of a logged-in client that may be queued has an id that does not rest in its book. -/
def FreshRequest (g : ClientGateway) (i : Request) : Prop :=
  g.LoggedIn i.client → g.engine.QueuesFresh i.call

/-- The engine is reached without queueing an order under an id that rests in its book. -/
def EngineReached (clock : Nat → Timestamp) (n : Nat) (g : ClientGateway) : Prop :=
  ∃ calls, Reaches clock n (fun e c => e.QueuesFresh c) calls g.engine

theorem EngineReached.handles {n : Nat} {i : Request} (hg : g.EngineReached clock n)
    (hfresh : g.FreshRequest i) (h : Handles clock g i r g') : g'.EngineReached clock n := by
  obtain ⟨calls, hrun⟩ := hg
  rcases handles_call h with ⟨-, hsame⟩ | ⟨hin, ret, hret⟩
  · exact ⟨calls, hsame ▸ hrun⟩
  · exact ⟨_, hrun.snoc ⟨hfresh hin, hret⟩⟩

/-- **A run of requests is a run of the engine.** -/
theorem engineReached_of_run {n : Nat} {g₀ : ClientGateway} {tr : List (Request × Reporting)}
    (h₀ : g₀.EngineReached clock n)
    (h : Trace.Run (Trace.guarded FreshRequest (Handles clock)) g₀ tr g) :
    g.EngineReached clock n :=
  Trace.Run.invariant (fun _ g => g.EngineReached clock n) h₀
    (fun _ _ _ _ _ _ hg hs => hg.handles hs.1 hs.2) h

/-! ### The reports of a request -/

/-- The execution reports sent to a client, in order. -/
def executionReports (fd : Int) (sent : List Sent) : List ExecutionReport :=
  sent.filterMap fun s =>
    match s.message with
    | .executionReport report => if s.fd = fd then some report else none
    | _ => none

theorem executionReports_append (fd : Int) (sent sent' : List Sent) :
    executionReports fd (sent ++ sent') = executionReports fd sent ++ executionReports fd sent' :=
  List.filterMap_append

@[simp] theorem executionReports_nil (fd : Int) : executionReports fd [] = [] := rfl

@[simp] theorem executionReports_cons_self (fd : Int) (report : ExecutionReport)
    (sent : List Sent) : executionReports fd (⟨fd, .executionReport report⟩ :: sent) =
      report :: executionReports fd sent := by
  simp [executionReports]

@[simp] theorem executionReports_tradeUpdate (fd : Int) (timestamp : Timestamp) (t : Trade Int)
    (g : ClientGateway) : executionReports fd (g.broadcastTradeUpdate timestamp t) = [] := by
  simp [executionReports, broadcastTradeUpdate]

@[simp] theorem executionReports_marketData (fd : Int) (symbol : Symbol) (g : ClientGateway) :
    executionReports fd (g.broadcastMarketData symbol) = [] := by
  unfold broadcastMarketData
  split
  · rfl
  · simp [executionReports]

/-- The book that the reports on the counterparties are made from. -/
def reportingBook (req : NewOrderRequest) (behind : List UInt8) (e : MatchingEngine Int) :
    Except Fault (OrderBook Int) :=
  match req.symbolString behind with
  | .error fault => .error fault
  | .ok symbol =>
    match e.getOrderBook symbol with
    | none => .error .nullPointer
    | some book => .ok book

theorem reportingBook_ok {e : MatchingEngine Int} {book : OrderBook Int} :
    reportingBook req behind e = .ok book ↔
      ∃ symbol, req.symbolString behind = .ok symbol ∧ e.getOrderBook symbol = some book := by
  unfold reportingBook
  cases req.symbolString behind with
  | error fault => simp
  | ok symbol =>
      dsimp only
      cases hbook : e.getOrderBook symbol with
      | none => simp [hbook]
      | some book => simp [hbook]

/-- A new order that can trade does not change whether the reports find a book. -/
theorem reportingBook_congr (behind : List UInt8) {e e' : MatchingEngine Int} {out : Outcome Int}
    (hf : Frame req.order.symbol out.exit.leaks out.trades e e')
    {sd : OrderSide} {x : Order Int} (hx : x ∈ (e.bookView req.order.symbol).orders sd)
    (hfree : e.orderPool.freeIndices ≠ []) (hv : validateOrder req.order = true)
    (hp : processOrder clock fuel req.order e = .ok (out, e')) :
    (∃ found, reportingBook req behind e' = .ok found) ↔
      ∃ found, reportingBook req behind e = .ok found := by
  have hbook : ∀ symbol, (∃ book, e'.getOrderBook symbol = some book) ↔
      ∃ book, e.getOrderBook symbol = some book := by
    intro symbol
    by_cases hsym : symbol = req.order.symbol
    · subst hsym
      exact iff_of_true (processOrder_opens hfree hv hp) (getOrderBook_of_mem hx)
    · rw [hf.books symbol hsym]
  simp only [reportingBook_ok]
  rw [exists_comm, exists_comm (α := OrderBook Int)]
  simp only [exists_and_left, hbook]

/-- The executed quantity that a counterparty is told: that of the order with the id of the
request, if it is found, or the quantity of the trade. -/
def reportedFill (e : MatchingEngine Int) (book : OrderBook Int) (id : OrderID) (qty : Quantity) :
    Quantity :=
  match book.getOrderbyId id with
  | some order => (e.cells order).quantityFilled
  | none => qty

theorem reportTrade_eq (timestamp : Timestamp) (order : Order Int) (t : Trade Int)
    (g : ClientGateway) : reportTrade timestamp req behind fd order t g =
      match reportingBook req behind g.engine with
      | .error fault => ⟨[⟨fd, .executionReport (takerReport order t)⟩], some fault⟩
      | .ok book =>
        { sent := ⟨fd, .executionReport (takerReport order t)⟩ ::
            ⟨fd, .executionReport (makerReport order t
              (reportedFill g.engine book req.clientOrderId t.quantity))⟩ ::
            g.broadcastTradeUpdate timestamp t } := by
  rw [reportTrade, reportingBook]
  cases req.symbolString behind with
  | error fault => rfl
  | ok symbol =>
      dsimp only
      cases g.engine.getOrderBook symbol with
      | none => rfl
      | some book => rfl

/-- The reports on trades: one to the taker, counting its executed quantity up, and one on the
counterparty. -/
def tradeReports (filledQuantity : Quantity → Quantity) :
    Order Int → List (Trade Int) → List ExecutionReport
  | _, [] => []
  | order, t :: trades =>
    let order := order.reduceQuantity t.quantity
    takerReport order t :: makerReport order t (filledQuantity t.quantity) ::
      tradeReports filledQuantity order trades

/-- With a book the loop reports every trade. -/
theorem reportTrades_ok (now : Nat → Timestamp) (fd : Int) {book : OrderBook Int}
    (hbook : reportingBook req behind g.engine = .ok book) (i : Nat) (order : Order Int)
    (trades : List (Trade Int)) :
    (reportTrades now req behind fd g i order trades).fault = none ∧
      executionReports fd (reportTrades now req behind fd g i order trades).sent =
        tradeReports (reportedFill g.engine book req.clientOrderId) order trades := by
  induction trades generalizing i order with
  | nil => exact ⟨rfl, rfl⟩
  | cons t trades ih =>
      obtain ⟨hfault, hsent⟩ := ih (i + 1) (order.reduceQuantity t.quantity)
      rw [reportTrades, reportTrade_eq, hbook]
      refine ⟨hfault, ?_⟩
      rw [tradeReports, ← hsent]
      simp [Reporting.andThen, executionReports_append]

/-- Without one it dies after the taker's report on the first trade. -/
theorem reportTrades_error {fault : Fault}
    (hbook : reportingBook req behind g.engine = .error fault) (i : Nat) (order : Order Int)
    (t : Trade Int) (trades : List (Trade Int)) :
    reportTrades now req behind fd g i order (t :: trades) =
      ⟨[⟨fd, .executionReport (takerReport (order.reduceQuantity t.quantity) t)⟩], some fault⟩ := by
  rw [reportTrades, reportTrade_eq, hbook]
  rfl

/-- The execution reports about a request whose order made these trades and left this engine. -/
def requestReports (req : NewOrderRequest) (behind : List UInt8) (trades : List (Trade Int))
    (e : MatchingEngine Int) : List ExecutionReport :=
  match trades with
  | [] => [newReport req.order]
  | t :: rest =>
    match reportingBook req behind e with
    | .error _ => [takerReport (req.order.reduceQuantity t.quantity) t]
    | .ok book => tradeReports (reportedFill e book req.clientOrderId) req.order (t :: rest)

theorem requestReports_ok {trades : List (Trade Int)} {e : MatchingEngine Int}
    {book : OrderBook Int} (hbook : reportingBook req behind e = .ok book) (hne : trades ≠ []) :
    requestReports req behind trades e =
      tradeReports (reportedFill e book req.clientOrderId) req.order trades := by
  cases trades with
  | nil => exact absurd rfl hne
  | cons t trades => rw [requestReports, hbook]

theorem reports_trades (now : Nat → Timestamp) (req : NewOrderRequest) (behind : List UInt8)
    (fd : Int) {trades : List (Trade Int)} (hne : trades ≠ []) (g : ClientGateway) :
    reports now req behind fd trades g =
      (reportTrades now req behind fd g 0 req.order trades).andThen
        { sent := g.broadcastMarketData req.order.symbol } := by
  unfold reports
  rw [if_neg (by simpa using hne)]

/-- How the handler ends. -/
theorem reports_fault (now : Nat → Timestamp) (req : NewOrderRequest) (behind : List UInt8)
    (fd : Int) (trades : List (Trade Int)) (g : ClientGateway) :
    (reports now req behind fd trades g).fault =
      match trades with
      | [] => none
      | _ :: _ =>
        match reportingBook req behind g.engine with
        | .error fault => some fault
        | .ok _ => none := by
  rcases trades with _ | ⟨t, trades⟩
  · rfl
  · rw [reports_trades now req behind fd (List.cons_ne_nil t trades) g]
    rcases hbook : reportingBook req behind g.engine with fault | book
    · rw [reportTrades_error hbook]
      rfl
    · rw [Reporting.andThen, (reportTrades_ok now fd hbook 0 req.order (t :: trades)).1]

/-- **The reports of a new order**, and whether the handler dies while it makes them. -/
theorem reports_spec (now : Nat → Timestamp) (req : NewOrderRequest) (behind : List UInt8)
    (fd : Int) (trades : List (Trade Int)) (g : ClientGateway) :
    executionReports fd (reports now req behind fd trades g).sent =
        requestReports req behind trades g.engine ∧
      ((reports now req behind fd trades g).fault = none ↔
        trades = [] ∨ ∃ book, reportingBook req behind g.engine = .ok book) := by
  rcases trades with _ | ⟨t, trades⟩
  · simp [reports, requestReports, Reporting.andThen]
  · rw [reports_fault, reports_trades now req behind fd (List.cons_ne_nil t trades) g]
    rcases hbook : reportingBook req behind g.engine with fault | book
    · simp [reportTrades_error hbook, requestReports, hbook, Reporting.andThen]
    · obtain ⟨hfault, hsent⟩ := reportTrades_ok now fd hbook 0 req.order (t :: trades)
      rw [Reporting.andThen, hfault]
      refine ⟨?_, by simp⟩
      rw [executionReports_append, hsent, executionReports_marketData, List.append_nil,
        requestReports_ok hbook (by simp)]

/-- **What a new order leaves and reports**, when its id is new in its book. -/
theorem handleNewOrder_reports (he : EngineInv g.engine) (hin : g.LoggedIn fd)
    (hnew : ¬ g.engine.Rests (cleanSymbol req.symbol) req.clientOrderId)
    (h : handleNewOrder clock now fuel fd req behind g = .ok (r, g')) :
    ∃ out engine, processOrder clock fuel req.order g.engine = .ok (out, engine) ∧
      g' = { g.log req.units with engine := engine } ∧
      Frame req.order.symbol out.exit.leaks out.trades g.engine engine ∧
      newTrades g g' = out.trades ∧
      executionReports fd r.sent = requestReports req behind out.trades engine := by
  obtain ⟨out, engine, hp, rfl, rfl⟩ := handleNewOrder_ok hin h
  obtain ⟨-, hf⟩ := processOrder_ok he hp fun _ _ => fresh_of_not_rests hnew
  refine ⟨out, engine, hp, rfl, hf, ?_, (reports_spec now req behind fd out.trades _).1⟩
  show engine.tradeHistory.drop _ = _
  rw [hf.history, List.drop_left]

/-! ### A concrete gateway -/

/-- A gateway with one client, on descriptor 4, who has logged in. -/
def oneClient : ClientGateway :=
  { engine := MatchingEngine.init
    sessions := (∅ : AList fun _ : Int => Session).insert 4 { loggedIn := true, userId := 4 }
    marketDataSubscriptions := ∅
    logOpen := true
    eventLog := [] }

/-- The gateway after a request, with the wall clocks at `0`. -/
def after (g : ClientGateway) (i : Request) : Reporting × ClientGateway :=
  ((handle (fun _ => 0) (fun _ => 0) 10 g i).toOption).getD ({}, g)

/-- A request for `quantity` lots at 100.0, whose symbol is one byte and nine times `pad`. -/
def smallRequest (id userId symbol pad side type quantity : UInt8) : NewOrderRequest :=
  ⟨[0, 0, 78, 49, 0] ++ [id, 0, 0, 0, 0, 0, 0, 0] ++ [userId, 0, 0, 0, 0, 0, 0, 0] ++
    [symbol, pad, pad, pad, pad, pad, pad, pad, pad, pad] ++ [side] ++ [type] ++
    [0, 0, 0, 0, 0, 0, 0x59, 0x40] ++ [quantity, 0, 0, 0, 0, 0, 0, 0], rfl⟩

end ClientGateway

end OrderMatchingEngine
