import Mathlib.Algebra.Order.Ring.Int
import OrderMatchingEngine.MatchingEngine
import OrderMatchingEngine.Protocol

/-!
# OrderMatchingEngine.ClientGateway

The handlers of the gateway (`src/client_gateway.cpp`): log-ins, new orders, cancels, market data,
the event log and its replay. `OrderMatchingEngine.Connections` brings packets to them.

Design points:

* The state is what the handlers read and write: the engine, the sessions, the market data
  subscriptions, whether the event log is open, and the bytes of its file, `orders.bin`.
* A handler answers with the messages it sent, in order (`Reporting`). If it dies while it
  reports, `fault` says how, after the messages already sent; the engine has by then processed the
  order. A fault inside the engine leaves no state, so there the handler returns the fault.
* `now i` is the reading of the system clock for the `i`-th trade update of a request.
* The log file is appended to as it is. `replayEvents` gets the contents of the file it opens, or
  `none` where it cannot be opened.
-/

namespace OrderMatchingEngine

open Records (reader)

/-- `struct ClientGateway::Session`. Its `fd` is never assigned or read. -/
structure Session where
  loggedIn : Bool := false
  userId : Int := 0
  buffer : List UInt8 := []
  deriving DecidableEq, Repr

/-- `class ClientGateway`. The descriptors subscribed to a symbol are listed in ascending
order, as `std::set<int>` iterates. -/
structure ClientGateway where
  engine : MatchingEngine Int
  sessions : AList fun _ : Int => Session
  marketDataSubscriptions : AList fun _ : Symbol => List Int
  logOpen : Bool
  eventLog : List UInt8

/-- One `server_.sendPacket(fd, ...)`. -/
structure Sent where
  fd : Int
  message : Message
  deriving DecidableEq, Repr

/-- What a handler sent, and the fault it died of if it did not finish. -/
structure Reporting where
  sent : List Sent := []
  fault : Option Fault := none
  deriving DecidableEq, Repr

/-- Go on reporting, unless the handler died. -/
def Reporting.andThen (r r' : Reporting) : Reporting :=
  match r.fault with
  | some _ => r
  | none => { r' with sent := r.sent ++ r'.sent }

/-- The order a `NewOrderRequest` asks for. Its timestamp is not assigned by the source, and
nothing reads it. -/
def NewOrderRequest.order (req : NewOrderRequest) : Order Int :=
  { id := req.clientOrderId
    symbol := cleanSymbol req.symbol
    userId := req.userId
    side := if req.side = 0 then .buy else .sell
    type := if req.type = 0 then .market else .limit
    price := req.price
    quantity := req.quantity
    timestamp := 0 }

namespace ClientGateway

open MatchingEngine (processNewOrder cancelOrder)

/-- `sessions_[fd]`, which creates a missing session. -/
def session (fd : Int) (g : ClientGateway) : Session × ClientGateway :=
  match g.sessions.lookup fd with
  | some session => (session, g)
  | none => ({}, { g with sessions := g.sessions.insert fd {} })

/-- The client on `fd` has logged in. -/
def LoggedIn (g : ClientGateway) (fd : Int) : Prop := (g.session fd).1.loggedIn = true

instance (g : ClientGateway) (fd : Int) : Decidable (g.LoggedIn fd) :=
  inferInstanceAs (Decidable (_ = true))

/-- `event_log_.write(...)`, if the log is open. -/
def log (bytes : List UInt8) (g : ClientGateway) : ClientGateway :=
  if g.logOpen then { g with eventLog := g.eventLog ++ bytes } else g

/-! ### Messages -/

/-- The subscribers of a symbol who are logged in: the receivers of a broadcast. -/
def receivers (symbol : Symbol) (g : ClientGateway) : List Int :=
  ((g.marketDataSubscriptions.lookup symbol).getD []).filter fun fd =>
    (g.sessions.lookup fd).any (·.loggedIn)

/-- `void broadcastTradeUpdate(const Trade &update)`. -/
def broadcastTradeUpdate (timestamp : Timestamp) (update : Trade Int) (g : ClientGateway) :
    List Sent :=
  let msg : TradeUpdate :=
    { symbol := strncpy update.symbol 9
      price := update.price
      quantity := update.quantity
      timestamp := timestamp
      makeSide := 0 }
  (g.receivers update.symbol).map fun fd => ⟨fd, .tradeUpdate msg⟩

/-- The snapshot of a symbol's book, if there is one. -/
def snapshot? (symbol : Symbol) (g : ClientGateway) : Option MarketDataSnapshot :=
  match g.engine.getOrderBook symbol with
  | none => none
  | some book =>
    let l2Quote := book.getL2Quote g.engine.cells 5
    some
      { symbol := strncpy symbol 9
        numBids := .ofNat l2Quote.bids.length
        numAsks := .ofNat l2Quote.asks.length
        bids := l2Quote.bids
        asks := l2Quote.asks }

/-- `void broadcastMarketData(const std::string &symbol)`. -/
def broadcastMarketData (symbol : Symbol) (g : ClientGateway) : List Sent :=
  match g.snapshot? symbol with
  | none => []
  | some snapshot => (g.receivers symbol).map fun fd => ⟨fd, .marketDataSnapshot snapshot⟩

/-- The byte of a side. -/
def sideByte : OrderSide → UInt8
  | .buy => 0
  | .sell => 1

/-- The report of a trade to the client whose request made it. `order` counts this trade as
executed. -/
def takerReport (order : Order Int) (trade : Trade Int) : ExecutionReport :=
  { clientOrderId := order.id
    executionId := trade.buyOrderId
    userId := order.userId
    symbol := strncpy trade.symbol 9
    side := sideByte order.side
    price := trade.price
    quantity := trade.quantity
    filledQuantity := order.quantityFilled
    status := if order.isFilled then 2 else 1 }

/-- `m_report`, about the other side of a trade. It goes to the same client. -/
def makerReport (order : Order Int) (trade : Trade Int) (filledQuantity : Quantity) :
    ExecutionReport :=
  { clientOrderId := if order.side = .buy then trade.sellOrderId else trade.buyOrderId
    executionId := trade.buyOrderId
    userId := if order.side = .sell then trade.buyOrderId else trade.sellOrderId
    symbol := strncpy trade.symbol 9
    side := if order.side = .buy then 1 else 0
    price := trade.price
    quantity := trade.quantity
    filledQuantity := filledQuantity
    status := 2 }

/-- The messages about one trade. The book for `m_report` is looked up under the symbol bytes of
the request, and the order in it under the id of the request. -/
def reportTrade (timestamp : Timestamp) (req : NewOrderRequest) (behind : List UInt8) (fd : Int)
    (order : Order Int) (trade : Trade Int) (g : ClientGateway) : Reporting :=
  let report : Sent := ⟨fd, .executionReport (takerReport order trade)⟩
  match req.symbolString behind with
  | .error fault => ⟨[report], some fault⟩
  | .ok symbol =>
    match g.engine.getOrderBook symbol with
    -- `getbook->getOrderbyId` without a book
    | none => ⟨[report], some .nullPointer⟩
    | some book =>
      let filledQuantity :=
        match book.getOrderbyId req.clientOrderId with
        | some order => (g.engine.cells order).quantityFilled
        | none => trade.quantity
      { sent := report :: ⟨fd, .executionReport (makerReport order trade filledQuantity)⟩ ::
          g.broadcastTradeUpdate timestamp trade }

/-- The loop over the trades of a request; `i` of them are done. -/
def reportTrades (now : Nat → Timestamp) (req : NewOrderRequest) (behind : List UInt8) (fd : Int)
    (g : ClientGateway) : Nat → Order Int → List (Trade Int) → Reporting
  | _, _, [] => {}
  | i, order, trade :: trades =>
    let order := order.reduceQuantity trade.quantity
    (reportTrade (now i) req behind fd order trade g).andThen
      (reportTrades now req behind fd g (i + 1) order trades)

/-- The report of an order that did not trade. -/
def newReport (order : Order Int) : ExecutionReport :=
  { clientOrderId := order.id
    executionId := 0
    userId := order.userId
    symbol := strncpy order.symbol 9
    side := sideByte order.side
    price := order.price
    quantity := order.quantity
    filledQuantity := 0
    status := 0 }

/-- The report of a cancel. -/
def cancelReport (req : OrderCancelRequest) (symbol : Symbol)
    (cancelledOrder : Option (Order Int)) : ExecutionReport :=
  let report : ExecutionReport :=
    { clientOrderId := req.clientOrderId
      userId := req.userId
      executionId := 0
      symbol := strncpy symbol 9
      side := req.side
      price := 0
      quantity := 0
      filledQuantity := 0
      status := 4 }
  match cancelledOrder with
  | some order =>
    { report with
      side := sideByte order.side
      price := order.price
      quantity := order.quantity
      filledQuantity := order.quantityFilled
      status := 3 }
  | none => report

/-! ### Handlers -/

/-- `sessions_[fd].logged_in = true; sessions_[fd].user_id = fd;`. -/
def logIn (fd : Int) (g : ClientGateway) : ClientGateway :=
  let (session, g) := g.session fd
  { g with sessions := g.sessions.insert fd { session with loggedIn := true, userId := fd } }

/-- The answer to a log-in: `"Login successful"`. -/
def loginResponse : LoginResponse :=
  { status := 1
    message := strncpy
      [76, 111, 103, 105, 110, 32, 115, 117, 99, 99, 101, 115, 115, 102, 117, 108] 49 }

/-- `void handleLogin(int fd, const LoginRequest &req)`. It reads no field of the request. -/
def handleLogin (fd : Int) (g : ClientGateway) : Reporting × ClientGateway :=
  ({ sent := [⟨fd, .loginResponse loginResponse⟩] }, g.logIn fd)

/-- `void handleMarketDataRequest(int fd, const MarketDataRequest &req)`. -/
def handleMarketDataRequest (fd : Int) (req : MarketDataRequest) (g : ClientGateway) :
    Reporting × ClientGateway :=
  let (session, g) := g.session fd
  if !session.loggedIn then ({}, g)
  else
    match g.snapshot? (cleanSymbol req.symbol) with
    | none => ({}, g)
    | some snapshot => ({ sent := [⟨fd, .marketDataSnapshot snapshot⟩] }, g)

/-- `std::set<int>::insert`. -/
def insertFd (fd : Int) (fds : List Int) : List Int :=
  if fd ∈ fds then fds else fds.takeWhile (· < fd) ++ fd :: fds.dropWhile (· < fd)

/-- `void handleSubscriptionRequest(int fd, const SubscriptionRequest &req)`. -/
def handleSubscriptionRequest (fd : Int) (req : SubscriptionRequest) (g : ClientGateway) :
    Reporting × ClientGateway :=
  let (session, g) := g.session fd
  if !session.loggedIn then ({}, g)
  else
    let symbol := cleanSymbol req.symbol
    let fds := (g.marketDataSubscriptions.lookup symbol).getD []
    let fds := if req.isSubscribe ≠ 0 then insertFd fd fds else fds.filter (· ≠ fd)
    ({}, { g with marketDataSubscriptions := g.marketDataSubscriptions.insert symbol fds })

section Handlers

variable (clock now : Nat → Timestamp) (fuel : Nat)

/-- `void handleNewOrderInternal(const NewOrderRequest &req, int user_id, int fd,
bool is_replay)`. The session's user id is not used. -/
def handleNewOrderInternal (req : NewOrderRequest) (behind : List UInt8) (_userId fd : Int)
    (isReplay : Bool) (g : ClientGateway) : Except Fault (Reporting × ClientGateway) :=
  let order := req.order
  match processNewOrder clock fuel order g.engine with
  | .error fault => .error fault
  | .ok (trades, engine) =>
    let g := { g with engine := engine }
    -- a replay sends nothing
    if isReplay then .ok ({}, g)
    else
      let reports :=
        if trades.isEmpty then { sent := [⟨fd, .executionReport (newReport order)⟩] }
        else reportTrades now req behind fd g 0 order trades
      .ok (reports.andThen { sent := g.broadcastMarketData order.symbol }, g)

/-- `void handleNewOrder(int fd, const NewOrderRequest &req)`, with what the packet holds behind the
request. -/
def handleNewOrder (fd : Int) (req : NewOrderRequest) (behind : List UInt8) (g : ClientGateway) :
    Except Fault (Reporting × ClientGateway) :=
  let (session, g) := g.session fd
  if !session.loggedIn then .ok ({}, g)
  else handleNewOrderInternal clock now fuel req behind session.userId fd false (g.log req.units)

/-- `void handleOrderCancel(int fd, const OrderCancelRequest &req)`. -/
def handleOrderCancel (fd : Int) (req : OrderCancelRequest) (g : ClientGateway) :
    Except Fault (Reporting × ClientGateway) :=
  let (session, g) := g.session fd
  if !session.loggedIn then .ok ({}, g)
  else
    let g := g.log req.units
    let symbol := cleanSymbol req.symbol
    -- `req.user_id` is not looked at
    match cancelOrder req.clientOrderId symbol req.side.toNat g.engine with
    | .error fault => .error fault
    | .ok (cancelledOrder, engine) =>
      let g := { g with engine := engine }
      .ok ({ sent := ⟨fd, .executionReport (cancelReport req symbol cancelledOrder)⟩ ::
        g.broadcastMarketData symbol }, g)

/-- The body of the loop of `replayEvents`. -/
def replayEvent (req : NewOrderRequest) (g : ClientGateway) : Except Fault ClientGateway :=
  (handleNewOrderInternal clock now fuel req [] (Int.ofNat req.clientOrderId.toNat) (-1) true g).map
    Prod.snd

/-- `void replayEvents()`, on the contents of `orders.bin`. Every pass takes bytes from the file,
so there are at most as many as it has, and the one that ends the loop. -/
def replayEvents (infile : Option (List UInt8)) (g : ClientGateway) :
    Except Fault ClientGateway :=
  match infile with
  | none => .ok g
  | some bytes =>
    (FuelLoop.run .outOfFuel (reader (replayEvent clock now fuel)) (bytes.length + 1)
      (bytes, g)).map Prod.snd

end Handlers

/-! ### Requests -/

/-- A request of a client. The packet of a new order may go on behind the request. -/
inductive Request
  | newOrder (fd : Int) (req : NewOrderRequest) (behind : List UInt8 := [])
  | orderCancel (fd : Int) (req : OrderCancelRequest)
  deriving DecidableEq, Repr

/-- The handler of a request. -/
def handle (clock now : Nat → Timestamp) (fuel : Nat) (g : ClientGateway) :
    Request → Except Fault (Reporting × ClientGateway)
  | .newOrder fd req behind => handleNewOrder clock now fuel fd req behind g
  | .orderCancel fd req => handleOrderCancel fd req g

/-- A request is handled: under some bound on the matching loops, and for some readings of the
system clock, the engine's part in it returns. -/
def Handles (clock : Nat → Timestamp) (g : ClientGateway) (i : Request) (r : Reporting)
    (g' : ClientGateway) : Prop :=
  ∃ now fuel, handle clock now fuel g i = .ok (r, g')

end ClientGateway

end OrderMatchingEngine
