import OrderMatchingEngine.Connections
import OrderMatchingEngine.GatewayCodec

/-!
# OrderMatchingEngine.Processes

The two programs as processes: `gateway/gateway.py`, the engine, and the file of the event log.

Both programs can be started again. `gateway.py` counts its order ids from zero then, and connects
and logs in. The engine starts without clients and, in replay mode, with the books that the log
gives.

Design points:

* A call of `PlaceOrder` is one step: its id is taken, and the packet is processed by the engine.
  There is no packet where the token is not accepted or `struct.pack` raises, and none arrives where
  the engine is not connected.
* `gateway.py` connects when it starts and never again, so it is cut off by an engine that ends.
* An engine that dies leaves the log behind. It writes an order there before it processes it.
-/

namespace OrderMatchingEngine

/-- The counter of `gateway.py` and the descriptor that the engine has for its socket, the engine
while it runs, and the contents of `orders.bin`. -/
structure Processes where
  orderIdCounter : Nat := 0
  omeSock : Option Int := none
  engine : Option ClientGateway := none
  ordersBin : List UInt8 := []

/-- A step of one of the programs. -/
inductive Action
  /-- A call of `PlaceOrder`, with the user of its token. -/
  | placeOrder (user : Option Nat) (request : TradingPb2.NewOrderRequest)
  /-- `gateway.py` is started again. The engine calls its new connection `fd`. -/
  | restartGateway (fd : Int)
  /-- The engine is started again, in replay mode, and may or may not get at the file. -/
  | restartEngine (logOpen readable : Bool)

namespace Processes

/-- `def get_order_id(self)`. -/
def getOrderId (s : Processes) : Nat × Processes :=
  let orderIdCounter := s.orderIdCounter + 1
  (orderIdCounter, { s with orderIdCounter := orderIdCounter })

/-- The engine when it starts: with a pool of `n` slots, and the log as it was left. -/
def freshEngine (n : Nat) (logOpen : Bool) (s : Processes) : ClientGateway :=
  { engine := MatchingEngine.withPool n
    sessions := ∅
    marketDataSubscriptions := ∅
    logOpen := logOpen
    eventLog := s.ordersBin }

section Calls

variable (clock now : Nat → Timestamp) (fuel : Nat)

/-- The engine gets a packet of `gateway.py`. -/
def receivePacket (fd : Int) (data : List UInt8) (g : ClientGateway) (s : Processes) : Processes :=
  match g.processPacket clock fuel now fd data with
  | .error _ =>
    { s with omeSock := none, engine := none, ordersBin := (g.log data).eventLog }
  | .ok (r, g) =>
    match r.fault with
    | some _ => { s with omeSock := none, engine := none, ordersBin := g.eventLog }
    | none => { s with engine := some g, ordersBin := g.eventLog }

/-- `def PlaceOrder(self, request, context)`, with the id that it gets. -/
def placeOrder (user : Option Nat) (request : TradingPb2.NewOrderRequest) (s : Processes) :
    Nat × Processes :=
  let (orderId, s) := s.getOrderId
  match user.bind fun userId => GatewayService.placeOrder orderId userId request, s.omeSock,
      s.engine with
  | some data, some fd, some g => (orderId, s.receivePacket clock now fuel fd data g)
  | _, _, _ => (orderId, s)

/-- `def __init__(self)` of `gateway.py`: the old connection ends, and a new one logs in. -/
def restartGateway (fd : Int) (s : Processes) : Processes :=
  match s.engine, GatewayService.connectToOme with
  | some g, some data =>
    let g := match s.omeSock with
      | some old => g.onDisconnection old
      | none => g
    { s with orderIdCounter := 0, omeSock := some fd }.receivePacket clock now fuel fd data
      (g.onConnection fd)
  -- `Connection failed`
  | _, _ => { s with orderIdCounter := 0, omeSock := none }

/-- `main` of the engine in replay mode, up to `server.start()`. -/
def restartEngine (n : Nat) (logOpen readable : Bool) (s : Processes) : Processes :=
  let infile := if readable then some s.ordersBin else none
  match (s.freshEngine n logOpen).replayEvents clock now fuel infile with
  | .error _ => { s with omeSock := none, engine := none }
  | .ok g => { s with omeSock := none, engine := some g }

/-- Take a step, with the id that was handed out. -/
def act (n : Nat) : Action → Processes → Option Nat × Processes
  | .placeOrder user request, s => (s.placeOrder clock now fuel user request).map some id
  | .restartGateway fd, s => (none, s.restartGateway clock now fuel fd)
  | .restartEngine logOpen readable, s => (none, s.restartEngine clock now fuel n logOpen readable)

end Calls

/-- One step, under some readings of the clocks and some bound on the matching loops. -/
def Step (n : Nat) (s : Processes) (a : Action) (o : Option Nat) (s' : Processes) : Prop :=
  ∃ clock now fuel, s.act clock now fuel n a = (o, s')

end Processes

end OrderMatchingEngine
