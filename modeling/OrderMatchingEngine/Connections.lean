import OrderMatchingEngine.ClientGateway

/-!
# OrderMatchingEngine.Connections

From the sockets to the handlers: `onConnection`, `onMessage`, `onDisconnection` and
`processPacket` (`src/client_gateway.cpp`), in the order of events of `TcpServer::start`.

Design points:

* `onMessage` says which packets it handed to `processPacket` and what was sent meanwhile
  (`Progress`). Where the process dies there is no state, only what was done until then (`Crash`).
* The loop of `onMessage` runs under a bound, like the matching loops. Each pass takes at least the
  header off the buffer, so the length of the buffer bounds them.
* A packet is laid out as the request its type says, however long it is. Every handler asks first
  whether the client has logged in, and reads its request to the last field if so; a packet that
  ends before is read past its end then (`withRequest`).
* `now k i` is the reading of the system clock for the `i`-th trade update of the `k`-th packet
  of a call.
-/

namespace OrderMatchingEngine

open FuelLoop (Iter)
open Records (Packed)

/-- What events have led to: the state, the packets handed to `processPacket`, and what was
sent. -/
structure Progress where
  gateway : ClientGateway
  handed : List (List UInt8) := []
  sent : List Sent := []

/-- What had been done when the process died, and how it died. -/
structure Crash where
  handed : List (List UInt8)
  sent : List Sent
  fault : Fault
  deriving DecidableEq, Repr

/-- Go on after some progress. -/
def Progress.andThen (p : Progress) : Except Crash Progress → Except Crash Progress
  | .error crash => .error ⟨p.handed ++ crash.handed, p.sent ++ crash.sent, crash.fault⟩
  | .ok p' => .ok ⟨p'.gateway, p.handed ++ p'.handed, p.sent ++ p'.sent⟩

/-- What `TcpServer` tells the gateway. A message comes with the clock readings made while it is
processed. -/
inductive Event
  | connection (fd : Int)
  | message (fd : Int) (now : Nat → Nat → Timestamp) (data : List UInt8)
  | disconnection (fd : Int)

/-- The descriptor of an event. -/
def Event.fd : Event → Int
  | .connection fd => fd
  | .message fd _ _ => fd
  | .disconnection fd => fd

namespace ClientGateway

/-- `sessions_[fd].buffer`. -/
def buffer (fd : Int) (g : ClientGateway) : List UInt8 := (g.session fd).1.buffer

/-- Assign to `sessions_[fd].buffer`. -/
def setBuffer (fd : Int) (bytes : List UInt8) (g : ClientGateway) : ClientGateway :=
  let (session, g) := g.session fd
  { g with sessions := g.sessions.insert fd { session with buffer := bytes } }

/-- `void onConnection(int fd)`. -/
def onConnection (fd : Int) (g : ClientGateway) : ClientGateway :=
  { g with sessions := g.sessions.insert fd {} }

/-- `subscribers.erase(fd)`, for each symbol. -/
def eraseSubscriber (fd : Int) (subscriptions : AList fun _ : Symbol => List Int) :
    AList fun _ : Symbol => List Int where
  entries := subscriptions.entries.map fun entry => ⟨entry.1, entry.2.filter (· ≠ fd)⟩
  nodupKeys := by
    have hkeys := subscriptions.nodupKeys
    unfold List.NodupKeys List.keys at hkeys ⊢
    rwa [List.map_map]

/-- `void onDisconnection(int fd)`. -/
def onDisconnection (fd : Int) (g : ClientGateway) : ClientGateway :=
  { g with
    sessions := g.sessions.erase fd
    marketDataSubscriptions := eraseSubscriber fd g.marketDataSubscriptions }

/-- Hand a packet to the handler of a request of `n` bytes, with what it holds behind them. -/
def withRequest (n : Nat) (fd : Int) (data : List UInt8) (g : ClientGateway)
    (handler : Packed UInt8 n → List UInt8 → Except Fault (Reporting × ClientGateway)) :
    Except Fault (Reporting × ClientGateway) :=
  match Records.read? n data with
  | some (req, behind) => handler req behind
  | none => if g.LoggedIn fd then .error .outOfBounds else .ok ({}, (g.session fd).2)

section Calls

variable (clock : Nat → Timestamp) (fuel : Nat)

/-- `void processPacket(int fd, const char *data)`. -/
def processPacket (now : Nat → Timestamp) (fd : Int) (data : List UInt8) (g : ClientGateway) :
    Except Fault (Reporting × ClientGateway) :=
  match requestType? data with
  | some .loginRequest => .ok (handleLogin fd g)
  | some .newOrder => withRequest 49 fd data g fun req behind =>
      handleNewOrder clock now fuel fd req behind g
  | some .marketDataRequest => withRequest 15 fd data g fun req _ =>
      .ok (handleMarketDataRequest fd req g)
  | some .subscriptionRequest => withRequest 16 fd data g fun req _ =>
      .ok (handleSubscriptionRequest fd req g)
  | some .orderCancel => withRequest 32 fd data g fun req _ => handleOrderCancel fd req g
  | none => .ok ({}, g)

variable (now : Nat → Nat → Timestamp) (fd : Int)

/-- One pass of the loop of `onMessage`. -/
def onMessageBody (p : Progress) : Except Crash (Iter Progress) :=
  let buffer := p.gateway.buffer fd
  if buffer.length < 5 then .ok (.done p)
  else
    let msgLen := headerMsgLen buffer
    -- `return`: the header stays where it is
    if msgLen > 1024 ∨ msgLen < 5 then .ok (.done p)
    -- `break`: wait for the rest
    else if buffer.length < msgLen then .ok (.done p)
    else
      let msgData := buffer.take msgLen
      match processPacket clock fuel (now p.handed.length) fd msgData p.gateway with
      | .error fault => .error ⟨p.handed ++ [msgData], p.sent, fault⟩
      | .ok (r, g) =>
        match r.fault with
        | some fault => .error ⟨p.handed ++ [msgData], p.sent ++ r.sent, fault⟩
        | none => .ok (.next
            { gateway := g.setBuffer fd ((g.buffer fd).drop msgLen)
              handed := p.handed ++ [msgData]
              sent := p.sent ++ r.sent })

/-- `void onMessage(int fd, const char *data, size_t len)`. -/
def onMessage (data : List UInt8) (g : ClientGateway) : Except Crash Progress :=
  let g := g.setBuffer fd (g.buffer fd ++ data)
  FuelLoop.run ⟨[], [], .outOfFuel⟩ (onMessageBody clock fuel now fd) ((g.buffer fd).length + 1)
    ⟨g, [], []⟩

omit now fd in
/-- An event of the server. -/
def deliver (event : Event) (g : ClientGateway) : Except Crash Progress :=
  match event with
  | .connection fd => .ok ⟨g.onConnection fd, [], []⟩
  | .message fd now data => g.onMessage clock fuel now fd data
  | .disconnection fd => .ok ⟨g.onDisconnection fd, [], []⟩

omit now fd in
/-- One more event. -/
def proceed (p : Progress) (event : Event) : Except Crash Progress :=
  p.andThen (p.gateway.deliver clock fuel event)

omit now fd in
/-- The events of a run, one after the other. -/
def run (events : List Event) (g : ClientGateway) : Except Crash Progress :=
  events.foldlM (proceed clock fuel) ⟨g, [], []⟩

end Calls

end ClientGateway

end OrderMatchingEngine
