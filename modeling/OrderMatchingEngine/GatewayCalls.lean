import Mathlib.Logic.Function.Basic
import OrderMatchingEngine.GatewayCodec
import OrderMatchingEngine.Library.ShortWrites
import OrderMatchingEngine.Library.Trace
import OrderMatchingEngine.TradingPb2

/-!
# OrderMatchingEngine.GatewayCalls

The calls of users to `gateway/gateway.py`: who they log in as, and what the engine is sent.

Design points:

* `jwt` and the secret key are a parameter. A time is in seconds.
* Each call has a thread of the server, and there is no lock. A step is one access to what the calls
  share: `order_id_counter`, which `+=` reads and writes, the clock, and the socket.
* `sendall` is a loop: each time around the socket takes some of what is left, or `sendall` raises.
  Other calls may get in between.
* `Login` shares nothing with the other calls, so it is one step, at its `datetime.now`. A client
  can call it only where `trading_pb2` has it. The other methods are there, as in
  `proto/trading.proto`.
* The tokens that `Login` has handed out are kept, for what others can know; the service does not
  look at them.
* The queues of the streaming methods are left out.
-/

namespace OrderMatchingEngine

open ShortWrites (more)

/-- What a token says. -/
structure Payload where
  userId : Nat
  exp : Nat
  deriving DecidableEq, Repr

/-- What `jwt.decode` raises. -/
inductive JwtError
  | expiredSignature
  | invalidToken
  deriving DecidableEq, Repr

/-- `jwt`, with the secret key. -/
structure Jwt where
  encode : Payload → String
  /-- At a time. -/
  decode : Nat → String → Except JwtError Payload

/-- What `get_user_from_context` raises. -/
inductive AuthError
  /-- `context.abort(grpc.StatusCode.UNAUTHENTICATED, details)`. -/
  | abort (details : String)
  /-- `token.split(' ')[1]` of a text without a space. -/
  | indexError
  deriving DecidableEq, Repr

/-- `message OrderResponse`. -/
structure TradingPb2.OrderResponse where
  success : Bool
  message : String
  orderId : Nat
  deriving DecidableEq, Repr

open TradingPb2 (OrderResponse NewOrderRequest CancelOrderRequest)

namespace GatewayCalls

/-- The metadata of a call. -/
abbrev Metadata := List (String × String)

/-- What a call packs for the engine: an order with the number that it got, a cancel, or a request
for market data. -/
inductive Work
  | placeOrder (orderId : Nat) (metadata : Metadata) (request : NewOrderRequest)
  | cancelOrder (metadata : Metadata) (request : CancelOrderRequest)
  | streamMarketData (symbol : String)
  | requestMarketDataSnapshot (symbol : String)
  deriving DecidableEq, Repr

/-- The metadata of a call that looks at its token. -/
def Work.metadata? : Work → Option Metadata
  | .placeOrder _ metadata _ | .cancelOrder metadata _ => some metadata
  | _ => none

/-- Where a call is. -/
inductive UserCall
  /-- Not made yet. -/
  | idle
  /-- In `PlaceOrder`, where `self.order_id_counter += 1` reads. -/
  | counting (metadata : Metadata) (request : NewOrderRequest)
  /-- Where it writes, with what it has read. -/
  | storing (metadata : Metadata) (request : NewOrderRequest) (count : Nat)
  /-- At `return self.order_id_counter`. -/
  | numbering (metadata : Metadata) (request : NewOrderRequest)
  /-- At `get_user_from_context`, or at `struct.pack` if it does not ask for a token. -/
  | packing (work : Work)
  /-- In `sendall`. -/
  | sending (work : Work) (write : Write UInt8)
  /-- Behind `sendall`, or it did not come to that. -/
  | ended (write : Option (Write UInt8))

/-- What the call has given to `sendall`, and how much of it the socket has taken. -/
def UserCall.write? : UserCall → Option (Write UInt8)
  | .sending _ write => some write
  | .ended write => write
  | _ => none

/-- What `Login` gives to `trading_pb2.LoginResponse`. -/
structure LoginResponse where
  success : Bool
  token : String
  message : String
  deriving DecidableEq, Repr

/-- What a caller gets. -/
inductive Reply
  | order (response : OrderResponse)
  | unauthenticated (error : AuthError)
  /-- `struct.pack` raises. -/
  | structError
  /-- The method goes on to its queue. -/
  | streaming
  /-- `sendall` raises, outside of a `try`. -/
  | sendError (e : String)
  deriving DecidableEq, Repr

/-- A step of the service or of the clock. -/
inductive Action (θ : Type)
  /-- Time passes. -/
  | wait (seconds : Nat)
  | login (username password : String)
  | placeOrder (t : θ) (metadata : Metadata) (request : NewOrderRequest)
  | cancelOrder (t : θ) (metadata : Metadata) (request : CancelOrderRequest)
  | streamMarketData (t : θ) (symbol : String)
  | requestMarketDataSnapshot (t : θ) (symbol : String)
  | readCounter (t : θ)
  | writeCounter (t : θ)
  /-- `get_order_id` returns. -/
  | getOrderId (t : θ)
  /-- The token is looked at, and the message packed. -/
  | pack (t : θ)
  /-- The socket takes the next so many bytes. -/
  | send (t : θ) (n : Nat)
  /-- `sendall` returns. -/
  | sent (t : θ)
  /-- `sendall` raises. -/
  | raise (t : θ) (e : String)
  deriving DecidableEq, Repr

/-- What a step shows. -/
inductive Output
  | silent
  /-- `Login` is answered, or it cannot be called or raises. -/
  | login (response : Option LoginResponse)
  /-- The order got this number. -/
  | number (orderId : Nat)
  /-- This is given to `sendall`. -/
  | sends (data : List UInt8)
  /-- The socket took this. -/
  | took (piece : List UInt8)
  | reply (reply : Reply)
  deriving DecidableEq, Repr

/-! ### What a call does by itself -/

/-- `dict(context.invocation_metadata()).get(key)`. -/
def Metadata.get (metadata : Metadata) (key : String) : Option String :=
  metadata.reverse.lookup key

/-- `token.split(' ')[1]`. -/
def secondWord (token : String) : Option String :=
  match token.toList.dropWhile (· ≠ ' ') with
  | [] => none
  | _ :: rest => some (String.ofList (rest.takeWhile (· ≠ ' ')))

/-- The token in the metadata. -/
def bearerToken (metadata : Metadata) : Except AuthError String :=
  match metadata.get "authorization" with
  | none => .error (.abort "Missing or invalid token")
  | some token =>
    if token = "" ∨ ¬ "Bearer".toList.isPrefixOf token.toList then
      .error (.abort "Missing or invalid token")
    else
      match secondWord token with
      | none => .error .indexError
      | some token => .ok token

/-- `def get_user_from_context(self, context)`. -/
def getUserFromContext (jwt : Jwt) (now : Nat) (metadata : Metadata) : Except AuthError Nat :=
  match bearerToken metadata with
  | .error e => .error e
  | .ok token =>
    match jwt.decode now token with
    | .ok payload => .ok payload.userId
    | .error .expiredSignature => .error (.abort "Token expired")
    | .error .invalidToken => .error (.abort "Invalid token")

/-- `mock_db`. -/
def mockDb : List (String × String × Nat) :=
  [("Trader1", "pass1", 1), ("Trader2", "pass2", 2), ("Trader3", "pass3", 3)]

/-- The user that the name and the password are of. -/
def credentials (username password : String) : Option Nat :=
  match mockDb.lookup username with
  | some (password', userId) => if password' = password then some userId else none
  | none => none

/-- `def Login(self, request, context)`, where it can be called and answers. -/
def login (pb : TradingPb2) (jwt : Jwt) (now : Nat) (username password : String) :
    Option LoginResponse :=
  if pb.servesLogin then
    match credentials username password with
    | some userId =>
      some {
        success := true
        token := jwt.encode { userId := userId, exp := now + 15 * 60 }
        message := "Login successful" }
    | none => some { success := false, token := "", message := "Invalid credentials" }
  else none

/-- What is packed for a user, or what the caller gets instead. -/
def packFor (user : Except AuthError Nat) (pack : Nat → Option (List UInt8)) :
    Except Reply (List UInt8) :=
  match user with
  | .error e => .error (.unauthenticated e)
  | .ok userId =>
    match pack userId with
    | none => .error .structError
    | some data => .ok data

/-- The part of a method between `get_order_id` and `sendall`. -/
def Work.packet (jwt : Jwt) (now : Nat) : Work → Except Reply (List UInt8)
  | .placeOrder orderId metadata request =>
    packFor (getUserFromContext jwt now metadata) fun userId =>
      GatewayService.placeOrder orderId userId request
  | .cancelOrder metadata request =>
    packFor (getUserFromContext jwt now metadata) fun userId =>
      GatewayService.cancelOrder userId request
  | .streamMarketData symbol =>
    match GatewayService.streamMarketData symbol with
    | none => .error .structError
    | some data => .ok data
  | .requestMarketDataSnapshot symbol =>
    match GatewayService.requestMarketDataSnapshot symbol with
    | none => .error .structError
    | some data => .ok data

/-- What a caller gets when `sendall` has returned. -/
def Work.forwarded : Work → Reply
  | .placeOrder orderId _ _ => .order ⟨true, "Order Forwarded", orderId⟩
  | .cancelOrder _ request => .order ⟨true, "Cancel Forwarded", request.orderId.toNat⟩
  | .streamMarketData _ | .requestMarketDataSnapshot _ => .streaming

/-- What a caller gets when `sendall` has raised. -/
def Work.failed (e : String) : Work → Reply
  | .placeOrder _ _ _ => .order ⟨false, "Failed to send: " ++ e, 0⟩
  | .cancelOrder _ request => .order ⟨false, "Failed to send: " ++ e, request.orderId.toNat⟩
  | .streamMarketData _ | .requestMarketDataSnapshot _ => .sendError e

end GatewayCalls

open GatewayCalls (Action Output UserCall)

/-- The service, as far as the calls of users go. -/
structure GatewayCalls (θ : Type) where
  orderIdCounter : Nat := 0
  /-- What `ome_sock` has taken. -/
  written : List UInt8 := []
  now : Nat := 0
  tokens : List String := []
  calls : θ → UserCall := fun _ => .idle

namespace GatewayCalls

variable {θ : Type} [DecidableEq θ]

/-- `def __init__(self)`: the connection is there, and the log-in is written to it. -/
def started : GatewayCalls θ := { written := GatewayService.connectToOme.getD [] }

/-- The call moves on. -/
def goto (s : GatewayCalls θ) (t : θ) (call : UserCall) : GatewayCalls θ :=
  { s with calls := Function.update s.calls t call }

/-- A call is made. -/
def begin (s : GatewayCalls θ) (t : θ) (call : UserCall) : Option (Output × GatewayCalls θ) :=
  match s.calls t with
  | .idle => some (.silent, s.goto t call)
  | _ => none

/-- A step of `PlaceOrder`, up to the number. -/
def number (s : GatewayCalls θ) : Action θ → Option (Output × GatewayCalls θ)
  | .readCounter t =>
    match s.calls t with
    | .counting metadata request =>
      some (.silent, s.goto t (.storing metadata request s.orderIdCounter))
    | _ => none
  | .writeCounter t =>
    match s.calls t with
    | .storing metadata request count =>
      some (.silent, { s.goto t (.numbering metadata request) with orderIdCounter := count + 1 })
    | _ => none
  | .getOrderId t =>
    match s.calls t with
    | .numbering metadata request =>
      some (.number s.orderIdCounter,
        s.goto t (.packing (.placeOrder s.orderIdCounter metadata request)))
    | _ => none
  | _ => none

section Calls

variable (pb : TradingPb2) (jwt : Jwt)

/-- A step of a call from there on: `self.ome_sock.sendall(header + pay_load)`. -/
def send (s : GatewayCalls θ) : Action θ → Option (Output × GatewayCalls θ)
  | .pack t =>
    match s.calls t with
    | .packing work =>
      match work.packet jwt s.now with
      | .error reply => some (.reply reply, s.goto t (.ended none))
      | .ok data => some (.sends data, s.goto t (.sending work ⟨data, 0, Nat.zero_le _⟩))
    | _ => none
  | .send t n =>
    match s.calls t with
    | .sending work write =>
      if h : 0 < n ∧ write.accepted + n ≤ write.packet.length then
        let piece := (write.packet.drop write.accepted).take n
        some (.took piece, { s.goto t (.sending work (more write n h.2)) with
          written := s.written ++ piece })
      else none
    | _ => none
  | .sent t =>
    match s.calls t with
    | .sending work write =>
      if write.accepted = write.packet.length then
        some (.reply work.forwarded, s.goto t (.ended (some write)))
      else none
    | _ => none
  | .raise t e =>
    match s.calls t with
    | .sending work write =>
      if write.accepted < write.packet.length then
        some (.reply (work.failed e), s.goto t (.ended (some write)))
      else none
    | _ => none
  | _ => none

/-- Take a step, where it is possible. -/
def act (s : GatewayCalls θ) : Action θ → Option (Output × GatewayCalls θ)
  | .wait seconds => some (.silent, { s with now := s.now + seconds })
  | .login username password =>
    let response := login pb jwt s.now username password
    some (.login response, { s with
      tokens := s.tokens ++ (response.filter (·.success)).toList.map (·.token) })
  | .placeOrder t metadata request => s.begin t (.counting metadata request)
  | .cancelOrder t metadata request => s.begin t (.packing (.cancelOrder metadata request))
  | .streamMarketData t symbol => s.begin t (.packing (.streamMarketData symbol))
  | .requestMarketDataSnapshot t symbol =>
    s.begin t (.packing (.requestMarketDataSnapshot symbol))
  | a => s.number a <|> s.send jwt a

end Calls

end GatewayCalls

end OrderMatchingEngine
