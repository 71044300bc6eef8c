import OrderMatchingEngine.GatewayCodec
import OrderMatchingEngine.Library.Loop
import OrderMatchingEngine.Library.ShortWrites
import OrderMatchingEngine.TradingPb2

/-!
# OrderMatchingEngine.Streams

The stream from the engine to `gateway/gateway.py`: `TcpServer::sendPacket` at its one end and
`tcp_listener_loop` at the other.

Design points:

* The socket decides how many of the bytes it accepts (`Write`). `sendPacket` does not look at them,
  so it is defined for any kind of bytes.
* Whether a handler raises is a parameter of the loop, since the handlers call generated code:
  `HandlerCall.raises` says when, for a `trading_pb2`.
* The inner loop of the listener runs under a bound. A pass that takes a message off the buffer
  shortens it, unless the header says that the message has no bytes.
-/

namespace OrderMatchingEngine

open FuelLoop (Iter)
open StructFormat (unpack)

/-! ### Sending -/

namespace TcpServer

universe u

variable {β : Type u}

/-- `void TcpServer::sendPacket(int fd, const char *data, size_t len)`: what has gone into the
stream to a client after it. The result of `send` is not used. -/
def sendPacket (stream : List β) (w : Write β) : List β := stream ++ w.packet.take w.accepted

/-- The stream to a client. -/
def outgoing (writes : List (Write β)) : List β := writes.foldl sendPacket []

theorem outgoing_eq (writes : List (Write β)) : outgoing writes = ShortWrites.delivered writes := by
  suffices h : ∀ stream, writes.foldl sendPacket stream =
      stream ++ ShortWrites.delivered writes from (h []).trans (List.nil_append _)
  intro stream
  induction writes generalizing stream with
  | nil => exact (List.append_nil stream).symm
  | cons w writes ih =>
      rw [List.foldl_cons, ih, ShortWrites.delivered_cons, sendPacket, List.append_assoc]

end TcpServer

/-! ### Receiving -/

namespace GatewayService

/-- A call of a handler with the payload of a message. -/
inductive HandlerCall
  | handleSnapshot (payload : List UInt8)
  | handleExecution (payload : List UInt8)
  deriving DecidableEq, Repr

/-- The handler raises on the payload: `struct.unpack` does, or a constructor of `trading_pb2`. -/
def HandlerCall.raises (pb : TradingPb2) : HandlerCall → Bool
  | .handleSnapshot payload =>
    match GatewayService.handleSnapshot payload with
    | some snapshot => !(pb.takesSnapshot &&
        (snapshot.bids ++ snapshot.asks).all fun _ => pb.takesLevel)
    | none => true
  -- behind `if len(payload) < 60: return`, where 60 bytes can be unpacked
  | .handleExecution payload => !(decide (payload.length < 60) || pb.takesReport)

/-- `tcp_listener_loop` between two passes: `buffer`, the messages that it took off, each with what
it read as the header, and the calls that it made. -/
structure Listener where
  buffer : List UInt8 := []
  taken : List (List UInt8) := []
  calls : List HandlerCall := []
  deriving DecidableEq, Repr

/-- How the listener ends, unless the stream does. -/
inductive ListenerError
  /-- A handler raised, on the last of the messages taken. -/
  | raised (taken : List (List UInt8)) (calls : List HandlerCall)
  /-- The inner loop does not end. -/
  | hangs
  deriving DecidableEq, Repr

/-- The call for a message of this type, if there is one. -/
def handlerCall? (msgType : Nat) (payload : List UInt8) : Option HandlerCall :=
  if msgType = msgSnapshot then some (.handleSnapshot payload)
  else if msgType = msgExecReport then some (.handleExecution payload)
  else none

variable (raises : HandlerCall → Bool)

/-- One pass of the inner loop of `tcp_listener_loop`. -/
def listenerBody (l : Listener) : Except ListenerError (Iter Listener) :=
  if l.buffer.length < 5 then .ok (.done l)
  else
    match unpack headerFmt (l.buffer.take 5) with
    | some [.int _seqNum, .int msgType, .int msgLen] =>
      -- `break`: wait for the rest
      if l.buffer.length < msgLen then .ok (.done l)
      else
        let payload := (l.buffer.take msgLen).drop 5
        let call := handlerCall? msgType payload
        let taken := l.taken ++ [l.buffer.take msgLen]
        let calls := l.calls ++ call.toList
        if call.any raises then .error (.raised taken calls)
        else .ok (.next { buffer := l.buffer.drop msgLen, taken := taken, calls := calls })
    -- `struct.error`, which five bytes do not give
    | _ => .error (.raised l.taken l.calls)

/-- `buffer += data`, and the inner loop. -/
def receiveData (data : List UInt8) (l : Listener) : Except ListenerError Listener :=
  FuelLoop.run .hangs (listenerBody raises) ((l.buffer ++ data).length + 1)
    { l with buffer := l.buffer ++ data }

/-- `def tcp_listener_loop(self)`, on what the calls of `recv` return. It ends with the stream, when
nothing is returned. -/
def tcpListenerLoop : List (List UInt8) → Listener → Except ListenerError Listener
  | [], l => .ok l
  | data :: chunks, l =>
    if data.isEmpty then .ok l
    else
      match receiveData raises data l with
      | .error e => .error e
      | .ok l => tcpListenerLoop chunks l

end GatewayService

end OrderMatchingEngine
