import OrderMatchingEngine.Library.Records
import OrderMatchingEngine.OrderBook

/-!
# OrderMatchingEngine.Protocol

The messages of `include/protocol.h`.

The structs are packed, and a request is a struct laid over the bytes of a packet. So a request is
its bytes (`Packed`), and a field is a read at the field's offset, little-endian as on the machines
the clients' `struct.pack` formats (`<...`) assume. A packet may go on behind its request, and only
the one field that is used as a C string can be read into what is there.

A `double` is known to the engine by its comparisons only. `Price.ofBits` maps the bits to a
number in the order of the doubles (`-0.0` and `0.0` are one number), or to NaN.

The messages the engine sends are records of the fields it assigns. `strncpy(dst, src, n)` of the
source assigns `n` bytes of a field that has one more.
-/

namespace OrderMatchingEngine

open Records (Packed)

/-! ### Fields -/

/-- The unsigned number that bytes spell, least significant first. -/
def littleEndian : List UInt8 → Nat
  | [] => 0
  | byte :: bytes => byte.toNat + 256 * littleEndian bytes

/-- The bytes of a field: `size` of them, from `offset` on. -/
def field {n : Nat} (r : Packed UInt8 n) (offset size : Nat) : List UInt8 :=
  (r.units.drop offset).take size

/-- The bits of a `double` without its sign. -/
def magnitude (bits : UInt64) : UInt64 := bits &&& 0x7fffffffffffffff

/-- The `double` with the given bits. From the bits of infinity on there are only NaNs;
below, doubles of one sign are ordered as their bits are. -/
def Price.ofBits (bits : UInt64) : Price Int :=
  if magnitude bits > 0x7ff0000000000000 then .nan
  else if bits = magnitude bits then .num (magnitude bits).toNat
  else .num (-(magnitude bits).toNat)

/-- `std::isspace` in the "C" locale. -/
def isSpace (byte : UInt8) : Bool := byte = 32 || (9 ≤ byte && byte ≤ 13)

/-- `std::string clean_symbol(const char *raw, size_t size)`: without NULs, then without
trailing spaces. -/
def cleanSymbol (raw : List UInt8) : Symbol :=
  ((raw.filter (· ≠ 0)).reverse.dropWhile isSpace).reverse

/-- The bytes `strncpy(dst, src, n)` assigns: those of `src` up to a NUL, padded with NULs. -/
def strncpy (src : List UInt8) (n : Nat) : List UInt8 :=
  let copied := (src.takeWhile (· ≠ 0)).take n
  copied ++ List.replicate (n - copied.length) 0

/-! ### Requests -/

/-- `header->type` of a packet. -/
def headerType (data : List UInt8) : UInt8 :=
  .ofNat (littleEndian ((data.drop 2).take 1))

/-- `header->msg_len` of a packet. -/
def headerMsgLen (data : List UInt8) : Nat := littleEndian ((data.drop 3).take 2)

/-- `enum class MessageType`, the types of requests. -/
inductive RequestType
  | loginRequest
  | newOrder
  | orderCancel
  | marketDataRequest
  | subscriptionRequest
  deriving DecidableEq, Repr

/-- The type of a request, if it has one of them: `'L'`, `'N'`, `'C'`, `'M'` or `'Q'`. -/
def requestType? (data : List UInt8) : Option RequestType :=
  if headerType data = 76 then some .loginRequest
  else if headerType data = 78 then some .newOrder
  else if headerType data = 77 then some .marketDataRequest
  else if headerType data = 81 then some .subscriptionRequest
  else if headerType data = 67 then some .orderCancel
  else none

/-- `struct NewOrderRequest`: header (5 bytes), `client_order_id`, `user_id`, `symbol` (10),
`side`, `type`, `price` and `quantity`. -/
abbrev NewOrderRequest := Packed UInt8 49

namespace NewOrderRequest

variable (req : NewOrderRequest)

def clientOrderId : OrderID := .ofNat (littleEndian (field req 5 8))
def userId : UserID := .ofNat (littleEndian (field req 13 8))
def symbol : List UInt8 := field req 21 10
def side : UInt8 := .ofNat (littleEndian (field req 31 1))
def type : UInt8 := .ofNat (littleEndian (field req 32 1))
def price : Price Int := .ofBits (.ofNat (littleEndian (field req 33 8)))
def quantity : Quantity := .ofNat (littleEndian (field req 41 8))

/-- `req.symbol` as a C string: the bytes from there to the first NUL. Where `symbol` has none
they go on in the fields behind it, and then in the packet behind the request. -/
def symbolString (behind : List UInt8) : Except Fault Symbol :=
  let bytes := req.units.drop 21 ++ behind
  if bytes.contains 0 then .ok (bytes.takeWhile (· ≠ 0)) else .error .unterminatedString

end NewOrderRequest

/-- `struct OrderCancelRequest`: header (5 bytes), `client_order_id`, `user_id`, `symbol` (10)
and `side`. -/
abbrev OrderCancelRequest := Packed UInt8 32

namespace OrderCancelRequest

variable (req : OrderCancelRequest)

def clientOrderId : OrderID := .ofNat (littleEndian (field req 5 8))
def userId : UserID := .ofNat (littleEndian (field req 13 8))
def symbol : List UInt8 := field req 21 10
def side : UInt8 := .ofNat (littleEndian (field req 31 1))

end OrderCancelRequest

/-- `struct MarketDataRequest`: header (5 bytes) and `symbol` (10). -/
abbrev MarketDataRequest := Packed UInt8 15

def MarketDataRequest.symbol (req : MarketDataRequest) : List UInt8 := field req 5 10

/-- `struct SubscriptionRequest`: header (5 bytes), `symbol` (10) and `is_subscribe`. -/
abbrev SubscriptionRequest := Packed UInt8 16

namespace SubscriptionRequest

variable (req : SubscriptionRequest)

def symbol : List UInt8 := field req 5 10
def isSubscribe : UInt8 := .ofNat (littleEndian (field req 15 1))

end SubscriptionRequest

/-! ### Messages sent by the engine -/

/-- `enum class MessageType`, the types the engine sends: `'R'`, `'E'`, `'S'` and `'T'`. -/
inductive MessageType
  | loginResponse
  | executionReport
  | marketDataSnapshot
  | tradeUpdate
  deriving DecidableEq, Repr

/-- `struct MessageHeader`. -/
structure MessageHeader where
  seqNum : UInt16
  type : MessageType
  msgLen : UInt16
  deriving DecidableEq, Repr

/-- `struct LoginResponse`. -/
structure LoginResponse where
  header : MessageHeader := ⟨0, .loginResponse, 56⟩
  status : UInt8
  message : List UInt8
  deriving DecidableEq, Repr

/-- `struct ExecutionReport`. -/
structure ExecutionReport where
  header : MessageHeader := ⟨0, .executionReport, 65⟩
  clientOrderId : OrderID
  userId : UserID
  executionId : OrderID
  symbol : List UInt8
  side : UInt8
  price : Price Int
  quantity : Quantity
  filledQuantity : Quantity
  status : UInt8
  deriving DecidableEq, Repr

/-- `struct MarketDataSnapshot`. Of the entries of `bids` and `asks` it lists the assigned ones. -/
structure MarketDataSnapshot where
  header : MessageHeader := ⟨0, .marketDataSnapshot, 183⟩
  symbol : List UInt8
  numBids : UInt32
  numAsks : UInt32
  bids : List (Price Int × Quantity)
  asks : List (Price Int × Quantity)
  deriving DecidableEq, Repr

/-- `struct TradeUpdate`. -/
structure TradeUpdate where
  header : MessageHeader := ⟨0, .tradeUpdate, 40⟩
  symbol : List UInt8
  price : Price Int
  quantity : Quantity
  timestamp : Timestamp
  makeSide : UInt8
  deriving DecidableEq, Repr

/-- A message to a client. -/
inductive Message
  | loginResponse (resp : LoginResponse)
  | executionReport (report : ExecutionReport)
  | marketDataSnapshot (snapshot : MarketDataSnapshot)
  | tradeUpdate (msg : TradeUpdate)
  deriving DecidableEq, Repr

end OrderMatchingEngine
