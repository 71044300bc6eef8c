import OrderMatchingEngine.Library.StructFormat

/-!
# OrderMatchingEngine.GatewayCodec

The bytes that `gateway/gateway.py` writes to the engine, and how it reads the engine's answers.

A method of the service packs its request with `struct.pack`, which raises where a number does not
fit into its field; `none` stands for that. Reading is `struct.unpack` at fixed places, which raises
where the bytes do not have the length of the format.

Design points:

* `proto/trading.proto` is modelled as far as the methods use it. Its enumerations are open, so a
  side or a type is a number. A `double` is kept as its bits.
* The number that `get_order_id` handed out and the user of the token are arguments: they are
  integers of any size.
* A `str` is encoded as UTF-8, whatever its length.
-/

namespace OrderMatchingEngine

open StructFormat (Code pack unpack)

/-! ### The service's messages -/

namespace TradingPb2

/-- `BUY` of `enum OrderSide`. -/
def buy : Int := 0

/-- `MARKET` of `enum OrderType`. -/
def market : Int := 0

/-- `message NewOrderRequest`. -/
structure NewOrderRequest where
  symbol : String
  side : Int
  type : Int
  price : UInt64
  quantity : UInt64
  deriving DecidableEq, Repr

/-- `message CancelOrderRequest`. -/
structure CancelOrderRequest where
  orderId : UInt64
  symbol : String
  side : Int
  deriving DecidableEq, Repr

/-- `message PriceLevel`. -/
structure PriceLevel where
  price : UInt64
  quantity : Nat
  deriving DecidableEq, Repr

/-- `message MarketDataSnapshot`. -/
structure MarketDataSnapshot where
  symbol : String
  bids : List PriceLevel := []
  asks : List PriceLevel := []
  deriving DecidableEq, Repr

end TradingPb2

namespace GatewayService

/-! ### Formats -/

def loginFmt : List Code := [.bytes 20, .bytes 20]
def headerFmt : List Code := [.uint 2, .uint 1, .uint 2]
def newOrderFmt : List Code :=
  [.uint 8, .uint 8, .bytes 10, .uint 1, .uint 1, .double, .uint 8]
def subReqFmt : List Code := [.bytes 10, .uint 1]
def executionFmt : List Code :=
  [.uint 8, .uint 8, .uint 8, .bytes 10, .uint 1, .double, .uint 8, .uint 8, .uint 1]
def cancelReqFmt : List Code := [.uint 8, .uint 8, .bytes 10, .uint 1]

/-- `b'N'[0]`. -/
def msgNewOrder : Nat := 78

/-- `b'Q'[0]`. -/
def msgSubscribe : Nat := 81

/-- `b'S'[0]`. -/
def msgSnapshot : Nat := 83

/-- `b'E'[0]`. -/
def msgExecReport : Nat := 69

/-- `b'C'[0]`. -/
def msgCancelOrder : Nat := 67

/-! ### Requests -/

/-- `s.encode()`. -/
def encode (s : String) : List UInt8 := s.toList.flatMap String.utf8EncodeChar

/-- `bytes.ljust(width, b'\0')`, which cuts nothing. -/
def ljust (bytes : List UInt8) (width : Nat) : List UInt8 :=
  bytes ++ List.replicate (width - bytes.length) 0

/-- `def send_to_ome(self, msg_type, pay_load)`: what `sendall` is given. -/
def sendToOme (msgType : Nat) (payLoad : List UInt8) : Option (List UInt8) :=
  let msgLen := 5 + payLoad.length
  (pack headerFmt [.int 0, .int msgType, .int msgLen]).map (· ++ payLoad)

/-- `def connect_to_ome(self)`: the log-in, as `b'Gateway'` with `b'Pass'`. -/
def connectToOme : Option (List UInt8) :=
  (pack loginFmt
    [.bytes (ljust [71, 97, 116, 101, 119, 97, 121] 20), .bytes (ljust [80, 97, 115, 115] 20)]).bind
      (sendToOme 76)

/-- `def PlaceOrder(self, request, context)`. -/
def placeOrder (orderId userId : Nat) (request : TradingPb2.NewOrderRequest) :
    Option (List UInt8) :=
  let sideInt := if request.side = TradingPb2.buy then 0 else 1
  let typeInt := if request.type = TradingPb2.market then 0 else 1
  (pack newOrderFmt
    [.int orderId, .int userId, .bytes (ljust (encode request.symbol) 10), .int sideInt,
      .int typeInt, .double request.price, .int request.quantity.toNat]).bind
    (sendToOme msgNewOrder)

/-- `def CancelOrder(self, request, context)`. -/
def cancelOrder (userId : Nat) (request : TradingPb2.CancelOrderRequest) : Option (List UInt8) :=
  let sideInt := if request.side = TradingPb2.buy then 0 else 1
  (pack cancelReqFmt
    [.int request.orderId.toNat, .int userId, .bytes (ljust (encode request.symbol) 10),
      .int sideInt]).bind
    (sendToOme msgCancelOrder)

/-- `def StreamMarketData(self, request, context)`, its subscription. -/
def streamMarketData (symbol : String) : Option (List UInt8) :=
  (pack subReqFmt [.bytes (ljust (encode symbol) 10), .int 1]).bind (sendToOme msgSubscribe)

/-- `def RequestMarketDataSnapshot(self, request, context)`, its request. -/
def requestMarketDataSnapshot (symbol : String) : Option (List UInt8) :=
  (pack [.bytes 10] [.bytes (ljust (encode symbol) 10)]).bind (sendToOme 77)

/-! ### Answers -/

/-- `sym_raw.split(b'\x00')[0].decode('ascii', 'ignore')`. -/
def decodeSymbol (symRaw : List UInt8) : String :=
  .ofList (((symRaw.takeWhile (· ≠ 0)).filter (· < 128)).map fun byte => Char.ofNat byte.toNat)

/-- One of the loops of `handle_snapshot`, over so many entries from `offset` on. It keeps the
entries with a quantity. -/
def priceLevels (payload : List UInt8) : Nat → Nat → Option (List TradingPb2.PriceLevel)
  | 0, _ => some []
  | n + 1, offset =>
    match unpack [.double, .uint 8] ((payload.drop offset).take 16) with
    | some [.double p, .int q] =>
      (priceLevels payload n (offset + 16)).map fun levels =>
        if q > 0 then ⟨p, q⟩ :: levels else levels
    | _ => none

/-- `def handle_snapshot(self, payload)`: the snapshot that is put into the queues. -/
def handleSnapshot (payload : List UInt8) : Option TradingPb2.MarketDataSnapshot :=
  match unpack [.bytes 10, .uint 4, .uint 4] (payload.take 18) with
  -- `n_bids` and `n_asks` are not used
  | some [.bytes symRaw, .int _nBids, .int _nAsks] =>
    match priceLevels payload 5 18, priceLevels payload 5 (18 + 5 * 16) with
    | some bids, some asks => some { symbol := decodeSymbol symRaw, bids := bids, asks := asks }
    | _, _ => none
  | _ => none

/-- What `handle_execution` reads from a report. -/
structure Execution where
  clientOrderId : Nat
  userId : Nat
  execId : Nat
  symbol : String
  side : Nat
  price : UInt64
  qty : Nat
  filledQty : Nat
  status : Nat
  deriving DecidableEq, Repr

/-- `def handle_execution(self, payload)`, its reading of the payload; `none` if it returns before
or raises. -/
def readExecution (payload : List UInt8) : Option Execution :=
  if payload.length < 60 then none
  else
    match unpack executionFmt (payload.take 60) with
    | some [.int clientOrderId, .int userId, .int execId, .bytes symRaw, .int side, .double price,
        .int qty, .int filledQty, .int status] =>
      some
        { clientOrderId := clientOrderId
          userId := userId
          execId := execId
          symbol := decodeSymbol symRaw
          side := side
          price := price
          qty := qty
          filledQty := filledQty
          status := status }
    | _ => none

end GatewayService

end OrderMatchingEngine
