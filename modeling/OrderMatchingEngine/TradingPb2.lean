/-!
# OrderMatchingEngine.TradingPb2

What `gateway/gateway.py` finds in `trading_pb2`.

The module is generated, as is `trading_pb2_grpc`, so they are a parameter: the message types, each
with its fields, and the methods that a client can call. A constructor returns if each of its
keyword arguments is a field of the type, and else raises `ValueError`; a type that there is not
raises `AttributeError`. `TradingPb2.trading` is what `proto/trading.proto` gives. It lacks a field
that `handle_execution` uses, and `Login` with the message that it returns.
-/

namespace OrderMatchingEngine

/-- `trading_pb2`: the message types with their fields, and the methods of the service. -/
structure TradingPb2 where
  messages : List (String × List String)
  methods : List String
  deriving DecidableEq, Repr

namespace TradingPb2

/-- The constructor of a message type takes these keyword arguments. -/
def takes (pb : TradingPb2) (type : String) (arguments : List String) : Bool :=
  match pb.messages.lookup type with
  | some fields => arguments.all fields.contains
  | none => false

/-- `trading_pb2.ExecutionReport(...)` of `handle_execution` returns. -/
def takesReport (pb : TradingPb2) : Bool :=
  pb.takes "ExecutionReport" ["order_id", "execution_id", "user_id", "symbol", "side", "price",
    "quantity", "filled_quantity", "status"]

/-- `Login` can be called, and its `trading_pb2.LoginResponse(...)` returns. -/
def servesLogin (pb : TradingPb2) : Bool :=
  pb.methods.contains "Login" && pb.takes "LoginResponse" ["success", "token", "message"]

/-- `trading_pb2.MarketDataSnapshot(...)` of `handle_snapshot` returns. -/
def takesSnapshot (pb : TradingPb2) : Bool := pb.takes "MarketDataSnapshot" ["symbol"]

/-- `trading_pb2.PriceLevel(...)` of `handle_snapshot` returns. -/
def takesLevel (pb : TradingPb2) : Bool := pb.takes "PriceLevel" ["price", "quantity"]

/-- `proto/trading.proto`. -/
def trading : TradingPb2 where
  messages :=
    [("NewOrderRequest", ["symbol", "side", "type", "price", "quantity"]),
      ("OrderResponse", ["success", "message", "order_id"]),
      ("CancelOrderRequest", ["order_id", "symbol", "side"]),
      ("PriceLevel", ["price", "quantity"]),
      ("MarketDataRequest", ["symbol"]),
      ("MarketDataSnapshot", ["symbol", "bids", "asks"]),
      ("SessionRequest", ["client_id"]),
      ("ExecutionReport", ["order_id", "execution_id", "symbol", "side", "price", "quantity",
        "filled_quantity", "status"])]
  methods := ["PlaceOrder", "CancelOrder", "StreamMarketData", "StreamExecutions",
    "RequestMarketDataSnapshot"]

/-- This is enough for snapshots, but not for reports and log-ins. -/
example : trading.takesSnapshot = true ∧ trading.takesLevel = true ∧
    trading.takesReport = false ∧ trading.servesLogin = false := by decide

/-- The same, with what `gateway.py` uses besides. -/
def extended : TradingPb2 where
  messages :=
    ("LoginResponse", ["success", "token", "message"]) ::
      ("ExecutionReport", ["order_id", "execution_id", "user_id", "symbol", "side", "price",
        "quantity", "filled_quantity", "status"]) :: trading.messages
  methods := "Login" :: trading.methods

end TradingPb2

end OrderMatchingEngine
