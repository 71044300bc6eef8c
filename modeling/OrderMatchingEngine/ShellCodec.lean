import OrderMatchingEngine.GatewayCodec

/-!
# OrderMatchingEngine.ShellCodec

The bytes that `client/s_client.py` and `client/stress_test.py` write to the engine, and how the
shell reads the engine's answers.

Design points:

* As in `GatewayCodec`, `none` stands for `struct.error`, and a `double` is kept as its bits.
* What was typed at a prompt is a string; a price and a quantity are what `float` and `int` made of
  it.
* The shell numbers its orders and its packets with one counter, `seqNum` before the command.
* The shell's answers are what it prints, before it is formatted.
-/

namespace OrderMatchingEngine

open GatewayService (encode)
open StructFormat (Code pack unpack)

/-! ### Packets -/

namespace ShellCodec

/-- `HEADER_FMT` of both clients. -/
def headerFmt : List Code := [.uint 2, .uint 1, .uint 2]

/-- `bytes.ljust(width)`, which fills up with spaces. -/
def ljust (bytes : List UInt8) (width : Nat) : List UInt8 :=
  bytes ++ List.replicate (width - bytes.length) 32

/-- A header with the length of the whole, and the payload behind it. -/
def framed (seqNum msgType : Nat) (payload : List UInt8) : Option (List UInt8) :=
  (pack headerFmt [.int seqNum, .int msgType, .int (5 + payload.length)]).map (· ++ payload)

end ShellCodec

open ShellCodec (framed ljust)

/-! ### The shell -/

namespace TradingShell

def orderFmt : List Code := [.uint 8, .bytes 10, .uint 1, .uint 1, .double, .uint 8]
def cancelFmt : List Code := [.uint 8, .bytes 10, .uint 1]
def executionFmt : List Code :=
  [.uint 8, .uint 8, .bytes 10, .uint 1, .double, .uint 8, .uint 8, .uint 1]

/-- `answer.upper()`, as far as it is compared with an ASCII letter. -/
def upper (answer : String) : String := .ofList (answer.toList.map Char.toUpper)

/-- `def send_packet(self, msg_type, payload)`: what `sendall` is given. -/
def sendPacket (seqNum msgType : Nat) (payload : List UInt8) : Option (List UInt8) :=
  framed (seqNum + 1) msgType payload

/-- The command `O` of `def run(self)`. -/
def order (seqNum : Nat) (sym side type : String) (px : UInt64) (qty : Nat) :
    Option (List UInt8) :=
  let sideInt := if upper side = "B" then 0 else 1
  let typeInt := if upper type = "M" then 0 else 1
  (pack orderFmt
    [.int (seqNum + 1), .bytes (ljust (encode sym) 10), .int sideInt, .int typeInt, .double px,
      .int qty]).bind
    (sendPacket (seqNum + 1) 78)

/-- The command `C` of `def run(self)`. -/
def cancel (seqNum oid : Nat) (sym side : String) : Option (List UInt8) :=
  let sideInt := if upper side = "B" then 0 else 1
  (pack cancelFmt [.int oid, .bytes (ljust (encode sym) 10), .int sideInt]).bind
    (sendPacket seqNum 67)

/-- `s.strip('\x00')`. -/
def stripNul (s : String) : String :=
  .ofList (((s.toList.dropWhile (·.toNat = 0)).reverse.dropWhile (·.toNat = 0)).reverse)

/-- `bytes.decode().strip('\x00')`, which raises on what is not UTF-8. -/
def decodeText (raw : List UInt8) : Option String :=
  (String.fromUTF8? raw.toByteArray).map stripNul

/-- The variables of an execution report. -/
structure Execution where
  cid : Nat
  eid : Nat
  sym : String
  side : Nat
  px : UInt64
  qty : Nat
  filled : Nat
  stat : Nat
  deriving DecidableEq, Repr

/-- What `parse_message` has read when it prints. -/
inductive Parsed
  | login (st : Nat) (msg : String)
  | ticker (sym : String) (px : UInt64) (qty ts side : Nat)
  | execution (report : Execution)
  | snapshot (sym : String) (bids asks : List (UInt64 × Nat))
  /-- No branch for the type. -/
  | ignored
  deriving DecidableEq, Repr

/-- One of the loops over the entries of a snapshot, from the `i`-th on, which is at `offset`. -/
def bookLines (data : List UInt8) (count : Nat) : Nat → Nat → Nat → Option (List (UInt64 × Nat))
  | 0, _, _ => some []
  | n + 1, i, offset =>
    match unpack [.double, .uint 8] ((data.drop offset).take 16) with
    | some [.double p, .int q] =>
      (bookLines data count n (i + 1) (offset + 16)).map fun lines =>
        if i < count then (p, q) :: lines else lines
    | _ => none

/-- `def parse_message(self, mtype, data)`. -/
def parseMessage (mtype : Nat) (data : List UInt8) : Option Parsed :=
  if mtype = 82 then
    match unpack [.uint 1, .bytes 50] data with
    | some [.int st, .bytes msg] => (decodeText msg).map (.login st)
    | _ => none
  else if mtype = 84 then
    match unpack [.bytes 10, .double, .uint 8, .uint 8, .uint 1] data with
    | some [.bytes sym, .double px, .int qty, .int ts, .int side] =>
      (decodeText sym).map (.ticker · px qty ts side)
    | _ => none
  else if mtype = 69 then
    match unpack executionFmt data with
    | some [.int cid, .int eid, .bytes sym, .int side, .double px, .int qty, .int filled,
        .int stat] =>
      (decodeText sym).map fun sym => .execution
        { cid := cid, eid := eid, sym := sym, side := side, px := px, qty := qty, filled := filled,
          stat := stat }
    | _ => none
  else if mtype = 83 then
    match unpack [.bytes 10, .uint 4, .uint 4] (data.take 18) with
    | some [.bytes sym, .int nBids, .int nAsks] =>
      match decodeText sym, bookLines data nBids 5 0 18, bookLines data nAsks 5 0 (18 + 5 * 16) with
      | some sym, some bids, some asks => some (.snapshot sym bids asks)
      | _, _, _ => none
    | _ => none
  else some .ignored

end TradingShell

/-! ### The stress test -/

namespace StressClient

def bodyFmt : List Code := [.uint 8, .bytes 10, .uint 1, .uint 1, .double, .uint 8]

/-- `def send_packet(self, msg_type, payload)`: what `sendall` is given. -/
def sendPacket (msgType : Nat) (payload : List UInt8) : Option (List UInt8) :=
  framed 0 msgType payload

/-- An order of `def run(self)`, for any symbol, price and quantity. -/
def order (oid : Nat) (symbol : String) (side : Nat) (price : UInt64) (qty : Nat) :
    Option (List UInt8) :=
  (pack bodyFmt
    [.int oid, .bytes (ljust (encode symbol) 10), .int side, .int 1, .double price,
      .int qty]).bind
    (sendPacket 78)

/-- The `i`-th order of `def run(self)`. The bits of 100.0 are those below, and one more is `2 ^ 46`
more there. -/
def run (clientId i : Nat) : Option (List UInt8) :=
  order (clientId * 1000000 + i) "AAPL" (i % 2)
    (0x4059000000000000 + .ofNat (i % 10) * 0x400000000000) 10

end StressClient

end OrderMatchingEngine
