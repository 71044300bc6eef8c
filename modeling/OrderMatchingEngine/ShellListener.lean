import OrderMatchingEngine.Library.ShortReads
import OrderMatchingEngine.ShellCodec

/-!
# OrderMatchingEngine.ShellListener

`listen_loop` of `client/s_client.py`, the thread that reads the engine's answers.

Design points:

* A call of `recv` gives at least one byte, if there is still one, or raises, as when the socket is
  closed by the command `X`. How much the calls give is a parameter, and so is what the thread finds
  in `self.running`, which other threads set.
* Whatever is raised ends the loop.
* A body that is to be shorter than nothing is not read, as `body_len - len(payload)` is negative.
-/

namespace OrderMatchingEngine

open FuelLoop (Iter)
open StructFormat (unpack)

namespace TradingShell

/-- The listener. -/
structure Listener where
  sock : Source UInt8
  passes : Nat := 0
  /-- What `parse_message` has printed. -/
  printed : List Parsed := []
  deriving DecidableEq, Repr

section Loop

variable (running : Nat → Bool) (gives : Nat → Option Nat)

/-- One pass of `listen_loop`. -/
def listenBody (l : Listener) : Except Source.Failure (Iter Listener) :=
  if running l.passes then
    match l.sock.read gives 5 with
    | none => .ok (.done l)
    | some (headerData, sock) =>
      if headerData.isEmpty then .ok (.done l)
      else
        match unpack ShellCodec.headerFmt headerData with
        | some [.int _seq, .int mtypeInt, .int mlen] =>
          -- the inner loop
          match sock.fill gives (mlen - 5) with
          | .error .raised => .ok (.done l)
          | .error .hangs => .error .hangs
          | .ok (payload, sock) =>
            match parseMessage mtypeInt payload with
            | some parsed =>
              .ok (.next { sock := sock, passes := l.passes + 1, printed := l.printed ++ [parsed] })
            | none => .ok (.done l)
        -- a header of less than five bytes
        | _ => .ok (.done l)
  else .ok (.done l)

/-- `def listen_loop(self)`, on all that comes before the connection ends. -/
def listenLoop (stream : List UInt8) : Except Source.Failure Listener :=
  FuelLoop.run .hangs (listenBody running gives) (stream.length + 1)
    { sock := { coming := stream } }

end Loop

end TradingShell

end OrderMatchingEngine
