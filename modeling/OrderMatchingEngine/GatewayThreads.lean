import Mathlib.Logic.Function.Basic
import OrderMatchingEngine.GatewayCodec
import OrderMatchingEngine.Library.Trace

/-!
# OrderMatchingEngine.GatewayThreads

The threads of `gateway/gateway.py` and the queues between them: the listener, in `handle_snapshot`
and `handle_execution`, and the calls of `StreamMarketData`, `RequestMarketDataSnapshot` and
`StreamExecutions`, each of which has a thread of the server.

Design points:

* A step is one access to what the threads share: to `md_streams`, to `user_queues`, or to a queue.
  The interpreter makes each of them without another thread getting in between. There is no lock.
* `for q in self.md_streams` is an iterator over the list itself: it remembers an index, and asks
  for the length each time.
* A queue is the number of its object. It is created where it becomes known to other threads.
* A `get` that times out changes nothing in the queue, which was empty.
* What the methods send to the engine is left out, and so is the token of `StreamExecutions`: the
  user that it names is an argument.
* What a handler does before its last loop or lines is thread-local. If it raises there it takes no
  step here, and the listener takes none after it: so no report gets to `handleExecution` where
  `trading_pb2` lacks a field of it (`TradingPb2.takesReport`), as with `proto/trading.proto`.
-/

namespace OrderMatchingEngine

open GatewayService (Execution)
open TradingPb2 (MarketDataSnapshot)

/-- Where the listener is. -/
inductive GatewayListener
  /-- In neither handler. -/
  | idle
  /-- At `for q in self.md_streams`, with the index of its iterator. -/
  | broadcasting (snapshot : MarketDataSnapshot) (index : Nat)
  /-- At `q.put(snapshot)`. -/
  | putting (snapshot : MarketDataSnapshot) (index q : Nat)
  /-- At `if user_id not in self.user_queues`. -/
  | checking (report : Execution)
  /-- At `self.user_queues[user_id] = queue.Queue()`. -/
  | creating (report : Execution)
  /-- At `self.user_queues[user_id]`. -/
  | looking (report : Execution)
  /-- At `.put(report)`. -/
  | reporting (report : Execution) (q : Nat)
  deriving DecidableEq, Repr

/-- Where a call of one of the streaming methods is. -/
inductive StreamCall
  /-- Not made yet. -/
  | idle
  /-- In the loop of `StreamMarketData`, or in that of `RequestMarketDataSnapshot`, which is left
  with the first snapshot of its symbol. -/
  | watching (symbol : String) (once : Bool) (q : Nat)
  /-- At `if client_queue in self.md_streams`. -/
  | leaving (q : Nat)
  /-- At `self.md_streams.remove(client_queue)`. -/
  | removing (q : Nat)
  /-- In `StreamExecutions`, at `if user_id not in self.user_queues`. -/
  | checking (userId : Nat)
  /-- At `self.user_queues[user_id] = queue.Queue()`. -/
  | creating (userId : Nat)
  /-- At `while context.is_active()`. -/
  | looping (userId : Nat)
  /-- At `.get(timeout=1.0)`. -/
  | getting (userId q : Nat)
  | done
  deriving DecidableEq, Repr

/-- The queue that the call has in `md_streams`. -/
def StreamCall.queue? : StreamCall → Option Nat
  | .watching _ _ q | .leaving q | .removing q => some q
  | _ => none

/-- What the threads share, and where each of them is. -/
structure GatewayThreads (θ : Type) where
  mdStreams : List Nat := []
  userQueues : Nat → Option Nat := fun _ => none
  /-- How many queues there are. -/
  created : Nat := 0
  snapshots : Nat → List MarketDataSnapshot := fun _ => []
  reports : Nat → List Execution := fun _ => []
  listener : GatewayListener := .idle
  calls : θ → StreamCall := fun _ => .idle

namespace GatewayThreads

/-- A step of one of the threads. -/
inductive Action (θ : Type)
  /-- `handle_snapshot` gets to its last loop. -/
  | handleSnapshot (snapshot : MarketDataSnapshot)
  /-- The iterator gives a queue. -/
  | next
  /-- The iterator is at the end. -/
  | stop
  | putSnapshot
  /-- `handle_execution` gets to its last lines. -/
  | handleExecution (report : Execution)
  | checkQueue
  | createQueue
  | lookUp
  | putReport
  /-- `StreamMarketData` or `RequestMarketDataSnapshot` adds its queue to `md_streams`. -/
  | openStream (t : θ) (symbol : String) (once : Bool)
  | getSnapshot (t : θ)
  /-- A `get` of a snapshot finds nothing in time. -/
  | noSnapshot (t : θ)
  /-- The loop is left: the client is gone, or something was raised. -/
  | hangUp (t : θ)
  | checkStream (t : θ)
  | removeStream (t : θ)
  /-- `StreamExecutions` is called and knows its user. -/
  | streamExecutions (t : θ) (userId : Nat)
  | checkUser (t : θ)
  | createUser (t : θ)
  | lookUser (t : θ)
  | getReport (t : θ)
  /-- A `get` of a report finds nothing in time. -/
  | noReport (t : θ)
  deriving DecidableEq, Repr

/-- What a step shows. -/
inductive Output (θ : Type)
  | silent
  /-- The iterator gave the queue. -/
  | given (q : Nat)
  /-- The queue was taken off `md_streams`. -/
  | left (q : Nat)
  /-- The call yields or returns the snapshot. -/
  | snapshot (t : θ) (snapshot : MarketDataSnapshot)
  /-- The user has a new queue. -/
  | bound (userId q : Nat)
  /-- The report was put into the queue. -/
  | put (q : Nat) (report : Execution)
  /-- The call got the report from the queue. -/
  | got (t : θ) (q : Nat) (report : Execution)
  deriving DecidableEq, Repr

variable {θ : Type} [DecidableEq θ]

/-- The call moves on. -/
def goto (s : GatewayThreads θ) (t : θ) (call : StreamCall) : GatewayThreads θ :=
  { s with calls := Function.update s.calls t call }

/-- `self.user_queues[user_id] = queue.Queue()`. -/
def bindUser (s : GatewayThreads θ) (userId : Nat) : GatewayThreads θ :=
  { s with
    userQueues := Function.update s.userQueues userId (some s.created)
    created := s.created + 1 }

/-- A step of the listener. -/
def listen (s : GatewayThreads θ) : Action θ → Option (Output θ × GatewayThreads θ)
  | .handleSnapshot snapshot =>
    match s.listener with
    | .idle => some (.silent, { s with listener := .broadcasting snapshot 0 })
    | _ => none
  | .next =>
    match s.listener with
    | .broadcasting snapshot index =>
      match s.mdStreams[index]? with
      | some q => some (.given q, { s with listener := .putting snapshot (index + 1) q })
      | none => none
    | _ => none
  | .stop =>
    match s.listener with
    | .broadcasting _ index =>
      if s.mdStreams.length ≤ index then some (.silent, { s with listener := .idle }) else none
    | _ => none
  | .putSnapshot =>
    match s.listener with
    | .putting snapshot index q =>
      some (.silent, { s with
        snapshots := Function.update s.snapshots q (s.snapshots q ++ [snapshot])
        listener := .broadcasting snapshot index })
    | _ => none
  | .handleExecution report =>
    match s.listener with
    | .idle => some (.silent, { s with listener := .checking report })
    | _ => none
  | .checkQueue =>
    match s.listener with
    | .checking report =>
      some (.silent, { s with
        listener := if (s.userQueues report.userId).isSome then .looking report
          else .creating report })
    | _ => none
  | .createQueue =>
    match s.listener with
    | .creating report =>
      some (.bound report.userId s.created,
        { s.bindUser report.userId with listener := .looking report })
    | _ => none
  | .lookUp =>
    match s.listener with
    | .looking report =>
      match s.userQueues report.userId with
      | some q => some (.silent, { s with listener := .reporting report q })
      -- `KeyError`
      | none => none
    | _ => none
  | .putReport =>
    match s.listener with
    | .reporting report q =>
      some (.put q report, { s with
        reports := Function.update s.reports q (s.reports q ++ [report])
        listener := .idle })
    | _ => none
  | _ => none

/-- A step of a call. -/
def serve (s : GatewayThreads θ) : Action θ → Option (Output θ × GatewayThreads θ)
  | .openStream t symbol once =>
    match s.calls t with
    | .idle =>
      some (.silent, { s.goto t (.watching symbol once s.created) with
        mdStreams := s.mdStreams ++ [s.created]
        created := s.created + 1 })
    | _ => none
  | .getSnapshot t =>
    match s.calls t with
    | .watching symbol once q =>
      match s.snapshots q with
      | [] => none
      | snapshot :: rest =>
        let s := { s with snapshots := Function.update s.snapshots q rest }
        if snapshot.symbol = symbol then
          some (.snapshot t snapshot, if once then s.goto t (.leaving q) else s)
        else some (.silent, s)
    | _ => none
  | .noSnapshot t =>
    match s.calls t with
    | .watching _ once q =>
      if s.snapshots q = [] then
        -- `DEADLINE_EXCEEDED`, for a single snapshot
        some (.silent, if once then s.goto t (.leaving q) else s)
      else none
    | _ => none
  | .hangUp t =>
    match s.calls t with
    | .watching _ _ q => some (.silent, s.goto t (.leaving q))
    | .looping _ => some (.silent, s.goto t .done)
    | _ => none
  | .checkStream t =>
    match s.calls t with
    | .leaving q => some (.silent, s.goto t (if q ∈ s.mdStreams then .removing q else .done))
    | _ => none
  | .removeStream t =>
    match s.calls t with
    | .removing q =>
      -- `ValueError` where it is not in the list
      if q ∈ s.mdStreams then
        some (.left q, { s.goto t .done with mdStreams := s.mdStreams.erase q })
      else none
    | _ => none
  | .streamExecutions t userId =>
    match s.calls t with
    | .idle => some (.silent, s.goto t (.checking userId))
    | _ => none
  | .checkUser t =>
    match s.calls t with
    | .checking userId =>
      some (.silent, s.goto t (if (s.userQueues userId).isSome then .looping userId
        else .creating userId))
    | _ => none
  | .createUser t =>
    match s.calls t with
    | .creating userId =>
      some (.bound userId s.created, (s.bindUser userId).goto t (.looping userId))
    | _ => none
  | .lookUser t =>
    match s.calls t with
    | .looping userId =>
      match s.userQueues userId with
      | some q => some (.silent, s.goto t (.getting userId q))
      -- `KeyError`
      | none => none
    | _ => none
  | .getReport t =>
    match s.calls t with
    | .getting userId q =>
      match s.reports q with
      | [] => none
      | report :: rest =>
        some (.got t q report,
          { s.goto t (.looping userId) with reports := Function.update s.reports q rest })
    | _ => none
  | .noReport t =>
    match s.calls t with
    | .getting userId q =>
      if s.reports q = [] then some (.silent, s.goto t (.looping userId)) else none
    | _ => none
  | _ => none

/-- Take a step, where it is possible. -/
def act (s : GatewayThreads θ) (a : Action θ) : Option (Output θ × GatewayThreads θ) :=
  s.listen a <|> s.serve a

/-- A run of the service. -/
abbrev Run (tr : List (Action θ × Output θ)) (s : GatewayThreads θ) : Prop :=
  Trace.Run (Trace.ofFun act) {} tr s

end GatewayThreads

end OrderMatchingEngine
