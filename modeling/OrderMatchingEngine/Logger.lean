import Mathlib.Logic.Function.Basic
import OrderMatchingEngine.Library.Monitor
import OrderMatchingEngine.Library.Trace

/-!
# OrderMatchingEngine.Logger

The logger (`src/logging/logger.hpp`, `src/logging/logger.cpp`) and its threads: clients that call
`log_internal` and `flush`, the worker in `processLogs`, and the thread that runs `~Logger`.

Design points:

* A step is one section with the mutex held, or one access without it. `wait` takes several steps,
  because `exit_flag_` is set without the mutex and so may change between the evaluation of the
  predicate and the moment when the worker falls asleep.
* There is one place for each spot of the source where another thread may get in between. Who holds
  the mutex is recorded, as is the set of threads that sleep at `cv_`.
* A waiting thread may be woken without a notification, as `std::condition_variable` allows.
* `min_level_` is read and written without the mutex. Each access is one step.
* The text of the clock reading is given to `log_internal`, and `LogStream`, which collects `msg`,
  is left out.
-/

namespace OrderMatchingEngine

open Monitor (Wait)

/-- `enum class LogLevel`. -/
inductive LogLevel
  | debug
  | info
  | warn
  | error
  deriving DecidableEq, Repr

namespace LogLevel

/-- The value of the enumerator. -/
def code : LogLevel → Nat
  | debug => 0
  | info => 1
  | warn => 2
  | error => 3

instance : LT LogLevel := ⟨fun a b => a.code < b.code⟩

instance (a b : LogLevel) : Decidable (a < b) := inferInstanceAs (Decidable (a.code < b.code))

/-- `lvl_str` in `log_internal`. -/
def lvlStr : LogLevel → String
  | debug => "DEBUG"
  | info => "INFO "
  | warn => "WARN "
  | error => "ERROR"

end LogLevel

/-- What `log_internal` reads of a `std::source_location`. -/
structure SourceLocation where
  line : Nat
  functionName : String
  fileName : String
  deriving DecidableEq, Repr

/-- `{:<width}` of a format string. -/
def padRight (width : Nat) (text : String) : String :=
  text ++ String.ofList (List.replicate (width - text.length) ' ')

/-- The line that `log_internal` makes of its arguments and of the text of the clock reading. -/
def formatted (now : String) (level : LogLevel) (msg : String) (loc : SourceLocation) : String :=
  let file := (loc.fileName.splitOn "/").getLastD ""
  now ++ " | " ++ level.lvlStr ++ " | L:" ++ padRight 4 (toString loc.line) ++ " | " ++
    padRight 20 loc.functionName ++ " | " ++ padRight 15 file ++ " | " ++ msg ++ "\n"

namespace Logger

/-- The threads that use `queue_mutex_` and `cv_`. -/
inductive Thread (θ : Type)
  | worker
  | client (t : θ)
  deriving DecidableEq

/-- Where the worker is in `processLogs`. -/
inductive ProcessLogs
  /-- In `cv_.wait`, or about to take the mutex for it. -/
  | waiting (w : Wait)
  /-- At `while (!log_queue_.empty())`. -/
  | draining
  /-- After `lock.unlock()`, with the line that it took off the queue. -/
  | writing (line : String)
  /-- At `lock.lock()`. -/
  | relocking
  /-- At `if (exit_flag_)`. -/
  | leaving
  /-- After the loop. -/
  | exited
  deriving DecidableEq, Repr

/-- Where a client is. -/
inductive Client
  /-- In no call of the logger. -/
  | idle
  /-- In `log_internal`, with a line to push. -/
  | pushing (line : String)
  /-- At `cv_.notify_one()`. -/
  | notifying
  /-- In `flush`. -/
  | flushing (w : Wait)
  deriving DecidableEq, Repr

/-- Where `~Logger` is. -/
inductive Destructor
  | before
  /-- At `cv_.notify_all()`. -/
  | notifying
  /-- At `worker_thread_.join()`. -/
  | joining
  | done
  deriving DecidableEq, Repr

/-- A step of one of the threads. -/
inductive Step (θ : Type)
  | setMinLevel (level : LogLevel)
  | setMinLevelStr (levelStr : String)
  /-- A client calls `log_internal`, up to the line. -/
  | logInternal (t : θ) (level : LogLevel) (msg : String) (loc : SourceLocation) (now : String)
  | push (t : θ)
  /-- `cv_.notify_one()` of a client, which wakes `woken`. -/
  | notifyOne (t : θ) (woken : Option (Thread θ))
  /-- A client calls `flush`. -/
  | flush (t : θ)
  | lock (x : Thread θ)
  | check (x : Thread θ)
  | sleep (x : Thread θ)
  | wakeSpuriously (x : Thread θ)
  | pop
  | write
  | relock
  /-- `cv_.notify_all()` of the worker. -/
  | notifyAll
  | leave
  /-- `~Logger` begins: `exit_flag_ = true`. -/
  | setExitFlag
  /-- `cv_.notify_all()` of `~Logger`. -/
  | notifyExit
  | join

/-- What a step does that callers can see. -/
inductive Effect
  | silent
  /-- `log_queue_.push`. -/
  | pushed (line : String)
  /-- `flush` returns. -/
  | flushed
  deriving DecidableEq, Repr

end Logger

open Logger (Thread ProcessLogs Client Destructor Step Effect)

/-- The members of the logger, with the places of its threads. `file_` is the lines that have been
written to it. -/
structure Logger (θ : Type) where
  minLevel : LogLevel := .info
  file : List String := []
  isOpen : Bool := true
  logQueue : List String := []
  queueMutex : Option (Thread θ) := none
  cv : Finset (Thread θ) := ∅
  exitFlag : Bool := false
  worker : ProcessLogs := .waiting .locking
  clients : θ → Client := fun _ => .idle
  destructor : Destructor := .before

namespace Logger

variable {θ : Type} [DecidableEq θ]

/-- The logger after its constructor, which may or may not have opened the file. -/
def start (θ : Type) (isOpen : Bool) : Logger θ := { isOpen := isOpen }

/-- Move a client to another place. -/
def setClient (t : θ) (place : Client) (s : Logger θ) : Logger θ :=
  { s with clients := Function.update s.clients t place }

/-! ### Levels -/

/-- `void setMinLevel(LogLevel level)`. -/
def setMinLevel (level : LogLevel) (s : Logger θ) : Logger θ := { s with minLevel := level }

/-- `void setMinLevel(const std::string &level_str)`. -/
def setMinLevelStr (levelStr : String) (s : Logger θ) : Logger θ :=
  if levelStr = "DEBUG" then { s with minLevel := .debug }
  else if levelStr = "INFO" then { s with minLevel := .info }
  else if levelStr = "WARN" then { s with minLevel := .warn }
  else if levelStr = "ERROR" then { s with minLevel := .error }
  else s

/-! ### Producers -/

/-- `void Logger::log_internal(LogLevel level, std::string msg, const std::source_location loc)`, up
to the line that it formats. -/
def logInternal (t : θ) (level : LogLevel) (msg : String) (loc : SourceLocation) (now : String)
    (s : Logger θ) : Option (Effect × Logger θ) :=
  match s.clients t with
  | .idle =>
    if level < s.minLevel then some (.silent, s)
    else some (.silent, s.setClient t (.pushing (formatted now level msg loc)))
  | _ => none

/-- `log_queue_.push(std::move(formatted))`, with the mutex held around it. -/
def push (t : θ) (s : Logger θ) : Option (Effect × Logger θ) :=
  match s.clients t, s.queueMutex with
  | .pushing line, none =>
    some (.pushed line, { s.setClient t .notifying with logQueue := s.logQueue ++ [line] })
  | _, _ => none

/-- `cv_.notify_one()`, and the return of `log_internal`. -/
def notifyOne (t : θ) (woken : Option (Thread θ)) (s : Logger θ) : Option (Effect × Logger θ) :=
  match s.clients t, Monitor.notifyOne woken s.cv with
  | .notifying, some cv => some (.silent, { s.setClient t .idle with cv := cv })
  | _, _ => none

/-! ### `cv_.wait` -/

/-- A client calls `flush`. -/
def flush (t : θ) (s : Logger θ) : Option (Effect × Logger θ) :=
  match s.clients t with
  | .idle => some (.silent, s.setClient t (.flushing .locking))
  | _ => none

/-- Where a thread is in `cv_.wait`, if it is there. -/
def waits? (s : Logger θ) : Thread θ → Option Wait
  | .worker =>
    match s.worker with
    | .waiting w => some w
    | _ => none
  | .client t =>
    match s.clients t with
    | .flushing w => some w
    | _ => none

/-- Move a thread inside `cv_.wait`. -/
def setWait (w : Wait) (s : Logger θ) : Thread θ → Logger θ
  | .worker => { s with worker := .waiting w }
  | .client t => s.setClient t (.flushing w)

/-- The predicates of `processLogs` and of `flush`. -/
def predicate (s : Logger θ) : Thread θ → Bool
  | .worker => !s.logQueue.isEmpty || s.exitFlag
  | .client _ => s.logQueue.isEmpty

/-- What follows `cv_.wait`: `processLogs` goes on with the mutex held, and `flush` returns. -/
def proceed (s : Logger θ) : Thread θ → Effect × Logger θ
  | .worker => (.silent, { s with worker := .draining })
  | .client t => (.flushed, { s.setClient t .idle with queueMutex := none })

/-- A thread takes the mutex for `cv_.wait`. -/
def lock (x : Thread θ) (s : Logger θ) : Option (Effect × Logger θ) :=
  match s.waits? x, s.queueMutex with
  | some .locking, none =>
    if x ∈ s.cv then none
    else some (.silent, { s.setWait .checking x with queueMutex := some x })
  | _, _ => none

/-- A thread evaluates its predicate. -/
def check (x : Thread θ) (s : Logger θ) : Option (Effect × Logger θ) :=
  match s.waits? x with
  | some .checking =>
    if s.predicate x then some (s.proceed x) else some (.silent, s.setWait .parking x)
  | _ => none

/-- A thread gives up the mutex and falls asleep. -/
def sleep (x : Thread θ) (s : Logger θ) : Option (Effect × Logger θ) :=
  match s.waits? x with
  | some .parking =>
    some (.silent, { s.setWait .locking x with queueMutex := none, cv := insert x s.cv })
  | _ => none

/-- A thread wakes up without a notification. -/
def wakeSpuriously (x : Thread θ) (s : Logger θ) : Option (Effect × Logger θ) :=
  if x ∈ s.cv then some (.silent, { s with cv := s.cv.erase x }) else none

/-! ### The rest of `processLogs` -/

/-- The front of the queue is taken off, and the mutex is given up. -/
def pop (s : Logger θ) : Option (Effect × Logger θ) :=
  match s.worker, s.logQueue with
  | .draining, line :: logQueue =>
    some (.silent, { s with worker := .writing line, logQueue := logQueue, queueMutex := none })
  | _, _ => none

/-- `if (file_.is_open())`, with the write and the flush of the file. -/
def write (s : Logger θ) : Option (Effect × Logger θ) :=
  match s.worker with
  | .writing line =>
    let file := if s.isOpen then s.file ++ [line] else s.file
    some (.silent, { s with worker := .relocking, file := file })
  | _ => none

/-- `lock.lock()`. -/
def relock (s : Logger θ) : Option (Effect × Logger θ) :=
  match s.worker, s.queueMutex with
  | .relocking, none => some (.silent, { s with worker := .draining, queueMutex := some .worker })
  | _, _ => none

/-- The queue is empty: `cv_.notify_all()`. -/
def notifyAll (s : Logger θ) : Option (Effect × Logger θ) :=
  match s.worker, s.logQueue with
  | .draining, [] => some (.silent, { s with worker := .leaving, cv := ∅ })
  | _, _ => none

/-- `if (exit_flag_) break;`. The mutex is given up in either case. -/
def leave (s : Logger θ) : Option (Effect × Logger θ) :=
  match s.worker with
  | .leaving =>
    let worker := if s.exitFlag then .exited else .waiting .locking
    some (.silent, { s with worker := worker, queueMutex := none })
  | _ => none

/-! ### `Logger::~Logger()` -/

/-- `exit_flag_ = true`. -/
def setExitFlag (s : Logger θ) : Option (Effect × Logger θ) :=
  match s.destructor with
  | .before => some (.silent, { s with destructor := .notifying, exitFlag := true })
  | _ => none

/-- `cv_.notify_all()`. -/
def notifyExit (s : Logger θ) : Option (Effect × Logger θ) :=
  match s.destructor with
  | .notifying => some (.silent, { s with destructor := .joining, cv := ∅ })
  | _ => none

/-- `worker_thread_.join()`. The thread was started by the constructor, so it is joinable. -/
def join (s : Logger θ) : Option (Effect × Logger θ) :=
  match s.destructor, s.worker with
  | .joining, .exited => some (.silent, { s with destructor := .done })
  | _, _ => none

/-- One step of the logger and its threads, where it can be taken. -/
def step (s : Logger θ) : Step θ → Option (Effect × Logger θ)
  | .setMinLevel level => some (.silent, s.setMinLevel level)
  | .setMinLevelStr levelStr => some (.silent, s.setMinLevelStr levelStr)
  | .logInternal t level msg loc now => s.logInternal t level msg loc now
  | .push t => s.push t
  | .notifyOne t woken => s.notifyOne t woken
  | .flush t => s.flush t
  | .lock x => s.lock x
  | .check x => s.check x
  | .sleep x => s.sleep x
  | .wakeSpuriously x => s.wakeSpuriously x
  | .pop => s.pop
  | .write => s.write
  | .relock => s.relock
  | .notifyAll => s.notifyAll
  | .leave => s.leave
  | .setExitFlag => s.setExitFlag
  | .notifyExit => s.notifyExit
  | .join => s.join

end Logger

end OrderMatchingEngine
