import OrderMatchingEngine.Connections

/-!
# OrderMatchingEngine.TcpServer

The loop of `TcpServer::start` (`src/tcp_server.cpp`), and the kernel under it.

Design points:

* A pass of the loop is a function of what the system calls in it return (`Answers`). It says what
  the server did, in order (`Act`), and which descriptors `clients` holds afterwards.
* An `fd_set` has a bit for each descriptor below `FD_SETSIZE`. `FD_SET` and `FD_ISSET` of another
  descriptor use memory behind it, which is a fault.
* The callbacks are events for the gateway. A pass says what is done if they return; where one of
  them does not, because the process dies in it or it hangs, the rest is not done (`carriedOut`).
* Peers connect, write and leave at any time between two passes. The kernel gives `accept` the
  lowest descriptor that is not in use, and `recv` what the peer has written, in order.
-/

namespace OrderMatchingEngine

namespace TcpServer

/-! ### The loop -/

/-- What a call of `recv` returned. -/
inductive Received
  | bytes (data : List UInt8)
  /-- `bytes_read == 0`. -/
  | endOfStream
  /-- `errno` is `EWOULDBLOCK` or `EAGAIN`. -/
  | wouldBlock
  /-- Any other `errno`. -/
  | failed
  deriving DecidableEq, Repr

/-- What the system calls of one pass return. -/
structure Answers where
  /-- The descriptors that `select` has left in `fds`, unless it failed. -/
  select : Option (List Int)
  /-- `new_client`, if there is one. -/
  accept : Option Int
  recv : Int → Received
  /-- The clock readings made while the data of a client are processed. -/
  now : Int → Nat → Nat → Timestamp

/-- What the server does: it calls the gateway back, or closes a descriptor. -/
inductive Act
  | callback (event : Event)
  | close (fd : Int)

/-- What a pass has done, with `clients` as it left them, and how the process died, if it did. -/
structure Pass where
  acts : List Act := []
  clients : List Int
  fault : Option Fault := none

/-- Something was done before. -/
def Pass.after (acts : List Act) (p : Pass) : Pass := { p with acts := acts ++ p.acts }

/-- `FD_SETSIZE`. -/
def fdSetsize : Int := 1024

/-- `onDisconnection_(client_fd); close(client_fd);`. -/
def hangUp (clientFd : Int) : List Act := [.callback (.disconnection clientFd), .close clientFd]

variable (answers : Answers) (ready : List Int)

/-- The loop over `clients`, with `passed` in front of its iterator. -/
def serve : List Int → List Int → Pass
  | passed, [] => { clients := passed }
  | passed, clientFd :: rest =>
    -- `FD_ISSET(client_fd, &fds)`
    if fdSetsize ≤ clientFd then
      { clients := passed ++ clientFd :: rest, fault := some .outOfBounds }
    else if clientFd ∈ ready then
      match answers.recv clientFd with
      | .bytes data =>
        (serve (passed ++ [clientFd]) rest).after
          [.callback (.message clientFd (answers.now clientFd) data)]
      | .wouldBlock => serve (passed ++ [clientFd]) rest
      -- `it = clients.erase(it)`
      | .endOfStream => (serve passed rest).after (hangUp clientFd)
      | .failed => (serve passed rest).after (hangUp clientFd)
    else serve (passed ++ [clientFd]) rest

/-- One pass of the loop of `void TcpServer::start()`. -/
def pass (serverFd : Int) (clients : List Int) : Pass :=
  -- `FD_SET` of the server and of each client
  if (serverFd :: clients).any (fdSetsize ≤ ·) then
    { clients := clients, fault := some .outOfBounds }
  else
    match answers.select with
    | none => { clients := clients }
    | some ready =>
      match if serverFd ∈ ready then answers.accept else none with
      | some newClient =>
        (serve answers ready [] (clients ++ [newClient])).after [.callback (.connection newClient)]
      | none => serve answers ready [] clients

/-- What is done of the acts of a pass, given which of the callbacks return. -/
def carriedOut (returns : Event → Bool) : List Act → List Act
  | [] => []
  | .callback event :: acts =>
    .callback event :: if returns event then carriedOut returns acts else []
  | .close fd :: acts => .close fd :: carriedOut returns acts

/-! ### The kernel -/

/-- A connection: what its peer has written, how much of it `recv` has returned, and whether the
peer has closed it or it broke. -/
structure Socket where
  written : List UInt8 := []
  taken : Nat := 0
  hungUp : Bool := false
  broken : Bool := false
  deriving DecidableEq, Repr

/-- What is still to be received. -/
def Socket.unread (s : Socket) : List UInt8 := s.written.drop s.taken

/-- The server and the kernel: `clients`, the connections that are open, by their descriptors, and
those that wait to be accepted. After a fault the process is dead. -/
structure Machine where
  clients : List Int := []
  sockets : Int → Option Socket := fun _ => none
  backlog : List Socket := []
  fault : Option Fault := none

/-- What `recv` may return for a connection. The server's buffer has 1024 bytes. -/
def Socket.Returns (s : Socket) : Received → Prop
  | .bytes data => data ≠ [] ∧ data.length ≤ 1024 ∧ data <+: s.unread
  | .endOfStream => s.unread = [] ∧ s.hungUp = true
  | .wouldBlock => s.unread = [] ∧ s.hungUp = false
  | .failed => s.broken = true

/-- A descriptor that the process has open; `others` are those apart from the clients. -/
def Machine.IsOpen (others : Finset Int) (m : Machine) (fd : Int) : Prop :=
  fd ∈ others ∨ (m.sockets fd).isSome = true

/-- **What the kernel promises** about a pass. `select` leaves descriptors that it was given;
`accept` takes a connection off the backlog and gives it the lowest descriptor that is free. -/
structure Machine.Possible (others : Finset Int) (serverFd : Int) (m : Machine)
    (answers : Answers) : Prop where
  select : ∀ ready, answers.select = some ready → ∀ fd ∈ ready, fd = serverFd ∨ fd ∈ m.clients
  accept : ∀ newClient, answers.accept = some newClient → m.backlog ≠ [] ∧ 0 ≤ newClient ∧
    ¬ m.IsOpen others newClient ∧ ∀ fd, 0 ≤ fd → fd < newClient → m.IsOpen others fd
  recv : ∀ fd s, m.sockets fd = some s → s.Returns (answers.recv fd)

/-- What an act of the server does to the connections. -/
def Machine.apply (m : Machine) : Act → Machine
  | .callback (.connection fd) =>
    match m.backlog with
    | [] => m
    | s :: backlog =>
      { m with sockets := Function.update m.sockets fd (some s), backlog := backlog }
  | .callback (.message fd _ data) =>
    { m with sockets := Function.update m.sockets fd ((m.sockets fd).map fun s =>
        { s with taken := s.taken + data.length }) }
  | .callback (.disconnection _) => m
  | .close fd => { m with sockets := Function.update m.sockets fd none }

/-- A connection, as a peer holds it. -/
inductive Peer
  | waiting (i : Nat)
  | accepted (fd : Int)
  deriving DecidableEq, Repr

/-- Change a connection from the side of its peer. -/
def Machine.modify (m : Machine) (f : Socket → Socket) : Peer → Machine
  | .waiting i => { m with backlog := m.backlog.modify i f }
  | .accepted fd => { m with sockets := Function.update m.sockets fd ((m.sockets fd).map f) }

/-- What happens: peers connect, write, leave and break off, and the server makes a pass. -/
inductive Input
  | dial
  | write (peer : Peer) (data : List UInt8)
  | leave (peer : Peer)
  | breakOff (peer : Peer)
  | pass (answers : Answers)

/-- The steps of the server among its peers, with what the server does in them. -/
inductive Machine.Step (others : Finset Int) (serverFd : Int) (m : Machine) :
    Input → List Act → Machine → Prop
  | dial : Step others serverFd m .dial [] { m with backlog := m.backlog ++ [{}] }
  | write (peer : Peer) (data : List UInt8) : Step others serverFd m (.write peer data) []
      (m.modify (fun s => { s with written := s.written ++ data }) peer)
  | leave (peer : Peer) :
      Step others serverFd m (.leave peer) [] (m.modify (fun s => { s with hungUp := true }) peer)
  | breakOff (peer : Peer) : Step others serverFd m (.breakOff peer) []
      (m.modify (fun s => { s with broken := true }) peer)
  | pass {answers : Answers} (hlive : m.fault = none)
      (hkernel : m.Possible others serverFd answers) :
      Step others serverFd m (.pass answers) (TcpServer.pass answers serverFd m.clients).acts
        { (TcpServer.pass answers serverFd m.clients).acts.foldl Machine.apply m with
          clients := (TcpServer.pass answers serverFd m.clients).clients
          fault := (TcpServer.pass answers serverFd m.clients).fault }

/-- The descriptor that an act is about. -/
def Act.fd : Act → Int
  | .callback event => event.fd
  | .close fd => fd

/-- The callback of an act. -/
def Act.event? : Act → Option Event
  | .callback event => some event
  | .close _ => none

/-- The callbacks of a run, in order. -/
def callbacks (tr : List (Input × List Act)) : List Event :=
  tr.flatMap fun x => x.2.filterMap Act.event?

end TcpServer

end OrderMatchingEngine
