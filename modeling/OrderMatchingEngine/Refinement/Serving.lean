import Mathlib.Data.Finset.Card
import OrderMatchingEngine.Properties.Anonymous
import OrderMatchingEngine.TcpServer

/-!
# OrderMatchingEngine.Refinement.Serving

What the loop of `TcpServer::start` does to its connections.

A pass serves each client once, whichever of them it takes off the list meanwhile (`pass_eq`). The
rest is about the connections one by one: what was received of each is what its peer has written
first (`Streaming`), and the server has exactly the open ones in its list (`Machine.Sound`).
-/

namespace OrderMatchingEngine

open ClientGateway (Delivered received receive received_snoc)

namespace TcpServer

/-! ### One pass -/

/-- The newcomer of a pass. -/
def Answers.newClient? (answers : Answers) (serverFd : Int) : Option Int :=
  match answers.select with
  | some ready => if serverFd ∈ ready then answers.accept else none
  | none => none

/-- The descriptors that `select` has left. -/
def Answers.ready (answers : Answers) : List Int := answers.select.getD []

/-- What the server does for a client. -/
def actsFor (answers : Answers) (ready : List Int) (clientFd : Int) : List Act :=
  if clientFd ∈ ready then
    match answers.recv clientFd with
    | .bytes data => [.callback (.message clientFd (answers.now clientFd) data)]
    | .wouldBlock => []
    | .endOfStream => hangUp clientFd
    | .failed => hangUp clientFd
  else []

/-- The client stays in the list. -/
def stays (answers : Answers) (ready : List Int) (clientFd : Int) : Bool :=
  !(decide (clientFd ∈ ready) && (answers.recv clientFd = .endOfStream ||
    answers.recv clientFd = .failed))

section Pass

variable {answers : Answers} {ready clients passed rest : List Int} {serverFd fd : Int}

theorem actsFor_of_notMem (h : fd ∉ ready) : actsFor answers ready fd = [] := if_neg h

theorem stays_of_notMem (h : fd ∉ ready) : stays answers ready fd = true := by
  simp [stays, h]

/-- **Each client is served once**, in the order of the list, and those who leave are erased. -/
theorem serve_eq (h : ∀ fd ∈ rest, fd < fdSetsize) (passed : List Int) :
    serve answers ready passed rest =
      { acts := rest.flatMap (actsFor answers ready)
        clients := passed ++ rest.filter (stays answers ready) } := by
  induction rest generalizing passed with
  | nil => simp [serve]
  | cons clientFd rest ih =>
      obtain ⟨hfd, hrest⟩ := List.forall_mem_cons.mp h
      rw [serve, if_neg (by omega), List.flatMap_cons]
      by_cases hready : clientFd ∈ ready
      · cases hrecv : answers.recv clientFd <;>
          simp [hready, hrecv, ih hrest, Pass.after, actsFor, stays]
      · rw [if_neg hready, ih hrest, actsFor_of_notMem hready,
          List.filter_cons_of_pos (stays_of_notMem hready)]
        simp

/-- A client whose bit is not in the set stops the loop. -/
theorem serve_outOfBounds (h : ∀ fd ∈ rest, fd < fdSetsize) (hfd : fdSetsize ≤ fd)
    (passed : List Int) : serve answers ready passed (rest ++ [fd]) =
      { acts := rest.flatMap (actsFor answers ready)
        clients := passed ++ rest.filter (stays answers ready) ++ [fd]
        fault := some .outOfBounds } := by
  induction rest generalizing passed with
  | nil => simp [serve, hfd]
  | cons clientFd rest ih =>
      obtain ⟨hclient, hrest⟩ := List.forall_mem_cons.mp h
      rw [List.cons_append, serve, if_neg (by omega), List.flatMap_cons]
      by_cases hready : clientFd ∈ ready
      · cases hrecv : answers.recv clientFd <;>
          simp [hready, hrecv, ih hrest, Pass.after, actsFor, stays]
      · rw [if_neg hready, ih hrest, actsFor_of_notMem hready,
          List.filter_cons_of_pos (stays_of_notMem hready)]
        simp

theorem pass_newClient (hserver : serverFd < fdSetsize) (h : ∀ fd ∈ clients, fd < fdSetsize) :
    pass answers serverFd clients =
      match answers.newClient? serverFd with
      | some newClient => (serve answers answers.ready [] (clients ++ [newClient])).after
          [.callback (.connection newClient)]
      | none => serve answers answers.ready [] clients := by
  have hbits : ¬ (serverFd :: clients).any (fdSetsize ≤ ·) = true := by
    simp only [List.any_eq_true, decide_eq_true_iff]
    rintro ⟨fd, hfd, hle⟩
    rcases List.mem_cons.mp hfd with rfl | hfd
    · omega
    · exact absurd (h fd hfd) (by omega)
  rw [pass, if_neg hbits, Answers.newClient?, Answers.ready]
  cases answers.select with
  | none =>
      have hstay : ∀ fd ∈ clients, stays answers [] fd = true := fun fd _ =>
        stays_of_notMem (by simp)
      show _ = serve answers [] [] clients
      rw [serve_eq h, List.filter_eq_self.mpr hstay]
      simp [actsFor_of_notMem]
  | some ready => rfl

/-- **A pass** welcomes the newcomer, if there is one, and serves each client once. A newcomer whose
bit is not in the set is fatal. -/
theorem pass_eq (hserver : serverFd < fdSetsize) (h : ∀ fd ∈ clients, fd < fdSetsize)
    (hnew : ∀ fd ∈ answers.newClient? serverFd, fd ∉ answers.ready) :
    pass answers serverFd clients =
      { acts := (answers.newClient? serverFd).toList.map (fun fd => .callback (.connection fd)) ++
          clients.flatMap (actsFor answers answers.ready)
        clients := clients.filter (stays answers answers.ready) ++
          (answers.newClient? serverFd).toList
        fault := if (answers.newClient? serverFd).any (fdSetsize ≤ ·) then some .outOfBounds
          else none } := by
  rw [pass_newClient hserver h]
  cases hsome : answers.newClient? serverFd with
  | none => simp [serve_eq h]
  | some newClient =>
      have hfresh : newClient ∉ answers.ready := hnew newClient hsome
      by_cases hle : fdSetsize ≤ newClient
      · simp [serve_outOfBounds h hle, Pass.after, hle]
      · have hall : ∀ fd ∈ clients ++ [newClient], fd < fdSetsize := by
          intro fd hfd
          rcases List.mem_append.mp hfd with hfd | hfd
          · exact h fd hfd
          · rw [List.mem_singleton.mp hfd]
            omega
        simp [serve_eq hall, Pass.after, hle, actsFor_of_notMem hfresh, stays_of_notMem hfresh]

end Pass

/-! ### Events so far -/

/-- The descriptors in use after an event. -/
def usedAfter (isOpen : Int → Bool) : Event → Int → Bool
  | .connection fd => Function.update isOpen fd true
  | .message _ _ _ => isOpen
  | .disconnection fd => Function.update isOpen fd false

/-- The event comes in its turn. -/
def Expected (isOpen : Int → Bool) : Event → Prop
  | .connection fd => isOpen fd = false
  | .message fd _ _ => isOpen fd = true
  | .disconnection fd => isOpen fd = true

/-- The descriptors that the events have left in use. -/
def used (events : List Event) : Int → Bool := events.foldl usedAfter fun _ => false

theorem used_snoc (events : List Event) (event : Event) :
    used (events ++ [event]) = usedAfter (used events) event := by
  rw [used, List.foldl_append]
  rfl

theorem delivered_append {isOpen : Int → Bool} {events more : List Event} :
    Delivered isOpen (events ++ more) ↔
      Delivered isOpen events ∧ Delivered (events.foldl usedAfter isOpen) more := by
  induction events generalizing isOpen with
  | nil => simp [Delivered]
  | cons event events ih =>
      cases event <;> simp only [List.cons_append, Delivered, ih, and_assoc] <;> exact Iff.rfl

theorem delivered_snoc {events : List Event} {event : Event} :
    Delivered (fun _ => false) (events ++ [event]) ↔
      Delivered (fun _ => false) events ∧ Expected (used events) event := by
  rw [delivered_append]
  refine and_congr_right fun _ => ?_
  cases event <;> simp [Delivered, Expected, used]

/-! ### Connections -/

/-- Of each open connection the gateway has got what its peer wrote first. -/
structure Streaming (m : Machine) (events : List Event) : Prop where
  delivered : Delivered (fun _ => false) events
  used : ∀ fd, used events fd = (m.sockets fd).isSome
  received : ∀ fd s, m.sockets fd = some s →
    s.taken ≤ s.written.length ∧ received fd events = s.written.take s.taken
  waiting : ∀ s ∈ m.backlog, s.taken = 0

namespace Streaming

variable {m : Machine} {events : List Event} {fd : Int} {s : Socket} {answers : Answers}
  {ready : List Int}

theorem snoc_of_ne {sockets : Int → Option Socket} {event : Event} (h : Streaming m events)
    (fd : Int)
    (hne : ∀ fd', fd' ≠ fd → sockets fd' = m.sockets fd' ∧
      receive fd' (ClientGateway.received fd' events) event = ClientGateway.received fd' events)
    (hself : ∀ s, sockets fd = some s → s.taken ≤ s.written.length ∧
      receive fd (ClientGateway.received fd events) event = s.written.take s.taken) :
    ∀ fd' s, sockets fd' = some s → s.taken ≤ s.written.length ∧
      ClientGateway.received fd' (events ++ [event]) = s.written.take s.taken := by
  intro fd' s hs
  rw [received_snoc]
  by_cases hfd : fd' = fd
  · subst hfd
    exact hself s hs
  · obtain ⟨hsocket, hsame⟩ := hne fd' hfd
    rw [hsame]
    exact h.received fd' s (hsocket ▸ hs)

theorem connection (h : Streaming m events) (hfree : m.sockets fd = none)
    (hbacklog : m.backlog ≠ []) : Streaming (m.apply (.callback (.connection fd)))
      (events ++ [.connection fd]) := by
  obtain ⟨s, backlog, hcons⟩ := List.exists_cons_of_ne_nil hbacklog
  have hwaiting : ∀ s' ∈ s :: backlog, s'.taken = 0 := hcons ▸ h.waiting
  rw [Machine.apply, hcons]
  refine ⟨delivered_snoc.mpr ⟨h.delivered, ?_⟩, fun fd' => ?_, ?_, ?_⟩
  · show TcpServer.used events fd = false
    rw [h.used, hfree]
    rfl
  · rw [used_snoc, usedAfter]
    by_cases hfd : fd' = fd <;> simp [hfd, h.used]
  · refine h.snoc_of_ne fd (fun fd' hne => ?_) ?_
    · simp [hne, receive]
    · intro s' hs'
      obtain rfl : s = s' := by simpa using hs'
      simp [hwaiting, receive]
  · exact fun s' hs' => hwaiting s' (List.mem_cons_of_mem s hs')

theorem message (h : Streaming m events) (hs : m.sockets fd = some s) {data : List UInt8}
    (hdata : data <+: s.unread) (now : Nat → Nat → Timestamp) :
    Streaming (m.apply (.callback (.message fd now data))) (events ++ [.message fd now data]) := by
  refine ⟨delivered_snoc.mpr ⟨h.delivered, ?_⟩, fun fd' => ?_, ?_, h.waiting⟩
  · show TcpServer.used events fd = true
    rw [h.used, hs]
    rfl
  · rw [used_snoc, usedAfter, h.used, Machine.apply]
    by_cases hfd : fd' = fd <;> simp [hfd]
  · refine h.snoc_of_ne fd (fun fd' hne => ?_) ?_
    · simp [Machine.apply, hne, receive]
    · intro s' hs'
      obtain rfl : { s with taken := s.taken + data.length } = s' := by
        simpa [Machine.apply, hs] using hs'
      obtain ⟨hle, hreceived⟩ := h.received fd s hs
      have hlen := hdata.length_le
      rw [Socket.unread, List.length_drop] at hlen
      refine ⟨by dsimp only; omega, ?_⟩
      show _ = s.written.take (s.taken + data.length)
      rw [receive, if_pos rfl, hreceived, List.take_add]
      exact congrArg _ (List.prefix_iff_eq_take.mp hdata)

theorem hangUp (h : Streaming m events) (hs : m.sockets fd = some s) :
    Streaming ((hangUp fd).foldl Machine.apply m) (events ++ [.disconnection fd]) := by
  refine ⟨delivered_snoc.mpr ⟨h.delivered, ?_⟩, fun fd' => ?_, ?_, h.waiting⟩
  · show TcpServer.used events fd = true
    rw [h.used, hs]
    rfl
  · rw [used_snoc, usedAfter]
    by_cases hfd : fd' = fd <;> simp [hfd, h.used, TcpServer.hangUp, Machine.apply]
  · refine h.snoc_of_ne fd (fun fd' hne => ?_) ?_
    · simp [TcpServer.hangUp, Machine.apply, hne, receive]
    · simp [TcpServer.hangUp, Machine.apply]

/-- Serving a client concerns its own connection only. -/
theorem actsFor_frame (answers : Answers) (ready : List Int) (hs : m.sockets fd = some s) :
    (∀ fd', fd' ≠ fd →
      ((actsFor answers ready fd).foldl Machine.apply m).sockets fd' = m.sockets fd') ∧
      (((actsFor answers ready fd).foldl Machine.apply m).sockets fd).isSome =
        stays answers ready fd := by
  unfold actsFor stays
  by_cases hready : fd ∈ ready
  · cases hrecv : answers.recv fd <;>
      simp +contextual [hready, TcpServer.hangUp, Machine.apply, hs]
  · simp [hready, hs]

theorem actsFor (h : Streaming m events) (ready : List Int) (hs : m.sockets fd = some s)
    (hrecv : s.Returns (answers.recv fd)) :
    Streaming ((actsFor answers ready fd).foldl Machine.apply m)
      (events ++ (TcpServer.actsFor answers ready fd).filterMap Act.event?) := by
  unfold TcpServer.actsFor
  by_cases hready : fd ∈ ready
  · rw [if_pos hready]
    cases hanswer : answers.recv fd with
    | bytes data =>
        rw [hanswer] at hrecv
        exact h.message hs hrecv.2.2 (answers.now fd)
    | wouldBlock => simpa using h
    | endOfStream => exact h.hangUp hs
    | failed => exact h.hangUp hs
  · simpa [hready] using h

/-- **All clients are served**, one after the other. -/
theorem serve (h : Streaming m events) (answers : Answers) (ready : List Int)
    {clients : List Int} (hnodup : clients.Nodup)
    (hclients : ∀ fd ∈ clients, ∃ s, m.sockets fd = some s ∧ s.Returns (answers.recv fd)) :
    Streaming ((clients.flatMap (TcpServer.actsFor answers ready)).foldl Machine.apply m)
        (events ++ (clients.flatMap (TcpServer.actsFor answers ready)).filterMap Act.event?) ∧
      ∀ fd, (((clients.flatMap (TcpServer.actsFor answers ready)).foldl Machine.apply
          m).sockets fd).isSome =
        if fd ∈ clients then stays answers ready fd else (m.sockets fd).isSome := by
  induction clients generalizing m events with
  | nil => simpa using h
  | cons clientFd clients ih =>
      obtain ⟨hnotMem, hnodup⟩ := List.nodup_cons.mp hnodup
      obtain ⟨⟨s, hs, hrecv⟩, hrest⟩ := List.forall_mem_cons.mp hclients
      obtain ⟨hframe, hself⟩ := actsFor_frame answers ready hs
      have hne : ∀ fd ∈ clients, fd ≠ clientFd := fun fd hfd heq => hnotMem (heq ▸ hfd)
      have hlater := ih (h.actsFor ready hs hrecv) hnodup fun fd hfd => by
        rw [hframe fd (hne fd hfd)]
        exact hrest fd hfd
      rw [List.flatMap_cons, List.foldl_append, List.filterMap_append, ← List.append_assoc]
      refine ⟨hlater.1, fun fd => ?_⟩
      rw [hlater.2 fd]
      by_cases hfd : fd = clientFd
      · subst hfd
        rw [if_neg hnotMem, if_pos List.mem_cons_self, hself]
      · rw [hframe fd hfd]
        simp [hfd]

end Streaming

/-! ### The server and its peers -/

/-- The descriptors that the process has open apart from clients: the server's own is one of them,
and all of them have their bits. -/
structure Descriptors (others : Finset Int) (serverFd : Int) : Prop where
  server : serverFd ∈ others
  low : ∀ fd ∈ others, 0 ≤ fd ∧ fd < fdSetsize

/-- **The list of clients is the list of open connections**, each of them streaming. -/
structure Machine.Sound (others : Finset Int) (m : Machine) (events : List Event) : Prop where
  streaming : Streaming m events
  nodup : m.clients.Nodup
  clients : ∀ fd, fd ∈ m.clients ↔ (m.sockets fd).isSome = true
  foreign : ∀ fd ∈ m.clients, 0 ≤ fd ∧ fd ∉ others
  bits : m.fault = none → ∀ fd ∈ m.clients, fd < fdSetsize

section Machine

variable {others : Finset Int} {serverFd fd : Int} {m m' : Machine} {events : List Event}
  {answers : Answers} {i : Input} {acts : List Act} {tr : List (Input × List Act)}

theorem accept_of_newClient? (h : fd ∈ answers.newClient? serverFd) : answers.accept = some fd := by
  unfold Answers.newClient? at h
  split at h
  · split at h
    · exact h
    · simp at h
  · simp at h

theorem mem_ready (hkernel : m.Possible others serverFd answers) (h : fd ∈ answers.ready) :
    fd = serverFd ∨ fd ∈ m.clients := by
  unfold Answers.ready at h
  cases hselect : answers.select with
  | none => simp [hselect] at h
  | some ready =>
      rw [hselect] at h
      exact hkernel.select ready hselect fd h

theorem Machine.Sound.start (others : Finset Int) : Machine.Sound others {} [] where
  streaming := ⟨trivial, fun _ => rfl, by simp, by simp⟩
  nodup := .nil
  clients fd := by simp
  foreign fd hfd := by simp at hfd
  bits _ fd hfd := by simp at hfd

/-- Peers write at the end. -/
theorem Streaming.modify (h : Streaming m events) {f : Socket → Socket} (peer : Peer)
    (hf : ∀ s, (f s).taken = s.taken ∧ s.written <+: (f s).written) :
    Streaming (m.modify f peer) events ∧
      ∀ fd, ((m.modify f peer).sockets fd).isSome = (m.sockets fd).isSome := by
  cases peer with
  | waiting i =>
      refine ⟨⟨h.delivered, h.used, h.received, fun s hs => ?_⟩, fun _ => rfl⟩
      obtain ⟨j, hj, rfl⟩ := List.mem_iff_getElem.mp hs
      have hwaiting := h.waiting
      simp only [Machine.modify, List.getElem_modify]
      split
      · rw [(hf _).1]
        exact hwaiting _ (List.getElem_mem _)
      · exact hwaiting _ (List.getElem_mem _)
  | accepted fd =>
      have hsome : ∀ fd', ((m.modify f (.accepted fd)).sockets fd').isSome =
          (m.sockets fd').isSome := by
        intro fd'
        by_cases hfd : fd' = fd <;> simp [Machine.modify, hfd]
      refine ⟨⟨h.delivered, fun fd' => (h.used fd').trans (hsome fd').symm, fun fd' s hs => ?_,
        h.waiting⟩, hsome⟩
      by_cases hfd : fd' = fd
      · subst hfd
        obtain ⟨s₀, hs₀, rfl⟩ : ∃ s₀, m.sockets fd' = some s₀ ∧ f s₀ = s := by
          simpa [Machine.modify] using hs
        obtain ⟨hle, hreceived⟩ := h.received fd' s₀ hs₀
        obtain ⟨htaken, more, hmore⟩ := hf s₀
        have hlen : s₀.written.length ≤ (f s₀).written.length := by
          rw [← hmore, List.length_append]
          omega
        refine ⟨by omega, ?_⟩
        rw [hreceived, htaken, ← hmore, List.take_append_of_le_length hle]
      · exact h.received fd' s (by simpa [Machine.modify, hfd] using hs)

theorem Machine.Sound.modify (h : m.Sound others events) {f : Socket → Socket} (peer : Peer)
    (hf : ∀ s, (f s).taken = s.taken ∧ s.written <+: (f s).written) :
    (m.modify f peer).Sound others events := by
  obtain ⟨hstreaming, hsome⟩ := h.streaming.modify peer hf
  have hsame : (m.modify f peer).clients = m.clients ∧ (m.modify f peer).fault = m.fault := by
    cases peer <;> exact ⟨rfl, rfl⟩
  refine ⟨hstreaming, ?_, fun fd => ?_, ?_, ?_⟩
  · rw [hsame.1]
    exact h.nodup
  · rw [hsome, hsame.1]
    exact h.clients fd
  · rw [hsame.1]
    exact h.foreign
  · rw [hsame.1, hsame.2]
    exact h.bits

/-- A newcomer is nobody that the server knows. -/
theorem Machine.Sound.newClient (h : m.Sound others events)
    (hkernel : m.Possible others serverFd answers) (hserver : serverFd ∈ others)
    (hnew : fd ∈ answers.newClient? serverFd) :
    m.backlog ≠ [] ∧ m.sockets fd = none ∧ fd ∉ m.clients ∧ 0 ≤ fd ∧ fd ∉ others ∧
      fd ∉ answers.ready := by
  obtain ⟨hbacklog, hpos, hclosed, -⟩ := hkernel.accept fd (accept_of_newClient? hnew)
  obtain ⟨hothers, hnone⟩ := not_or.mp hclosed
  have hclients : fd ∉ m.clients := fun hfd => hnone ((h.clients fd).mp hfd)
  refine ⟨hbacklog, by simpa using hnone, hclients, hpos, hothers, fun hready => ?_⟩
  rcases mem_ready hkernel hready with rfl | hfd
  · exact hothers hserver
  · exact hclients hfd

/-- The pass of a sound machine. -/
theorem Machine.Sound.pass_eq (h : m.Sound others events) (hd : Descriptors others serverFd)
    (hlive : m.fault = none) (hkernel : m.Possible others serverFd answers) :
    pass answers serverFd m.clients =
      { acts := (answers.newClient? serverFd).toList.map (fun fd => .callback (.connection fd)) ++
          m.clients.flatMap (actsFor answers answers.ready)
        clients := m.clients.filter (stays answers answers.ready) ++
          (answers.newClient? serverFd).toList
        fault := if (answers.newClient? serverFd).any (fdSetsize ≤ ·) then some .outOfBounds
          else none } :=
  TcpServer.pass_eq (hd.low _ hd.server).2 (h.bits hlive) fun _ hnew =>
    (h.newClient hkernel hd.server hnew).2.2.2.2.2

/-- The clients that a pass leaves are the open connections. -/
theorem Machine.Sound.streaming_pass (h : m.Sound others events) (hd : Descriptors others serverFd)
    (hlive : m.fault = none) (hkernel : m.Possible others serverFd answers) :
    Streaming ((pass answers serverFd m.clients).acts.foldl Machine.apply m)
        (events ++ (pass answers serverFd m.clients).acts.filterMap Act.event?) ∧
      ∀ fd, fd ∈ (pass answers serverFd m.clients).clients ↔
        (((pass answers serverFd m.clients).acts.foldl Machine.apply m).sockets fd).isSome =
          true := by
  have hsome : ∀ fd, fd ∈ m.clients → ∃ s, m.sockets fd = some s ∧ s.Returns (answers.recv fd) := by
    intro fd hfd
    obtain ⟨s, hs⟩ := Option.isSome_iff_exists.mp ((h.clients fd).mp hfd)
    exact ⟨s, hs, hkernel.recv fd s hs⟩
  have hnone : ∀ fd, fd ∉ m.clients → (m.sockets fd).isSome = false := fun fd hfd => by
    rw [h.clients] at hfd
    simpa using hfd
  rw [h.pass_eq hd hlive hkernel]
  dsimp only
  cases hnew : answers.newClient? serverFd with
  | none =>
      obtain ⟨hstreaming, hopen⟩ := h.streaming.serve answers answers.ready h.nodup hsome
      refine ⟨by simpa using hstreaming, fun fd => ?_⟩
      rw [Option.toList_none, List.map_nil, List.nil_append, List.append_nil, hopen,
        List.mem_filter]
      by_cases hfd : fd ∈ m.clients <;> simp [hfd, hnone]
  | some newClient =>
      obtain ⟨hbacklog, hfree, hnotMem, -⟩ := h.newClient hkernel hd.server hnew
      have hconnected := h.streaming.connection hfree hbacklog
      have hframe : ∀ fd, fd ≠ newClient →
          (m.apply (.callback (.connection newClient))).sockets fd = m.sockets fd := by
        intro fd hne
        obtain ⟨s, backlog, hcons⟩ := List.exists_cons_of_ne_nil hbacklog
        simp [Machine.apply, hcons, hne]
      have hcome : ((m.apply (.callback (.connection newClient))).sockets newClient).isSome =
          true := by
        obtain ⟨s, backlog, hcons⟩ := List.exists_cons_of_ne_nil hbacklog
        simp [Machine.apply, hcons]
      obtain ⟨hstreaming, hopen⟩ := hconnected.serve answers answers.ready h.nodup
        fun fd hfd => by
          rw [hframe fd fun heq => hnotMem (heq ▸ hfd)]
          exact hsome fd hfd
      refine ⟨by simpa [Act.event?] using hstreaming, fun fd => ?_⟩
      rw [Option.toList_some, List.map_singleton, List.singleton_append, List.foldl_cons, hopen,
        List.mem_append, List.mem_filter, List.mem_singleton]
      by_cases hne : fd = newClient
      · subst hne
        simp [hnotMem, hcome]
      · rw [hframe fd hne]
        by_cases hfd : fd ∈ m.clients <;> simp [hfd, hnone, hne]

/-- **One step** keeps the list right. -/
theorem Machine.Sound.step (h : m.Sound others events) (hd : Descriptors others serverFd)
    (hs : m.Step others serverFd i acts m') :
    m'.Sound others (events ++ acts.filterMap Act.event?) := by
  cases hs with
  | dial =>
      rw [List.filterMap_nil, List.append_nil]
      refine ⟨⟨h.streaming.delivered, h.streaming.used, h.streaming.received, ?_⟩, h.nodup,
        h.clients, h.foreign, h.bits⟩
      intro s hs
      rcases List.mem_append.mp hs with hs | hs
      · exact h.streaming.waiting s hs
      · rw [List.mem_singleton.mp hs]
  | write peer data =>
      rw [List.filterMap_nil, List.append_nil]
      exact h.modify peer fun s => ⟨rfl, List.prefix_append _ _⟩
  | leave peer =>
      rw [List.filterMap_nil, List.append_nil]
      exact h.modify peer fun s => ⟨rfl, List.prefix_refl _⟩
  | breakOff peer =>
      rw [List.filterMap_nil, List.append_nil]
      exact h.modify peer fun s => ⟨rfl, List.prefix_refl _⟩
  | @pass answers hlive hkernel =>
      obtain ⟨hstreaming, hclients⟩ := h.streaming_pass hd hlive hkernel
      refine ⟨⟨hstreaming.delivered, hstreaming.used, hstreaming.received, hstreaming.waiting⟩,
        ?_, hclients, ?_, ?_⟩ <;> dsimp only <;> rw [h.pass_eq hd hlive hkernel]
      · refine List.nodup_append.mpr ⟨h.nodup.filter _, ?_, ?_⟩
        · cases answers.newClient? serverFd <;> simp
        · rintro fd hfd fd' hfd' rfl
          obtain ⟨-, -, hnotMem, -⟩ := h.newClient hkernel hd.server (by simpa using hfd')
          exact hnotMem (List.mem_of_mem_filter hfd)
      · intro fd hfd
        rcases List.mem_append.mp hfd with hfd | hfd
        · exact h.foreign fd (List.mem_of_mem_filter hfd)
        · obtain ⟨-, -, -, hpos, hothers, -⟩ := h.newClient hkernel hd.server (by simpa using hfd)
          exact ⟨hpos, hothers⟩
      · intro hfault fd hfd
        rcases List.mem_append.mp hfd with hfd | hfd
        · exact h.bits hlive fd (List.mem_of_mem_filter hfd)
        · have hnew : answers.newClient? serverFd = some fd := by simpa using hfd
          simpa [hnew] using hfault

/-- The runs of the server from its start. -/
abbrev Machine.Run (others : Finset Int) (serverFd : Int) (tr : List (Input × List Act))
    (m : Machine) : Prop :=
  Trace.Run (Machine.Step others serverFd) {} tr m

/-- **Every run** keeps the list right. -/
theorem Machine.Sound.run (hd : Descriptors others serverFd)
    (h : Machine.Run others serverFd tr m) : m.Sound others (callbacks tr) := by
  refine Trace.Run.invariant (fun tr m => m.Sound others (callbacks tr)) (.start others) ?_ h
  intro tr m i acts m' _ hsound hs
  have hcallbacks : callbacks (tr ++ [(i, acts)]) = callbacks tr ++ acts.filterMap Act.event? := by
    simp [callbacks]
  rw [hcallbacks]
  exact hsound.step hd hs

/-! ### Playing a run -/

instance (s : Socket) : (answer : Received) → Decidable (s.Returns answer)
  | .bytes data =>
    inferInstanceAs (Decidable (data ≠ [] ∧ data.length ≤ 1024 ∧ data <+: s.unread))
  | .endOfStream => inferInstanceAs (Decidable (s.unread = [] ∧ s.hungUp = true))
  | .wouldBlock => inferInstanceAs (Decidable (s.unread = [] ∧ s.hungUp = false))
  | .failed => inferInstanceAs (Decidable (s.broken = true))

instance (others : Finset Int) (m : Machine) (fd : Int) : Decidable (m.IsOpen others fd) :=
  inferInstanceAs (Decidable (_ ∨ _))

/-- What the kernel promises about a pass, asked of the clients. -/
def Machine.Allows (others : Finset Int) (serverFd : Int) (m : Machine) (answers : Answers) :
    Prop :=
  (∀ ready ∈ answers.select, ∀ fd ∈ ready, fd = serverFd ∨ fd ∈ m.clients) ∧
    (∀ newClient ∈ answers.accept, m.backlog ≠ [] ∧ 0 ≤ newClient ∧ ¬ m.IsOpen others newClient ∧
      ∀ k ∈ List.range newClient.toNat, m.IsOpen others k) ∧
    ∀ fd ∈ m.clients, ∀ s ∈ m.sockets fd, s.Returns (answers.recv fd)

instance (others : Finset Int) (serverFd : Int) (m : Machine) (answers : Answers) :
    Decidable (m.Allows others serverFd answers) := inferInstanceAs (Decidable (_ ∧ _ ∧ _))

theorem Machine.Allows.possible (h : m.Allows others serverFd answers)
    (hsound : m.Sound others events) : m.Possible others serverFd answers := by
  obtain ⟨hselect, haccept, hrecv⟩ := h
  refine ⟨fun ready hready => hselect ready hready, fun newClient hnew => ?_, fun fd s hs => ?_⟩
  · obtain ⟨hbacklog, hpos, hclosed, hlowest⟩ := haccept newClient hnew
    refine ⟨hbacklog, hpos, hclosed, fun fd hfd hlt => ?_⟩
    have hopen := hlowest fd.toNat (List.mem_range.mpr (by omega))
    rwa [Int.toNat_of_nonneg hfd] at hopen
  · exact hrecv fd ((hsound.clients fd).mpr (by rw [hs]; rfl)) s hs

/-- Do what an input says, where it is possible. -/
def Machine.play (others : Finset Int) (serverFd : Int) (m : Machine) :
    Input → Option (List Act × Machine)
  | .dial => some ([], { m with backlog := m.backlog ++ [{}] })
  | .write peer data => some ([], m.modify (fun s => { s with written := s.written ++ data }) peer)
  | .leave peer => some ([], m.modify (fun s => { s with hungUp := true }) peer)
  | .breakOff peer => some ([], m.modify (fun s => { s with broken := true }) peer)
  | .pass answers =>
    if m.fault = none ∧ m.Allows others serverFd answers then
      some ((TcpServer.pass answers serverFd m.clients).acts,
        { (TcpServer.pass answers serverFd m.clients).acts.foldl Machine.apply m with
          clients := (TcpServer.pass answers serverFd m.clients).clients
          fault := (TcpServer.pass answers serverFd m.clients).fault })
    else none

theorem Machine.Sound.play (h : m.Sound others events)
    (hplay : m.play others serverFd i = some (acts, m')) :
    m.Step others serverFd i acts m' := by
  cases i with
  | dial =>
      obtain ⟨rfl, rfl⟩ := Prod.mk.inj (Option.some.inj hplay)
      exact .dial
  | write peer data =>
      obtain ⟨rfl, rfl⟩ := Prod.mk.inj (Option.some.inj hplay)
      exact .write peer data
  | leave peer =>
      obtain ⟨rfl, rfl⟩ := Prod.mk.inj (Option.some.inj hplay)
      exact .leave peer
  | breakOff peer =>
      obtain ⟨rfl, rfl⟩ := Prod.mk.inj (Option.some.inj hplay)
      exact .breakOff peer
  | pass answers =>
      simp only [Machine.play] at hplay
      split at hplay
      · rename_i hpossible
        obtain ⟨rfl, rfl⟩ := Prod.mk.inj (Option.some.inj hplay)
        exact .pass hpossible.1 (hpossible.2.possible h)
      · simp at hplay

/-- What was played is a run. -/
theorem Machine.Run.of_exec (hd : Descriptors others serverFd) {inputs : List Input}
    (h : Trace.exec (Machine.play others serverFd) inputs {} = some (tr, m)) :
    Machine.Run others serverFd tr m := by
  refine (Trace.Run.of_exec h).invariant (Machine.Run others serverFd) .nil ?_
  intro tr m i acts m' _ hrun hplay
  exact hrun.snoc ((Machine.Sound.run hd hrun).play hplay)

end Machine

end TcpServer

end OrderMatchingEngine
