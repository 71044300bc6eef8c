import OrderMatchingEngine.Connections
import OrderMatchingEngine.Library.Fallible
import OrderMatchingEngine.Refinement.Handlers

/-!
# OrderMatchingEngine.Refinement.Packets

What the processing of a packet depends on, and what it changes.

Handlers see of the sessions only who has logged in. So states that agree on that and on the
rest (`Agree`) answer a packet alike (`processPacket_agree`), and the packets of clients who have
not logged in change nothing (`processPacket_dropped`). `Processed` is what a packet can change.
-/

namespace OrderMatchingEngine

namespace ClientGateway

variable {clock now now' : Nat → Timestamp} {fuel : Nat} {g g' : ClientGateway} {fd fd' : Int}

/-! ### Sessions -/

theorem session_fst (fd : Int) (g : ClientGateway) :
    (g.session fd).1 = (g.sessions.lookup fd).getD {} := by
  unfold session
  split
  · rename_i s hs
    rw [hs]
    rfl
  · rename_i hnone
    rw [hnone]
    rfl

/-- The client on `fd` is subscribed to some symbol. -/
def Subscribed (g : ClientGateway) (fd : Int) : Prop :=
  ∃ symbol, fd ∈ (g.marketDataSubscriptions.lookup symbol).getD []

theorem session_congr (h : g'.sessions = g.sessions) (fd : Int) :
    (g'.session fd).1 = (g.session fd).1 := by
  rw [session_fst, session_fst, h]

theorem loggedIn_congr (h : g'.sessions = g.sessions) (fd : Int) :
    g'.LoggedIn fd ↔ g.LoggedIn fd := by
  unfold LoggedIn
  rw [session_congr h]

theorem session_insert (fd : Int) (s : Session) (h : g'.sessions = g.sessions.insert fd s)
    (fd' : Int) : (g'.session fd').1 = if fd' = fd then s else (g.session fd').1 := by
  rw [session_fst, h]
  split
  · rename_i heq
    rw [heq, AList.lookup_insert]
    rfl
  · rename_i hne
    rw [AList.lookup_insert_ne hne, session_fst]

theorem any_loggedIn (g : ClientGateway) (fd : Int) :
    (g.sessions.lookup fd).any (·.loggedIn) = decide (g.LoggedIn fd) := by
  rw [Bool.eq_iff_iff, decide_eq_true_iff, LoggedIn, session_fst]
  cases g.sessions.lookup fd <;> simp

/-- Looking a session up creates at most a fresh one. -/
theorem session_session (fd fd' : Int) (g : ClientGateway) :
    ((g.session fd).2.session fd').1 = (g.session fd').1 := by
  rcases hfd : g.sessions.lookup fd with _ | s
  · have hsnd : (g.session fd).2 = { g with sessions := g.sessions.insert fd {} } := by
      rw [session, hfd]
    rw [hsnd, session_insert fd {} rfl]
    split
    · rename_i heq
      rw [heq, session_fst, hfd]
      rfl
    · rfl
  · have hsnd : (g.session fd).2 = g := by rw [session, hfd]
    rw [hsnd]

theorem session_setBuffer (fd : Int) (bytes : List UInt8) (g : ClientGateway) (fd' : Int) :
    ((g.setBuffer fd bytes).session fd').1 =
      if fd' = fd then { (g.session fd).1 with buffer := bytes } else (g.session fd').1 := by
  unfold setBuffer
  rw [session_insert fd _ rfl, session_session]

theorem session_logIn (fd : Int) (g : ClientGateway) (fd' : Int) :
    ((g.logIn fd).session fd').1 =
      if fd' = fd then { (g.session fd).1 with loggedIn := true, userId := fd }
      else (g.session fd').1 := by
  unfold logIn
  rw [session_insert fd _ rfl, session_session]

theorem session_onConnection (fd : Int) (g : ClientGateway) (fd' : Int) :
    ((g.onConnection fd).session fd').1 = if fd' = fd then {} else (g.session fd').1 :=
  session_insert fd {} rfl fd'

theorem session_onDisconnection (fd : Int) (g : ClientGateway) (fd' : Int) :
    ((g.onDisconnection fd).session fd').1 = if fd' = fd then {} else (g.session fd').1 := by
  rw [session_fst]
  unfold onDisconnection
  dsimp only
  split
  · rename_i heq
    rw [heq, AList.lookup_erase]
    rfl
  · rename_i hne
    rw [AList.lookup_erase_ne hne, session_fst]

theorem log_sessions (bytes : List UInt8) (g : ClientGateway) :
    (g.log bytes).sessions = g.sessions ∧
      (g.log bytes).marketDataSubscriptions = g.marketDataSubscriptions := by
  unfold log
  split <;> exact ⟨rfl, rfl⟩

@[simp] theorem buffer_setBuffer (fd : Int) (bytes : List UInt8) (g : ClientGateway) :
    (g.setBuffer fd bytes).buffer fd = bytes := by
  rw [buffer, session_setBuffer, if_pos rfl]

theorem buffer_setBuffer_of_ne (bytes : List UInt8) (g : ClientGateway) (h : fd' ≠ fd) :
    (g.setBuffer fd bytes).buffer fd' = g.buffer fd' := by
  rw [buffer, session_setBuffer, if_neg h, buffer]

@[simp] theorem loggedIn_setBuffer (fd : Int) (bytes : List UInt8) (g : ClientGateway) (fd' : Int) :
    (g.setBuffer fd bytes).LoggedIn fd' ↔ g.LoggedIn fd' := by
  unfold LoggedIn
  rw [session_setBuffer]
  split
  · rename_i heq
    rw [heq]
  · rfl

/-! ### States that handlers cannot tell apart -/

/-- States that differ in buffers at most, and in whether a client who has not logged in has a
session. -/
structure Agree (g g' : ClientGateway) : Prop where
  engine : g.engine = g'.engine
  subscriptions : g.marketDataSubscriptions = g'.marketDataSubscriptions
  logOpen : g.logOpen = g'.logOpen
  eventLog : g.eventLog = g'.eventLog
  loggedIn : ∀ fd, g.LoggedIn fd ↔ g'.LoggedIn fd

namespace Agree

protected theorem refl (g : ClientGateway) : Agree g g := ⟨rfl, rfl, rfl, rfl, fun _ => Iff.rfl⟩

theorem symm (h : Agree g g') : Agree g' g :=
  ⟨h.engine.symm, h.subscriptions.symm, h.logOpen.symm, h.eventLog.symm,
    fun fd => (h.loggedIn fd).symm⟩

theorem trans {g'' : ClientGateway} (h : Agree g g') (h' : Agree g' g'') : Agree g g'' :=
  ⟨h.engine.trans h'.engine, h.subscriptions.trans h'.subscriptions,
    h.logOpen.trans h'.logOpen, h.eventLog.trans h'.eventLog,
    fun fd => (h.loggedIn fd).trans (h'.loggedIn fd)⟩

theorem of_session (fd : Int) (g : ClientGateway) : Agree (g.session fd).2 g := by
  refine ⟨(session_frame fd g).1, ?_, (session_frame fd g).2.1, (session_frame fd g).2.2,
    fun fd' => ?_⟩
  · unfold session
    split <;> rfl
  · rw [LoggedIn, session_session]
    rfl

theorem of_setBuffer (fd : Int) (bytes : List UInt8) (g : ClientGateway) :
    Agree (g.setBuffer fd bytes) g := by
  have hs := of_session fd g
  exact ⟨hs.engine, hs.subscriptions, hs.logOpen, hs.eventLog, loggedIn_setBuffer fd bytes g⟩

theorem session (h : Agree g g') (fd : Int) : Agree (g.session fd).2 (g'.session fd).2 :=
  ((of_session fd g).trans h).trans (of_session fd g').symm

theorem setBuffer (h : Agree g g') (fd fd' : Int) (bytes bytes' : List UInt8) :
    Agree (g.setBuffer fd bytes) (g'.setBuffer fd' bytes') :=
  ((of_setBuffer fd bytes g).trans h).trans (of_setBuffer fd' bytes' g').symm

theorem log (h : Agree g g') (bytes : List UInt8) : Agree (g.log bytes) (g'.log bytes) := by
  obtain ⟨hengine, hopen, hbytes⟩ := log_frame bytes g
  obtain ⟨hengine', hopen', hbytes'⟩ := log_frame bytes g'
  refine ⟨?_, ?_, ?_, ?_, fun fd => ?_⟩
  · rw [hengine, hengine', h.engine]
  · rw [(log_sessions bytes g).2, (log_sessions bytes g').2, h.subscriptions]
  · rw [hopen, hopen', h.logOpen]
  · rw [hbytes, hbytes', h.logOpen, h.eventLog]
  · rw [loggedIn_congr (log_sessions bytes g).1, loggedIn_congr (log_sessions bytes g').1]
    exact h.loggedIn fd

theorem withEngine (h : Agree g g') (engine : MatchingEngine Int) :
    Agree { g with engine := engine } { g' with engine := engine } := by
  have hsame : ∀ g : ClientGateway, ({ g with engine := engine } : ClientGateway).sessions =
      g.sessions := fun _ => rfl
  refine ⟨rfl, h.subscriptions, h.logOpen, h.eventLog, fun fd => ?_⟩
  exact (loggedIn_congr (hsame g) fd).trans
    ((h.loggedIn fd).trans (loggedIn_congr (hsame g') fd).symm)

theorem withSubscriptions (h : Agree g g') (symbol : Symbol) (fds : List Int) :
    Agree { g with marketDataSubscriptions := g.marketDataSubscriptions.insert symbol fds }
      { g' with marketDataSubscriptions := g'.marketDataSubscriptions.insert symbol fds } := by
  have hsame : ∀ (g : ClientGateway) subscriptions,
      ({ g with marketDataSubscriptions := subscriptions } : ClientGateway).sessions =
        g.sessions := fun _ _ => rfl
  refine ⟨h.engine, ?_, h.logOpen, h.eventLog, fun fd => ?_⟩
  · dsimp only
    rw [h.subscriptions]
  · exact (loggedIn_congr (hsame g _) fd).trans
      ((h.loggedIn fd).trans (loggedIn_congr (hsame g' _) fd).symm)

theorem logIn (h : Agree g g') (fd : Int) : Agree (g.logIn fd) (g'.logIn fd) := by
  have hs := h.session fd
  refine ⟨hs.engine, hs.subscriptions, hs.logOpen, hs.eventLog, fun fd' => ?_⟩
  rw [LoggedIn, session_logIn, LoggedIn, session_logIn]
  split
  · exact Iff.rfl
  · exact h.loggedIn fd'

/-- Broadcasts go to the same clients. -/
theorem receivers (h : Agree g g') (symbol : Symbol) :
    g.receivers symbol = g'.receivers symbol := by
  unfold ClientGateway.receivers
  rw [h.subscriptions]
  refine List.filter_congr fun fd _ => ?_
  rw [any_loggedIn, any_loggedIn, decide_eq_decide]
  exact h.loggedIn fd

theorem snapshot? (h : Agree g g') (symbol : Symbol) :
    g.snapshot? symbol = g'.snapshot? symbol := by
  unfold ClientGateway.snapshot?
  rw [h.engine]

theorem broadcastTradeUpdate (h : Agree g g') (timestamp : Timestamp) (t : Trade Int) :
    g.broadcastTradeUpdate timestamp t = g'.broadcastTradeUpdate timestamp t := by
  unfold ClientGateway.broadcastTradeUpdate
  rw [h.receivers]

theorem broadcastMarketData (h : Agree g g') (symbol : Symbol) :
    g.broadcastMarketData symbol = g'.broadcastMarketData symbol := by
  unfold ClientGateway.broadcastMarketData
  rw [h.snapshot?, h.receivers]

theorem reportTrades (h : Agree g g') (now : Nat → Timestamp) (req : NewOrderRequest)
    (behind : List UInt8) (fd : Int) (i : Nat) (order : Order Int) (trades : List (Trade Int)) :
    ClientGateway.reportTrades now req behind fd g i order trades =
      ClientGateway.reportTrades now req behind fd g' i order trades := by
  induction trades generalizing i order with
  | nil => rfl
  | cons t trades ih =>
      rw [ClientGateway.reportTrades, ClientGateway.reportTrades, reportTrade_eq, reportTrade_eq,
        h.engine, h.broadcastTradeUpdate, ih]

theorem reports (h : Agree g g') (now : Nat → Timestamp) (req : NewOrderRequest)
    (behind : List UInt8) (fd : Int) (trades : List (Trade Int)) :
    ClientGateway.reports now req behind fd trades g =
      ClientGateway.reports now req behind fd trades g' := by
  unfold ClientGateway.reports
  rw [h.reportTrades, h.broadcastMarketData]

end Agree

/-! ### Handlers on states that agree -/

section Handlers

open Fallible (Rel)

/-- The same answer, and states that agree again. -/
def SameAnswer (x y : Reporting × ClientGateway) : Prop := x.1 = y.1 ∧ Agree x.2 y.2

theorem handleNewOrder_agree (h : Agree g g') (req : NewOrderRequest) (behind : List UInt8) :
    Rel Eq SameAnswer (handleNewOrder clock now fuel fd req behind g)
      (handleNewOrder clock now fuel fd req behind g') := by
  by_cases hin : g.LoggedIn fd
  · have hin' := (h.loggedIn fd).mp hin
    have hlog := h.log req.units
    rw [handleNewOrder_eq hin, handleNewOrder_eq hin', hlog.engine]
    refine Rel.map (fun x => ⟨?_, hlog.withEngine x.2⟩) _
    exact (hlog.withEngine x.2).reports now req behind fd x.1.trades
  · have hin' := fun hin' => hin ((h.loggedIn fd).mpr hin')
    rw [handleNewOrder_dropped hin, handleNewOrder_dropped hin']
    exact .ok ⟨rfl, h.session fd⟩

theorem handleOrderCancel_agree (h : Agree g g') (req : OrderCancelRequest) :
    Rel Eq SameAnswer (handleOrderCancel fd req g) (handleOrderCancel fd req g') := by
  by_cases hin : g.LoggedIn fd
  · have hin' := (h.loggedIn fd).mp hin
    have hlog := h.log req.units
    rw [handleOrderCancel_eq hin, handleOrderCancel_eq hin', hlog.engine]
    refine Rel.map (fun x => ⟨?_, hlog.withEngine x.2⟩) _
    dsimp only
    rw [(hlog.withEngine x.2).broadcastMarketData]
  · have hin' := fun hin' => hin ((h.loggedIn fd).mpr hin')
    rw [handleOrderCancel_dropped hin, handleOrderCancel_dropped hin']
    exact .ok ⟨rfl, h.session fd⟩

theorem handleMarketDataRequest_agree (h : Agree g g') (req : MarketDataRequest) :
    SameAnswer (handleMarketDataRequest fd req g) (handleMarketDataRequest fd req g') := by
  by_cases hin : g.LoggedIn fd
  · rw [handleMarketDataRequest_eq hin, handleMarketDataRequest_eq ((h.loggedIn fd).mp hin),
      h.snapshot?]
    split <;> exact ⟨rfl, h⟩
  · have hin' := fun hin' => hin ((h.loggedIn fd).mpr hin')
    rw [handleMarketDataRequest_dropped hin, handleMarketDataRequest_dropped hin']
    exact ⟨rfl, h.session fd⟩

theorem handleSubscriptionRequest_agree (h : Agree g g') (req : SubscriptionRequest) :
    SameAnswer (handleSubscriptionRequest fd req g) (handleSubscriptionRequest fd req g') := by
  by_cases hin : g.LoggedIn fd
  · rw [handleSubscriptionRequest_eq hin, handleSubscriptionRequest_eq ((h.loggedIn fd).mp hin)]
    refine ⟨rfl, ?_⟩
    have hsame := h.withSubscriptions (cleanSymbol req.symbol) (subscribers fd req
      ((g.marketDataSubscriptions.lookup (cleanSymbol req.symbol)).getD []))
    rwa [h.subscriptions] at hsame ⊢
  · have hin' := fun hin' => hin ((h.loggedIn fd).mpr hin')
    rw [handleSubscriptionRequest_dropped hin, handleSubscriptionRequest_dropped hin']
    exact ⟨rfl, h.session fd⟩

theorem withRequest_agree (h : Agree g g') {n : Nat} {data : List UInt8}
    {handler handler' : Records.Packed UInt8 n → List UInt8 →
      Except Fault (Reporting × ClientGateway)}
    (hh : ∀ req behind, Rel Eq SameAnswer (handler req behind) (handler' req behind)) :
    Rel Eq SameAnswer (withRequest n fd data g handler) (withRequest n fd data g' handler') := by
  unfold withRequest
  split
  · exact hh _ _
  · by_cases hin : g.LoggedIn fd
    · rw [if_pos hin, if_pos ((h.loggedIn fd).mp hin)]
      exact .error rfl
    · rw [if_neg hin, if_neg fun hin' => hin ((h.loggedIn fd).mpr hin')]
      exact .ok ⟨rfl, h.session fd⟩

/-- **A packet is answered alike** in states that agree. -/
theorem processPacket_agree (h : Agree g g') (data : List UInt8) :
    Rel Eq SameAnswer (processPacket clock fuel now fd data g)
      (processPacket clock fuel now fd data g') := by
  unfold processPacket
  rcases requestType? data with _ | type
  · exact .ok ⟨rfl, h⟩
  · cases type with
    | loginRequest => exact .ok ⟨rfl, h.logIn fd⟩
    | newOrder => exact withRequest_agree h (handleNewOrder_agree h)
    | orderCancel => exact withRequest_agree h fun req _ => handleOrderCancel_agree h req
    | marketDataRequest =>
        exact withRequest_agree h fun req _ => .ok (handleMarketDataRequest_agree h req)
    | subscriptionRequest =>
        exact withRequest_agree h fun req _ => .ok (handleSubscriptionRequest_agree h req)

/-- The same end, and the same state. -/
def SameEnd (x y : Reporting × ClientGateway) : Prop := x.1.fault = y.1.fault ∧ x.2 = y.2

/-- The system clock decides neither the state nor how a handler ends. -/
theorem processPacket_now (now now' : Nat → Timestamp) (data : List UInt8) (g : ClientGateway) :
    Rel Eq SameEnd (processPacket clock fuel now fd data g)
      (processPacket clock fuel now' fd data g) := by
  have hsame : ∀ x : Except Fault (Reporting × ClientGateway), Rel Eq SameEnd x x := by
    rintro (fault | x)
    · exact .error rfl
    · exact .ok ⟨rfl, rfl⟩
  unfold processPacket
  rcases requestType? data with _ | type
  · exact hsame _
  · cases type with
    | newOrder =>
        unfold withRequest
        dsimp only
        split
        · by_cases hin : g.LoggedIn fd
          · rw [handleNewOrder_eq hin, handleNewOrder_eq hin]
            refine Rel.map (fun x => ⟨?_, rfl⟩) _
            rw [reports_fault, reports_fault]
          · rw [handleNewOrder_dropped hin, handleNewOrder_dropped hin]
            exact hsame _
        · exact hsame _
    | loginRequest => exact hsame _
    | orderCancel => exact hsame _
    | marketDataRequest => exact hsame _
    | subscriptionRequest => exact hsame _

end Handlers

/-! ### What a packet can change -/

/-- What processing a packet of `fd` does to the sessions and subscriptions, and whom it reaches. -/
structure Processed (fd : Int) (data : List UInt8) (g : ClientGateway) (r : Reporting)
    (g' : ClientGateway) : Prop where
  buffer : ∀ fd', g'.buffer fd' = g.buffer fd'
  loggedIn : ∀ fd', g'.LoggedIn fd' ↔
    g.LoggedIn fd' ∨ (fd' = fd ∧ requestType? data = some .loginRequest)
  subscribed : ∀ fd', g'.Subscribed fd' → g.Subscribed fd' ∨ (fd' = fd ∧ g.LoggedIn fd)
  sent : ∀ m ∈ r.sent, g'.LoggedIn m.fd

theorem Subscribed.congr (h : g'.marketDataSubscriptions = g.marketDataSubscriptions)
    (hs : g'.Subscribed fd) : g.Subscribed fd := by
  unfold Subscribed at hs ⊢
  rwa [← h]

/-- A packet of a logged-in client that changes no session. -/
theorem Processed.of_sessions {data : List UInt8} {r : Reporting} (hin : g.LoggedIn fd)
    (hsessions : g'.sessions = g.sessions)
    (hsubscribed : ∀ fd', g'.Subscribed fd' → g.Subscribed fd' ∨ fd' = fd)
    (hsent : ∀ m ∈ r.sent, m.fd = fd ∨ g'.LoggedIn m.fd) : Processed fd data g r g' where
  buffer fd' := by rw [ClientGateway.buffer, session_congr hsessions, ClientGateway.buffer]
  loggedIn fd' := by
    rw [loggedIn_congr hsessions]
    refine (or_iff_left_of_imp ?_).symm
    rintro ⟨rfl, -⟩
    exact hin
  subscribed fd' h := (hsubscribed fd' h).imp_right fun hfd => ⟨hfd, hin⟩
  sent m hm := by
    rcases hsent m hm with hfd | hin'
    · rw [hfd]
      exact (loggedIn_congr hsessions fd).mpr hin
    · exact hin'

theorem loggedIn_of_mem_receivers {symbol : Symbol} (h : fd ∈ g.receivers symbol) :
    g.LoggedIn fd := by
  unfold receivers at h
  obtain ⟨-, hany⟩ := List.mem_filter.mp h
  rwa [any_loggedIn, decide_eq_true_iff] at hany

theorem sent_broadcastMarketData {symbol : Symbol} {m : Sent}
    (h : m ∈ g.broadcastMarketData symbol) : g.LoggedIn m.fd := by
  unfold broadcastMarketData at h
  split at h
  · simp at h
  · obtain ⟨fd, hfd, rfl⟩ := List.mem_map.mp h
    exact loggedIn_of_mem_receivers hfd

theorem mem_andThen {r r' : Reporting} {m : Sent} (h : m ∈ (r.andThen r').sent) :
    m ∈ r.sent ∨ m ∈ r'.sent := by
  unfold Reporting.andThen at h
  split at h
  · exact .inl h
  · exact List.mem_append.mp h

/-- The messages about the trades of a request. -/
theorem mem_reportTrades {req : NewOrderRequest} {behind : List UInt8} {i : Nat}
    {order : Order Int} {trades : List (Trade Int)} {m : Sent}
    (h : m ∈ (reportTrades now req behind fd g i order trades).sent) :
    ∃ t ∈ trades, (∃ order', m = ⟨fd, .executionReport (takerReport order' t)⟩) ∨
      (∃ order' qty, m = ⟨fd, .executionReport (makerReport order' t qty)⟩) ∨
      ∃ timestamp, m ∈ g.broadcastTradeUpdate timestamp t := by
  induction trades generalizing i order with
  | nil => simp [reportTrades] at h
  | cons t trades ih =>
      rw [reportTrades] at h
      rcases mem_andThen h with h | h
      · refine ⟨t, List.mem_cons_self, ?_⟩
        rw [reportTrade_eq] at h
        split at h
        · exact .inl ⟨_, List.mem_singleton.mp h⟩
        · rcases List.mem_cons.mp h with rfl | h
          · exact .inl ⟨_, rfl⟩
          · rcases List.mem_cons.mp h with rfl | h
            · exact .inr (.inl ⟨_, _, rfl⟩)
            · exact .inr (.inr ⟨_, h⟩)
      · obtain ⟨t', ht', h⟩ := ih h
        exact ⟨t', List.mem_cons_of_mem t ht', h⟩

/-- The messages about an order. -/
theorem mem_reports {req : NewOrderRequest} {behind : List UInt8} {trades : List (Trade Int)}
    {m : Sent} (h : m ∈ (reports now req behind fd trades g).sent) :
    m = ⟨fd, .executionReport (newReport req.order)⟩ ∨
      (∃ t ∈ trades, (∃ order, m = ⟨fd, .executionReport (takerReport order t)⟩) ∨
        (∃ order qty, m = ⟨fd, .executionReport (makerReport order t qty)⟩) ∨
        ∃ timestamp, m ∈ g.broadcastTradeUpdate timestamp t) ∨
      m ∈ g.broadcastMarketData req.order.symbol := by
  unfold reports at h
  rcases mem_andThen h with h | h
  · split at h
    · exact .inl (List.mem_singleton.mp h)
    · exact .inr (.inl (mem_reportTrades h))
  · exact .inr (.inr h)

/-- The reports of a request go to its client and to clients who have logged in. -/
theorem sent_reports {req : NewOrderRequest} {behind : List UInt8} {trades : List (Trade Int)}
    {m : Sent} (h : m ∈ (reports now req behind fd trades g).sent) :
    m.fd = fd ∨ g.LoggedIn m.fd := by
  rcases mem_reports h with rfl | ⟨t, -, ⟨_, rfl⟩ | ⟨_, _, rfl⟩ | ⟨_, h⟩⟩ | h
  · exact .inl rfl
  · exact .inl rfl
  · exact .inl rfl
  · obtain ⟨fd', hfd', rfl⟩ := List.mem_map.mp h
    exact .inr (loggedIn_of_mem_receivers hfd')
  · exact .inr (sent_broadcastMarketData h)

theorem mem_subscribers {req : SubscriptionRequest} {fds : List Int}
    (h : fd' ∈ subscribers fd req fds) : fd' ∈ fds ∨ fd' = fd := by
  unfold subscribers at h
  split at h
  · unfold insertFd at h
    split at h
    · exact .inl h
    · rw [List.mem_append, List.mem_cons] at h
      rcases h with h | h | h
      · exact .inl ((List.takeWhile_sublist _).mem h)
      · exact .inr h
      · exact .inl ((List.dropWhile_sublist _).mem h)
  · exact .inl (List.mem_of_mem_filter h)

/-- A request that changes the engine and the log at most. -/
theorem Processed.of_engine {data bytes : List UInt8} {engine : MatchingEngine Int} {r : Reporting}
    (hin : g.LoggedIn fd) (hg : g' = { g.log bytes with engine := engine })
    (hsent : ∀ m ∈ r.sent, m.fd = fd ∨ g'.LoggedIn m.fd) : Processed fd data g r g' := by
  subst hg
  exact .of_sessions hin (log_sessions bytes g).1
    (fun fd' hsub => .inl (hsub.congr (log_sessions bytes g).2)) hsent

/-- The request of a packet that holds it whole reaches its handler. -/
theorem withRequest_read {n : Nat} {data behind : List UInt8} {req : Records.Packed UInt8 n}
    (h : Records.read? n data = some (req, behind))
    (handler : Records.Packed UInt8 n → List UInt8 → Except Fault (Reporting × ClientGateway)) :
    withRequest n fd data g handler = handler req behind := by
  rw [withRequest, h]

/-- A packet of a logged-in client reaches its handler if it holds the whole request. -/
theorem withRequest_ok (hin : g.LoggedIn fd) {n : Nat} {data : List UInt8}
    {handler : Records.Packed UInt8 n → List UInt8 → Except Fault (Reporting × ClientGateway)}
    {x : Reporting × ClientGateway} (h : withRequest n fd data g handler = .ok x) :
    ∃ req behind, Records.read? n data = some (req, behind) ∧ handler req behind = .ok x := by
  unfold withRequest at h
  split at h
  · rename_i req behind hread
    exact ⟨req, behind, hread, h⟩
  · rw [if_pos hin] at h
    simp at h

theorem withRequest_dropped (hout : ¬ g.LoggedIn fd) {n : Nat} {data : List UInt8}
    {handler : Records.Packed UInt8 n → List UInt8 → Except Fault (Reporting × ClientGateway)}
    (hh : ∀ req behind, handler req behind = .ok ({}, (g.session fd).2)) :
    withRequest n fd data g handler = .ok ({}, (g.session fd).2) := by
  unfold withRequest
  split
  · exact hh _ _
  · rw [if_neg hout]

/-- **Without a log-in** only a log-in is answered: nothing is read, and nothing happens. -/
theorem processPacket_dropped (clock : Nat → Timestamp) (fuel : Nat) (now : Nat → Timestamp)
    {data : List UInt8} (hout : ¬ g.LoggedIn fd)
    (hlogin : requestType? data ≠ some .loginRequest) :
    ∃ g', processPacket clock fuel now fd data g = .ok ({}, g') ∧ Agree g' g ∧
      ∀ fd', g'.buffer fd' = g.buffer fd' := by
  have hbuffer : ∀ fd', (g.session fd).2.buffer fd' = g.buffer fd' := fun fd' => by
    rw [buffer, session_session, buffer]
  unfold processPacket
  rcases htype : requestType? data with _ | type
  · exact ⟨g, rfl, .refl g, fun _ => rfl⟩
  · refine ⟨(g.session fd).2, ?_, .of_session fd g, hbuffer⟩
    cases type with
    | loginRequest => exact absurd htype hlogin
    | newOrder => exact withRequest_dropped hout fun _ _ => handleNewOrder_dropped hout
    | orderCancel => exact withRequest_dropped hout fun _ _ => handleOrderCancel_dropped hout
    | marketDataRequest =>
        exact withRequest_dropped hout fun _ _ =>
          congrArg Except.ok (handleMarketDataRequest_dropped hout)
    | subscriptionRequest =>
        exact withRequest_dropped hout fun _ _ =>
          congrArg Except.ok (handleSubscriptionRequest_dropped hout)

/-- The symbol of the request that a packet is. -/
def packetSymbol? (data : List UInt8) : Option Symbol :=
  match requestType? data with
  | some .newOrder => (Records.read? 49 data).map fun x =>
      cleanSymbol (OrderMatchingEngine.NewOrderRequest.symbol x.1)
  | some .orderCancel => (Records.read? 32 data).map fun x =>
      cleanSymbol (OrderCancelRequest.symbol x.1)
  | some .marketDataRequest => (Records.read? 15 data).map fun x =>
      cleanSymbol (OrderMatchingEngine.MarketDataRequest.symbol x.1)
  | some .subscriptionRequest => (Records.read? 16 data).map fun x =>
      cleanSymbol (SubscriptionRequest.symbol x.1)
  | _ => none

/-- What a processed packet was: which handler answered it, what was sent, and the state it left. -/
inductive Answered (clock : Nat → Timestamp) (fuel : Nat) (now : Nat → Timestamp) (fd : Int)
    (data : List UInt8) (g : ClientGateway) : Reporting → ClientGateway → Prop
  /-- Only a log-in is answered without a log-in. -/
  | dropped {g' : ClientGateway} : ¬ g.LoggedIn fd → requestType? data ≠ some .loginRequest →
      Agree g' g → (∀ fd', g'.buffer fd' = g.buffer fd') → Answered clock fuel now fd data g {} g'
  | unknown : g.LoggedIn fd → requestType? data = none → Answered clock fuel now fd data g {} g
  | login : requestType? data = some .loginRequest →
      Answered clock fuel now fd data g (handleLogin fd g).1 (handleLogin fd g).2
  | newOrder {req : NewOrderRequest} {behind : List UInt8} {out : Outcome Int}
      {engine : MatchingEngine Int} : g.LoggedIn fd → requestType? data = some .newOrder →
      Records.read? 49 data = some (req, behind) →
      MatchingEngine.processOrder clock fuel req.order g.engine = .ok (out, engine) →
      Answered clock fuel now fd data g
        (reports now req behind fd out.trades { g.log req.units with engine := engine })
        { g.log req.units with engine := engine }
  | orderCancel {req : OrderCancelRequest} {behind : List UInt8} {x : Option (Order Int)}
      {engine : MatchingEngine Int} : g.LoggedIn fd → requestType? data = some .orderCancel →
      Records.read? 32 data = some (req, behind) →
      MatchingEngine.cancelOrder req.clientOrderId (cleanSymbol req.symbol) req.side.toNat
        g.engine = .ok (x, engine) →
      Answered clock fuel now fd data g
        { sent := ⟨fd, .executionReport (cancelReport req (cleanSymbol req.symbol) x)⟩ ::
          broadcastMarketData (cleanSymbol req.symbol)
            { g.log req.units with engine := engine } }
        { g.log req.units with engine := engine }
  | noBook {req : MarketDataRequest} {behind : List UInt8} : g.LoggedIn fd →
      requestType? data = some .marketDataRequest → Records.read? 15 data = some (req, behind) →
      g.snapshot? (cleanSymbol req.symbol) = none → Answered clock fuel now fd data g {} g
  | snapshot {req : MarketDataRequest} {behind : List UInt8} {snapshot : MarketDataSnapshot} :
      g.LoggedIn fd → requestType? data = some .marketDataRequest →
      Records.read? 15 data = some (req, behind) →
      g.snapshot? (cleanSymbol req.symbol) = some snapshot →
      Answered clock fuel now fd data g { sent := [⟨fd, .marketDataSnapshot snapshot⟩] } g
  | subscription {req : SubscriptionRequest} {behind : List UInt8} : g.LoggedIn fd →
      requestType? data = some .subscriptionRequest →
      Records.read? 16 data = some (req, behind) →
      Answered clock fuel now fd data g {}
        { g with
          marketDataSubscriptions := g.marketDataSubscriptions.insert (cleanSymbol req.symbol)
            (subscribers fd req
              ((g.marketDataSubscriptions.lookup (cleanSymbol req.symbol)).getD [])) }

/-- **Every packet that is processed is answered in one of these ways.** -/
theorem processPacket_answered {data : List UInt8} {r : Reporting}
    (h : processPacket clock fuel now fd data g = .ok (r, g')) :
    Answered clock fuel now fd data g r g' := by
  by_cases hlogin : requestType? data = some .loginRequest
  · rw [processPacket, hlogin, Except.ok.injEq] at h
    obtain ⟨rfl, rfl⟩ := Prod.mk.inj h
    exact .login hlogin
  by_cases hin : g.LoggedIn fd
  · unfold processPacket at h
    rcases htype : requestType? data with _ | type <;> rw [htype] at h
    · obtain ⟨rfl, rfl⟩ := Prod.mk.inj (Except.ok.inj h)
      exact .unknown hin htype
    · cases type with
      | loginRequest => exact absurd htype hlogin
      | newOrder =>
          obtain ⟨req, behind, hread, h⟩ := withRequest_ok hin h
          obtain ⟨out, engine, hp, rfl, rfl⟩ := handleNewOrder_ok hin h
          exact .newOrder hin htype hread hp
      | orderCancel =>
          obtain ⟨req, behind, hread, h⟩ := withRequest_ok hin h
          obtain ⟨x, engine, hc, rfl, rfl⟩ := handleOrderCancel_ok hin h
          exact .orderCancel hin htype hread hc
      | marketDataRequest =>
          obtain ⟨req, behind, hread, h⟩ := withRequest_ok hin h
          rw [handleMarketDataRequest_eq hin] at h
          cases hsnapshot : g.snapshot? (cleanSymbol (MarketDataRequest.symbol req)) with
          | none =>
              rw [hsnapshot] at h
              obtain ⟨rfl, rfl⟩ := Prod.mk.inj (Except.ok.inj h)
              exact .noBook hin htype hread hsnapshot
          | some snapshot =>
              rw [hsnapshot] at h
              obtain ⟨rfl, rfl⟩ := Prod.mk.inj (Except.ok.inj h)
              exact .snapshot hin htype hread hsnapshot
      | subscriptionRequest =>
          obtain ⟨req, behind, hread, h⟩ := withRequest_ok hin h
          rw [handleSubscriptionRequest_eq hin] at h
          obtain ⟨rfl, rfl⟩ := Prod.mk.inj (Except.ok.inj h)
          exact .subscription hin htype hread
  · obtain ⟨g₁, hdrop, hagree, hbuffer⟩ := processPacket_dropped clock fuel now hin hlogin
    obtain ⟨rfl, rfl⟩ := Prod.mk.inj (Except.ok.inj (hdrop.symm.trans h))
    exact .dropped hin hlogin hagree hbuffer

theorem handleLogin_processed {data : List UInt8} (hlogin : requestType? data = some .loginRequest)
    (g : ClientGateway) : Processed fd data g (handleLogin fd g).1 (handleLogin fd g).2 where
  buffer fd' := by
    unfold handleLogin buffer
    rw [session_logIn]
    split
    · rename_i hfd
      rw [hfd]
    · rfl
  loggedIn fd' := by
    unfold handleLogin LoggedIn
    rw [session_logIn]
    by_cases hfd : fd' = fd <;> simp [hfd, hlogin]
  subscribed fd' h := .inl (h.congr (Agree.of_session fd g).subscriptions)
  sent m hm := by
    unfold handleLogin LoggedIn at *
    obtain rfl := List.mem_singleton.mp hm
    rw [session_logIn, if_pos rfl]

/-- **What a packet can change**, whatever it holds. -/
theorem processPacket_ok {data : List UInt8} {r : Reporting}
    (h : processPacket clock fuel now fd data g = .ok (r, g')) : Processed fd data g r g' := by
  cases processPacket_answered h with
  | dropped hout hlogin hagree hbuffer =>
      exact ⟨hbuffer, fun fd' => (hagree.loggedIn fd').trans (or_iff_left fun h => hlogin h.2).symm,
        fun fd' hsub => .inl (hsub.congr hagree.subscriptions), by simp⟩
  | unknown hin => exact .of_sessions hin rfl (fun _ => .inl) (by simp)
  | login hlogin => exact handleLogin_processed hlogin g
  | newOrder hin => exact .of_engine hin rfl fun m hm => sent_reports hm
  | orderCancel hin =>
      refine .of_engine hin rfl fun m hm => ?_
      rcases List.mem_cons.mp hm with rfl | hm
      · exact .inl rfl
      · exact .inr (sent_broadcastMarketData hm)
  | noBook hin => exact .of_sessions hin rfl (fun _ => .inl) (by simp)
  | snapshot hin => exact .of_sessions hin rfl (fun _ => .inl) (by simp)
  | @subscription req behind hin =>
      refine .of_sessions hin rfl (fun fd' hsub => ?_) (by simp)
      obtain ⟨symbol, hmem⟩ := hsub
      dsimp only at hmem
      by_cases hsym : symbol = cleanSymbol (SubscriptionRequest.symbol req)
      · rw [hsym, AList.lookup_insert] at hmem
        exact (mem_subscribers hmem).imp_left fun hmem => ⟨_, hmem⟩
      · rw [AList.lookup_insert_ne hsym] at hmem
        exact .inl ⟨symbol, hmem⟩

/-! ### Connections that come and go -/

theorem lookup_eraseSubscriber (fd : Int) (subscriptions : AList fun _ : Symbol => List Int)
    (symbol : Symbol) : (eraseSubscriber fd subscriptions).lookup symbol =
      (subscriptions.lookup symbol).map fun fds => fds.filter (· ≠ fd) := by
  refine Option.ext fun fds => ?_
  rw [← Option.mem_def, AList.mem_lookup_iff, ← Option.mem_def, Option.mem_map]
  simp only [AList.mem_lookup_iff, eraseSubscriber, List.mem_map]
  constructor
  · rintro ⟨⟨symbol', fds'⟩, hmem, heq⟩
    obtain ⟨rfl, hfds⟩ := Sigma.mk.inj heq
    exact ⟨fds', hmem, eq_of_heq hfds⟩
  · rintro ⟨fds', hmem, rfl⟩
    exact ⟨⟨symbol, fds'⟩, hmem, rfl⟩

/-- A client who leaves is subscribed to nothing any more. -/
theorem subscribed_onDisconnection (h : (g.onDisconnection fd).Subscribed fd') :
    fd' ≠ fd ∧ g.Subscribed fd' := by
  obtain ⟨symbol, hmem⟩ := h
  unfold onDisconnection at hmem
  dsimp only at hmem
  rw [lookup_eraseSubscriber] at hmem
  rcases hl : g.marketDataSubscriptions.lookup symbol with _ | fds
  · simp [hl] at hmem
  · rw [hl] at hmem
    obtain ⟨hfds, hne⟩ := List.mem_filter.mp hmem
    exact ⟨by simpa using hne, symbol, by rwa [hl]⟩

theorem eraseSubscriber_of_not_subscribed (h : ¬ g.Subscribed fd) :
    eraseSubscriber fd g.marketDataSubscriptions = g.marketDataSubscriptions := by
  refine AList.ext ?_
  show g.marketDataSubscriptions.entries.map _ = g.marketDataSubscriptions.entries
  refine (List.map_congr_left fun entry hmem => ?_).trans (List.map_id _)
  have hout : fd ∉ entry.2 := fun hfd =>
    h ⟨entry.1, by rw [AList.mem_lookup_iff.mpr hmem]; exact hfd⟩
  have hall : ∀ fd' ∈ entry.2, decide (fd' ≠ fd) = true := by
    intro fd' hfd'
    rw [decide_eq_true_iff]
    exact fun heq => hout (heq ▸ hfd')
  rw [List.filter_eq_self.mpr hall]
  rfl

theorem loggedIn_onConnection (fd : Int) (g : ClientGateway) (fd' : Int) :
    (g.onConnection fd).LoggedIn fd' ↔ fd' ≠ fd ∧ g.LoggedIn fd' := by
  unfold LoggedIn
  rw [session_onConnection]
  by_cases hfd : fd' = fd <;> simp [hfd]

theorem loggedIn_onDisconnection (fd : Int) (g : ClientGateway) (fd' : Int) :
    (g.onDisconnection fd).LoggedIn fd' ↔ fd' ≠ fd ∧ g.LoggedIn fd' := by
  unfold LoggedIn
  rw [session_onDisconnection]
  by_cases hfd : fd' = fd <;> simp [hfd]

theorem Agree.onConnection (h : Agree g g') (fd : Int) :
    Agree (g.onConnection fd) (g'.onConnection fd) := by
  refine ⟨h.engine, h.subscriptions, h.logOpen, h.eventLog, fun fd' => ?_⟩
  rw [loggedIn_onConnection, loggedIn_onConnection, h.loggedIn]

theorem Agree.of_onConnection (hout : ¬ g.LoggedIn fd) : Agree (g.onConnection fd) g := by
  refine ⟨rfl, rfl, rfl, rfl, fun fd' => ?_⟩
  rw [loggedIn_onConnection]
  exact and_iff_right_of_imp fun hin hfd => hout (hfd ▸ hin)

theorem Agree.onDisconnection (h : Agree g g') (fd : Int) :
    Agree (g.onDisconnection fd) (g'.onDisconnection fd) := by
  refine ⟨h.engine, ?_, h.logOpen, h.eventLog, fun fd' => ?_⟩
  · exact congrArg (eraseSubscriber fd) h.subscriptions
  · rw [loggedIn_onDisconnection, loggedIn_onDisconnection, h.loggedIn]

theorem Agree.of_onDisconnection (hout : ¬ g.LoggedIn fd) (hsub : ¬ g.Subscribed fd) :
    Agree (g.onDisconnection fd) g := by
  refine ⟨rfl, eraseSubscriber_of_not_subscribed hsub, rfl, rfl, fun fd' => ?_⟩
  rw [loggedIn_onDisconnection]
  exact and_iff_right_of_imp fun hin hfd => hout (hfd ▸ hin)

end ClientGateway

end OrderMatchingEngine
