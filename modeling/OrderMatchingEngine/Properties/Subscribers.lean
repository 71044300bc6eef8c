import OrderMatchingEngine.Properties.Anonymous
import OrderMatchingEngine.Refinement.Feeds

/-!
# OrderMatchingEngine.Properties.Subscribers

Market data reaches exactly the current subscribers.

The packets of a connection say what its client has asked for (`Wants`), and the gateway's maps
agree with them after every happening (`Kept`). So a broadcast is one message to each client who
wants it and none to any other, and a descriptor that is in use again starts with nothing
(`broadcasts_reach_subscribers`). Every run of the server's events is such a run of packets
(`run_alongside`).
-/

namespace OrderMatchingEngine

namespace ClientGateway

open Fallible (Rel)

/-! ### Runs of the server, packet by packet -/

section Runs

variable {clock : Nat → Timestamp} {fuel : Nat} {now : Nat → Nat → Timestamp} {fd : Int}
  {g g' gp : ClientGateway} {p q : Progress} {tr : List (Happening × Reporting)}
  {isOpen : Int → Bool} {past events : List Event} {hist : List Happening} {data : List UInt8}

/-- A run, packet by packet, that does what has led to this progress. -/
structure Follows (clock : Nat → Timestamp) (gp : ClientGateway)
    (tr : List (Happening × Reporting)) (g' : ClientGateway) (p : Progress) : Prop where
  run : Trace.Run (Happens clock) gp tr g'
  agree : Agree g' p.gateway
  sent : tr.flatMap (·.2.sent) = p.sent
  fault : ∀ x ∈ tr, x.2.fault = none

theorem Follows.nil (h : Agree gp g) : Follows clock gp [] gp ⟨g, [], []⟩ := ⟨.nil, h, rfl, by simp⟩

/-- What came before is put in front. -/
theorem Follows.append {g₁ : ClientGateway} {tr' : List (Happening × Reporting)}
    (h : Follows clock gp tr g₁ p) (h' : Follows clock g₁ tr' g' q) :
    Follows clock gp (tr ++ tr') g' ⟨q.gateway, p.handed ++ q.handed, p.sent ++ q.sent⟩ where
  run := h.run.append h'.run
  agree := h'.agree
  sent := by rw [List.flatMap_append, h.sent, h'.sent]
  fault x hx := (List.mem_append.mp hx).elim (h.fault x) (h'.fault x)

/-- Packets of one client, as happenings. -/
def asHappenings (fd : Int) (taken : List ((Nat → Timestamp) × List UInt8)) : List Happening :=
  taken.map fun x => .packet fd x.1 x.2

/-- One more packet is taken off the buffer. -/
theorem Follows.packet (h : Follows clock gp tr g' p) {msgData : List UInt8}
    (htake : takePacket clock fuel now fd p msgData = .ok q) :
    ∃ r g'', Follows clock gp (tr ++ [(.packet fd (now p.handed.length) msgData, r)]) g'' q := by
  obtain ⟨r, g₁, hp, hfault, rfl⟩ := takePacket_ok htake
  have hsame : Rel Eq SameAnswer
      (processPacket clock fuel (now p.handed.length) fd msgData p.gateway)
      (processPacket clock fuel (now p.handed.length) fd msgData g') :=
    processPacket_agree h.agree.symm msgData
  rw [hp] at hsame
  obtain ⟨⟨r', g''⟩, hp', hr, hagree⟩ := hsame.of_ok
  obtain rfl : r = r' := hr
  refine ⟨r, g'', h.run.snoc ⟨fuel, hp'⟩, ?_, ?_, ?_⟩
  · exact hagree.symm.trans (Agree.of_setBuffer fd _ g₁).symm
  · rw [List.flatMap_append, h.sent]
    simp
  · intro x hx
    rcases List.mem_append.mp hx with hx | hx
    · exact h.fault x hx
    · rw [List.mem_singleton.mp hx]
      exact hfault

/-- **A message is the packets it completes.** -/
theorem follows_onMessage (hagree : Agree gp g)
    (h : g.onMessage clock fuel now fd data = .ok p) :
    ∃ tr g' taken, Follows clock gp tr g' p ∧ tr.map Prod.fst = asHappenings fd taken ∧
      taken.map Prod.snd = p.handed := by
  rw [onMessage_eq] at h
  refine Fallible.foldlM_invariant
    (fun _ p => ∃ tr g' taken, Follows clock gp tr g' p ∧ tr.map Prod.fst = asHappenings fd taken ∧
      taken.map Prod.snd = p.handed) ?_ ?_ h
  · rintro _ msgData p q ⟨tr, g', taken, hfollows, hfst, hsnd⟩ htake
    obtain ⟨r, g'', hmore⟩ := hfollows.packet htake
    obtain ⟨_, _, -, -, rfl⟩ := takePacket_ok htake
    refine ⟨_, g'', taken ++ [(now p.handed.length, msgData)], hmore, ?_, ?_⟩
    · simp [asHappenings, hfst]
    · simp [hsnd]
  · exact ⟨[], gp, [], .nil (hagree.trans (Agree.of_setBuffer fd _ g).symm), rfl, rfl⟩

theorem inUse_packets (hist : List Happening) (fd : Int)
    (taken : List ((Nat → Timestamp) × List UInt8)) :
    inUse (hist ++ asHappenings fd taken) = inUse hist := by
  induction taken using List.reverseRecOn with
  | nil => rw [asHappenings, List.map_nil, List.append_nil]
  | append_singleton taken x ih =>
      rw [asHappenings, List.map_append, ← List.append_assoc]
      exact (inUse_snoc _ _).trans ih

theorem InOrder.packets (h : InOrder hist) (hopen : inUse hist fd = true)
    (taken : List ((Nat → Timestamp) × List UInt8)) : InOrder (hist ++ asHappenings fd taken) := by
  induction taken using List.reverseRecOn with
  | nil => rwa [asHappenings, List.map_nil, List.append_nil]
  | append_singleton taken x ih =>
      rw [asHappenings, List.map_append, ← List.append_assoc]
      refine ih.snoc ?_
      show inUse (hist ++ asHappenings fd taken) fd = true
      rwa [inUse_packets]

theorem packetsOf_packets (hist : List Happening) (fd fd' : Int)
    (taken : List ((Nat → Timestamp) × List UInt8)) :
    packetsOf fd' (hist ++ asHappenings fd taken) =
      if fd = fd' then packetsOf fd' hist ++ taken.map Prod.snd else packetsOf fd' hist := by
  induction taken using List.reverseRecOn with
  | nil => simp [asHappenings]
  | append_singleton taken x ih =>
      rw [asHappenings, List.map_append, ← List.append_assoc]
      refine (packetsOf_snoc _ _ _).trans ?_
      show (if fd = fd' then packetsOf fd' (hist ++ asHappenings fd taken) ++ [x.2] else
        packetsOf fd' (hist ++ asHappenings fd taken)) = _
      rw [ih]
      split <;> simp

/-- A run of events, and the happenings it has led to: the same descriptors are in use, and the
packets of a connection are those in the bytes that came in on it. -/
structure Alongside (isOpen : Int → Bool) (past : List Event) (hist : List Happening)
    (gp g : ClientGateway) : Prop where
  inUse : inUse hist = isOpen
  order : InOrder hist
  agree : Agree gp g
  handed : ∀ fd, packetsOf fd hist = packets.frames (received fd past)
  buffer : ∀ fd, g.buffer fd = packets.rest (received fd past)

namespace Alongside

/-- A descriptor that is connected or disconnected has nothing any more. -/
theorem cleared (h : Alongside isOpen past hist gp g) (fd fd' : Int) :
    (if fd = fd' then [] else packetsOf fd' hist) =
        packets.frames (if fd' = fd then [] else received fd' past) ∧
      (if fd' = fd then [] else g.buffer fd') =
        packets.rest (if fd' = fd then [] else received fd' past) := by
  by_cases hfd : fd' = fd
  · rw [if_pos hfd.symm, if_pos hfd, if_pos hfd, packets.frames_none packets_size_nil,
      packets.rest_none packets_size_nil]
    exact ⟨rfl, rfl⟩
  · rw [if_neg (Ne.symm hfd), if_neg hfd, if_neg hfd]
    exact ⟨h.handed fd', h.buffer fd'⟩

theorem connection (h : Alongside isOpen past hist gp g) (hfree : isOpen fd = false) :
    Alongside (Function.update isOpen fd true) (past ++ [.connection fd])
      (hist ++ [.connection fd]) (gp.onConnection fd) (g.onConnection fd) where
  inUse := by rw [inUse_snoc, h.inUse, openAfter]
  order := h.order.snoc (by rw [h.inUse]; exact hfree)
  agree := h.agree.onConnection fd
  handed fd' := by
    rw [packetsOf_snoc, received_snoc]
    exact (h.cleared fd fd').1
  buffer fd' := by
    rw [buffer_onConnection, received_snoc]
    exact (h.cleared fd fd').2

theorem disconnection (h : Alongside isOpen past hist gp g) (hopen : isOpen fd = true) :
    Alongside (Function.update isOpen fd false) (past ++ [.disconnection fd])
      (hist ++ [.disconnection fd]) (gp.onDisconnection fd) (g.onDisconnection fd) where
  inUse := by rw [inUse_snoc, h.inUse, openAfter]
  order := h.order.snoc (by rw [h.inUse]; exact hopen)
  agree := h.agree.onDisconnection fd
  handed fd' := by
    rw [packetsOf_snoc, received_snoc]
    exact (h.cleared fd fd').1
  buffer fd' := by
    rw [buffer_onDisconnection, received_snoc]
    exact (h.cleared fd fd').2

/-- A message: the new bytes complete the packets that are handed over now. -/
theorem message (h : Alongside isOpen past hist gp g) (hopen : isOpen fd = true)
    (hp : g.onMessage clock fuel now fd data = .ok p) :
    ∃ tr g', Follows clock gp tr g' p ∧
      Alongside isOpen (past ++ [.message fd now data]) (hist ++ tr.map Prod.fst) g' p.gateway := by
  obtain ⟨tr, g', taken, hfollows, hfst, hsnd⟩ := follows_onMessage h.agree hp
  obtain ⟨hhanded, hrest, hserved, -⟩ := onMessage_ok hp
  refine ⟨tr, g', hfollows, ?_⟩
  rw [hfst]
  refine ⟨?_, ?_, hfollows.agree, fun fd' => ?_, fun fd' => ?_⟩
  · rw [inUse_packets, h.inUse]
  · refine h.order.packets ?_ taken
    rwa [h.inUse]
  · rw [packetsOf_packets, hsnd, hhanded, received_snoc, receive, h.handed, h.buffer]
    by_cases hfd : fd = fd'
    · subst hfd
      rw [if_pos rfl, if_pos rfl, packets.frames_append (received fd past) data]
    · rw [if_neg hfd, if_neg (Ne.symm hfd)]
  · rw [received_snoc, receive]
    by_cases hfd : fd' = fd
    · subst hfd
      rw [if_pos rfl, hrest, h.buffer, ← packets.rest_append]
    · rw [if_neg hfd, hserved.buffer fd' hfd, h.buffer]

end Alongside

/-- **Every run of events is a run of happenings** that sends the same messages. -/
theorem run_alongside (h : Alongside isOpen past hist gp g) (hevents : Delivered isOpen events)
    (hp : g.run clock fuel events = .ok p) :
    ∃ tr g' isOpen', Follows clock gp tr g' p ∧
      Alongside isOpen' (past ++ events) (hist ++ tr.map Prod.fst) g' p.gateway := by
  induction events generalizing isOpen past hist gp g p with
  | nil =>
      obtain rfl := Except.ok.inj hp
      refine ⟨[], gp, isOpen, .nil h.agree, ?_⟩
      rw [List.map_nil, List.append_nil, List.append_nil]
      exact h
  | cons event events ih =>
      -- what the event does comes first, and the rest is a run from there
      have hrest : ∀ (q : Progress) (tr : List (Happening × Reporting)) (g₁ : ClientGateway)
          (isOpen₁ : Int → Bool), g.deliver clock fuel event = .ok q → Follows clock gp tr g₁ q →
          Alongside isOpen₁ (past ++ [event]) (hist ++ tr.map Prod.fst) g₁ q.gateway →
          Delivered isOpen₁ events → ∃ tr g' isOpen', Follows clock gp tr g' p ∧
            Alongside isOpen' (past ++ event :: events) (hist ++ tr.map Prod.fst) g' p.gateway := by
        intro q tr g₁ isOpen₁ hq hfollows halong hlater
        rw [run_cons, hq] at hp
        obtain ⟨q', hq', rfl⟩ := andThen_ok hp
        obtain ⟨tr', g', isOpen', hfollows', halong'⟩ := ih halong hlater hq'
        refine ⟨tr ++ tr', g', isOpen', hfollows.append hfollows', ?_⟩
        rw [List.map_append, ← List.append_assoc, List.append_cons]
        exact halong'
      cases event with
      | connection fd =>
          obtain ⟨hfree, hlater⟩ := hevents
          have halong := h.connection hfree
          exact hrest _ [(.connection fd, {})] _ _ rfl
            ⟨Trace.Run.nil.snoc ⟨0, rfl⟩, halong.agree, rfl, by simp⟩ halong hlater
      | message fd now data =>
          obtain ⟨hopen, hlater⟩ := hevents
          rw [run_cons] at hp
          cases hq : g.onMessage clock fuel now fd data with
          | error crash => simp [deliver, hq] at hp
          | ok q =>
              obtain ⟨tr, g₁, hfollows, halong⟩ := h.message hopen hq
              exact hrest q tr g₁ _ hq hfollows halong hlater
      | disconnection fd =>
          obtain ⟨hopen, hlater⟩ := hevents
          have halong := h.disconnection hopen
          exact hrest _ [(.disconnection fd, {})] _ _ rfl
            ⟨Trace.Run.nil.snoc ⟨0, rfl⟩, halong.agree, rfl, by simp⟩ halong hlater

end Runs

/-! ### Broadcasts -/

section Broadcasts

variable {clock : Nat → Timestamp} {g g' g₀ : ClientGateway} {hist : List Happening} {fd : Int}
  {symbol : Symbol} {i : Happening} {r : Reporting}

theorem Kept.mem_receivers (h : Kept hist g) : fd ∈ g.receivers symbol ↔ Wants fd symbol hist := by
  rw [ClientGateway.mem_receivers, h.subscribed, h.loggedIn]
  exact and_comm

/-- A connection has asked for nothing when it begins. -/
theorem not_wants_connection (hist : List Happening) (fd : Int) (symbol : Symbol) :
    ¬ Wants fd symbol (hist ++ [.connection fd]) := by
  rintro ⟨hin, -⟩
  rw [packetsOf_snoc, packetsAfter, if_pos rfl] at hin
  simp [LogsIn] at hin

/-- **Broadcasts of this state reach exactly the clients who want them**, one message each; and a
descriptor that is not in use is subscribed to nothing when a client connects on it. -/
structure ReachesSubscribers (hist : List Happening) (g : ClientGateway) : Prop where
  trade : ∀ fd timestamp (t : Trade Int), messagesTo fd (g.broadcastTradeUpdate timestamp t) =
    if Wants fd t.symbol hist then [.tradeUpdate (tradeUpdateOf timestamp t)] else []
  book : ∀ fd symbol book, g.engine.getOrderBook symbol = some book →
    ∃ snapshot, g.snapshot? symbol = some snapshot ∧
      messagesTo fd (g.broadcastMarketData symbol) =
        if Wants fd symbol hist then [.marketDataSnapshot snapshot] else []
  fresh : ∀ fd, inUse hist fd = false → ¬ (g.onConnection fd).Subscribed fd ∧
    ∀ symbol, ¬ Wants fd symbol (hist ++ [.connection fd])

theorem Kept.reachesSubscribers (h : Kept hist g) : ReachesSubscribers hist g where
  trade fd timestamp t := by
    rw [messagesTo_broadcastTradeUpdate h.nodup]
    exact if_congr h.mem_receivers rfl rfl
  book fd symbol book hbook := by
    have hsnapshot : ∃ snapshot, g.snapshot? symbol = some snapshot := by
      rw [snapshot?, hbook]
      exact ⟨_, rfl⟩
    obtain ⟨snapshot, hsnapshot⟩ := hsnapshot
    refine ⟨snapshot, hsnapshot, ?_⟩
    rw [messagesTo_broadcastMarketData h.nodup, hsnapshot]
    exact if_congr h.mem_receivers rfl rfl
  fresh fd hfree := by
    refine ⟨?_, not_wants_connection hist fd⟩
    rintro ⟨symbol, hmem⟩
    have hlast := (h.subscribed fd symbol).mp hmem
    rw [h.closed fd hfree] at hlast
    simp [wishes] at hlast

/-- A message of market data is a broadcast in this state, or answers a market data request. -/
def FromBroadcast (g : ClientGateway) (i : Happening) (m : Sent) : Prop :=
  match m.message with
  | .tradeUpdate _ => ∃ timestamp t, m ∈ g.broadcastTradeUpdate timestamp t
  | .marketDataSnapshot _ => (∃ symbol, m ∈ g.broadcastMarketData symbol) ∨
      ∃ now data, i = .packet m.fd now data ∧ requestType? data = some .marketDataRequest
  | _ => True

theorem fromBroadcast_marketData {m : Sent} (h : m ∈ g.broadcastMarketData symbol) :
    FromBroadcast g i m := by
  have hmem := h
  unfold broadcastMarketData at hmem
  split at hmem
  · simp at hmem
  · obtain ⟨fd, -, rfl⟩ := List.mem_map.mp hmem
    exact .inl ⟨symbol, h⟩

/-- **All market data is broadcast from the state the happening leads to.** -/
theorem happens_fromBroadcast (h : Happens clock g i r g') :
    ∀ m ∈ r.sent, FromBroadcast g' i m := by
  obtain ⟨fuel, h⟩ := h
  intro m hm
  cases i with
  | connection fd =>
      obtain ⟨rfl, -⟩ := Prod.mk.inj (Except.ok.inj h)
      simp at hm
  | disconnection fd =>
      obtain ⟨rfl, -⟩ := Prod.mk.inj (Except.ok.inj h)
      simp at hm
  | packet fd now data =>
      cases processPacket_answered h with
      | dropped | unknown | noBook | subscription => simp at hm
      | login =>
          obtain rfl := List.mem_singleton.mp hm
          trivial
      | newOrder =>
          rcases mem_reports hm with rfl | ⟨t, -, ⟨_, rfl⟩ | ⟨_, _, rfl⟩ | ⟨timestamp, h⟩⟩ | h
          · trivial
          · trivial
          · trivial
          · obtain ⟨fd', -, rfl⟩ := List.mem_map.mp h
            exact ⟨timestamp, t, h⟩
          · exact fromBroadcast_marketData h
      | orderCancel =>
          rcases List.mem_cons.mp hm with rfl | hm
          · trivial
          · exact fromBroadcast_marketData hm
      | snapshot _ htype =>
          obtain rfl := List.mem_singleton.mp hm
          exact .inr ⟨now, data, rfl, htype⟩

/-- **Market data reaches exactly the current subscribers.** In every state of a run of packets a
broadcast is one message to each client whose connection has logged in and whose latest request
for the symbol since then is to subscribe, and none to others; no subscription outlives its
connection. The market data of a run are such broadcasts, and every run of the server's events is
such a run: its packets are those in the bytes that came in. -/
theorem broadcasts_reach_subscribers (clock : Nat → Timestamp) (h₀ : Idle g₀) :
    (∀ tr g, Trace.Run (Happens clock) g₀ tr g → InOrder (tr.map Prod.fst) →
      ReachesSubscribers (tr.map Prod.fst) g ∧
      ∀ i r g', Happens clock g i r g' → ∀ m ∈ r.sent, FromBroadcast g' i m) ∧
    ∀ fuel events p, g₀.run clock fuel events = .ok p → Delivered (fun _ => false) events →
      ∃ tr g, Follows clock g₀ tr g p ∧ InOrder (tr.map Prod.fst) ∧
        ∀ fd, packetsOf fd (tr.map Prod.fst) = packets.frames (received fd events) := by
  refine ⟨fun tr g hrun horder => ⟨?_, fun _ _ _ => happens_fromBroadcast⟩,
    fun fuel events p hp hevents => ?_⟩
  · exact (kept_of_run h₀ hrun horder).reachesSubscribers
  · have hstart : Alongside (fun _ => false) [] [] g₀ g₀ :=
      ⟨rfl, .nil, .refl g₀, fun _ => (packets.frames_none packets_size_nil).symm, fun fd => by
        rw [ClientGateway.buffer, h₀.session]
        exact (packets.rest_none packets_size_nil).symm⟩
    obtain ⟨tr, g, _, hfollows, halong⟩ := run_alongside hstart hevents hp
    exact ⟨tr, g, hfollows, halong.order, halong.handed⟩

end Broadcasts

/-! ### A concrete run -/

/-- A client on 4 logs in and subscribes to `A`, and leaves; the next one on 4 logs in. -/
def twoClients : List Event :=
  [.connection 4, .message 4 (fun _ _ => 0)
      ([0, 0, 76, 5, 0] ++ [0, 0, 81, 16, 0, 65, 0, 0, 0, 0, 0, 0, 0, 0, 0, 1]),
    .disconnection 4, .connection 4, .message 4 (fun _ _ => 0) [0, 0, 76, 5, 0]]

theorem delivered_twoClients : Delivered (fun _ => false) twoClients :=
  ⟨rfl, rfl, rfl, rfl, rfl, trivial⟩

/-- Five lots of `A` at 100. -/
def tradeOfA : Trade Int := ⟨1, 7, 2, 8, [65], .num 100, 5, 0⟩

/-- The first client is told of a trade in `A`; the second one has inherited nothing. -/
theorem broadcasts_reach_subscribers_twoClients :
    (∃ p, started.run (fun _ => 0) 10 (twoClients.take 2) = .ok p ∧
      messagesTo 4 (p.gateway.broadcastTradeUpdate 0 tradeOfA) =
        [.tradeUpdate (tradeUpdateOf 0 tradeOfA)]) ∧
      ∃ p, started.run (fun _ => 0) 10 twoClients = .ok p ∧
        messagesTo 4 (p.gateway.broadcastTradeUpdate 0 tradeOfA) = [] := by
  obtain ⟨hreach, hruns⟩ := broadcasts_reach_subscribers (fun _ => 0) idle_started
  have hfeed : ∀ events p, started.run (fun _ => 0) 10 events = .ok p →
      Delivered (fun _ => false) events →
      messagesTo 4 (p.gateway.broadcastTradeUpdate 0 tradeOfA) =
        if LogsIn (packets.frames (received 4 events)) ∧
            (wishes [65] (packets.frames (received 4 events))).getLast? = some true then
          [.tradeUpdate (tradeUpdateOf 0 tradeOfA)] else [] := by
    intro events p hp hevents
    obtain ⟨tr, g, hfollows, horder, hpackets⟩ := hruns 10 events p hp hevents
    have htrade := (hreach tr g hfollows.run horder).1.trade 4 0 tradeOfA
    rw [hfollows.agree.broadcastTradeUpdate] at htrade
    refine htrade.trans (if_congr ?_ rfl rfl)
    unfold Wants
    rw [hpackets]
    exact Iff.rfl
  refine ⟨⟨_, rfl, (hfeed (twoClients.take 2) _ rfl ⟨rfl, rfl, trivial⟩).trans (if_pos ?_)⟩,
    ⟨_, rfl, (hfeed twoClients _ rfl delivered_twoClients).trans (if_neg ?_)⟩⟩
  · decide
  · decide

end ClientGateway

end OrderMatchingEngine
