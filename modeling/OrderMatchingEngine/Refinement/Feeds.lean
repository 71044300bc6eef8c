import OrderMatchingEngine.Refinement.Quotes
import OrderMatchingEngine.Refinement.Subscriptions

/-!
# OrderMatchingEngine.Refinement.Feeds

The messages that one client is sent, and the market data among them.

A broadcast is one message to each of its receivers (`messagesTo_broadcast...`). So the trade
updates that an order makes for a client are about the trades in symbols the client is subscribed
to, in order and the snapshot behind them is that of the book it left (`feed_reports`).
-/

namespace OrderMatchingEngine

/-! ### Messages to a client -/

/-- What an update says about a trade: its symbol, price and quantity. -/
def TradeUpdate.content (msg : TradeUpdate) : List UInt8 × Price Int × Quantity :=
  (msg.symbol, msg.price, msg.quantity)

/-- What an update about this trade says. -/
def Trade.content (t : Trade Int) : List UInt8 × Price Int × Quantity :=
  (strncpy t.symbol 9, t.price, t.quantity)

namespace ClientGateway

/-- The messages to a client, in order. -/
def messagesTo (fd : Int) (sent : List Sent) : List Message :=
  (sent.filter (·.fd = fd)).map (·.message)

/-- The trade updates among messages. -/
def tradeUpdates (messages : List Message) : List TradeUpdate :=
  messages.filterMap fun
    | .tradeUpdate msg => some msg
    | _ => none

/-- The snapshots among messages. -/
def snapshots (messages : List Message) : List MarketDataSnapshot :=
  messages.filterMap fun
    | .marketDataSnapshot snapshot => some snapshot
    | _ => none

/-- The update about a trade. -/
def tradeUpdateOf (timestamp : Timestamp) (t : Trade Int) : TradeUpdate :=
  { symbol := strncpy t.symbol 9
    price := t.price
    quantity := t.quantity
    timestamp := timestamp
    makeSide := 0 }

section Messages

variable {now : Nat → Timestamp} {g : ClientGateway} {fd client : Int} {req : NewOrderRequest}
  {behind : List UInt8}

theorem messagesTo_append (fd : Int) (sent sent' : List Sent) :
    messagesTo fd (sent ++ sent') = messagesTo fd sent ++ messagesTo fd sent' := by
  rw [messagesTo, List.filter_append, List.map_append, messagesTo, messagesTo]

@[simp] theorem messagesTo_nil (fd : Int) : messagesTo fd [] = [] := rfl

theorem tradeUpdates_append (messages messages' : List Message) :
    tradeUpdates (messages ++ messages') = tradeUpdates messages ++ tradeUpdates messages' :=
  List.filterMap_append

theorem snapshots_append (messages messages' : List Message) :
    snapshots (messages ++ messages') = snapshots messages ++ snapshots messages' :=
  List.filterMap_append

/-- The same message to each of some clients. -/
theorem messagesTo_map {fds : List Int} (h : fds.Nodup) (fd : Int) (message : Message) :
    messagesTo fd (fds.map fun fd' => ⟨fd', message⟩) = if fd ∈ fds then [message] else [] := by
  induction fds with
  | nil => rfl
  | cons fd' fds ih =>
      obtain ⟨hnot, hnodup⟩ := List.nodup_cons.mp h
      have hhead : messagesTo fd [⟨fd', message⟩] = if fd = fd' then [message] else [] := by
        by_cases heq : fd = fd'
        · simp [messagesTo, heq]
        · simp [messagesTo, heq, Ne.symm heq]
      show messagesTo fd ([⟨fd', message⟩] ++ fds.map fun fd' => ⟨fd', message⟩) = _
      rw [messagesTo_append, hhead, ih hnodup]
      by_cases heq : fd = fd'
      · subst heq
        simp [hnot]
      · simp [heq]

/-- An execution report is no market data. -/
theorem marketData_report (fd client : Int) (report : ExecutionReport) (sent : List Sent) :
    tradeUpdates (messagesTo fd (⟨client, .executionReport report⟩ :: sent)) =
        tradeUpdates (messagesTo fd sent) ∧
      snapshots (messagesTo fd (⟨client, .executionReport report⟩ :: sent)) =
        snapshots (messagesTo fd sent) := by
  unfold messagesTo
  rw [List.filter_cons]
  split <;> exact ⟨rfl, rfl⟩

theorem mem_receivers {symbol : Symbol} : fd ∈ g.receivers symbol ↔
    fd ∈ g.subscribersOf symbol ∧ g.LoggedIn fd := by
  show fd ∈ (g.subscribersOf symbol).filter _ ↔ _
  rw [List.mem_filter, any_loggedIn, decide_eq_true_iff]

/-- Nobody is subscribed to a symbol twice. -/
def Distinct (g : ClientGateway) : Prop := ∀ symbol, (g.subscribersOf symbol).Nodup

/-- **A broadcast of a trade** is one message to each receiver. -/
theorem messagesTo_broadcastTradeUpdate (h : g.Distinct) (fd : Int) (timestamp : Timestamp)
    (t : Trade Int) : messagesTo fd (g.broadcastTradeUpdate timestamp t) =
      if fd ∈ g.receivers t.symbol then [.tradeUpdate (tradeUpdateOf timestamp t)] else [] :=
  messagesTo_map ((h t.symbol).filter _) fd _

/-- **A broadcast of a book** is one message to each receiver, if there is a book. -/
theorem messagesTo_broadcastMarketData (h : g.Distinct) (fd : Int) (symbol : Symbol) :
    messagesTo fd (g.broadcastMarketData symbol) =
      match g.snapshot? symbol with
      | none => []
      | some snapshot =>
        if fd ∈ g.receivers symbol then [.marketDataSnapshot snapshot] else [] := by
  unfold broadcastMarketData
  cases g.snapshot? symbol with
  | none => rfl
  | some snapshot => exact messagesTo_map ((h symbol).filter _) fd _

theorem feed_broadcastTradeUpdate (h : g.Distinct) (fd : Int) (timestamp : Timestamp)
    (t : Trade Int) :
    (tradeUpdates (messagesTo fd (g.broadcastTradeUpdate timestamp t))).map (·.content) =
        (if fd ∈ g.receivers t.symbol then [t.content] else []) ∧
      snapshots (messagesTo fd (g.broadcastTradeUpdate timestamp t)) = [] := by
  rw [messagesTo_broadcastTradeUpdate h]
  split <;> exact ⟨rfl, rfl⟩

theorem feed_broadcastMarketData (h : g.Distinct) (fd : Int) (symbol : Symbol) :
    tradeUpdates (messagesTo fd (g.broadcastMarketData symbol)) = [] ∧
      snapshots (messagesTo fd (g.broadcastMarketData symbol)) =
        if fd ∈ g.receivers symbol then (g.snapshot? symbol).toList else [] := by
  rw [messagesTo_broadcastMarketData h]
  cases g.snapshot? symbol with
  | none =>
      refine ⟨rfl, ?_⟩
      rw [Option.toList_none, ite_self]
      rfl
  | some snapshot =>
      dsimp only
      split <;> exact ⟨rfl, rfl⟩

/-- The reports on trades, if they find a book: an update on each trade in a symbol that the client
receives. -/
theorem feed_reportTrades (h : g.Distinct) (now : Nat → Timestamp) (fd client : Int)
    {book : OrderBook Int} (hbook : reportingBook req behind g.engine = .ok book) (i : Nat)
    (order : Order Int) (trades : List (Trade Int)) :
    (tradeUpdates (messagesTo fd
        (reportTrades now req behind client g i order trades).sent)).map (·.content) =
        (trades.filter fun t => fd ∈ g.receivers t.symbol).map (·.content) ∧
      snapshots (messagesTo fd
        (reportTrades now req behind client g i order trades).sent) = [] := by
  induction trades generalizing i order with
  | nil => exact ⟨rfl, rfl⟩
  | cons t trades ih =>
      obtain ⟨hupdates, hsnapshots⟩ := ih (i + 1) (order.reduceQuantity t.quantity)
      obtain ⟨hupdate, hnone⟩ := feed_broadcastTradeUpdate h fd (now i) t
      rw [reportTrades, reportTrade_eq, hbook]
      simp only [Reporting.andThen, messagesTo_append, tradeUpdates_append, snapshots_append,
        List.map_append, (marketData_report fd client _ _).1, (marketData_report fd client _ _).2,
        hupdates, hsnapshots, hupdate, hnone, List.append_nil, and_true]
      rw [List.filter_cons]
      by_cases hfd : fd ∈ g.receivers t.symbol <;> simp [hfd]

/-- **The market data that an order makes for a client**, unless reporting dies: updates on the
trades in symbols that the client receives, and one snapshot of the symbol of the order. -/
theorem feed_reports (h : g.Distinct) (fd : Int) {trades : List (Trade Int)}
    (hfault : (reports now req behind client trades g).fault = none) :
    (tradeUpdates (messagesTo fd (reports now req behind client trades g).sent)).map (·.content) =
        (trades.filter fun t => fd ∈ g.receivers t.symbol).map (·.content) ∧
      snapshots (messagesTo fd (reports now req behind client trades g).sent) =
        if fd ∈ g.receivers req.order.symbol then
          (g.snapshot? req.order.symbol).toList else [] := by
  obtain ⟨hnone, hsnapshot⟩ := feed_broadcastMarketData h fd req.order.symbol
  rcases trades with _ | ⟨t, trades⟩
  · have hsent : (reports now req behind client [] g).sent =
        ⟨client, .executionReport (newReport req.order)⟩ ::
          g.broadcastMarketData req.order.symbol := rfl
    rw [hsent, (marketData_report fd client _ _).1, (marketData_report fd client _ _).2, hnone]
    exact ⟨rfl, hsnapshot⟩
  · obtain ⟨book, hbook⟩ : ∃ book, reportingBook req behind g.engine = .ok book :=
      ((reports_spec now req behind client (t :: trades) g).2.mp hfault).resolve_left (by simp)
    obtain ⟨hupdates, hempty⟩ :=
      feed_reportTrades h now fd client hbook 0 req.order (t :: trades)
    have hend := (reportTrades_ok now client hbook 0 req.order (t :: trades)).1
    rw [reports_trades now req behind client (List.cons_ne_nil t trades), Reporting.andThen, hend]
    simp only [messagesTo_append, tradeUpdates_append, snapshots_append, hupdates, hempty, hnone,
      hsnapshot, List.append_nil, List.nil_append, and_self]

end Messages

/-! ### What a happening tells -/

/-- The symbol of the request that is processed, if one is. -/
def Happening.symbol? : Happening → Option Symbol
  | .packet _ _ data => packetSymbol? data
  | _ => none

/-- A client who has logged in does not send an order that may be queued under the id of one resting
in its book. -/
def FreshHappening (g : ClientGateway) : Happening → Prop
  | .packet fd _ data => g.LoggedIn fd → requestType? data = some .newOrder →
      ∀ x ∈ Records.read? 49 data,
        g.engine.QueuesFresh (.processNewOrder (NewOrderRequest.order x.1))
  | _ => True

instance (g : ClientGateway) : (i : Happening) → Decidable (FreshHappening g i)
  | .packet fd _ data => inferInstanceAs (Decidable (g.LoggedIn fd →
      requestType? data = some .newOrder → ∀ x ∈ Records.read? 49 data, _))
  | .connection _ => inferInstanceAs (Decidable True)
  | .disconnection _ => inferInstanceAs (Decidable True)

/-- A happening that leaves the engine alone tells of no trade, and sends snapshots of the book as
it is. -/
structure Silent (g : ClientGateway) (i : Happening) (r : Reporting) (g' : ClientGateway) :
    Prop where
  engine : g'.engine = g.engine
  updates : ∀ fd, tradeUpdates (messagesTo fd r.sent) = []
  snapshots : ∀ fd symbol, i.symbol? = some symbol →
    ∀ snapshot ∈ snapshots (messagesTo fd r.sent), g'.snapshot? symbol = some snapshot

/-- A happening that may change the book of a symbol tells its subscribers of the trades, and then
shows them the book. -/
structure Told (symbol : Symbol) (trades : List (Trade Int)) (g : ClientGateway) (i : Happening)
    (r : Reporting) (g' : ClientGateway) : Prop where
  about : i.symbol? = some symbol
  frame : ∃ leaks, MatchingEngine.Frame symbol leaks trades g.engine g'.engine
  symbols : ∀ t ∈ trades, t.symbol = symbol
  keeps : ∀ book, g.engine.getOrderBook symbol = some book →
    ∃ book', g'.engine.getOrderBook symbol = some book'
  updates : ∀ fd, (tradeUpdates (messagesTo fd r.sent)).map (·.content) =
    (trades.filter fun t => fd ∈ g'.receivers t.symbol).map (·.content)
  snapshots : ∀ fd, snapshots (messagesTo fd r.sent) =
    if fd ∈ g'.receivers symbol then (g'.snapshot? symbol).toList else []

section Telling

variable {clock : Nat → Timestamp} {g g' : ClientGateway} {i : Happening} {r : Reporting}
  {req : NewOrderRequest} {data behind bytes : List UInt8}

/-- A happening that sends no market data. -/
theorem Silent.of_none (hengine : g'.engine = g.engine)
    (hnone : ∀ m ∈ r.sent, ∃ resp, m.message = .loginResponse resp) : Silent g i r g' := by
  have hlogins : ∀ fd, ∀ message ∈ messagesTo fd r.sent, ∃ resp, message = .loginResponse resp := by
    intro fd message hmem
    obtain ⟨m, hm, rfl⟩ := List.mem_map.mp hmem
    exact hnone m (List.mem_of_mem_filter hm)
  refine ⟨hengine, fun fd => ?_, fun fd symbol _ snapshot hmem => ?_⟩
  · refine List.filterMap_eq_nil_iff.mpr fun message hmem => ?_
    obtain ⟨resp, rfl⟩ := hlogins fd message hmem
    rfl
  · obtain ⟨message, hmessage, heq⟩ := List.mem_filterMap.mp hmem
    obtain ⟨resp, rfl⟩ := hlogins fd message hmessage
    simp at heq

/-- An order: its trades, then the book it leaves. -/
theorem Told.newOrder (now : Nat → Timestamp) (fd : Int) {engine : MatchingEngine Int}
    {out : Outcome Int} {fuel : Nat} (he : MatchingEngine.EngineInv g.engine)
    (hfresh : g.engine.QueuesFresh (.processNewOrder req.order))
    (htype : requestType? data = some .newOrder)
    (hread : Records.read? 49 data = some (req, behind))
    (hp : MatchingEngine.processOrder clock fuel req.order g.engine = .ok (out, engine))
    (hg : g' = { g.log bytes with engine := engine }) (hd : g'.Distinct)
    (hfault : (reports now req behind fd out.trades g').fault = none) :
    MatchingEngine.EngineInv g'.engine ∧ Told req.order.symbol out.trades g (.packet fd now data)
      (reports now req behind fd out.trades g') g' := by
  have hengine : g'.engine = engine := by rw [hg]
  have hreturns := MatchingEngine.Returns.process hp
  obtain ⟨he', hf, -⟩ := MatchingEngine.returns_spec he hfresh hreturns
  have hfeed := fun fd' => feed_reports hd fd' hfault
  refine ⟨hengine ▸ he', ?_, ?_, ?_, ?_, fun fd' => (hfeed fd').1, fun fd' => (hfeed fd').2⟩
  · rw [Happening.symbol?, packetSymbol?, htype, hread]
    rfl
  · rw [hengine]
    exact ⟨_, hf⟩
  · exact fun t ht => MatchingEngine.process_trade_symbol he hp ht
  · rw [hengine]
    exact fun book hbook => hreturns.keeps_book hbook

/-- A cancel: the book it leaves. -/
theorem Told.orderCancel (now : Nat → Timestamp) (fd : Int) {req : OrderCancelRequest}
    {engine : MatchingEngine Int} {x : Option (Order Int)} (he : MatchingEngine.EngineInv g.engine)
    (htype : requestType? data = some .orderCancel)
    (hread : Records.read? 32 data = some (req, behind))
    (hc : MatchingEngine.cancelOrder req.clientOrderId (cleanSymbol req.symbol) req.side.toNat
      g.engine = .ok (x, engine))
    (hg : g' = { g.log bytes with engine := engine }) (hd : g'.Distinct) :
    MatchingEngine.EngineInv g'.engine ∧
      Told (cleanSymbol req.symbol) [] g (.packet fd now data)
        { sent := ⟨fd, .executionReport (cancelReport req (cleanSymbol req.symbol) x)⟩ ::
          g'.broadcastMarketData (cleanSymbol req.symbol) } g' := by
  have hengine : g'.engine = engine := by rw [hg]
  have hreturns : MatchingEngine.Returns (fun _ => 0) g.engine
      (.cancelOrder req.clientOrderId (cleanSymbol req.symbol) req.side.toNat) (.cancelled x)
      engine := ⟨0, MatchingEngine.call_cancel.mpr ⟨x, hc, rfl⟩⟩
  obtain ⟨he', hf⟩ := MatchingEngine.cancelOrder_ok he hc
  refine ⟨hengine ▸ he', ?_, ?_, by simp, ?_, fun fd' => ?_, fun fd' => ?_⟩
  · rw [Happening.symbol?, packetSymbol?, htype, hread]
    rfl
  · rw [hengine]
    exact ⟨_, hf⟩
  · rw [hengine]
    exact fun book hbook => hreturns.keeps_book hbook
  · rw [(marketData_report fd' fd _ _).1, (feed_broadcastMarketData hd fd' _).1]
    rfl
  · rw [(marketData_report fd' fd _ _).2, (feed_broadcastMarketData hd fd' _).2]

/-- **What a happening does to the books is told**, and nothing else is. -/
theorem happens_told (he : MatchingEngine.EngineInv g.engine) (hd : g'.Distinct)
    (hfresh : g.FreshHappening i) (h : Happens clock g i r g') (hfault : r.fault = none) :
    MatchingEngine.EngineInv g'.engine ∧
      (Silent g i r g' ∨ ∃ symbol trades, Told symbol trades g i r g') := by
  -- a happening that keeps the engine and sends log-in responses at most
  have hsilent : g'.engine = g.engine → (∀ m ∈ r.sent, ∃ resp, m.message = .loginResponse resp) →
      MatchingEngine.EngineInv g'.engine ∧
        (Silent g i r g' ∨ ∃ symbol trades, Told symbol trades g i r g') :=
    fun hengine hnone => ⟨hengine ▸ he, .inl (.of_none hengine hnone)⟩
  obtain ⟨fuel, h⟩ := h
  cases i with
  | connection fd =>
      obtain ⟨rfl, rfl⟩ := Prod.mk.inj (Except.ok.inj h)
      exact hsilent rfl (by simp)
  | disconnection fd =>
      obtain ⟨rfl, rfl⟩ := Prod.mk.inj (Except.ok.inj h)
      exact hsilent rfl (by simp)
  | packet fd now data =>
      cases processPacket_answered h with
      | dropped _ _ hagree => exact hsilent hagree.engine (by simp)
      | unknown => exact hsilent rfl (by simp)
      | noBook => exact hsilent rfl (by simp)
      | subscription => exact hsilent rfl (by simp)
      | login =>
          refine hsilent (session_frame fd g).1 fun m hm => ?_
          exact ⟨loginResponse, by rw [List.mem_singleton.mp hm]⟩
      | newOrder hin htype hread hp =>
          have htold := Told.newOrder now fd he (hfresh hin htype _ hread) htype hread hp rfl hd
            hfault
          exact htold.imp_right fun htold => .inr ⟨_, _, htold⟩
      | orderCancel _ htype hread hc =>
          have htold := Told.orderCancel now fd he htype hread hc rfl hd
          exact htold.imp_right fun htold => .inr ⟨_, _, htold⟩
      | @snapshot req behind snapshot _ htype hread hsnapshot =>
          have hsent : ∀ fd', messagesTo fd' [⟨fd, Message.marketDataSnapshot snapshot⟩] =
              if fd = fd' then [.marketDataSnapshot snapshot] else [] := fun fd' => by
            by_cases hfd : fd = fd' <;> simp [messagesTo, hfd]
          refine ⟨he, .inl ⟨rfl, fun fd' => ?_, fun fd' symbol hsymbol snapshot' hmem => ?_⟩⟩
          · rw [hsent]
            split <;> rfl
          · rw [hsent] at hmem
            obtain rfl : snapshot' = snapshot := by
              split at hmem
              · exact List.mem_singleton.mp hmem
              · simp [snapshots] at hmem
            rw [Happening.symbol?, packetSymbol?, htype, hread] at hsymbol
            obtain rfl := Option.some.inj hsymbol
            exact hsnapshot

end Telling

end ClientGateway

end OrderMatchingEngine
