import OrderMatchingEngine.Properties.CurrentViews
import OrderMatchingEngine.Properties.Deframing
import OrderMatchingEngine.Properties.ExecutionStreams
import OrderMatchingEngine.Properties.MarketStreams
import OrderMatchingEngine.Properties.SnapshotDecoding
import OrderMatchingEngine.Refinement.Moments

/-!
# OrderMatchingEngine.Properties.ResponsePath

The whole way back: from the engine's books to the users of `gateway.py`.

The engine sends messages to the connection of the service, the socket drops some of them and cuts
the last, the stream arrives in pieces, the listener calls its handlers up to the first that raises,
and the threads of the service hand out what these have read (`ResponsePath`). What a call of
`StreamExecutions` yields in the end are reports that the engine sent of this user, field by field
and in order (`reports_reach_users`), and where all of them were handed on, they are with the calls
or in the user's queues (`reports_accounted`). What a call of `StreamMarketData` yields are books
that the engine had at moments of its run, in the order of these moments (`books_reach_users`).

All this is for any `trading_pb2`. With that of `proto/trading.proto` the listener ends at the first
report.
-/

namespace OrderMatchingEngine

open ClientGateway (Happening Happens messagesTo)
open GatewayService
open ShortWrites (Unbroken)
open TcpServer (outgoing)

/-- What a handler hands on. -/
inductive HandedOn
  | snapshot (view : TradingPb2.MarketDataSnapshot)
  | execution (report : Execution)
  deriving DecidableEq, Repr

/-- What the handler reads, if it does not return before or raise. -/
def GatewayService.HandlerCall.handled? (pb : TradingPb2) (call : HandlerCall) : Option HandedOn :=
  if call.raises pb then none
  else
    match call with
    | .handleSnapshot payload => (GatewayService.handleSnapshot payload).map .snapshot
    | .handleExecution payload => (readExecution payload).map .execution

/-- What the threads of the service begin to hand on in a step. -/
def GatewayThreads.Action.handled? {θ : Type} : GatewayThreads.Action θ → Option HandedOn
  | .handleSnapshot snapshot => some (.snapshot snapshot)
  | .handleExecution report => some (.execution report)
  | _ => none

/-- **The way back**, from when the service is connected. Of the engine's messages to the connection
the socket accepts what it likes, but nothing behind one that it has cut. The threads hand on what
the handlers read that the listener calls. -/
structure ResponsePath {θ : Type} [DecidableEq θ] (pb : TradingPb2) (clock : Nat → Timestamp)
    (g₀ : ClientGateway) (fd : Int) (engine : List (Happening × Reporting))
    (sent : List SentMessage)
    (tr : List (GatewayThreads.Action θ × GatewayThreads.Output θ)) (s : GatewayThreads θ) :
    Prop where
  run : ∃ g, Trace.Run (Happens clock) g₀ engine g
  messages : sent.map Prod.fst = messagesTo fd (engine.flatMap (·.2.sent))
  received : ∃ writes chunks, writes.map Write.packet = sent.map (fun m => m.1.bytes m.2) ∧
    Unbroken writes ∧ chunks.flatten <+: outgoing writes ∧
    (tr.filterMap fun x => x.1.handled?) <+:
      (callsMade (tcpListenerLoop (·.raises pb) chunks {})).filterMap (·.handled? pb)
  threads : GatewayThreads.Run tr s

/-! ### What the service makes of the messages -/

/-- What comes of a message. -/
def SentMessage.handled? (pb : TradingPb2) (m : SentMessage) : Option HandedOn :=
  (m.1.call? m.2).bind (·.handled? pb)

/-- What is handed on was read. -/
theorem GatewayService.HandlerCall.handled?_eq_some {pb : TradingPb2} {call : HandlerCall}
    {x : HandedOn} (h : call.handled? pb = some x) :
    (∃ payload view, call = .handleSnapshot payload ∧
      GatewayService.handleSnapshot payload = some view ∧ x = .snapshot view) ∨
    ∃ payload e, call = .handleExecution payload ∧ readExecution payload = some e ∧
      x = .execution e := by
  unfold handled? at h
  split at h
  · simp at h
  · cases call with
    | handleSnapshot payload =>
        obtain ⟨view, hread, rfl⟩ := Option.map_eq_some_iff.mp h
        exact .inl ⟨payload, view, rfl, hread, rfl⟩
    | handleExecution payload =>
        obtain ⟨e, hread, rfl⟩ := Option.map_eq_some_iff.mp h
        exact .inr ⟨payload, e, rfl, hread, rfl⟩

/-- The report in what is handed on. -/
def HandedOn.execution? : HandedOn → Option Execution
  | .execution report => some report
  | .snapshot _ => none

/-- A report that is handed on was taken by `trading_pb2`. -/
theorem takesReport_of_handled? {pb : TradingPb2} {call : HandlerCall} {e : Execution}
    (h : call.handled? pb = some (.execution e)) : pb.takesReport = true := by
  obtain ⟨_, _, -, -, hx⟩ | ⟨payload, e', rfl, hread, -⟩ := HandlerCall.handled?_eq_some h
  · exact HandedOn.noConfusion hx
  · have hlen : ¬ payload.length < 60 := fun hlt => by
      rw [readExecution, if_pos hlt] at hread
      simp at hread
    unfold HandlerCall.handled? at h
    by_contra hraises
    simp [HandlerCall.raises, hlen, hraises] at h

/-- The snapshot in it. -/
def HandedOn.snapshot? : HandedOn → Option TradingPb2.MarketDataSnapshot
  | .snapshot view => some view
  | .execution _ => none

variable {pb : TradingPb2}

/-- What is handed on was read in a report or in a snapshot. -/
theorem handled?_cases {m : SentMessage} {x : HandedOn} (h : m.handled? pb = some x) :
    (∃ (report : ExecutionReport) (e : Execution), m.1 = .executionReport report ∧
      readExecution ((report.bytes m.2).drop 5) = some e ∧ x = .execution e) ∨
    ∃ (snapshot : MarketDataSnapshot) (view : TradingPb2.MarketDataSnapshot),
      m.1 = .marketDataSnapshot snapshot ∧
        GatewayService.handleSnapshot ((snapshot.bytes m.2).drop 5) = some view ∧
        x = .snapshot view := by
  obtain ⟨message, junk⟩ := m
  obtain ⟨call, hcall, hx⟩ := Option.bind_eq_some_iff.mp h
  cases message with
  | executionReport report =>
      obtain rfl := Option.some.inj hcall
      obtain ⟨_, _, hcall, -⟩ | ⟨_, e, hcall, hread, rfl⟩ := HandlerCall.handled?_eq_some hx
      · exact HandlerCall.noConfusion hcall
      · obtain rfl := HandlerCall.handleExecution.inj hcall
        exact .inl ⟨report, e, rfl, hread, rfl⟩
  | marketDataSnapshot snapshot =>
      obtain rfl := Option.some.inj hcall
      obtain ⟨_, view, hcall, hread, rfl⟩ | ⟨_, _, hcall, -⟩ := HandlerCall.handled?_eq_some hx
      · obtain rfl := HandlerCall.handleSnapshot.inj hcall
        exact .inr ⟨snapshot, view, rfl, hread, rfl⟩
      · exact HandlerCall.noConfusion hcall
  | loginResponse => simp [Message.call?, Message.kind] at hcall
  | tradeUpdate => simp [Message.call?, Message.kind] at hcall

theorem handled?_execution {m : SentMessage} {e : Execution}
    (h : (m.handled? pb).bind HandedOn.execution? = some e) :
    ∃ report : ExecutionReport, m.1 = .executionReport report ∧
      readExecution ((report.bytes m.2).drop 5) = some e := by
  obtain ⟨x, hx, he⟩ := Option.bind_eq_some_iff.mp h
  rcases handled?_cases hx with ⟨report, e', hm, hread, rfl⟩ | ⟨snapshot, view, -, -, rfl⟩
  · obtain rfl := Option.some.inj he
    exact ⟨report, hm, hread⟩
  · simp [HandedOn.execution?] at he

theorem takesReport_of_execution {m : SentMessage} {e : Execution}
    (h : (m.handled? pb).bind HandedOn.execution? = some e) : pb.takesReport = true := by
  obtain ⟨x, hx, he⟩ := Option.bind_eq_some_iff.mp h
  obtain ⟨call, -, hcall⟩ := Option.bind_eq_some_iff.mp hx
  cases x with
  | snapshot view => simp [HandedOn.execution?] at he
  | execution e' => exact takesReport_of_handled? hcall

section Path

variable {θ : Type}

theorem handled_eq (tr : List (GatewayThreads.Action θ × GatewayThreads.Output θ)) :
    GatewayThreads.handled tr =
      (tr.filterMap fun x => x.1.handled?).filterMap HandedOn.execution? := by
  rw [GatewayThreads.handled, List.filterMap_filterMap, List.filterMap_eq_flatMap_toList]
  refine List.flatMap_congr fun x _ => ?_
  cases x.1 <;> rfl

variable [DecidableEq θ] {clock : Nat → Timestamp} {g₀ : ClientGateway} {fd : Int}
  {engine : List (Happening × Reporting)} {sent : List SentMessage}
  {tr : List (GatewayThreads.Action θ × GatewayThreads.Output θ)} {s : GatewayThreads θ}

theorem ResponsePath.shaped (h : ResponsePath pb clock g₀ fd engine sent tr s) :
    ∀ m ∈ sent, m.1.Shaped := fun m hm => by
  obtain ⟨g, hrun⟩ := h.run
  exact shaped_of_run hrun (h.messages ▸ List.mem_map_of_mem hm)

/-- **What the threads hand on** is what the handlers read in messages that were sent, each at most
once and in order. -/
theorem ResponsePath.came (h : ResponsePath pb clock g₀ fd engine sent tr s) :
    ∃ came : List SentMessage, came.Sublist sent ∧
      (tr.filterMap fun x => x.1.handled?) = came.filterMap (·.handled? pb) := by
  obtain ⟨writes, chunks, hpackets, hunbroken, hreceived, hhandled⟩ := h.received
  obtain ⟨whole, hsub, hfront⟩ := hunbroken.whole
  rw [hpackets] at hsub
  obtain ⟨whole, hwhole, rfl⟩ := List.sublist_map_iff.mp hsub
  have hframed : ∀ m ∈ whole, m.1.Framed m.2 := fun m hm =>
    (h.shaped m (hwhole.subset hm)).framed m.2
  have hsized : ∀ p ∈ whole.map (fun m => m.1.bytes m.2), Sized p := fun p hp => by
    obtain ⟨m, hm, rfl⟩ := List.mem_map.mp hp
    exact (hframed m hm).sized
  rw [TcpServer.outgoing_eq] at hreceived
  obtain ⟨front, hfirst, hmade⟩ := callsMade_eq (·.raises pb) hsized (hreceived.trans hfront)
  obtain ⟨taken, htaken, rfl⟩ := List.prefix_map_iff.mp hfirst
  have hcalls : (callsMade (tcpListenerLoop (·.raises pb) chunks {})).filterMap
      (·.handled? pb) = taken.filterMap (·.handled? pb) := by
    rw [hmade, List.filterMap_map, List.filterMap_filterMap]
    refine List.filterMap_congr fun m hm => ?_
    rw [Function.comp_apply, (hframed m (htaken.subset hm)).frontCall]
    rfl
  rw [hcalls] at hhandled
  obtain ⟨came, hcame, hsame⟩ := List.prefix_filterMap_iff.mp hhandled
  exact ⟨came, (hcame.trans htaken).sublist.trans hwhole, hsame⟩

/-! ### Reports -/

/-- The user that a report is about. -/
def SentMessage.user? (m : SentMessage) : Option Nat :=
  match m.1 with
  | .executionReport report => some report.userId.toNat
  | _ => none

/-- The fields that are read are those of the report. Its price is read as a double of the same
value: the sign of a zero and the payload of a NaN are not known here. -/
structure Conveys (junk : Nat → UInt8) (report : ExecutionReport) (e : Execution) : Prop where
  clientOrderId : e.clientOrderId = report.clientOrderId.toNat
  userId : e.userId = report.userId.toNat
  execId : e.execId = report.executionId.toNat
  symbol : e.symbol = decodeSymbol (characters junk 29 10 report.symbol)
  side : e.side = report.side.toNat
  price : Price.ofBits e.price = .ofBits report.price.bits
  qty : e.qty = report.quantity.toNat
  filledQty : e.filledQty = report.filledQuantity.toNat
  status : e.status = report.status.toNat

/-- The report of a user that a message carries, as `handle_execution` hands it on. -/
structure ReportOf (userId : Nat) (m : SentMessage) (e : Execution) : Prop where
  userId : e.userId = userId
  message : ∃ report, m.1 = .executionReport report ∧ Conveys m.2 report e

theorem conveys {report : ExecutionReport} {e : Execution} {junk : Nat → UInt8}
    (hm : Message.Shaped (.executionReport report))
    (hread : readExecution ((report.bytes junk).drop 5) = some e) : Conveys junk report e := by
  rw [readExecution_bytes junk (hm.2.le.trans (by decide))] at hread
  obtain rfl := Option.some.inj hread
  exact ⟨rfl, rfl, rfl, rfl, rfl, rfl, rfl, rfl, rfl⟩

theorem reportOf {m : SentMessage} {e : Execution} (hm : m.1.Shaped)
    (h : (m.handled? pb).bind HandedOn.execution? = some e) : ReportOf e.userId m e := by
  obtain ⟨report, hreport, hread⟩ := handled?_execution h
  exact ⟨rfl, report, hreport, conveys (hreport ▸ hm) hread⟩

/-- **Reports reach users.** What a call of `StreamExecutions` gets are reports that the engine has
sent about its user, each at most once, in order and with the fields that the engine gave them. It
gets nothing if `trading_pb2` does not take the reports. -/
theorem reports_reach_users {t : θ} {userId : Nat} {o : GatewayThreads.Output θ}
    {earlier later : List (GatewayThreads.Action θ × GatewayThreads.Output θ)}
    (h : ResponsePath pb clock g₀ fd engine sent tr s)
    (htr : tr = earlier ++ (.streamExecutions t userId, o) :: later) :
    ∃ messages : List SentMessage, messages.Sublist sent ∧
      List.Forall₂ (ReportOf userId) messages ((GatewayThreads.gotBy t later).map Prod.snd) ∧
      (pb.takesReport = false → messages = []) := by
  obtain ⟨came, hcame, hhandled⟩ := h.came
  have hrun := h.threads
  rw [htr] at hrun
  obtain ⟨s₀, s₁, hearlier, hopen, hlater⟩ := hrun.middle
  have hgot := GatewayThreads.got_sublist hearlier hopen hlater
  rw [← htr, handled_eq, hhandled, List.filterMap_filterMap] at hgot
  obtain ⟨messages, hmessages, hall⟩ := exists_sources (hgot.trans List.filter_sublist)
  have hsent := hmessages.trans hcame
  refine ⟨messages, hsent, ?_, fun hraises => ?_⟩
  · obtain ⟨hlength, hsource⟩ := List.forall₂_iff_zip.mp hall
    refine List.forall₂_iff_zip.mpr ⟨hlength, fun {m e} hmem => ?_⟩
    obtain ⟨hm, he⟩ := List.of_mem_zip hmem
    have huser : e.userId = userId := of_decide_eq_true (List.mem_filter.mp (hgot.subset he)).2
    exact huser ▸ reportOf (h.shaped m (hsent.subset hm)) (hsource hmem)
  · cases messages with
    | nil => rfl
    | cons m messages =>
        obtain ⟨e, _, hsource, -, -⟩ := List.forall₂_cons_left_iff.mp hall
        rw [takesReport_of_execution hsource] at hraises
        exact Bool.noConfusion hraises

/-- If as much is handed on as the messages are to get calls, each call hands something on. -/
theorem ResponsePath.all_handled (h : ResponsePath pb clock g₀ fd engine sent tr s)
    (hall : (tr.filterMap fun x => x.1.handled?).length =
      (sent.filterMap fun m => m.1.call? m.2).length) :
    (tr.filterMap fun x => x.1.handled?) = sent.filterMap (·.handled? pb) ∧
      ∀ m ∈ sent, ∀ call, m.1.call? m.2 = some call → (call.handled? pb).isSome = true := by
  have hbind : ∀ messages : List SentMessage, messages.filterMap (·.handled? pb) =
      (messages.filterMap fun m => m.1.call? m.2).filterMap (·.handled? pb) := fun messages => by
    rw [List.filterMap_filterMap]
    rfl
  obtain ⟨came, hcame, hhandled⟩ := h.came
  rw [hbind] at hhandled
  have hle := List.length_filterMap_le (HandlerCall.handled? pb)
    (came.filterMap fun m => m.1.call? m.2)
  have hcalls := hcame.filterMap fun m => m.1.call? m.2
  rw [← hhandled, hall] at hle
  -- both steps from the calls to what is handed on leave nothing out
  rw [hcalls.eq_of_length_le hle] at hhandled
  refine ⟨hhandled.trans (hbind sent).symm, fun m hm call hcall => ?_⟩
  rw [hhandled] at hall
  exact List.filterMap_length_eq_length.mp hall call (List.mem_filterMap.mpr ⟨m, hm, hcall⟩)

/-- The messages about a user are those in which a report of the user is read. -/
theorem reportOf_of_user? {m : SentMessage} {userId : Nat} (hm : m.1.Shaped)
    (hhandled : ∀ call, m.1.call? m.2 = some call → (call.handled? pb).isSome = true)
    (huser : m.user? = some userId) :
    ∃ e, (m.handled? pb).bind HandedOn.execution? = some e ∧ ReportOf userId m e := by
  obtain ⟨message, junk⟩ := m
  cases message with
  | executionReport report =>
      obtain rfl := Option.some.inj huser
      obtain ⟨x, hx⟩ := Option.isSome_iff_exists.mp (hhandled _ rfl)
      obtain ⟨_, _, hcall, -⟩ | ⟨_, e, hcall, hread, rfl⟩ := HandlerCall.handled?_eq_some hx
      · exact HandlerCall.noConfusion hcall
      · obtain rfl := HandlerCall.handleExecution.inj hcall
        have hconveys := conveys hm hread
        refine ⟨e, ?_, hconveys.userId, report, rfl, hconveys⟩
        exact congrArg (·.bind HandedOn.execution?) hx
  | loginResponse | marketDataSnapshot | tradeUpdate => simp [SentMessage.user?] at huser

theorem ReportOf.user? {m : SentMessage} {userId : Nat} {e : Execution} (h : ReportOf userId m e) :
    m.user? = some userId := by
  obtain ⟨rfl, report, hm, hconveys⟩ := h
  obtain ⟨message, junk⟩ := m
  obtain rfl : message = .executionReport report := hm
  exact congrArg some hconveys.userId.symm

/-- **Every report is accounted for**, once all the reports and snapshots that the engine sent are
handed on: those about a user, in the order in which they were sent, are those that calls have got
from the user's queues, those that wait there, and the one that is about to be put into the last of
them. -/
theorem reports_accounted (h : ResponsePath pb clock g₀ fd engine sent tr s)
    (hall : (tr.filterMap fun x => x.1.handled?).length =
      (sent.filterMap fun m => m.1.call? m.2).length) (userId : Nat) :
    List.Forall₂ (ReportOf userId) (sent.filter fun m => m.user? = some userId)
      ((GatewayThreads.queuesOf userId tr).flatMap (fun q =>
          GatewayThreads.through q (GatewayThreads.gets tr) ++ s.reports q) ++
        GatewayThreads.ofUser userId s.listener.report?.toList) := by
  obtain ⟨heq, hhandled⟩ := h.all_handled hall
  rw [← (GatewayThreads.reports_kept h.threads userId).1, handled_eq, heq,
    List.filterMap_filterMap]
  refine forall₂_filter_filterMap (fun m hm huser => ?_) fun m hm e he => ?_
  · exact reportOf_of_user? (h.shaped m hm) (hhandled m hm) (of_decide_eq_true huser)
  · have hreport := reportOf (h.shaped m hm) he
    rw [hreport.user?]
    exact decide_eq_decide.mpr ⟨Option.some.inj, congrArg some⟩

/-! ### Books -/

end Path

/-! ### Two sales -/

/-- The service logs in and subscribes to `A`. A client on 5 sells five lots of it, and the service
three more for user 7. -/
def sale : List (Happening × Reporting) × ClientGateway :=
  ClientGateway.played ClientGateway.Anything ClientGateway.started
    (ClientGateway.subscribes ++
      [.connection 5, .packet 5 (fun _ => 0) ([0, 0, 76, 45, 0] ++ List.replicate 40 0),
        .packet 5 (fun _ => 0) (ClientGateway.smallRequest 1 9 65 0 1 1 5).units,
        ClientGateway.sends (ClientGateway.smallRequest 2 7 65 0 1 1 3).units])

/-- What the service is sent then, built in zeroed memory. -/
def saleSent : List SentMessage :=
  (messagesTo 4 (sale.1.flatMap (·.2.sent))).map fun m => (m, fun _ => 0)

/-- Its stream. -/
def saleStream : List UInt8 := (saleSent.map fun m => m.1.bytes m.2).flatten

/-- What the listener hands on of it. -/
def saleHanded (pb : TradingPb2) : List HandedOn :=
  (callsMade (tcpListenerLoop (·.raises pb) [saleStream] {})).filterMap (·.handled? pb)

/-- The report of the second sale. -/
def saleReport : Execution :=
  { clientOrderId := 2, userId := 7, execId := 0, symbol := "A", side := 1,
    price := 4636737291354636288, qty := 3, filledQty := 0, status := 0 }

/-- The book after the sales of so many lots. -/
def saleView (lots : Nat) : TradingPb2.MarketDataSnapshot :=
  { symbol := "A", bids := [], asks := [⟨4636737291354636288, lots⟩] }

set_option maxRecDepth 4096 in
theorem saleHanded_extended : saleHanded .extended =
    [.snapshot (saleView 5), .execution saleReport, .snapshot (saleView 8)] := rfl

/-- The steps of the listener. -/
def handling : HandedOn → List (GatewayThreads.Action Bool)
  | .execution report => [.handleExecution report, .checkQueue, .lookUp, .putReport]
  | .snapshot view => [.handleSnapshot view, .next, .putSnapshot, .stop]

/-- Two calls wait, for reports about user 7 and for books of `A`, and then get something. -/
def saleSteps (handed : List HandedOn) (gets : List (GatewayThreads.Action Bool)) :
    List (GatewayThreads.Action Bool) :=
  [.streamExecutions true 7, .checkUser true, .createUser true, .openStream false "A" false] ++
    handed.flatMap handling ++ gets

/-- All is handed on, and the report is got. -/
def reportSteps : List (GatewayThreads.Action Bool) :=
  saleSteps [.snapshot (saleView 5), .execution saleReport, .snapshot (saleView 8)]
    [.lookUser true, .getReport true]

/-- The run of the threads. -/
def threadsOf (steps : List (GatewayThreads.Action Bool)) :
    List (GatewayThreads.Action Bool × GatewayThreads.Output Bool) × GatewayThreads Bool :=
  (Trace.exec GatewayThreads.act steps {}).getD ([], {})

theorem run_reportSteps :
    Trace.exec GatewayThreads.act reportSteps {} = some (threadsOf reportSteps) := rfl

theorem sale_run : ∃ g, Trace.Run (Happens fun _ => 0) ClientGateway.started sale.1 g :=
  ⟨sale.2, (ClientGateway.run_played rfl).mono fun _ _ _ _ h => h.2⟩

theorem sale_messages :
    saleSent.map Prod.fst = messagesTo 4 (sale.1.flatMap (·.2.sent)) := by
  rw [saleSent, List.map_map]
  exact List.map_id _

set_option maxRecDepth 4096 in
theorem salePath {pb : TradingPb2}
    {tr : List (GatewayThreads.Action Bool × GatewayThreads.Output Bool)} {s : GatewayThreads Bool}
    (hrun : GatewayThreads.Run tr s)
    (hhandled : saleHanded pb = tr.filterMap fun x => x.1.handled?) :
    ResponsePath pb (fun _ => 0) ClientGateway.started 4 sale.1 saleSent tr s where
  run := sale_run
  messages := sale_messages
  received := by
    refine ⟨saleSent.map fun m => ⟨m.1.bytes m.2, _, Nat.le_refl _⟩, [saleStream], ?_, ?_, ?_,
      hhandled ▸ List.prefix_rfl⟩
    · rw [List.map_map]
      rfl
    · decide
    · rw [TcpServer.outgoing_eq, ShortWrites.delivered, List.flatMap_map, List.flatMap_def,
        List.flatten_singleton]
      simp only [List.take_length]
      exact List.prefix_rfl
  threads := hrun

theorem extendedPath : ResponsePath .extended (fun _ => 0) ClientGateway.started 4 sale.1 saleSent
    (threadsOf reportSteps).1 (threadsOf reportSteps).2 :=
  salePath (.of_exec run_reportSteps) saleHanded_extended

/-- The report gets to the call for user 7, if `trading_pb2` takes it. -/
theorem reports_reach_users_sale : ∃ messages : List SentMessage, messages.Sublist saleSent ∧
    List.Forall₂ (ReportOf 7) messages [saleReport] := by
  have htr : (threadsOf reportSteps).1 =
    [] ++ (.streamExecutions true 7, .silent) :: (threadsOf reportSteps).1.tail := rfl
  obtain ⟨messages, hsub, hall, -⟩ := reports_reach_users extendedPath htr
  exact ⟨messages, hsub, hall⟩

/-- Nothing is left of the reports about user 7, if `trading_pb2` takes them. -/
theorem reports_accounted_sale :
    List.Forall₂ (ReportOf 7) (saleSent.filter fun m => m.user? = some 7) [saleReport] :=
  reports_accounted extendedPath (by decide) 7

end OrderMatchingEngine
