import OrderMatchingEngine.GatewayService
import OrderMatchingEngine.Refinement.Handlers

/-!
# OrderMatchingEngine.Properties.MakerReports

What the reports on the counterparties of an order say.

A new order that trades is reported trade by trade, each trade once for the order itself and once
for the counterparty (`m_report`). The second report gets the right order id. Its user id is the
order id again, its status is always 2, and its executed quantity is that of the submitted order
or of the trade. So it is right (`makers_told`) only for counterparties that are filled, that have
the id of their user and whose executed quantity happens to be that number. For their users to get
it from `gateway.py`, the `ExecutionReport` of `trading_pb2` has to have a `user_id` besides.
-/

namespace OrderMatchingEngine

namespace ClientGateway

open MatchingEngine

/-- The reports on the counterparties: every second one. -/
def makerReports : List ExecutionReport → List ExecutionReport
  | _ :: report :: reports => report :: makerReports reports
  | _ => []

/-- The report describes the counterparty after a trade of `qty`. -/
structure Describes (maker : Order Int) (qty : Quantity) (report : ExecutionReport) : Prop where
  clientOrderId : report.clientOrderId = maker.id
  userId : report.userId = maker.userId
  filledQuantity : report.filledQuantity = maker.quantityFilled + qty
  status : report.status = if (maker.reduceQuantity qty).isFilled then 2 else 1

/-- The reports on the counterparties, in the order of the trades, describe them; and from each
trade the queue of the counterparty's user gets one report. -/
def MakersTold (pb : TradingPb2) (fd : Int) (req : NewOrderRequest) (g : ClientGateway)
    (r : Reporting) : Prop :=
  let fills := (g.engine.bookView (cleanSymbol req.symbol)).fills req.order
  let reports := makerReports (executionReports fd r.sent)
  List.Forall₂ (fun fill report => Describes fill.1 (.ofNat fill.2) report) fills reports ∧
    ∀ s : GatewayService, ∃ s', reports.foldlM (GatewayService.handleExecution pb) s = some s' ∧
      ∀ user, s'.userQueue user = s.userQueue user ++
        ((fills.zip reports).filter fun x => x.1.1.userId = user).map Prod.snd

/-- The executed quantity that `m_report` gives: what is executed of the submitted order, if it is
found in the book of that symbol, or the quantity of the trade. -/
def toldFill (req : NewOrderRequest) (symbol : Symbol) (e : MatchingEngine Int) (qty : Quantity) :
    Quantity :=
  let book := e.bookView (cleanSymbol req.symbol)
  if symbol = cleanSymbol req.symbol then
    if book.liquidity req.order < req.order.unfilled ∧ req.order.type = .limit then
      .ofNat (book.liquidity req.order)
    else qty
  else (((e.bookView symbol).find? req.clientOrderId).map (·.quantityFilled)).getD qty

/-- The reports find a book, and every counterparty is filled by its trade, has the id of its
user, and is then executed by what `m_report` gives. -/
def MakersTellable (req : NewOrderRequest) (behind : List UInt8) (e : MatchingEngine Int) : Prop :=
  ∃ symbol book, req.symbolString behind = .ok symbol ∧ e.getOrderBook symbol = some book ∧
    ∀ fill ∈ (e.bookView (cleanSymbol req.symbol)).fills req.order,
      fill.1.userId = fill.1.id ∧ (fill.1.reduceQuantity (.ofNat fill.2)).isFilled = true ∧
        fill.1.quantityFilled + .ofNat fill.2 = toldFill req symbol e (.ofNat fill.2)

/-! ### The reports and the fills -/

theorem makerReports_tradeReports (filledQuantity : Quantity → Quantity) (order : Order Int)
    (trades : List (Trade Int)) : makerReports (tradeReports filledQuantity order trades) =
      trades.map fun t => makerReport order t (filledQuantity t.quantity) := by
  induction trades generalizing order with
  | nil => rfl
  | cons t trades ih =>
      rw [tradeReports, makerReports, ih]
      rfl

/-- The reports on the counterparties, fill by fill. -/
theorem map_makerReport {order : Order Int} {trades : List (Trade Int)}
    {fills : List (Order Int × Nat)} {filledQuantity : Quantity → Quantity}
    (hfills : trades.map Trade.untimed = fills.map fun fill =>
      QueueBook.trade order.side order fill.1 (.ofNat fill.2)) :
    (trades.map fun t => makerReport order t (filledQuantity t.quantity)) =
      fills.map fun fill =>
        makerReport order (QueueBook.trade order.side order fill.1 (.ofNat fill.2))
          (filledQuantity (.ofNat fill.2)) := by
  calc (trades.map fun t => makerReport order t (filledQuantity t.quantity))
      = (trades.map Trade.untimed).map fun t =>
          makerReport order t (filledQuantity t.quantity) := by
        rw [List.map_map]
        rfl
    _ = _ := by
        rw [hfills, List.map_map]
        refine List.map_congr_left fun fill _ => ?_
        rw [Function.comp_apply, QueueBook.trade_quantity]

/-- When `m_report` describes the counterparty of a trade. -/
theorem describes_makerReport {order maker : Order Int} {qty filledQuantity : Quantity} :
    Describes maker qty
        (makerReport order (QueueBook.trade order.side order maker qty) filledQuantity) ↔
      maker.userId = maker.id ∧ (maker.reduceQuantity qty).isFilled = true ∧
        maker.quantityFilled + qty = filledQuantity := by
  have hids : ∀ report, report =
      makerReport order (QueueBook.trade order.side order maker qty) filledQuantity →
      report.clientOrderId = maker.id ∧ report.userId = maker.id ∧ report.status = 2 ∧
        report.filledQuantity = filledQuantity := by
    rintro report rfl
    unfold makerReport QueueBook.trade
    cases order.side <;> simp
  obtain ⟨hid, huser, hstatus, hfilled⟩ := hids _ rfl
  constructor
  · intro h
    refine ⟨h.userId.symm.trans huser, ?_, h.filledQuantity.symm.trans hfilled⟩
    by_contra hopen
    have hone := h.status
    rw [hstatus, if_neg hopen] at hone
    exact absurd hone (by decide)
  · intro h
    exact ⟨hid, huser.trans h.1.symm, hfilled.trans h.2.2.symm, by rw [hstatus, if_pos h.2.1]⟩

/-- Reports that name the right users get to their queues. -/
theorem queues_of_describes {fills : List (Order Int × Nat)} {reports : List ExecutionReport}
    (h : List.Forall₂ (fun fill report => Describes fill.1 (.ofNat fill.2) report) fills reports)
    (user : UserID) : reports.filter (·.userId = user) =
      ((fills.zip reports).filter fun x => x.1.1.userId = user).map Prod.snd := by
  induction h with
  | nil => rfl
  | cons hd _ ih =>
      rw [List.zip_cons_cons, List.filter_cons, List.filter_cons, ih, hd.userId]
      split <;> rfl

section Request

variable {clock now : Nat → Timestamp} {fuel n : Nat} {fd : Int} {g g' : ClientGateway}
  {r : Reporting} {req : NewOrderRequest} {behind : List UInt8} {tr : List (Call Int × Ret Int)}
  {e e' : MatchingEngine Int} {out : Outcome Int} {pb : TradingPb2}

theorem makersTold_iff
    (hfills : (g.engine.bookView (cleanSymbol req.symbol)).fills req.order ≠ []) :
    MakersTold pb fd req g r ↔
      List.Forall₂ (fun fill report => Describes fill.1 (.ofNat fill.2) report)
        ((g.engine.bookView (cleanSymbol req.symbol)).fills req.order)
        (makerReports (executionReports fd r.sent)) ∧ pb.takesReport = true := by
  obtain ⟨fill, fills, hcons⟩ := List.exists_cons_of_ne_nil hfills
  constructor
  · rintro ⟨hall, hqueues⟩
    refine ⟨hall, ?_⟩
    by_contra hraises
    obtain ⟨s', hs', -⟩ := hqueues ⟨∅⟩
    rw [hcons] at hall
    obtain ⟨report, reports, -, -, hreports⟩ := List.forall₂_cons_left_iff.mp hall
    rw [hreports, GatewayService.foldlM_eq_none (Bool.eq_false_iff.mpr hraises)] at hs'
    simp at hs'
  · rintro ⟨hall, htakes⟩
    refine ⟨hall, fun s => ?_⟩
    obtain ⟨s', hs', hqueue⟩ := GatewayService.userQueue_foldlM htakes s
      (makerReports (executionReports fd r.sent))
    exact ⟨s', hs', fun user => by rw [hqueue, queues_of_describes hall]⟩

/-- The trades of a new order are its fills. -/
theorem trades_fills {b b₁ b' : QueueBook Int}
    (hm : QueueBook.Matched req.order.symbol b req.order out.untimed b₁ b')
    (hl : QueueBook.Live b) : out.trades.map Trade.untimed = (b.fills req.order).map fun fill =>
      QueueBook.trade req.order.side req.order fill.1 (.ofNat fill.2) := by
  rw [← QueueBook.matched_trades hl, ← hm.trades]
  rfl

/-- The executed quantity that the counterparties are told, from the state before the order. -/
theorem reportedFill_eq (he' : EngineInv e')
    (hf : Frame req.order.symbol out.exit.leaks out.trades e e')
    (hl : QueueBook.Live (e.bookView req.order.symbol)) (ho : req.order.Live)
    (hfresh : ∀ x ∈ (e.bookView req.order.symbol).allOrders, x.id ≠ req.order.id)
    {b₁ : QueueBook Int} (hm : QueueBook.Matched req.order.symbol (e.bookView req.order.symbol)
      req.order out.untimed b₁ (e'.bookView req.order.symbol))
    {symbol : Symbol} {book : OrderBook Int} (hbook : e'.getOrderBook symbol = some book)
    (qty : Quantity) :
    reportedFill e' book req.clientOrderId qty = toldFill req symbol e qty := by
  have hfind : reportedFill e' book req.clientOrderId qty =
      (((e'.bookView symbol).find? req.clientOrderId).map (·.quantityFilled)).getD qty := by
    have hb := he'.book symbol
    rw [bookView, OrderBook.find?_view hb.linked hb.wf, getOrderBook_eq_some e' symbol hbook,
      reportedFill]
    cases book.getOrderbyId req.clientOrderId <;> rfl
  rw [hfind, toldFill]
  by_cases hsym : symbol = cleanSymbol req.symbol
  · subst hsym
    obtain ⟨-, hioc, hlimit⟩ := order_type req
    have hown := hm.find?_own (he'.wf _) hfresh
    have hid : req.order.id = req.clientOrderId := rfl
    have hsymbol : req.order.symbol = cleanSymbol req.symbol := rfl
    rw [if_pos rfl, ← hsymbol, ← hid, hown]
    simp only [hm.exit_rested hl ho, hlimit, ne_eq, hioc, not_false_eq_true, true_and]
    split
    · rename_i hrests
      rw [Option.map_some, Option.getD_some, hm.order, QueueBook.matched_own hl,
        Nat.min_eq_right (Nat.le_of_lt hrests.1)]
      exact UInt64.zero_add _
    · rfl
  · -- the reports read another symbol's book, which the order left alone
    rw [if_neg hsym, hf.bookView hsym]

/-- Without a book there is no report on a counterparty. -/
theorem makerReports_none {trades : List (Trade Int)} {fault : Fault} (hne : trades ≠ [])
    (hfound : reportingBook req behind e = .error fault) :
    makerReports (requestReports req behind trades e) = [] := by
  obtain ⟨t, trades, rfl⟩ := List.exists_cons_of_ne_nil hne
  simp [requestReports, hfound, makerReports]

/-- With one there is one on each, which gives what `toldFill` says. -/
theorem makerReports_some (he' : EngineInv e')
    (hf : Frame req.order.symbol out.exit.leaks out.trades e e')
    (hl : QueueBook.Live (e.bookView req.order.symbol)) (ho : req.order.Live)
    (hfresh : ∀ x ∈ (e.bookView req.order.symbol).allOrders, x.id ≠ req.order.id)
    {b₁ : QueueBook Int} (hm : QueueBook.Matched req.order.symbol (e.bookView req.order.symbol)
      req.order out.untimed b₁ (e'.bookView req.order.symbol))
    {symbol : Symbol} {book : OrderBook Int} (hne : out.trades ≠ [])
    (hfound : reportingBook req behind e' = .ok book)
    (hlook : e'.getOrderBook symbol = some book) :
    makerReports (requestReports req behind out.trades e') =
      ((e.bookView req.order.symbol).fills req.order).map fun fill =>
        makerReport req.order (QueueBook.trade req.order.side req.order fill.1 (.ofNat fill.2))
          (toldFill req symbol e (.ofNat fill.2)) := by
  rw [requestReports_ok hfound hne, makerReports_tradeReports,
    map_makerReport (trades_fills hm hl)]
  refine List.map_congr_left fun fill _ => ?_
  rw [reportedFill_eq he' hf hl ho hfresh hm hlook]

/-- **The counterparties of an order that trades are told what happened to them exactly if**
they can be, and `trading_pb2` takes the reports. -/
theorem makers_told (hrun : Reaches clock n (fun e c => e.QueuesFresh c) tr g.engine)
    (hin : g.LoggedIn fd) (hnew : ¬ g.engine.Rests (cleanSymbol req.symbol) req.clientOrderId)
    (h : handleNewOrder clock now fuel fd req behind g = .ok (r, g'))
    (htraded : newTrades g g' ≠ []) :
    (newTrades g g').map Trade.untimed =
        ((g.engine.bookView (cleanSymbol req.symbol)).fills req.order).map (fun fill =>
          QueueBook.trade req.order.side req.order fill.1 (.ofNat fill.2)) ∧
      (MakersTold pb fd req g r ↔
        MakersTellable req behind g.engine ∧ pb.takesReport = true) := by
  have he := reaches_inv (fun _ _ hg => hg) hrun
  have hl := reaches_live (fun _ _ hg => hg) hrun req.order.symbol
  have hfresh := fresh_of_not_rests hnew
  obtain ⟨out, engine, hp, -, hf, htrades, hreports⟩ := handleNewOrder_reports he hin hnew h
  obtain ⟨he', -⟩ := processOrder_ok he hp fun _ _ => hfresh
  rw [htrades] at htraded ⊢
  obtain ⟨hnone, -⟩ | ⟨hfree, hv, b₁, hm⟩ := process_cases he hp
  · exact absurd hnone htraded
  have ho := order_live hv
  have hfills := trades_fills hm hl
  refine ⟨hfills, ?_⟩
  have hsym : cleanSymbol req.symbol = req.order.symbol := rfl
  have hsome : (g.engine.bookView req.order.symbol).fills req.order ≠ [] := by
    intro hnil
    rw [hnil] at hfills
    exact htraded (List.map_eq_nil_iff.mp hfills)
  rw [makersTold_iff hsome, hreports, hsym]
  refine and_congr_left' ?_
  obtain ⟨fill, fills, hcons⟩ := List.exists_cons_of_ne_nil hsome
  have hbook := reportingBook_congr behind hf
    (QueueBook.mem_fills (hcons ▸ List.mem_cons_self)) hfree hv hp
  rcases hfound : reportingBook req behind engine with fault | book
  · -- The process dies of the first trade, after the report on the order itself.
    refine iff_of_false ?_ ?_
    · intro htold
      rw [makerReports_none htraded hfound] at htold
      have hempty := List.forall₂_nil_right_iff.mp htold
      exact List.cons_ne_nil fill fills (hcons.symm.trans hempty)
    · intro hcond
      obtain ⟨symbol, book, hsymbol, hlook, -⟩ := hcond
      obtain ⟨book', hfound'⟩ :=
        hbook.mpr ⟨book, reportingBook_ok.mpr ⟨symbol, hsymbol, hlook⟩⟩
      simp [hfound] at hfound'
  · obtain ⟨symbol, hsymbol, hlook⟩ := reportingBook_ok.mp hfound
    obtain ⟨book₀, hfound₀⟩ := hbook.mp ⟨book, hfound⟩
    rw [makerReports_some he' hf hl ho hfresh hm htraded hfound hlook,
      List.forall₂_map_right_iff, List.forall₂_same]
    simp only [describes_makerReport]
    constructor
    · intro htold
      obtain ⟨symbol', hsymbol', hlook'⟩ := reportingBook_ok.mp hfound₀
      obtain rfl := Except.ok.inj (hsymbol.symm.trans hsymbol')
      exact ⟨symbol, book₀, hsymbol, hlook', htold⟩
    · intro hcond
      obtain ⟨symbol', -, hsymbol', -, htold⟩ := hcond
      obtain rfl := Except.ok.inj (hsymbol.symm.trans hsymbol')
      exact htold

end Request

/-! ### Concrete requests -/

section Concrete

/-- A request to sell five lots of `A` at 100.0, as order 1 of user 7. -/
def sellFive : NewOrderRequest := smallRequest 1 7 65 0 1 1 5

/-- A request to buy three of them, as order 2 of user 8. -/
def buyThree : NewOrderRequest := smallRequest 2 8 65 0 0 1 3

/-- The gateway after the first request. -/
def afterSell : ClientGateway := (after oneClient (.newOrder 4 sellFive)).2

/-- What comes of the second. -/
def afterBoth : Reporting × ClientGateway := after afterSell (.newOrder 4 buyThree)

theorem reaches_afterSell :
    ∃ tr, Reaches (fun _ => 0) 100000 (fun e c => e.QueuesFresh c) tr afterSell.engine := by
  have hfresh : oneClient.engine.QueuesFresh (.processNewOrder sellFive.order) := by decide
  have hp : processOrder (fun _ => 0) 10 sellFive.order oneClient.engine =
      .ok (⟨.rested, sellFive.order, []⟩, afterSell.engine) := rfl
  exact ⟨_, Trace.Run.nil.snoc ⟨hfresh, .process hp⟩⟩

theorem not_rests_buyThree :
    ¬ afterSell.engine.Rests (cleanSymbol buyThree.symbol) buyThree.clientOrderId := by decide

theorem handle_buyThree : handleNewOrder (fun _ => 0) (fun _ => 0) 10 4 buyThree [] afterSell =
    .ok afterBoth := rfl

/-- The report on order 1 after the trade of three lots. -/
def reportOnOne : ExecutionReport :=
  { clientOrderId := 1
    userId := 1
    executionId := 2
    symbol := [65, 0, 0, 0, 0, 0, 0, 0, 0]
    side := 1
    price := sellFive.price
    quantity := 3
    filledQuantity := 3
    status := 2 }

/-- **The counterparty is reported filled, to a user it does not have**: order 1 of user 7 has sold
three lots of five. -/
theorem maker_misreported :
    (∃ tr, Reaches (fun _ => 0) 100000 (fun e c => e.QueuesFresh c) tr afterSell.engine) ∧
      afterSell.LoggedIn 4 ∧
      ¬ afterSell.engine.Rests (cleanSymbol buyThree.symbol) buyThree.clientOrderId ∧
      handleNewOrder (fun _ => 0) (fun _ => 0) 10 4 buyThree [] afterSell = .ok afterBoth ∧
      makerReports (executionReports 4 afterBoth.1.sent) = [reportOnOne] ∧
      (afterSell.engine.bookView [65]).fills buyThree.order = [(sellFive.order, 3)] ∧
      sellFive.order.userId = 7 ∧ (sellFive.order.reduceQuantity 3).isFilled = false ∧
      ∀ pb, ¬ MakersTold pb 4 buyThree afterSell afterBoth.1 := by
  have hfills : (afterSell.engine.bookView (cleanSymbol buyThree.symbol)).fills buyThree.order =
      [(sellFive.order, 3)] := rfl
  have hreports : makerReports (executionReports 4 afterBoth.1.sent) = [reportOnOne] := rfl
  refine ⟨reaches_afterSell, rfl, not_rests_buyThree, rfl, hreports, hfills, rfl, rfl, ?_⟩
  intro pb htold
  have hall := htold.1
  rw [hfills, hreports] at hall
  obtain ⟨hone, -⟩ := List.forall₂_cons.mp hall
  exact absurd hone.userId (by decide)

/-- The counterparty of the second request is not told because it could not be. -/
theorem makers_told_buyThree :
    (newTrades afterSell afterBoth.2).map Trade.untimed =
        ((afterSell.engine.bookView (cleanSymbol buyThree.symbol)).fills buyThree.order).map
          (fun fill => QueueBook.trade buyThree.order.side buyThree.order fill.1 (.ofNat fill.2)) ∧
      (MakersTold .trading 4 buyThree afterSell afterBoth.1 ↔
        MakersTellable buyThree [] afterSell.engine ∧ TradingPb2.trading.takesReport = true) := by
  obtain ⟨tr, hrun⟩ := reaches_afterSell
  have htraded : newTrades afterSell afterBoth.2 ≠ [] := by
    intro hnone
    exact absurd (congrArg List.length hnone) (by decide)
  exact makers_told hrun rfl not_rests_buyThree handle_buyThree htraded

end Concrete

end ClientGateway

end OrderMatchingEngine
