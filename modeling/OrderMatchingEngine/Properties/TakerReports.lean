import OrderMatchingEngine.Abstract.FillOrKill
import OrderMatchingEngine.Properties.Fates

/-!
# OrderMatchingEngine.Properties.TakerReports

What the reports on the trades of an order tell its submitter.

The gateway does not ask the engine how much of an order was executed. It keeps a copy of the
order and executes the trades on it once more, in their order (`takerReports`). The copy goes
through the executed quantities of the order itself: no addition overflows, and only the last
trade can complete it.
-/

namespace OrderMatchingEngine

namespace ClientGateway

open MatchingEngine

/-- The reports on the order itself, one for each trade. -/
def takerReports : Order Int → List (Trade Int) → List ExecutionReport
  | _, [] => []
  | order, t :: trades =>
    let order := order.reduceQuantity t.quantity
    takerReport order t :: takerReports order trades

/-- The reports with the id of an order. -/
def reportsOn (id : OrderID) (reports : List ExecutionReport) : List ExecutionReport :=
  reports.filter fun report => report.clientOrderId = id

/-- The reports are one for each trade, in the same order, with its price and quantity and with
what was executed so far, which goes up and stays within the quantity of the order. Only the last
one can say that the order is filled. -/
structure AddsUp (quantity : Quantity) (trades : List (Trade Int))
    (reports : List ExecutionReport) : Prop where
  length : reports.length = trades.length
  each : ∀ (k : Nat) report t, reports[k]? = some report → trades[k]? = some t →
    report.price = t.price ∧ report.quantity = t.quantity ∧
      report.filledQuantity.toNat = ((trades.take (k + 1)).map fun t => t.quantity.toNat).sum
  increasing : (reports.map (·.filledQuantity)).Pairwise (· < ·)
  bounded : ∀ report ∈ reports, report.filledQuantity ≤ quantity
  status : ∀ (k : Nat) report, reports[k]? = some report → report.status = 2 →
    k + 1 = trades.length

/-! ### The copy of the order -/

theorem length_takerReports (order : Order Int) (trades : List (Trade Int)) :
    (takerReports order trades).length = trades.length := by
  induction trades generalizing order with
  | nil => rfl
  | cons t trades ih => rw [takerReports, List.length_cons, ih, List.length_cons]

/-- Among the reports on trades those on the order itself are the ones with its id. -/
theorem reportsOn_tradeReports (filledQuantity : Quantity → Quantity) (order : Order Int)
    {trades : List (Trade Int)} (hids : ∀ t ∈ trades, t.orderId order.side.opposite ≠ order.id) :
    reportsOn order.id (tradeReports filledQuantity order trades) = takerReports order trades := by
  induction trades generalizing order with
  | nil => rfl
  | cons t trades ih =>
      obtain ⟨ht, htrades⟩ := List.forall_mem_cons.mp hids
      have hmaker := makerReport_ne ht t.quantity (filledQuantity t.quantity)
      rw [reportsOn, tradeReports, List.filter_cons_of_pos (by simp [takerReport]),
        List.filter_cons_of_neg (by simpa using hmaker), takerReports]
      exact congrArg _ (ih (order.reduceQuantity t.quantity) htrades)

/-- The last report shows the order with all trades executed. -/
theorem getLast?_takerReports (order : Order Int) {trades : List (Trade Int)} (hne : trades ≠ []) :
    ∃ t, (takerReports order trades).getLast? =
      some (takerReport (order.reduceQuantity (trades.map Trade.quantity).sum) t) := by
  induction trades generalizing order with
  | nil => exact absurd rfl hne
  | cons t trades ih =>
      rw [takerReports, List.getLast?_cons, List.map_cons, List.sum_cons, Order.reduceQuantity_add]
      rcases eq_or_ne trades [] with rfl | hmore
      · exact ⟨t, by rw [List.map_nil, List.sum_nil, Order.reduceQuantity_zero]; rfl⟩
      · obtain ⟨t', hlast⟩ := ih (order.reduceQuantity t.quantity) hmore
        exact ⟨t', by rw [hlast, Option.getD_some]⟩

/-- One more trade that the order has room for. -/
theorem executed_toNat {order : Order Int} {qty : Quantity}
    (hroom : order.quantityFilled.toNat + qty.toNat ≤ order.quantity.toNat) :
    (order.reduceQuantity qty).quantityFilled.toNat =
      order.quantityFilled.toNat + qty.toNat := by
  have hbound := order.quantity.toNat_lt
  rw [Order.reduceQuantity_quantityFilled, UInt64.toNat_add, Nat.mod_eq_of_lt (by omega)]

/-- The first of several trades that the order has room for leaves room for the others. -/
theorem executed_cons {order : Order Int} {t : Trade Int} {trades : List (Trade Int)}
    (hroom : order.quantityFilled.toNat + QueueBook.volume (t :: trades) ≤ order.quantity.toNat) :
    (order.reduceQuantity t.quantity).quantityFilled.toNat =
        order.quantityFilled.toNat + t.quantity.toNat ∧
      (order.reduceQuantity t.quantity).quantityFilled.toNat + QueueBook.volume trades ≤
        (order.reduceQuantity t.quantity).quantity.toNat := by
  have hvolume : QueueBook.volume (t :: trades) = t.quantity.toNat + QueueBook.volume trades := rfl
  have hexecuted : (order.reduceQuantity t.quantity).quantityFilled.toNat =
      order.quantityFilled.toNat + t.quantity.toNat := executed_toNat (by omega)
  refine ⟨hexecuted, ?_⟩
  rw [hexecuted, Order.reduceQuantity_quantity]
  omega

/-- **The copy goes through the executed quantities**, if the order has room for the trades. -/
theorem takerReports_each {order : Order Int} {trades : List (Trade Int)}
    (hroom : order.quantityFilled.toNat + QueueBook.volume trades ≤ order.quantity.toNat)
    (k : Nat) {report : ExecutionReport} {t : Trade Int}
    (hreport : (takerReports order trades)[k]? = some report) (ht : trades[k]? = some t) :
    report.price = t.price ∧ report.quantity = t.quantity ∧
      report.filledQuantity.toNat = order.quantityFilled.toNat +
        ((trades.take (k + 1)).map fun t => t.quantity.toNat).sum := by
  induction trades generalizing order k with
  | nil => simp at ht
  | cons t' trades ih =>
      obtain ⟨hexecuted, hroom'⟩ := executed_cons hroom
      cases k with
      | zero =>
          obtain rfl : t' = t := by simpa using ht
          obtain rfl : takerReport (order.reduceQuantity t'.quantity) t' = report := by
            simpa [takerReports] using hreport
          refine ⟨rfl, rfl, ?_⟩
          rw [List.take_succ_cons, List.take_zero, List.map_singleton, List.sum_singleton]
          exact hexecuted
      | succ k =>
          have hrest := ih hroom' k (by simpa [takerReports] using hreport) (by simpa using ht)
          rw [List.take_succ_cons, List.map_cons, List.sum_cons, ← Nat.add_assoc, ← hexecuted]
          exact hrest

/-- The reported quantities go up from what is executed already, and stay within the quantity. -/
theorem takerReports_increasing {order : Order Int} {trades : List (Trade Int)}
    (hroom : order.quantityFilled.toNat + QueueBook.volume trades ≤ order.quantity.toNat)
    (hpos : ∀ t ∈ trades, 0 < t.quantity) :
    (∀ report ∈ takerReports order trades,
        order.quantityFilled < report.filledQuantity ∧ report.filledQuantity ≤ order.quantity) ∧
      ((takerReports order trades).map (·.filledQuantity)).Pairwise (· < ·) := by
  induction trades generalizing order with
  | nil => simp [takerReports]
  | cons t trades ih =>
      obtain ⟨ht, htrades⟩ := List.forall_mem_cons.mp hpos
      obtain ⟨hexecuted, hroom'⟩ := executed_cons hroom
      have htnat : 0 < t.quantity.toNat := UInt64.lt_iff_toNat_lt.mp ht
      have hless : order.quantityFilled < (order.reduceQuantity t.quantity).quantityFilled := by
        rw [UInt64.lt_iff_toNat_lt, hexecuted]
        omega
      obtain ⟨hrest, hsorted⟩ := ih hroom' htrades
      refine ⟨?_, ?_⟩
      · refine List.forall_mem_cons.mpr ⟨⟨hless, ?_⟩, ?_⟩
        · show (order.reduceQuantity t.quantity).quantityFilled ≤ _
          rw [UInt64.le_iff_toNat_le]
          rw [Order.reduceQuantity_quantity] at hroom'
          omega
        · intro report hmem
          exact ⟨UInt64.lt_trans hless (hrest report hmem).1, (hrest report hmem).2⟩
      · rw [takerReports, List.map_cons, List.pairwise_cons]
        exact ⟨List.forall_mem_map.mpr fun report hmem => (hrest report hmem).1, hsorted⟩

/-- Only the last trade can complete the order. -/
theorem takerReports_status {order : Order Int} {trades : List (Trade Int)}
    (hroom : order.quantityFilled.toNat + QueueBook.volume trades ≤ order.quantity.toNat)
    (hpos : ∀ t ∈ trades, 0 < t.quantity) (k : Nat) {report : ExecutionReport}
    (hreport : (takerReports order trades)[k]? = some report) (hstatus : report.status = 2) :
    k + 1 = trades.length := by
  induction trades generalizing order k with
  | nil => simp [takerReports] at hreport
  | cons t trades ih =>
      obtain ⟨ht, htrades⟩ := List.forall_mem_cons.mp hpos
      obtain ⟨hexecuted, hroom'⟩ := executed_cons hroom
      cases k with
      | zero =>
          obtain rfl : takerReport (order.reduceQuantity t.quantity) t = report := by
            simpa [takerReports] using hreport
          -- a further trade would not find room
          have hdone : (order.reduceQuantity t.quantity).isFilled = true := by
            by_contra hopen
            simp [takerReport, hopen] at hstatus
          rw [Order.isFilled_eq_true, UInt64.le_iff_toNat_le] at hdone
          cases trades with
          | nil => rfl
          | cons t' rest =>
              have hmore : 0 < t'.quantity.toNat :=
                UInt64.lt_iff_toNat_lt.mp (htrades t' List.mem_cons_self)
              have hvolume' : QueueBook.volume (t' :: rest) =
                  t'.quantity.toNat + QueueBook.volume rest := rfl
              omega
      | succ k =>
          have hrest := ih hroom' htrades k (by simpa [takerReports] using hreport)
          rw [List.length_cons, hrest]

/-- The reports on an order that nothing was executed of add up. -/
theorem takerReports_addsUp {order : Order Int} {trades : List (Trade Int)}
    (hqf : order.quantityFilled = 0) (hroom : QueueBook.volume trades ≤ order.quantity.toNat)
    (hpos : ∀ t ∈ trades, 0 < t.quantity) :
    AddsUp order.quantity trades (takerReports order trades) := by
  have hzero : order.quantityFilled.toNat = 0 := by rw [hqf]; rfl
  have hroom' : order.quantityFilled.toNat + QueueBook.volume trades ≤ order.quantity.toNat := by
    omega
  obtain ⟨hbounds, hsorted⟩ := takerReports_increasing hroom' hpos
  refine ⟨length_takerReports order trades, ?_, hsorted, fun report hmem => (hbounds report hmem).2,
    fun k report hreport hstatus => takerReports_status hroom' hpos k hreport hstatus⟩
  intro k report t hreport ht
  have heach := takerReports_each hroom' k hreport ht
  rwa [hzero, Nat.zero_add] at heach

/-! ### The reports of a request -/

section Request

variable {clock now : Nat → Timestamp} {fuel n : Nat} {fd : Int} {g g' : ClientGateway}
  {r : Reporting} {req : NewOrderRequest} {behind : List UInt8} {tr : List (Call Int × Ret Int)}
  {out : Outcome Int} {b b₁ b' : QueueBook Int}

/-- The trades of a new order are positive and stay within its quantity. -/
theorem trades_room (hm : QueueBook.Matched req.order.symbol b req.order out.untimed b₁ b')
    (hl : QueueBook.Live b) (ho : req.order.Live) :
    QueueBook.volume out.trades ≤ req.order.quantity.toNat ∧ ∀ t ∈ out.trades, 0 < t.quantity := by
  have hquantities := quantities_eq hm
  constructor
  · have hvolume : QueueBook.volume out.trades = QueueBook.volume (b.matched req.order).trades := by
      have hsum := congrArg (fun l => (List.map UInt64.toNat l).sum) hquantities
      rw [List.map_map, List.map_map] at hsum
      exact hsum
    have hunfilled : req.order.unfilled = req.order.quantity.toNat := by
      rw [ho.unfilled_eq]
      rfl
    rw [hvolume, QueueBook.volume_matched hl, ← hunfilled]
    exact Nat.min_le_left _ _
  · intro t ht
    have hmem : t.quantity ∈ (b.matched req.order).trades.map Trade.quantity :=
      hquantities ▸ List.mem_map_of_mem ht
    obtain ⟨t', ht', hqty⟩ := List.mem_map.mp hmem
    exact hqty ▸ QueueBook.fillQueue_pos (hl _) t' ht'

/-- The last report on the order and what the engine has made of it. -/
theorem last_report (hm : QueueBook.Matched req.order.symbol b req.order out.untimed b₁ b')
    (hb' : QueueBook.WF req.order.symbol b')
    (hfresh : ∀ x ∈ b.allOrders, x.id ≠ req.order.id) (hne : out.trades ≠ [])
    {report : ExecutionReport}
    (hlast : (takerReports req.order out.trades).getLast? = some report) :
    (report.status = 2 ↔ out.exit = .filled) ∧
      ∀ x ∈ b'.allOrders, x.id = req.order.id → report.filledQuantity = x.quantityFilled := by
  obtain ⟨t, ht⟩ := getLast?_takerReports req.order hne
  obtain rfl := Option.some.inj (ht.symm.trans hlast)
  have horder : req.order.reduceQuantity (out.trades.map Trade.quantity).sum = out.order :=
    (reduceQuantity_trades hm).trans hm.order.symm
  rw [horder]
  constructor
  · have hstatus : (takerReport out.order t).status = 2 ↔ ¬ out.order.Live := by
      rw [← Order.isFilled_eq_false, Bool.not_eq_false]
      by_cases hfilled : out.order.isFilled = true <;> simp [takerReport, hfilled]
    have hsettled : QueueBook.settle out.order b₁ = (out.exit, b') := hm.settled
    rw [hstatus]
    rcases QueueBook.settle_cases hsettled with
      ⟨hexit, hlive, -⟩ | ⟨-, ⟨hexit, hdone⟩ | ⟨hexit, hlive, -⟩ | ⟨hexit, hlive, -⟩⟩
    · exact iff_of_false (fun h => h hlive) (by simp [hexit])
    · exact iff_of_true hdone hexit
    · exact iff_of_false (fun h => h hlive) (by simp [hexit])
    · exact iff_of_false (fun h => h hlive) (by simp [hexit])
  · intro x hx hid
    have hfind := hm.find?_own hb' hfresh
    rw [hb'.find?_eq_some.mpr ⟨hx, hid⟩] at hfind
    split at hfind
    · rw [Option.some.inj hfind]
      rfl
    · simp at hfind

/-- **The reports to the submitter add up**: one for each trade, in order, with the executed
quantity so far; the last one says filled exactly if the engine filled the order, and gives the
executed quantity of what rests. -/
theorem taker_reports_add_up (hrun : Reaches clock n (fun e c => e.QueuesFresh c) tr g.engine)
    (hin : g.LoggedIn fd) (hnew : ¬ g.engine.Rests (cleanSymbol req.symbol) req.clientOrderId)
    (h : handleNewOrder clock now fuel fd req behind g = .ok (r, g'))
    (htraded : newTrades g g' ≠ []) (hfault : r.fault = none) :
    AddsUp req.quantity (newTrades g g')
        (reportsOn req.clientOrderId (executionReports fd r.sent)) ∧
      ∃ out, Returns clock g.engine (.processNewOrder req.order) (.processed out) g'.engine ∧
        out.trades = newTrades g g' ∧
        ∀ report, (reportsOn req.clientOrderId (executionReports fd r.sent)).getLast? =
            some report →
          (report.status = 2 ↔ out.exit = .filled) ∧
            ∀ x ∈ (g'.engine.bookView (cleanSymbol req.symbol)).allOrders,
              x.id = req.clientOrderId → report.filledQuantity = x.quantityFilled := by
  have he := reaches_inv (fun _ _ hg => hg) hrun
  have hl := reaches_live (fun _ _ hg => hg) hrun req.order.symbol
  have hfresh := fresh_of_not_rests hnew
  obtain ⟨out, engine, hp, rfl, rfl⟩ := handleNewOrder_ok hin h
  obtain ⟨he', hf⟩ := processOrder_ok he hp fun _ _ => hfresh
  have htrades : newTrades g { g.log req.units with engine := engine } = out.trades := by
    show engine.tradeHistory.drop _ = _
    rw [hf.history, List.drop_left]
  rw [htrades] at htraded ⊢
  obtain ⟨hnone, -⟩ | ⟨-, hv, b₁, hm⟩ := process_cases he hp
  · exact absurd hnone htraded
  have ho := order_live hv
  obtain ⟨hreports, hdies⟩ := reports_spec now req behind fd out.trades
    { g.log req.units with engine := engine }
  obtain ⟨book, hbook⟩ := (hdies.mp hfault).resolve_left htraded
  -- with a book every trade is reported, and the reports on counterparties are about others
  have hown : reportsOn req.clientOrderId (executionReports fd
      (reports now req behind fd out.trades { g.log req.units with engine := engine }).sent) =
        takerReports req.order out.trades := by
    rw [hreports, requestReports_ok hbook htraded]
    exact reportsOn_tradeReports _ req.order (makers_ne hm hfresh)
  rw [hown]
  obtain ⟨hroom, hpos⟩ := trades_room hm hl ho
  exact ⟨takerReports_addsUp rfl hroom hpos, out, .process hp, rfl,
    fun report hlast => last_report hm (he'.wf _) hfresh htraded hlast⟩

end Request

/-! ### A concrete request -/

section Concrete

/-- A gateway with two offers in book `A`: two lots, and behind them five. -/
def twoOffers : ClientGateway :=
  { oneClient with
    engine := (ran (fun _ => 0) 10 100000 (fun e c => e.QueuesFresh c)
      [.processNewOrder (smallRequest 1 7 65 0 1 1 2).order,
        .processNewOrder (smallRequest 2 7 65 0 1 1 5).order]).2 }

/-- A request to buy six lots, as order 3 of user 8, and what comes of it. -/
def buySix : NewOrderRequest := smallRequest 3 8 65 0 0 1 6

/-- The reports on two lots and on four more. -/
theorem taker_reports_add_up_buySix :
    AddsUp buySix.quantity (newTrades twoOffers (after twoOffers (.newOrder 4 buySix)).2)
      (reportsOn 3 (executionReports 4 (after twoOffers (.newOrder 4 buySix)).1.sent)) := by
  have hrun : ∃ tr, Reaches (fun _ => 0) 100000 (fun e c => e.QueuesFresh c) tr twoOffers.engine :=
    ⟨_, reaches_ran rfl⟩
  obtain ⟨tr, hrun⟩ := hrun
  have hin : twoOffers.LoggedIn 4 := rfl
  have h : handleNewOrder (fun _ => 0) (fun _ => 0) 10 4 buySix [] twoOffers =
      .ok (after twoOffers (.newOrder 4 buySix)) := rfl
  exact (taker_reports_add_up hrun hin (by decide) h (List.cons_ne_nil _ _) rfl).1

end Concrete

end ClientGateway

end OrderMatchingEngine
