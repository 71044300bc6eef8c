import OrderMatchingEngine.Abstract.Accounting
import OrderMatchingEngine.Refinement.Handlers

/-!
# OrderMatchingEngine.Properties.Fates

What the reports tell the submitter about the fate of an order.

The gateway sees the trades only. An order without trades is reported as new, whether it was
queued, refused or discarded, and no report says that a remainder was discarded. So the last
report is right (`fate_reported`) for LIMIT orders that are queued and for orders that are
completely filled, the latter if the reports get as far as the last trade.
-/

namespace OrderMatchingEngine

namespace ClientGateway

open MatchingEngine

/-- The status in the last report on the order with this id. -/
def lastStatus (id : OrderID) (reports : List ExecutionReport) : Option UInt8 :=
  (reports.filter fun report => report.clientOrderId = id).getLast?.map (·.status)

/-- A status is right about an order: new or partially filled if it rests, filled if it was
completely filled, cancelled or rejected otherwise. -/
structure Tells (status : UInt8) (rests filled : Prop) : Prop where
  resting : status = 0 ∨ status = 1 ↔ rests
  complete : status = 2 ↔ filled
  gone : ¬ rests → ¬ filled → status = 3 ∨ status = 4

/-- About an order that was not filled, new and partially filled are right if it rests. -/
theorem tells_unfilled {status : UInt8} {rests filled : Prop} (hstatus : status = 0 ∨ status = 1)
    (hfilled : ¬ filled) : Tells status rests filled ↔ rests := by
  constructor
  · exact fun h => h.resting.mp hstatus
  · intro hrests
    refine ⟨iff_of_true hstatus hrests, iff_of_false ?_ hfilled, fun h => absurd hrests h⟩
    rcases hstatus with rfl | rfl <;> decide

/-- About an order that was filled only filled is right. -/
theorem tells_filled {status : UInt8} {rests filled : Prop} (hrests : ¬ rests) (hfilled : filled) :
    Tells status rests filled ↔ status = 2 := by
  constructor
  · exact fun h => h.complete.mpr hfilled
  · rintro rfl
    exact ⟨iff_of_false (by decide) hrests, iff_of_true rfl hfilled, fun _ h => absurd hfilled h⟩

/-- The last report to the submitter is right about the order. -/
def TellsFate (fd : Int) (req : NewOrderRequest) (g : ClientGateway) (r : Reporting)
    (g' : ClientGateway) : Prop :=
  ∃ status, lastStatus req.clientOrderId (executionReports fd r.sent) = some status ∧
    Tells status (g'.engine.Rests (cleanSymbol req.symbol) req.clientOrderId)
      (0 < req.quantity ∧ executed (newTrades g g') req.clientOrderId = req.quantity.toNat)

/-- The order gets a slot and is valid; and either it is a LIMIT order that wants more than its
book can give, or its book can give it all, and the reports find a book or need only one trade. -/
def FateTellable (req : NewOrderRequest) (behind : List UInt8) (e : MatchingEngine Int) : Prop :=
  let book := e.bookView (cleanSymbol req.symbol)
  e.orderPool.freeIndices ≠ [] ∧ validateOrder req.order = true ∧
    ((req.order.type = .limit ∧ book.liquidity req.order < req.order.unfilled) ∨
      (req.order.unfilled ≤ book.liquidity req.order ∧
        ((∃ found, reportingBook req behind e = .ok found) ∨
          ∃ maker, (book.accepted req.order).head? = some maker ∧
            req.order.unfilled ≤ maker.unfilled)))

/-! ### The last report -/

/-- A report on a counterparty with another id is about another order. -/
theorem makerReport_ne {order : Order Int} {t : Trade Int}
    (ht : t.orderId order.side.opposite ≠ order.id) (quantity filledQuantity : Quantity) :
    (makerReport (order.reduceQuantity quantity) t filledQuantity).clientOrderId ≠ order.id := by
  unfold makerReport
  unfold Trade.orderId at ht
  cases hside : order.side <;> simpa [hside, Order.reduceQuantity] using ht

/-- The reports on the counterparties are about other orders, so the last report on the order
itself is the one on its last trade. -/
theorem lastStatus_tradeReports (filledQuantity : Quantity → Quantity) (order : Order Int)
    {trades : List (Trade Int)} (hne : trades ≠ [])
    (hids : ∀ t ∈ trades, t.orderId order.side.opposite ≠ order.id) :
    lastStatus order.id (tradeReports filledQuantity order trades) =
      some (if (order.reduceQuantity (trades.map Trade.quantity).sum).isFilled then 2 else 1) := by
  induction trades generalizing order with
  | nil => exact absurd rfl hne
  | cons t trades ih =>
      obtain ⟨ht, htrades⟩ := List.forall_mem_cons.mp hids
      have hmaker := makerReport_ne ht t.quantity (filledQuantity t.quantity)
      rw [lastStatus, tradeReports, List.filter_cons_of_pos (by simp [takerReport]),
        List.filter_cons_of_neg (by simpa using hmaker), List.getLast?_cons, List.map_cons,
        List.sum_cons, Order.reduceQuantity_add]
      rcases eq_or_ne trades [] with rfl | hmore
      · rw [List.map_nil, List.sum_nil, Order.reduceQuantity_zero]
        rfl
      · have hlast := ih (order.reduceQuantity t.quantity) hmore htrades
        rw [lastStatus, Order.reduceQuantity_id] at hlast
        obtain ⟨report, hreport, hstatus⟩ := Option.map_eq_some_iff.mp hlast
        rw [hreport]
        exact congrArg some hstatus

section Matched

variable {req : NewOrderRequest} {behind : List UInt8} {out : Outcome Int}
  {b b₁ b' : QueueBook Int} {e' : MatchingEngine Int}

/-- The counterparties of a new order have other ids. -/
theorem makers_ne (hm : QueueBook.Matched req.order.symbol b req.order out.untimed b₁ b')
    (hfresh : ∀ x ∈ b.allOrders, x.id ≠ req.order.id) :
    ∀ t ∈ out.trades, t.orderId req.order.side.opposite ≠ req.order.id := by
  intro t ht
  have hmem : t.untimed ∈ (b.matched req.order).trades := by
    rw [← hm.trades]
    exact List.mem_map_of_mem ht
  obtain ⟨own, maker, qty, hsame, hmaker, -, hut⟩ := QueueBook.fillQueue_trade _ _ _ _ hmem
  have hid : t.orderId req.order.side.opposite = maker.id := by
    have horder : t.untimed.orderId req.order.side.opposite = maker.id := by
      rw [hut]
      cases req.order.side <;> rfl
    rw [← horder]
    cases req.order.side <;> rfl
  rw [hid]
  exact hfresh maker (QueueBook.mem_allOrders.mpr ⟨_, hmaker⟩)

theorem quantities_eq (hm : QueueBook.Matched req.order.symbol b req.order out.untimed b₁ b') :
    out.trades.map Trade.quantity = (b.matched req.order).trades.map Trade.quantity := by
  rw [← hm.trades]
  show _ = (out.trades.map Trade.untimed).map Trade.quantity
  rw [List.map_map]
  rfl

/-- Counting the trades up gives the order as it left matching. -/
theorem reduceQuantity_trades
    (hm : QueueBook.Matched req.order.symbol b req.order out.untimed b₁ b') :
    req.order.reduceQuantity (out.trades.map Trade.quantity).sum = (b.matched req.order).own := by
  rw [quantities_eq hm, QueueBook.matched, ← QueueBook.fillQueue_own_sum]

/-- The quantity of the first trade. -/
theorem first_trade (hm : QueueBook.Matched req.order.symbol b req.order out.untimed b₁ b')
    (hl : QueueBook.Live b) {t : Trade Int} {trades : List (Trade Int)}
    (ht : out.trades = t :: trades) :
    ∃ maker, (b.accepted req.order).head? = some maker ∧
      t.quantity = .ofNat (min req.order.unfilled maker.unfilled) := by
  have hquantities := quantities_eq hm
  rw [ht, QueueBook.matched_trades hl, List.map_map] at hquantities
  rcases hfills : b.fills req.order with _ | ⟨fill, fills⟩
  · simp [hfills] at hquantities
  · obtain ⟨hhead, hamount⟩ := QueueBook.fills_head hfills
    rw [hfills] at hquantities
    refine ⟨fill.1, hhead, ?_⟩
    rw [← hamount]
    have hfirst := (List.cons.inj hquantities).1
    rwa [Function.comp_apply, QueueBook.trade_quantity] at hfirst

/-- The last report on an order that was matched: it is reported filled exactly if it was, and if
the reports got to the trade that filled it. -/
theorem lastStatus_matched (behind : List UInt8) (e' : MatchingEngine Int)
    (hm : QueueBook.Matched req.order.symbol b req.order out.untimed b₁ b')
    (hl : QueueBook.Live b) (ho : req.order.Live)
    (hfresh : ∀ x ∈ b.allOrders, x.id ≠ req.order.id) :
    ∃ status, lastStatus req.clientOrderId (requestReports req behind out.trades e') =
        some status ∧
      (status = 0 ∨ status = 1 ∨ status = 2) ∧
      (status = 2 ↔ req.order.unfilled ≤ b.liquidity req.order ∧
        ((∃ found, reportingBook req behind e' = .ok found) ∨
          ∃ maker, (b.accepted req.order).head? = some maker ∧
            req.order.unfilled ≤ maker.unfilled)) := by
  have hdone : (b.matched req.order).own.isFilled = true ↔
      req.order.unfilled ≤ b.liquidity req.order := by
    rw [← Bool.not_eq_false, Order.isFilled_eq_false, QueueBook.matched_own_live hl ho, not_lt]
  have hpos := ho.unfilled_pos
  rcases htrades : out.trades with _ | ⟨t, trades⟩
  · refine ⟨0, by simp [lastStatus, requestReports, newReport, NewOrderRequest.order],
      .inl rfl, ?_⟩
    refine iff_of_false (by decide) ?_
    intro h
    -- without trades nothing of the order is executed
    have hsame := reduceQuantity_trades hm
    rw [htrades, List.map_nil, List.sum_nil, Order.reduceQuantity_zero] at hsame
    have hfilled := hdone.mpr h.1
    rw [← hsame, Order.isFilled_eq_false.mpr ho] at hfilled
    simp at hfilled
  · obtain ⟨maker, hhead, hqty⟩ := first_trade hm hl htrades
    rcases hbook : reportingBook req behind e' with fault | found
    · have hfirst : (req.order.reduceQuantity t.quantity).isFilled = true ↔
          req.order.unfilled ≤ maker.unfilled := by
        rw [hqty, ho.isFilled_reduceQuantity (Nat.min_le_left _ _)]
        omega
      have hle : maker.unfilled ≤ b.liquidity req.order := by
        rw [QueueBook.liquidity]
        exact List.single_le_sum (fun _ _ => Nat.zero_le _) _
          (List.mem_map_of_mem (List.mem_of_mem_head? hhead))
      refine ⟨if (req.order.reduceQuantity t.quantity).isFilled then 2 else 1, ?_, ?_, ?_⟩
      · simp [lastStatus, requestReports, hbook, takerReport, NewOrderRequest.order]
      · split <;> simp
      · simp only [hhead, Option.some.injEq, exists_eq_left', reduceCtorEq, exists_false, false_or]
        rw [← hfirst]
        constructor
        · intro hstatus
          have hfilled : (req.order.reduceQuantity t.quantity).isFilled = true := by
            by_contra hopen
            simp [hopen] at hstatus
          exact ⟨(hfirst.mp hfilled).trans hle, hfilled⟩
        · intro h
          rw [if_pos h.2]
    · refine ⟨if (b.matched req.order).own.isFilled then 2 else 1, ?_, ?_, ?_⟩
      · have hlast := lastStatus_tradeReports (reportedFill e' found req.clientOrderId) req.order
          (List.cons_ne_nil t trades) (htrades ▸ makers_ne hm hfresh)
        rw [← htrades, reduceQuantity_trades hm] at hlast
        rw [← htrades, requestReports_ok hbook (by simp [htrades])]
        exact hlast
      · split <;> simp
      · rw [← hdone]
        by_cases hfilled : (b.matched req.order).own.isFilled = true <;> simp [hfilled]

end Matched

/-! ### The fate of an order -/

section Request

variable {clock now : Nat → Timestamp} {fuel n : Nat} {fd : Int} {g g' : ClientGateway}
  {r : Reporting} {req : NewOrderRequest} {behind : List UInt8} {tr : List (Call Int × Ret Int)}
  {e e' : MatchingEngine Int} {out : Outcome Int}

/-- What was executed of an order that was matched: its quantity exactly if there was enough. -/
theorem executed_matched {b b₁ b' : QueueBook Int} (hb : QueueBook.WF req.order.symbol b)
    (hm : QueueBook.Matched req.order.symbol b req.order out.untimed b₁ b')
    (hl : QueueBook.Live b) (ho : req.order.Live)
    (hfresh : ∀ x ∈ b.allOrders, x.id ≠ req.order.id) :
    (0 < req.quantity ∧ executed out.trades req.clientOrderId = req.quantity.toNat) ↔
      req.order.unfilled ≤ b.liquidity req.order := by
  have hquantity : req.order.unfilled = req.quantity.toNat := by
    rw [ho.unfilled_eq]
    exact Nat.sub_zero _
  have htaker := (QueueBook.matched_executes hb hl rfl hfresh).taker
  have hqty : (UInt64.ofNat (min req.order.unfilled (b.liquidity req.order))).toNat =
      min req.order.unfilled (b.liquidity req.order) :=
    UInt64.toNat_ofNat_of_lt
      (Nat.lt_of_le_of_lt (Nat.min_le_left _ _) req.order.remainingQty.toNat_lt)
  rw [QueueBook.matched_own hl,
    ho.quantityFilled_reduceQuantity (by rw [hqty]; exact Nat.min_le_left _ _), hqty, ← hm.trades]
    at htaker
  have hexecuted : executed out.trades req.clientOrderId =
      min req.order.unfilled (b.liquidity req.order) := by
    rw [← executed_untimed]
    exact (Nat.add_left_cancel htaker).symm
  have hpos : 0 < req.quantity := ho
  rw [hexecuted, ← hquantity]
  simp only [hpos, true_and]
  omega

/-- A matched order rests exactly if it is a LIMIT order that its book could not fill. -/
theorem rests_matched {b₁ : QueueBook Int}
    (hm : QueueBook.Matched req.order.symbol (e.bookView req.order.symbol) req.order out.untimed b₁
      (e'.bookView req.order.symbol))
    (hl : QueueBook.Live (e.bookView req.order.symbol)) (ho : req.order.Live)
    (hfresh : ∀ x ∈ (e.bookView req.order.symbol).allOrders, x.id ≠ req.order.id) :
    e'.Rests req.order.symbol req.order.id ↔
      (e.bookView req.order.symbol).liquidity req.order < req.order.unfilled ∧
        req.order.type = .limit := by
  obtain ⟨-, hioc, hlimit⟩ := order_type req
  rw [rests_iff, hm.rests_iff hfresh, hm.exit_rested hl ho, hlimit]
  exact ⟨fun h => ⟨h.1, h.2.2⟩, fun h => ⟨h.1, hioc, h.2⟩⟩

/-- An order that its book can fill finds an order there. -/
theorem accepted_of_enough {b : QueueBook Int} {o : Order Int} (ho : o.Live)
    (henough : o.unfilled ≤ b.liquidity o) : ∃ x, x ∈ b.accepted o := by
  refine List.exists_mem_of_ne_nil _ fun hnil => ?_
  have hpos := ho.unfilled_pos
  rw [QueueBook.liquidity, hnil, List.map_nil, List.sum_nil] at henough
  omega

/-- An order that is not matched is reported as new, although it does not rest. -/
theorem not_tells_unmatched (hrests : ¬ e'.Rests req.order.symbol req.order.id) (filled : Prop) :
    ¬ ∃ status, lastStatus req.clientOrderId (requestReports req behind [] e') = some status ∧
      Tells status (e'.Rests req.order.symbol req.order.id) filled := by
  intro htells
  obtain ⟨status, hstatus, htells⟩ := htells
  have hzero : status = 0 := by
    simpa [lastStatus, requestReports, newReport, NewOrderRequest.order, eq_comm] using hstatus
  exact hrests (htells.resting.mp (.inl hzero))

/-- **The last report tells the fate of the order exactly if** it can. -/
theorem fate_reported (hrun : Reaches clock n (fun e c => e.QueuesFresh c) tr g.engine)
    (hin : g.LoggedIn fd) (hnew : ¬ g.engine.Rests (cleanSymbol req.symbol) req.clientOrderId)
    (h : handleNewOrder clock now fuel fd req behind g = .ok (r, g')) :
    TellsFate fd req g r g' ↔ FateTellable req behind g.engine := by
  have he := reaches_inv (fun _ _ hg => hg) hrun
  have hl := reaches_live (fun _ _ hg => hg) hrun req.order.symbol
  have hb := he.wf req.order.symbol
  have hfresh := fresh_of_not_rests hnew
  obtain ⟨out, engine, hp, rfl, hf, htrades, hreports⟩ := handleNewOrder_reports he hin hnew h
  unfold TellsFate
  rw [htrades, hreports]
  rcases process_cases he hp with ⟨hnone, hview, hrefused⟩ | ⟨hfree, hv, b₁, hm⟩
  · -- A refused order is reported as new.
    have hrests : ¬ engine.Rests req.order.symbol req.order.id := by
      rw [rests_iff, hview, ← rests_iff]
      exact hnew
    rw [hnone]
    refine iff_of_false (not_tells_unmatched hrests _) ?_
    · intro hcond
      obtain ⟨hfree, hv, -⟩ := hcond
      rcases hrefused with h | h | h
      · exact hfree h
      · simp [hv] at h
      · exact (order_type req).1 h
  · have ho := order_live hv
    have hrests := rests_matched hm hl ho hfresh
    have hfilled := executed_matched hb hm hl ho hfresh
    obtain ⟨status, hstatus, hvalues, htwo⟩ :=
      lastStatus_matched behind engine hm hl ho hfresh
    rw [hstatus]
    simp only [Option.some.injEq, exists_eq_left']
    by_cases henough : req.order.unfilled ≤
        (g.engine.bookView req.order.symbol).liquidity req.order
    · have hnot : ¬ engine.Rests req.order.symbol req.order.id := by
        rw [hrests]
        omega
      -- an order that is filled met an order, so its symbol had a book
      obtain ⟨x, hx⟩ := accepted_of_enough ho henough
      have hbook := reportingBook_congr behind hf
        ((List.takeWhile_sublist _).mem hx) hfree hv hp
      rw [hbook] at htwo
      refine (tells_filled hnot (hfilled.mpr henough)).trans (htwo.trans ?_)
      have hno : ¬ (g.engine.bookView req.order.symbol).liquidity req.order <
          req.order.unfilled := by omega
      constructor
      · exact fun h => ⟨hfree, hv, .inr h⟩
      · exact fun h => h.2.2.resolve_left fun hlt => hno hlt.2
    · have hstatus' : status = 0 ∨ status = 1 := by
        have hne : status ≠ 2 := fun h => henough (htwo.mp h).1
        exact hvalues.imp_right fun h => h.resolve_right hne
      refine (tells_unfilled hstatus' fun h => henough (hfilled.mp h)).trans (hrests.trans ?_)
      constructor
      · exact fun h => ⟨hfree, hv, .inl ⟨h.2, h.1⟩⟩
      · intro h
        obtain ⟨hlimit, hlt⟩ := h.2.2.resolve_right fun hle => henough hle.1
        exact ⟨hlt, hlimit⟩

end Request

/-! ### Concrete requests -/

section Concrete

/-- A MARKET order to buy five lots of `A`, as order 1 of user 7. -/
def marketFive : NewOrderRequest := smallRequest 1 7 65 0 0 0 5

/-- What comes of it on a fresh gateway. -/
def afterMarket : Reporting × ClientGateway := after oneClient (.newOrder 4 marketFive)

theorem handle_marketFive : handleNewOrder (fun _ => 0) (fun _ => 0) 10 4 marketFive [] oneClient =
    .ok afterMarket := rfl

theorem not_rests_marketFive :
    ¬ oneClient.engine.Rests (cleanSymbol marketFive.symbol) marketFive.clientOrderId := by decide

/-- **A MARKET order that finds nothing to trade with is reported as new**, although it was
discarded. -/
theorem discarded_reported_new :
    Reaches (fun _ => 0) 100000 (fun e c => e.QueuesFresh c) [] oneClient.engine ∧
      oneClient.LoggedIn 4 ∧
      ¬ oneClient.engine.Rests (cleanSymbol marketFive.symbol) marketFive.clientOrderId ∧
      handleNewOrder (fun _ => 0) (fun _ => 0) 10 4 marketFive [] oneClient = .ok afterMarket ∧
      lastStatus 1 (executionReports 4 afterMarket.1.sent) = some 0 ∧
      ¬ afterMarket.2.engine.Rests [65] 1 ∧ ¬ TellsFate 4 marketFive oneClient afterMarket.1
        afterMarket.2 := by
  have hrests : ¬ afterMarket.2.engine.Rests [65] 1 := by decide
  refine ⟨.nil, rfl, not_rests_marketFive, rfl, rfl, hrests, ?_⟩
  intro htells
  obtain ⟨status, hstatus, htells⟩ := htells
  obtain rfl : 0 = status := Option.some.inj hstatus
  exact hrests (htells.resting.mp (.inl rfl))

/-- The fate of that order is not reported because it could not be. -/
theorem fate_reported_marketFive :
    TellsFate 4 marketFive oneClient afterMarket.1 afterMarket.2 ↔
      FateTellable marketFive [] oneClient.engine :=
  fate_reported .nil rfl not_rests_marketFive handle_marketFive

end Concrete

end ClientGateway

end OrderMatchingEngine
