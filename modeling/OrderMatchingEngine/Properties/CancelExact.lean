import OrderMatchingEngine.Properties.FokCompleteness

/-!
# OrderMatchingEngine.Properties.CancelExact

Does a cancel take off exactly the order it names?

It erases the node that `order_lookup_` remembers from the level that a second look-up, by price,
finds. The two agree for every order whose price is a number. A price that is not a number selects
the lowest level, whichever that is by now, and erasing a node from a list it is not in is
undefined.
-/

namespace OrderMatchingEngine

namespace MatchingEngine

section Cancel

variable {α : Type} [LinearOrder α] [Zero α] {clock : Nat → Timestamp} {n : Nat}
  {G : MatchingEngine α → Call α → Prop} {tr : List (Call α × Ret α)} {e : MatchingEngine α}

/-- The cancel returns; it gives the order with that id as it rests, if one does; the book is the
one before without that order, and everything else is as it was; and a second cancel gives
nothing. -/
def CancelExact (clock : Nat → Timestamp) (e : MatchingEngine α) (id : OrderID) (symbol : Symbol)
    (side : Int) : Prop :=
  ∃ r e', Returns clock e (.cancelOrder id symbol side) (.cancelled r) e' ∧
    (r.isSome ↔ e.Rests symbol id) ∧
    (∀ x, r = some x → x.id = id ∧ x ∈ (e.bookView symbol).allOrders) ∧
    e'.bookView symbol = (e.bookView symbol).without id ∧
    (∀ symbol' ≠ symbol, e'.getOrderBook symbol' = e.getOrderBook symbol' ∧
      e'.bookView symbol' = e.bookView symbol') ∧
    e'.tradeHistory = e.tradeHistory ∧ e'.stats = e.stats ∧
    ∀ side', ∃ e'', Returns clock e' (.cancelOrder id symbol side') (.cancelled none) e''

/-- What a cancel on the observable book says about a call. -/
theorem returns_cancel (clock : Nat → Timestamp) (he : EngineInv e) {id : OrderID}
    {symbol : Symbol} (side : Int) {r : Option (Order α)} {b' : QueueBook α}
    (h : (e.bookView symbol).cancelOrder id = .ok (r, b')) :
    ∃ e', Returns clock e (.cancelOrder id symbol side) (.cancelled r) e' ∧
      e'.bookView symbol = b' ∧ cancelOrder id symbol side e = .ok (r, e') := by
  rw [cancelOrder_view he id symbol side] at h
  obtain ⟨⟨r', e'⟩, hc, hr⟩ := FuelLoop.map_eq_ok.mp h
  obtain ⟨rfl, rfl⟩ := Prod.mk.inj hr
  exact ⟨e', ⟨0, call_cancel.mpr ⟨r', hc, rfl⟩⟩, rfl, hc⟩

/-- A cancel that returns on the observable book is exact. -/
theorem cancelExact_of_returns (clock : Nat → Timestamp) (he : EngineInv e) {id : OrderID}
    {symbol : Symbol} (side : Int) {r : Option (Order α)} {b' : QueueBook α}
    (h : (e.bookView symbol).cancelOrder id = .ok (r, b')) :
    CancelExact clock e id symbol side := by
  have hwf := he.wf symbol
  obtain ⟨rfl, rfl⟩ := hwf.cancelOrder_without h
  obtain ⟨e', hr, hbook, hc⟩ := returns_cancel clock he side h
  obtain ⟨he', hframe⟩ := cancelOrder_ok he hc
  refine ⟨_, e', hr, ?_, ?_, hbook, ?_, ?_, cancelOrder_stats hc, ?_⟩
  · rw [rests_iff, QueueBook.find?, List.find?_isSome]
    simp
  · intro x hx
    exact (hwf.find?_eq_some.mp hx).symm
  · exact fun symbol' hne => ⟨hframe.books symbol' hne, hframe.bookView hne⟩
  · rw [hframe.history, List.append_nil]
  · intro side'
    -- the first cancel has left no order with that id
    have habsent : ∀ x ∈ (e'.bookView symbol).allOrders, x.id ≠ id := by
      intro x hx
      obtain ⟨sd, hx⟩ := QueueBook.mem_allOrders.mp hx
      rw [hbook, (hwf.cancelOrder_ok h).2.2 sd] at hx
      simpa using (List.mem_filter.mp hx).2
    obtain ⟨e'', hr', -⟩ := returns_cancel clock he' side' (QueueBook.cancelOrder_absent habsent)
    exact ⟨e'', hr'⟩

/-- **A cancel is exact** where the order does not rest, or rests in the level that its price
selects. Where no order was queued at a price that is not a number it always is. -/
theorem cancel_exact (hG : ∀ e c, G e c → e.QueuesFresh c) (h : Reaches clock n G tr e)
    (id : OrderID) (symbol : Symbol) (side : Int) :
    (CancelExact clock e id symbol side ↔ (e.bookView symbol).InLevel id) ∧
      ((∀ e c, G e c → c.QueuesNumber) → CancelExact clock e id symbol side) := by
  have he := reaches_inv hG h
  constructor
  · rw [← (he.wf symbol).cancelOrder_returns_iff id]
    constructor
    · intro hexact
      obtain ⟨r, e', ⟨fuel, hr⟩, -⟩ := hexact
      obtain ⟨x, hc, -⟩ := call_cancel.mp hr
      rw [cancelOrder_view he id symbol side, hc]
      exact ⟨_, _, rfl⟩
    · intro hreturns
      obtain ⟨r, b', hc⟩ := hreturns
      exact cancelExact_of_returns clock he side hc
  · intro hnumbers
    obtain ⟨hex, -⟩ := reaches_exact (fun e c hg => ⟨hG e c hg, hnumbers e c hg⟩) h symbol
    obtain ⟨r, b', hc, -⟩ := (he.wf symbol).cancelOrder_total hex id
    exact cancelExact_of_returns clock he side hc

end Cancel

/-! ### Concrete orders -/

section Concrete

/-- Three bids: at 90, at a price that is not a number, which joins the first, and at 80. -/
def nanBids : List (Call Int × Ret Int) × MatchingEngine Int :=
  ran (fun _ => 0) 10 100000 QueuesFresh
    [.processNewOrder (orderOf 1 .buy .limit 90 5),
      .processNewOrder { orderOf 2 .buy .limit 0 5 with price := .nan },
      .processNewOrder (orderOf 3 .buy .limit 80 5)]

theorem reaches_nanBids : Reaches (fun _ => 0) 100000 QueuesFresh nanBids.1 nanBids.2 :=
  reaches_ran rfl

/-- **The cancel of the second bid** erases its node from the level of the third. -/
theorem cancel_misses :
    Reaches (fun _ => 0) 100000 QueuesFresh nanBids.1 nanBids.2 ∧ nanBids.2.Rests [65] 2 ∧
      ¬ CancelExact (fun _ => 0) nanBids.2 2 [65] 0 := by
  refine ⟨reaches_nanBids, by decide, ?_⟩
  rw [(cancel_exact (fun _ _ hg => hg) reaches_nanBids 2 [65] 0).1]
  intro hin
  obtain ⟨queue, hqueue, hmem⟩ :=
    hin { orderOf 2 .buy .limit 0 5 with price := .nan } (by decide) rfl
  obtain rfl : [orderOf 3 .buy .limit 80 5] = queue := Option.some.inj hqueue
  exact absurd hmem (by decide)

/-- Three bids at 90 and one at 80. -/
def fourBids : List (Call Int × Ret Int) × MatchingEngine Int :=
  ran (fun _ => 0) 10 100000 (fun e c => e.QueuesFresh c ∧ c.QueuesNumber)
    [.processNewOrder (orderOf 1 .buy .limit 90 5), .processNewOrder (orderOf 2 .buy .limit 90 6),
      .processNewOrder (orderOf 3 .buy .limit 90 7), .processNewOrder (orderOf 4 .buy .limit 80 8)]

/-- The cancel of the second bid at 90. -/
theorem cancel_exact_fourBids : CancelExact (fun _ => 0) fourBids.2 2 [65] 0 :=
  (cancel_exact (fun _ _ hg => hg.1) (reaches_ran rfl) 2 [65] 0).2 fun _ _ hg => hg.2

end Concrete

end MatchingEngine

end OrderMatchingEngine
