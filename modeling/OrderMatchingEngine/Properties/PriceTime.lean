import Mathlib.Algebra.Order.Ring.Int
import OrderMatchingEngine.Abstract.Priority
import OrderMatchingEngine.Refinement.Runs

/-!
# OrderMatchingEngine.Properties.PriceTime

Price-time priority.

The arrival of an order is read off the run: it is the number of the last call that
submitted an order of its symbol under its id. In every reached state both sides of every
book are listed by price and arrival, so matching an order is the reference matching of what
rests, however that is listed.
-/

namespace OrderMatchingEngine

section Arrival

variable {α : Type}

/-- The call submits an order of this symbol under this id. -/
def Call.submits (symbol : Symbol) (id : OrderID) : Call α → Bool
  | .processNewOrder order => order.symbol == symbol && order.id == id
  | .cancelOrder _ _ _ => false

/-- The number of the last call that submitted an order of this symbol under this id,
counted from one. -/
def arrival (tr : List (Call α × Ret α)) (symbol : Symbol) (id : OrderID) : Nat :=
  tr.length - tr.reverse.findIdx fun x => x.1.submits symbol id

variable {tr : List (Call α × Ret α)} {symbol : Symbol} {id : OrderID}

theorem arrival_le : arrival tr symbol id ≤ tr.length := Nat.sub_le _ _

theorem arrival_snoc (c : Call α) (r : Ret α) : arrival (tr ++ [(c, r)]) symbol id =
    if c.submits symbol id then tr.length + 1 else arrival tr symbol id := by
  rw [arrival, List.reverse_append, List.length_append, List.reverse_singleton,
    List.singleton_append, List.findIdx_cons, arrival]
  cases c.submits symbol id with
  | true => rfl
  | false =>
      simp only [cond_false, List.length_singleton]
      exact Nat.add_sub_add_right ..

theorem arrival_snoc_of_ne {c : Call α} (r : Ret α) (h : symbol ≠ c.symbol) :
    arrival (tr ++ [(c, r)]) symbol id = arrival tr symbol id := by
  rw [arrival_snoc, if_neg]
  cases c with
  | cancelOrder id symbol side => exact Bool.false_ne_true
  | processNewOrder o =>
      simp only [Call.submits, Bool.and_eq_true, beq_iff_eq]
      exact fun hs => h hs.1.symm

end Arrival

namespace MatchingEngine

open QueueBook (reference enqueue Ranked)

variable {α : Type} [LinearOrder α] [Zero α] {clock : Nat → Timestamp} {n : Nat}
  {tr : List (Call α × Ret α)} {e e' : MatchingEngine α}

/-- The calls of price-time priority: ids are fresh, orders come unfilled and with numbers
for prices. -/
def Regular (e : MatchingEngine α) (c : Call α) : Prop := e.FreshId c ∧ c.Unfilled ∧ c.Priced

instance (e : MatchingEngine α) (c : Call α) : Decidable (e.Regular c) :=
  inferInstanceAs (Decidable (_ ∧ _ ∧ _))

omit [LinearOrder α] [Zero α] in
theorem Regular.queuesFresh {c : Call α} (h : e.Regular c) : e.QueuesFresh c := .of_freshId h.1

theorem reaches_numbers (h : Reaches clock n Regular tr e) (symbol : Symbol) :
    QueueBook.Exact (e.bookView symbol) ∧ QueueBook.Numbers (e.bookView symbol) :=
  reaches_bookView (fun _ _ hg => hg.queuesFresh)
    (fun _ b => QueueBook.Exact b ∧ QueueBook.Numbers b) (fun _ => ⟨.empty, .empty⟩)
    (fun _ _ _ _ hg hwf hI hs => QueueBook.step_exact hwf hs hI.1 hI.2
      fun _ hq => hq.price_ne_nan (Call.Priced.queuesNumber hg.2.2)) h symbol

/-- **Every book of a reached state is in price-time priority.** -/
theorem reaches_ranked (h : Reaches clock n Regular tr e) (symbol : Symbol) :
    Ranked (arrival tr symbol) (e.bookView symbol) := by
  have hall := Trace.Run.invariant
    (fun tr e => ∀ symbol, Ranked (arrival tr symbol) (e.bookView symbol))
    (fun symbol => by rw [bookView_withPool]; exact .empty _) ?_ h
  · exact hall symbol
  intro tr e c r e' hrun hI hs symbol
  have he := reaches_inv (fun _ _ hg => Regular.queuesFresh hg) hrun
  obtain ⟨-, hf, hstep⟩ := returns_spec he (Regular.queuesFresh hs.1) hs.2
  by_cases hsym : symbol = c.symbol
  · subst hsym
    obtain ⟨hex, hn⟩ := reaches_numbers hrun c.symbol
    -- the submitted order is not among those that rest, so their arrivals stay
    have hfresh : ∀ x ∈ (e.bookView c.symbol).allOrders, c.submits c.symbol x.id = false := by
      intro x hx
      cases c with
      | cancelOrder id symbol side => rfl
      | processNewOrder o =>
          have hne : o.id ≠ x.id := fun hid => hs.1.1 ((rests_iff e _ _).mpr ⟨x, hx, hid.symm⟩)
          simpa [Call.submits, Call.symbol] using hne
    refine QueueBook.step_ranked (he.wf _) hstep hex hn hs.1.2.2 ?_
      ((hI c.symbol).congr ?_)
    · rintro o rfl x hx
      rw [arrival_snoc, arrival_snoc, hfresh x hx, if_neg Bool.false_ne_true,
        if_pos (by simp [Call.submits, Call.symbol])]
      exact Nat.lt_succ_of_le arrival_le
    · intro x hx
      rw [arrival_snoc, hfresh x hx, if_neg Bool.false_ne_true]
  · rw [hf.bookView hsym]
    exact (hI symbol).congr fun x _ => arrival_snoc_of_ne r hsym

/-- What price-time priority asks of a call that processes `o`, in terms of the reference
matching of the orders that rest on the opposite side. -/
structure PriceTime (rank : OrderID → Nat) (o : Order α) (resting : List (Order α))
    (e e' : MatchingEngine α) (ts : List (Trade α)) : Prop where
  /-- The trades are those of the reference matcher. -/
  trades : ts.map Trade.untimed = (reference rank o resting).trades
  history : e'.tradeHistory = e.tradeHistory ++ ts
  /-- The opposite side is what the reference matcher leaves of it. -/
  opposite : (e'.bookView o.symbol).orders o.side.opposite = (reference rank o resting).queue
  /-- The remainder of a LIMIT or GFD order is queued by price, behind its equals. -/
  own : (e'.bookView o.symbol).orders o.side =
    if (reference rank o resting).own.isFilled = false ∧ (o.type = .limit ∨ o.type = .gfd) then
      enqueue o.side (reference rank o resting).own ((e.bookView o.symbol).orders o.side)
    else (e.bookView o.symbol).orders o.side
  others : ∀ symbol ≠ o.symbol, e'.bookView symbol = e.bookView symbol

/-- **Price-time priority.** Whatever calls led to a state, an order that is valid, gets a
slot and, if FOK, passes the liquidity check is processed, and matched as the reference
matcher does it. -/
theorem price_time_priority (h : Reaches clock n Regular tr e) {o : Order α}
    (hc : e.Regular (.processNewOrder o)) (hv : validateOrder o = true)
    (hslot : e.orderPool.freeIndices ≠ [])
    (hfok : o.type = .fok → canFillCompletely e.cells (e.bookOf o.symbol) o = true)
    {resting : List (Order α)}
    (hresting : resting.Perm ((e.bookView o.symbol).orders o.side.opposite)) :
    (∃ fuel r, processNewOrder clock fuel o e = .ok r) ∧
      ∀ fuel ts e', processNewOrder clock fuel o e = .ok (ts, e') →
        PriceTime (arrival tr o.symbol) o resting e e' ts := by
  have he := reaches_inv (fun _ _ hg => Regular.queuesFresh hg) h
  obtain ⟨hex, hn⟩ := reaches_numbers h o.symbol
  have hl := reaches_live (fun _ _ hg => Regular.queuesFresh hg) h o.symbol
  constructor
  · obtain ⟨r, e', fuel, hr⟩ := returns_total clock (c := .processNewOrder o) he hex
    obtain ⟨out, hp, -⟩ := call_process.mp hr
    exact ⟨fuel, (out.trades, e'), by rw [processNewOrder, hp]; rfl⟩
  · intro fuel ts e' hr
    obtain ⟨⟨out, e''⟩, hp, hout⟩ := FuelLoop.map_eq_ok.mp hr
    obtain ⟨rfl, rfl⟩ := Prod.mk.inj hout
    have hreturns := Returns.process hp
    obtain ⟨-, hf, -⟩ := returns_spec he hc.queuesFresh hreturns
    obtain ⟨fuel, hs⟩ := hreturns.submit he hslot hv
    rcases QueueBook.submit_ok (he.wf o.symbol) hs with ⟨-, -, htype, hkill⟩ | ⟨b₁, hm⟩
    · rw [bookView, OrderBook.canFillCompletely_view, hfok htype] at hkill
      simp at hkill
    -- time stamps of arrival rank the book as its levels do
    have href := QueueBook.matched_eq_reference (he.wf o.symbol) hex hl (reaches_ranked h o.symbol)
      o hresting
    have hown : out.order = (reference (arrival tr o.symbol) o resting).own := by
      rw [← href]
      exact hm.order
    constructor
    · rw [← href, ← hm.trades]
      rfl
    · exact hf.history
    · rw [← href]
      exact hm.orders_opposite
    · rw [← hown, hm.orders_own hex hn hc.2.2]
      exact if_congr (hm.rested_iff (he.wf o.symbol) hex hl hc.2.1) rfl rfl
    · exact fun symbol hne => hf.bookView hne

section Concrete

/-- A limit order to sell ten lots. -/
def sellTen (id : OrderID) (price : Int) : Order Int :=
  { id := id, symbol := [65], userId := 1, side := .sell, type := .limit, price := .num price,
    quantity := 10, timestamp := 0 }

/-- A limit order to buy fifteen lots at up to 101. -/
def buyFifteen : Order Int :=
  { id := 4, symbol := [65], userId := 2, side := .buy, type := .limit, price := .num 101,
    quantity := 15, timestamp := 0 }

/-- Three orders to sell: the second has the best price, the first has time over the third. -/
def threeSells : List (Call Int) :=
  [.processNewOrder (sellTen 1 101), .processNewOrder (sellTen 2 100),
    .processNewOrder (sellTen 3 101)]

/-- The run that submits them. -/
def threeSellsRun : List (Call Int × Ret Int) × MatchingEngine Int :=
  (execute (fun _ => 0) 10 Regular init threeSells).getD ([], init)

theorem price_time_priority_threeSells :
    (∃ fuel r, processNewOrder (fun _ => 0) fuel buyFifteen threeSellsRun.2 = .ok r) ∧
      ∀ fuel ts e', processNewOrder (fun _ => 0) fuel buyFifteen threeSellsRun.2 = .ok (ts, e') →
        PriceTime (arrival threeSellsRun.1 [65]) buyFifteen
          [sellTen 1 101, sellTen 2 100, sellTen 3 101] threeSellsRun.2 e' ts :=
  price_time_priority (reaches_of_execute (fun _ => 0) 10 100000 threeSells rfl) (by decide) rfl
    (List.cons_ne_nil 99996 (ObjectPool.indicesBelow 99996)) (by simp [buyFifteen]) (by decide)

end Concrete

end MatchingEngine

end OrderMatchingEngine
