import Mathlib.Algebra.Order.Ring.Int
import OrderMatchingEngine.Refinement.Runs

/-!
# OrderMatchingEngine.Properties.Termination

Do the matching loops terminate?

They do from every state whose resting orders have distinct ids and numbers for prices:
every pass completes a maker or satisfies the taker. When two resting orders share an id,
`order_lookup_` knows only the later one; completing the earlier one then removes the wrong
node or none, and the loop meets the same filled order again, for ever.
-/

namespace OrderMatchingEngine

namespace MatchingEngine

section Terminates

variable {α : Type} [LinearOrder α] [Zero α] {clock : Nat → Timestamp} {n : Nat}
  {tr : List (Call α × Ret α)} {e : MatchingEngine α}

/-- **Termination and progress.** After calls that queue orders only under fresh ids and at
prices that are numbers, every order is processed: its trades have positive quantities and
there is at most one for each order resting on the opposite side. -/
theorem matching_terminates
    (h : Reaches clock n (fun e c => e.QueuesFresh c ∧ c.QueuesNumber) tr e) (o : Order α) :
    ∃ out e', Returns clock e (.processNewOrder o) (.processed out) e' ∧
      (∀ t ∈ out.trades, 0 < t.quantity) ∧
      out.trades.length ≤ ((e.bookOf o.symbol).nodes o.side.opposite).length := by
  have he := reaches_inv (fun _ _ hg => hg.1) h
  have hl := reaches_live (fun _ _ hg => hg.1) h o.symbol
  obtain ⟨hex, -⟩ := reaches_exact (fun _ _ hg => hg) h o.symbol
  obtain ⟨r, e', fuel, hr⟩ := returns_total clock (c := .processNewOrder o) he hex
  obtain ⟨out, hout, hcases⟩ := QueueBook.step_process (he.book o.symbol).wf (call_step he hr)
  obtain ⟨out', rfl, rfl⟩ := Ret.untimed_eq_processed hout
  -- the returned trades are those of the observable book, whose opposite side is the queue
  have htrades : (∀ t ∈ out'.untimed.trades, 0 < t.quantity) ∧ out'.untimed.trades.length ≤
      ((e.bookView o.symbol).orders o.side.opposite).length := by
    rcases hcases with ⟨-, -, hnone, -⟩ | ⟨-, b₁, hm⟩
    · simp [hnone]
    · rw [hm.trades]
      exact ⟨QueueBook.fillQueue_pos (hl _), QueueBook.fillQueue_length_le _ _ _⟩
  refine ⟨out', e', ⟨fuel, hr⟩, ?_, ?_⟩
  · intro t ht
    exact htrades.1 t.untimed (List.mem_map_of_mem ht)
  · have hlen := htrades.2
    rw [bookView, OrderBook.view_orders, List.length_map, Outcome.untimed, List.length_map] at hlen
    exact hlen

/-! ### Why ids matter -/

/-- The loop meets an order that is completely filled, whose id `order_lookup_` does not
know: nothing is traded and nothing is removed. -/
structure Stuck (sd : OrderSide) (own best : Slot) (s : Matching α) : Prop where
  best_eq : OrderBook.bestOf sd.opposite s.book = some best
  best_ne : best ≠ own
  wanting : (s.engine.cells own).remainingQty ≠ 0
  accepts : QueueBook.refuses sd (s.engine.cells own) (s.engine.cells best) = false
  filled : (s.engine.cells best).remainingQty = 0
  unknown : s.book.orderLookup.lookup (s.engine.cells best).id = none

omit [Zero α] in
/-- A pass from a stuck state is another trade, of nothing, into a stuck state. -/
theorem Stuck.next {sd : OrderSide} {own best : Slot} {s : Matching α}
    (h : Stuck sd own best s) :
    ∃ s', matchBodyOf clock sd own s = .ok (.next s') ∧ Stuck sd own best s' := by
  have hmin : min (s.engine.cells own).remainingQty (s.engine.cells best).remainingQty = 0 := by
    rw [h.filled]
    exact if_neg fun hle => h.wanting (UInt64.le_zero_iff.mp hle)
  have hzero : ∀ o : Order α, o.reduceQuantity 0 = o := fun o => by
    simp [Order.reduceQuantity]
  have hcells : (afterTrade clock sd own best 0 s).engine.cells = s.engine.cells := by
    funext p
    rw [afterTrade_cells clock sd h.best_ne, hzero, ite_self]
  have hfilled : (s.engine.cells best).isFilled = true := by
    have hrem := h.filled
    unfold Order.remainingQty at hrem
    rw [Order.isFilled_eq_true]
    grind
  have hcancel : s.book.cancelOrder s.engine.cells (s.engine.cells best).id =
      .ok (none, s.book) := by
    rw [OrderBook.cancelOrder, h.unknown]
  refine ⟨⟨(afterTrade clock sd own best 0 s).engine.deallocate best, s.book,
    (afterTrade clock sd own best 0 s).trades⟩, ?_, ?_⟩
  · rw [matchBodyOf_eq, if_neg h.wanting, h.best_eq]
    have hbook : (afterTrade clock sd own best 0 s).book = s.book := rfl
    simp only [h.accepts, hmin, hcells, hfilled, hbook, hcancel]
    rfl
  · have hdealloc : ((afterTrade clock sd own best 0 s).engine.deallocate best).cells =
        s.engine.cells := hcells
    constructor
    · exact h.best_eq
    · exact h.best_ne
    · rw [hdealloc]; exact h.wanting
    · rw [hdealloc]; exact h.accepts
    · rw [hdealloc]; exact h.filled
    · rw [hdealloc]; exact h.unknown

omit [Zero α] in
/-- A loop that gets stuck never ends. -/
theorem Stuck.diverges {sd : OrderSide} {own best : Slot} {s : Matching α}
    (h : Stuck sd own best s) (fuel : Nat) :
    FuelLoop.run .outOfFuel (matchBodyOf clock sd own) fuel s = .error .outOfFuel :=
  FuelLoop.run_diverges (Stuck sd own best) (fun _ h => h.next) fuel h

end Terminates

section Collision

/-- A sell order of five lots. -/
def sellFive (id : OrderID) (price : Int) : Order Int :=
  { id := id, symbol := [65], userId := 1, side := .sell, type := .limit, price := .num price,
    quantity := 5, timestamp := 0 }

/-- A market order for ten lots. -/
def buyTen : Order Int :=
  { id := 2, symbol := [65], userId := 2, side := .buy, type := .market, price := 0,
    quantity := 10, timestamp := 0 }

/-- The engine after two sell orders with one id. -/
def afterCollision : MatchingEngine Int :=
  ((execute (fun _ => 0) 10 (fun _ _ => True) init
    [.processNewOrder (sellFive 1 100), .processNewOrder (sellFive 1 101)]).map Prod.snd).getD init

/-- **Two resting orders with one id hang the engine**: no bound is enough for the market
order that takes both. -/
theorem matching_diverges :
    ∃ tr e, Reaches (fun _ => 0) 100000 (fun (_ : MatchingEngine Int) _ => True) tr e ∧
      buyTen.quantityFilled = 0 ∧
      ∀ fuel, call (fun _ => 0) fuel e (.processNewOrder buyTen) = .error .outOfFuel := by
  refine ⟨_, afterCollision, reaches_of_execute (fun _ => 0) 10 100000
    [.processNewOrder (sellFive 1 100), .processNewOrder (sellFive 1 101)] rfl, rfl, ?_⟩
  intro fuel
  have hfree : afterCollision.orderPool.freeIndices = 99997 :: ObjectPool.indicesBelow 99997 := rfl
  have hloop : matchAgainst (fun _ => 0) buyTen.side fuel 99997
      (afterCollision.bookOf buyTen.symbol)
      (accepted buyTen 99997 (ObjectPool.indicesBelow 99997) afterCollision) =
        .error .outOfFuel := by
    cases fuel with
    | zero => rfl
    | succ fuel =>
        -- the first pass completes the order at 100 and removes the one at 101
        obtain ⟨s₁, hfirst, hstuck⟩ : ∃ s₁, matchBodyOf (fun _ => 0) .buy 99997
            ⟨accepted buyTen 99997 (ObjectPool.indicesBelow 99997) afterCollision,
              afterCollision.bookOf buyTen.symbol, []⟩ = .ok (.next s₁) ∧
            Stuck .buy 99997 99999 s₁ :=
          ⟨_, rfl, ⟨rfl, by decide, by decide, rfl, rfl, rfl⟩⟩
        unfold matchAgainst
        exact (FuelLoop.run_next hfirst).trans (hstuck.diverges fuel)
  rw [call, processOrder_accepted hfree rfl, hloop]
  rfl

/-- The engine after two sell orders with different ids. -/
def afterTwoSells : MatchingEngine Int :=
  ((execute (fun _ => 0) 10 (fun e c => e.QueuesFresh c ∧ c.QueuesNumber) init
    [.processNewOrder (sellFive 1 100), .processNewOrder (sellFive 3 101)]).map Prod.snd).getD init

/-- The same market order after two sell orders with different ids. -/
theorem matching_terminates_twoSells :
    ∃ out e', Returns (fun _ => 0) afterTwoSells (.processNewOrder buyTen) (.processed out) e' ∧
      (∀ t ∈ out.trades, 0 < t.quantity) ∧
      out.trades.length ≤
        ((afterTwoSells.bookOf buyTen.symbol).nodes buyTen.side.opposite).length :=
  matching_terminates (reaches_of_execute (fun _ => 0) 10 100000
    [.processNewOrder (sellFive 1 100), .processNewOrder (sellFive 3 101)] rfl) buyTen

end Collision

end MatchingEngine

end OrderMatchingEngine
