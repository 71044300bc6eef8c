import OrderMatchingEngine.Properties.Termination

/-!
# OrderMatchingEngine.Properties.Collisions

Can a resting order get lost?

`order_lookup_` has one entry for each id, and both fills and cancels remove by id. As long
as orders are queued only under fresh ids, the entries and the list nodes correspond, and an
order leaves its book only when a trade executes all it had left or a cancel returns it.
Queueing a second order under the id of a resting one breaks both.
-/

namespace OrderMatchingEngine

namespace MatchingEngine

section NoOrderLost

variable {α : Type} [LinearOrder α] [Zero α] {clock : Nat → Timestamp} {n : Nat}
  {tr : List (Call α × Ret α)} {e : MatchingEngine α}

omit [Zero α] in
/-- The three counts of a book agree under the representation invariant. -/
theorem EngineInv.getTotalOrders (he : EngineInv e) (symbol : Symbol) :
    (e.bookOf symbol).getTotalOrders =
      (e.bookOf symbol).getBuyOrders + (e.bookOf symbol).getSellOrders := by
  rw [(he.book symbol).linked.getTotalOrders, OrderBook.getBuyOrders_eq,
    OrderBook.getSellOrders_eq, OrderBook.allNodes, List.length_append]

/-- **No resting order is lost** while orders are queued under fresh ids: the look-up table
counts what the levels hold, and an order that leaves a level was completely filled by a
trade of its own, or was returned by a cancel for its id. -/
theorem no_order_lost (h : Reaches clock n (fun e c => e.QueuesFresh c) tr e) :
    (∀ symbol, (e.bookOf symbol).getTotalOrders =
      (e.bookOf symbol).getBuyOrders + (e.bookOf symbol).getSellOrders) ∧
    ∀ c r e', e.QueuesFresh c → Returns clock e c r e' →
      ∀ symbol sd, ∀ x ∈ (e.bookView symbol).orders sd,
        (∃ y ∈ (e'.bookView symbol).orders sd, x.SameOrder y) ∨
          (∃ o out, c = .processNewOrder o ∧ r = .processed out ∧ symbol = o.symbol ∧
            sd = o.side.opposite ∧
            ∃ t ∈ out.trades, t.untimed = QueueBook.trade o.side o x x.remainingQty) ∨
          ∃ side, c = .cancelOrder x.id symbol side ∧ r = .cancelled (some x) := by
  have he := reaches_inv (fun _ _ hg => hg) h
  refine ⟨he.getTotalOrders, ?_⟩
  intro c r e' hfresh hr symbol sd x hx
  obtain ⟨-, hf, hstep⟩ := returns_spec he hfresh hr
  by_cases hsym : symbol = c.symbol
  · subst hsym
    rcases QueueBook.step_kept (he.book _).wf hstep (reaches_live (fun _ _ hg => hg) h _) hx with
      hkept | ⟨o, out, rfl, hout, hsd, ht⟩ | ⟨symbol, side, rfl, hout⟩
    · exact .inl hkept
    · obtain ⟨out', rfl, rfl⟩ := Ret.untimed_eq_processed hout
      exact .inr (.inl ⟨o, out', rfl, rfl, rfl, hsd, List.mem_map.mp ht⟩)
    · refine .inr (.inr ⟨side, rfl, ?_⟩)
      cases r with
      | processed out => simp [Ret.untimed] at hout
      | cancelled x' => exact hout
  · rw [hf.bookView hsym]
    exact .inl ⟨x, hx, .refl x⟩

end NoOrderLost

section Collision

/-- A market order for five lots. -/
def buyFive : Order Int := { buyTen with quantity := 5 }

/-- The engine after the five lots were bought from the collision of `afterCollision`. -/
def afterBuyFive : MatchingEngine Int :=
  ((execute (fun _ => 0) 10 (fun _ _ => True) afterCollision
    [.processNewOrder buyFive]).map Prod.snd).getD init

/-- **Two resting orders with one id**: the look-up table counts one order for two, and a
purchase from the order at 100 takes the untouched order at 101 off the book instead. -/
theorem order_lost :
    ∃ tr e, Reaches (fun _ => 0) 100000 (fun (_ : MatchingEngine Int) _ => True) tr e ∧
      (e.bookOf [65]).getTotalOrders = 1 ∧ (e.bookOf [65]).getBuyOrders = 0 ∧
      (e.bookOf [65]).getSellOrders = 2 ∧
      ∃ out e', Returns (fun _ => 0) e (.processNewOrder buyFive) (.processed out) e' ∧
        (e.bookView [65]).orders .sell = [sellFive 1 100, sellFive 1 101] ∧
        out.trades.map Trade.price = [.num 100] ∧
        (e'.bookView [65]).orders .sell = [(sellFive 1 100).reduceQuantity 5] :=
  ⟨_, afterCollision, reaches_of_execute (fun _ => 0) 10 100000 [.processNewOrder (sellFive 1 100),
      .processNewOrder (sellFive 1 101)] rfl, rfl, rfl, rfl,
    _, afterBuyFive, ⟨10, rfl⟩, by decide, by decide, by decide⟩

/-- The same purchase when the two sell orders have different ids. -/
theorem no_order_lost_twoSells :
    (∀ symbol, (afterTwoSells.bookOf symbol).getTotalOrders =
      (afterTwoSells.bookOf symbol).getBuyOrders + (afterTwoSells.bookOf symbol).getSellOrders) ∧
    ∀ c r e', afterTwoSells.QueuesFresh c → Returns (fun _ => 0) afterTwoSells c r e' →
      ∀ symbol sd, ∀ x ∈ (afterTwoSells.bookView symbol).orders sd,
        (∃ y ∈ (e'.bookView symbol).orders sd, x.SameOrder y) ∨
          (∃ o out, c = .processNewOrder o ∧ r = .processed out ∧ symbol = o.symbol ∧
            sd = o.side.opposite ∧
            ∃ t ∈ out.trades, t.untimed = QueueBook.trade o.side o x x.remainingQty) ∨
          ∃ side, c = .cancelOrder x.id symbol side ∧ r = .cancelled (some x) :=
  no_order_lost (reaches_of_execute (fun _ => 0) 10 100000
    [.processNewOrder (sellFive 1 100), .processNewOrder (sellFive 3 101)] rfl)

end Collision

end MatchingEngine

end OrderMatchingEngine
