import OrderMatchingEngine.Refinement.Lifting

/-!
# OrderMatchingEngine.Refinement.Clock

The wall clock reaches the trades and nothing else.

`untimed` clears the times of the trade history. A call made by a clock that always reads `0`, on
the cleared engine, is the call with its times cleared (`call_untimed`), loop bound by loop bound
and failures included. So two engines that differ in those times at most answer every call
alike, whatever their clocks read (`call_untimed_congr`).
-/

namespace OrderMatchingEngine

open FuelLoop (Iter)

namespace MatchingEngine

variable {α : Type}

/-- The engine without the times of its trades. -/
def untimed (e : MatchingEngine α) : MatchingEngine α :=
  { e with tradeHistory := e.tradeHistory.map Trade.untimed }

/-- The state of a matching loop without the times of trades. -/
def Matching.untimed (s : Matching α) : Matching α :=
  ⟨s.engine.untimed, s.book, s.trades.map Trade.untimed⟩

@[simp] theorem untimed_cells (e : MatchingEngine α) : e.untimed.cells = e.cells := rfl

@[simp] theorem untimed_bookOf (e : MatchingEngine α) (symbol : Symbol) :
    e.untimed.bookOf symbol = e.bookOf symbol := by
  rw [bookOf_eq, bookOf_eq]
  rfl

@[simp] theorem untimed_bookView (e : MatchingEngine α) (symbol : Symbol) :
    e.untimed.bookView symbol = e.bookView symbol := by
  rw [bookView, bookView, untimed_bookOf]
  rfl

theorem getOrCreateOrderBook_untimed (symbol : Symbol) (e : MatchingEngine α) :
    (e.untimed.getOrCreateOrderBook symbol).2 = (e.getOrCreateOrderBook symbol).2.untimed := by
  have hbooks : e.untimed.orderBooks = e.orderBooks := rfl
  rw [getOrCreateOrderBook, getOrCreateOrderBook, hbooks]
  cases e.orderBooks.lookup symbol <;> rfl

variable [LinearOrder α] (clock : Nat → Timestamp)

omit [LinearOrder α] in
/-- A trade made at time `0` is the trade with its time cleared. -/
theorem afterTrade_untimed (sd : OrderSide) (own best : Slot) (qty : Quantity) (s : Matching α) :
    afterTrade (fun _ => 0) sd own best qty s.untimed =
      (afterTrade clock sd own best qty s).untimed := by
  simp [afterTrade, createTrade, Matching.untimed, untimed, Trade.untimed]

/-- One pass of a matching loop. -/
theorem matchBodyOf_untimed (sd : OrderSide) (own : Slot) (s : Matching α) :
    matchBodyOf (fun _ => 0) sd own s.untimed =
      (matchBodyOf clock sd own s).map (Iter.map Matching.untimed) := by
  have hcells : s.untimed.engine.cells = s.engine.cells := rfl
  have hbook : s.untimed.book = s.book := rfl
  rw [matchBodyOf_eq, matchBodyOf_eq, hcells, hbook]
  split
  · rfl
  · split
    · rfl
    · split
      · rfl
      · rename_i best _ _
        rw [afterTrade_untimed clock]
        generalize afterTrade clock sd own best _ s = s'
        -- From here on both passes read `s'`, whose times play no part.
        have hcells' : s'.untimed.engine.cells = s'.engine.cells := rfl
        have hbook' : s'.untimed.book = s'.book := rfl
        dsimp only
        rw [hcells', hbook']
        split
        · split <;> rfl
        · rfl

/-- A whole matching loop. -/
theorem matchAgainst_untimed (sd : OrderSide) (fuel : Nat) (own : Slot) (book : OrderBook α)
    (e : MatchingEngine α) :
    matchAgainst (fun _ => 0) sd fuel own book e.untimed =
      (matchAgainst clock sd fuel own book e).map Matching.untimed := by
  have hstart : (⟨e.untimed, book, []⟩ : Matching α) = Matching.untimed ⟨e, book, []⟩ := rfl
  unfold matchAgainst
  rw [hstart]
  exact FuelLoop.run_map Matching.untimed (fun _ => True)
    (fun s _ => matchBodyOf_untimed clock sd own s) (fun _ _ _ _ => trivial) fuel trivial

omit clock in
/-- What happens to the order after matching. -/
theorem settle_untimed (own : Slot) (s : Matching α) :
    settle own s.untimed =
      ((settle own s).1, (settle own s).2.1, (settle own s).2.2.untimed) := by
  have hcells : s.untimed.engine.cells = s.engine.cells := rfl
  unfold settle
  rw [hcells]
  dsimp only
  split
  · split
    · rfl
    · split <;> rfl
  · rfl

omit [LinearOrder α] clock in
theorem accepted_untimed (o : Order α) (own : Slot) (rest : List Slot) (e : MatchingEngine α) :
    accepted o own rest e.untimed = (accepted o own rest e).untimed :=
  getOrCreateOrderBook_untimed o.symbol (stored o own rest e)

variable [Zero α]

/-- A call of `process_new_order`. -/
theorem processOrder_untimed (fuel : Nat) (o : Order α) (e : MatchingEngine α) :
    processOrder (fun _ => 0) fuel o e.untimed =
      (processOrder clock fuel o e).map fun r => (r.1.untimed, r.2.untimed) := by
  have hpool : e.untimed.orderPool.freeIndices = e.orderPool.freeIndices := rfl
  rcases hfree : e.orderPool.freeIndices with _ | ⟨own, rest⟩
  · rw [processOrder_exhausted hfree, processOrder_exhausted (hpool.trans hfree)]
    rfl
  rcases hv : validateOrder o with _ | _
  · rw [processOrder_invalid hfree hv, processOrder_invalid (hpool.trans hfree) hv]
    rfl
  · rw [processOrder_accepted hfree hv, processOrder_accepted (hpool.trans hfree) hv,
      untimed_bookOf, accepted_untimed, matchAgainst_untimed clock, untimed_cells]
    split
    · rfl
    · rcases matchAgainst clock o.side fuel own (e.bookOf o.symbol) (accepted o own rest e)
        with fault | s
      · rfl
      · simp only [Except.map, settle_untimed]
        rfl

omit [Zero α] clock in
/-- A call of `cancel_order`. -/
theorem cancelOrder_untimed (id : OrderID) (symbol : Symbol) (side : Int) (e : MatchingEngine α) :
    cancelOrder id symbol side e.untimed =
      (cancelOrder id symbol side e).map fun r => (r.1, r.2.untimed) := by
  have hopen : e.untimed.getOrCreateOrderBook symbol =
      ((e.getOrCreateOrderBook symbol).1, (e.getOrCreateOrderBook symbol).2.untimed) :=
    Prod.ext (untimed_bookOf e symbol) (getOrCreateOrderBook_untimed symbol e)
  rw [cancelOrder, cancelOrder, hopen]
  dsimp only
  rw [untimed_cells]
  split
  · rfl
  · rfl
  · rfl

/-- **A call at time `0` is the call with its times cleared.** -/
theorem call_untimed (fuel : Nat) (c : Call α) (e : MatchingEngine α) :
    call (fun _ => 0) fuel e.untimed c =
      (call clock fuel e c).map fun r => (r.1.untimed, r.2.untimed) := by
  cases c with
  | processNewOrder o =>
      rw [call, call, processOrder_untimed clock]
      cases processOrder clock fuel o e <;> rfl
  | cancelOrder id symbol side =>
      rw [call, call, cancelOrder_untimed]
      cases cancelOrder id symbol side e <;> rfl

variable {clock}

/-- Whether a call fails does not depend on the clock. -/
theorem call_error_iff (clock clock' : Nat → Timestamp) {fuel : Nat} {c : Call α}
    {e : MatchingEngine α} {fault : Fault} :
    call clock fuel e c = .error fault ↔ call clock' fuel e c = .error fault := by
  have huntimed : ∀ clock : Nat → Timestamp, call (fun _ => 0) fuel e.untimed c = .error fault ↔
      call clock fuel e c = .error fault := by
    intro clock
    rw [call_untimed clock, FuelLoop.map_eq_error]
  exact (huntimed clock).symm.trans (huntimed clock')

/-- Engines that differ in the times of trades at most answer a call alike, under every bound
that is enough for one of them and whatever their clocks read. -/
theorem call_untimed_congr (clock' : Nat → Timestamp) {fuel fuel' : Nat} {c : Call α} {r : Ret α}
    {e e₁ e' : MatchingEngine α} (hfuel : fuel ≤ fuel') (hsame : e'.untimed = e.untimed)
    (h : call clock fuel e c = .ok (r, e₁)) :
    ∃ r' e₁', call clock' fuel' e' c = .ok (r', e₁') ∧ r'.untimed = r.untimed ∧
      e₁'.untimed = e₁.untimed := by
  have hzero : call (fun _ => 0) fuel e.untimed c = .ok (r.untimed, e₁.untimed) := by
    rw [call_untimed clock, h]
    rfl
  have hzero' := call_mono hfuel hzero
  rw [← hsame, call_untimed clock'] at hzero'
  obtain ⟨⟨r', e₁'⟩, hcall, heq⟩ := FuelLoop.map_eq_ok.mp hzero'
  obtain ⟨hr, he⟩ := Prod.mk.inj heq
  exact ⟨r', e₁', hcall, hr, he⟩

end MatchingEngine

end OrderMatchingEngine
