import OrderMatchingEngine.Refinement.Book

/-!
# OrderMatchingEngine.Refinement.Matching

The matching loops of the engine refine the matching loop of the observable book.

The two source loops are one loop with the taker's side as a parameter (`matchAgainst`).
`LoopInv` is what holds between its passes: the book is linked and well formed, the taker's
slot is not in it, and the free slots together with the book's slots are those of the start.
Under it, each pass computes the pass of `QueueBook.matchBody` on the view, so the whole
loops agree bound by bound, failures included (`matchAgainst_view`).
-/

namespace OrderMatchingEngine

open FuelLoop (Iter)

namespace MatchingEngine

variable {α : Type} [LinearOrder α] {clock : Nat → Timestamp}

/-- The comparison that ends the loop of a taker on side `sd`. -/
def beyondOf : OrderSide → Price α → Price α → Bool
  | .buy => fun bestAsk own => bestAsk > own
  | .sell => fun bestBid own => bestBid < own

/-- Buyer and seller of a trade of a taker on side `sd`. -/
def partiesOf : OrderSide → Order α → Order α → Order α × Order α
  | .buy => fun bestAsk own => (own, bestAsk)
  | .sell => fun bestBid own => (bestBid, own)

/-- One pass of the loop of a taker on side `sd`. -/
def matchBodyOf (clock : Nat → Timestamp) (sd : OrderSide) (own : Slot) (s : Matching α) :
    Except Fault (Iter (Matching α)) :=
  matchBody clock (OrderBook.bestOf sd.opposite) (beyondOf sd) (partiesOf sd) own s

/-- The loop of a taker on side `sd`. -/
def matchAgainst (clock : Nat → Timestamp) (sd : OrderSide) (fuel : Nat) (own : Slot)
    (book : OrderBook α) (e : MatchingEngine α) : Except Fault (Matching α) :=
  FuelLoop.run .outOfFuel (matchBodyOf clock sd own) fuel ⟨e, book, []⟩

theorem matchAgainst_buy (fuel : Nat) (own : Slot) (book : OrderBook α) (e : MatchingEngine α) :
    matchAgainstSellOrders clock fuel own book e = matchAgainst clock .buy fuel own book e := rfl

theorem matchAgainst_sell (fuel : Nat) (own : Slot) (book : OrderBook α) (e : MatchingEngine α) :
    matchAgainstBuyOrders clock fuel own book e = matchAgainst clock .sell fuel own book e := rfl

/-- The observable state of a loop. -/
def Matching.view (own : Slot) (s : Matching α) : QueueBook.Matching α :=
  ⟨s.book.view s.engine.cells, s.engine.cells own, s.trades.map Trade.untimed⟩

/-- The test that ends the loop is the observable one. -/
theorem beyondOf_eq_refuses (sd : OrderSide) (own best : Order α) :
    (beyondOf sd best.price own.price && decide (own.type ≠ .market)) =
      QueueBook.refuses sd own best := by
  cases sd <;> rfl

omit [LinearOrder α] in
/-- The trade that is created, without its time, is the observable one. -/
theorem createTrade_untimed (clock : Nat → Timestamp) (sd : OrderSide) (own best : Order α)
    (qty : Quantity) (e : MatchingEngine α) :
    (createTrade clock (partiesOf sd best own).1 (partiesOf sd best own).2 qty best.price
      e).1.untimed = QueueBook.trade sd own best qty := by
  cases sd <;> rfl

/-! ### The invariant of the loop -/

/-- What holds between the passes of a loop that started from `e₀` and `b₀`. -/
structure LoopInv (symbol : Symbol) (own : Slot) (e₀ : MatchingEngine α) (b₀ : OrderBook α)
    (s : Matching α) : Prop where
  linked : OrderBook.Linked s.engine.cells s.book
  wf : QueueBook.WF symbol (s.book.view s.engine.cells)
  outside : own ∉ s.book.slots
  symbol_eq : s.book.symbol = b₀.symbol
  slots : (s.engine.orderPool.freeIndices ++ s.book.slots).Perm
    (e₀.orderPool.freeIndices ++ b₀.slots)
  sub : s.book.slots ⊆ b₀.slots
  frame : ∀ p ∉ b₀.slots, p ≠ own → s.engine.cells p = e₀.cells p
  same : ∀ p, (e₀.cells p).SameOrder (s.engine.cells p)
  books : s.engine.orderBooks = e₀.orderBooks
  capacity : s.engine.orderPool.capacity = e₀.orderPool.capacity
  history : s.engine.tradeHistory = e₀.tradeHistory ++ s.trades

theorem LoopInv.start {symbol : Symbol} {own : Slot} {e : MatchingEngine α} {b : OrderBook α}
    (hl : OrderBook.Linked e.cells b) (hwf : QueueBook.WF symbol (b.view e.cells))
    (hout : own ∉ b.slots) : LoopInv symbol own e b ⟨e, b, []⟩ where
  linked := hl
  wf := hwf
  outside := hout
  symbol_eq := rfl
  slots := .refl _
  sub := fun _ h => h
  frame := fun _ _ _ => rfl
  same := fun _ => .refl _
  books := rfl
  capacity := rfl
  history := (List.append_nil _).symm

/-! ### One pass -/

/-- The state after a trade of `own` with `best`: recorded, and both orders reduced. -/
def afterTrade (clock : Nat → Timestamp) (sd : OrderSide) (own best : Slot) (qty : Quantity)
    (s : Matching α) : Matching α :=
  let cells := s.engine.cells
  let buySell := partiesOf sd (cells best) (cells own)
  let (trade, e) := createTrade clock buySell.1 buySell.2 qty (cells best).price s.engine
  let pool := (e.orderPool.modify own (·.reduceQuantity qty)).modify best (·.reduceQuantity qty)
  ⟨{ e with orderPool := pool }, s.book, s.trades ++ [trade]⟩

/-- A pass of the loop in terms of `afterTrade` and the observable test. -/
theorem matchBodyOf_eq (sd : OrderSide) (own : Slot) (s : Matching α) :
    matchBodyOf clock sd own s =
      if (s.engine.cells own).remainingQty = 0 then .ok (.done s)
      else
        match OrderBook.bestOf sd.opposite s.book with
        | none => .ok (.done s)
        | some best =>
          if QueueBook.refuses sd (s.engine.cells own) (s.engine.cells best) then .ok (.done s)
          else
            let s' := afterTrade clock sd own best
              (min (s.engine.cells own).remainingQty (s.engine.cells best).remainingQty) s
            if (s'.engine.cells best).isFilled then
              match s'.book.cancelOrder s'.engine.cells (s'.engine.cells best).id with
              | .error fault => .error fault
              | .ok (_, book) => .ok (.next ⟨s'.engine.deallocate best, book, s'.trades⟩)
            else .ok (.next s') := by
  rw [matchBodyOf, matchBody]
  simp only [beyondOf_eq_refuses]
  rfl

/-- The order trades with the best order of this book. -/
def Meets (sd : OrderSide) (own : Slot) (cells : Slot → Order α) (book : OrderBook α) : Prop :=
  (cells own).remainingQty ≠ 0 ∧ ∃ best, book.bestOf sd.opposite = some best ∧
    QueueBook.refuses sd (cells own) (cells best) = false

/-- **What a pass can do**: leave the loop as it is, or trade with the best order and then go on,
take that order out of the book, or fail to. -/
theorem matchBodyOf_cases (clock : Nat → Timestamp) (sd : OrderSide) (own : Slot)
    (s : Matching α) :
    (¬ Meets sd own s.engine.cells s.book ∧ matchBodyOf clock sd own s = .ok (.done s)) ∨
      Meets sd own s.engine.cells s.book ∧ ∃ best s', s.book.bestOf sd.opposite = some best ∧
        s' = afterTrade clock sd own best
          (min (s.engine.cells own).remainingQty (s.engine.cells best).remainingQty) s ∧
        (matchBodyOf clock sd own s = .ok (.next s') ∨
          (∃ x book, s'.book.cancelOrder s'.engine.cells (s'.engine.cells best).id = .ok (x, book) ∧
            matchBodyOf clock sd own s = .ok (.next ⟨s'.engine.deallocate best, book, s'.trades⟩)) ∨
          ∃ fault, s'.book.cancelOrder s'.engine.cells (s'.engine.cells best).id = .error fault ∧
            matchBodyOf clock sd own s = .error fault) := by
  rw [matchBodyOf_eq]
  by_cases hqty : (s.engine.cells own).remainingQty = 0
  · exact .inl ⟨fun hmeets => hmeets.1 hqty, if_pos hqty⟩
  rw [if_neg hqty]
  rcases hbest : OrderBook.bestOf sd.opposite s.book with _ | best
  · exact .inl ⟨fun ⟨_, best, hmeets, _⟩ => by simp [hbest] at hmeets, rfl⟩
  dsimp only
  by_cases hrefuses : QueueBook.refuses sd (s.engine.cells own) (s.engine.cells best) = true
  · refine .inl ⟨fun ⟨_, best', hmeets, haccepts⟩ => ?_, if_pos hrefuses⟩
    obtain rfl := Option.some.inj (hbest.symm.trans hmeets)
    simp [hrefuses] at haccepts
  rw [if_neg hrefuses]
  refine .inr ⟨⟨hqty, best, hbest, by simpa using hrefuses⟩, best, _, rfl, rfl, ?_⟩
  generalize afterTrade clock sd own best _ s = s'
  split
  · rcases hcancel : s'.book.cancelOrder s'.engine.cells (s'.engine.cells best).id with
      fault | ⟨x, book⟩
    · exact .inr (.inr ⟨fault, rfl, rfl⟩)
    · exact .inr (.inl ⟨x, book, rfl, rfl⟩)
  · exact .inl rfl

section Pass

variable (clock) {symbol : Symbol} (sd : OrderSide) {own best : Slot} {e₀ : MatchingEngine α}
  {b₀ : OrderBook α} {s : Matching α}

/-- No order of the book is the taker. -/
theorem LoopInv.ne_own (h : LoopInv symbol own e₀ b₀ s) (hbest : best ∈ s.book.slots) :
    best ≠ own := by
  rintro rfl
  exact h.outside hbest

omit [LinearOrder α] in
/-- The memory after a trade. -/
theorem afterTrade_cells (hne : best ≠ own) (qty : Quantity) (p : Slot) :
    (afterTrade clock sd own best qty s).engine.cells p =
      if p = own ∨ p = best then (s.engine.cells p).reduceQuantity qty else s.engine.cells p := by
  have hcells : (afterTrade clock sd own best qty s).engine.cells =
      Function.update (Function.update s.engine.cells own
        ((s.engine.cells own).reduceQuantity qty)) best
        ((Function.update s.engine.cells own
          ((s.engine.cells own).reduceQuantity qty) best).reduceQuantity qty) := rfl
  rw [hcells]
  by_cases hb : p = best
  · subst hb
    rw [Function.update_self, Function.update_of_ne hne, if_pos (.inr rfl)]
  · rw [Function.update_of_ne hb]
    by_cases ho : p = own
    · subst ho
      rw [Function.update_self, if_pos (.inl rfl)]
    · rw [Function.update_of_ne ho, if_neg (by simp [ho, hb])]

/-- A trade with an order of the book fills it in the view. -/
theorem afterTrade_view (h : LoopInv symbol own e₀ b₀ s) (hbest : best ∈ s.book.slots)
    (qty : Quantity) : (afterTrade clock sd own best qty s).view own =
      ⟨(s.view own).book.fill (s.engine.cells best).id qty, (s.view own).own.reduceQuantity qty,
        (s.view own).trades ++
          [QueueBook.trade sd (s.view own).own (s.engine.cells best) qty]⟩ := by
  have hne := h.ne_own hbest
  have hview : s.book.view (afterTrade clock sd own best qty s).engine.cells =
      (s.book.view s.engine.cells).fill (s.engine.cells best).id qty := by
    rw [← OrderBook.view_update h.linked hbest]
    refine OrderBook.view_congr ?_
    intro p hp
    rw [afterTrade_cells clock sd hne]
    have hpo : p ≠ own := fun heq => h.outside (heq ▸ hp)
    by_cases hpb : p = best
    · subst hpb
      rw [if_pos (.inr rfl), Function.update_self]
    · rw [if_neg (by simp [hpo, hpb]), Function.update_of_ne hpb]
  have htrades : (afterTrade clock sd own best qty s).trades.map Trade.untimed =
      s.trades.map Trade.untimed ++
        [QueueBook.trade sd (s.engine.cells own) (s.engine.cells best) qty] := by
    rw [← createTrade_untimed clock sd _ _ qty s.engine]
    exact List.map_append ..
  rw [Matching.view, QueueBook.Matching.mk.injEq]
  refine ⟨hview, ?_, htrades⟩
  rw [afterTrade_cells clock sd hne, if_pos (.inl rfl)]
  rfl

/-- A trade with an order of the book keeps the invariant. -/
theorem LoopInv.afterTrade (h : LoopInv symbol own e₀ b₀ s) (hbest : best ∈ s.book.slots)
    (qty : Quantity) : LoopInv symbol own e₀ b₀ (afterTrade clock sd own best qty s) where
  linked := h.linked.congr fun p hp => by
    rw [afterTrade_cells clock sd (h.ne_own hbest)]
    split <;> rfl
  wf := by
    have hview := congrArg QueueBook.Matching.book
      (afterTrade_view clock sd h hbest qty)
    exact (congrArg (QueueBook.WF symbol) hview).mpr (h.wf.fill _ _)
  outside := h.outside
  symbol_eq := h.symbol_eq
  slots := h.slots
  sub := h.sub
  frame p hp hpo := by
    rw [afterTrade_cells clock sd (h.ne_own hbest), if_neg]
    · exact h.frame p hp hpo
    · intro hchanged
      rcases hchanged with rfl | rfl
      · exact hpo rfl
      · exact hp (h.sub hbest)
  same p := by
    rw [afterTrade_cells clock sd (h.ne_own hbest)]
    split
    · exact (h.same p).trans (Order.sameOrder_reduceQuantity _ _)
    · exact h.same p
  books := h.books
  capacity := h.capacity
  history := by
    have happ : (MatchingEngine.afterTrade clock sd own best qty s).engine.tradeHistory =
      s.engine.tradeHistory ++ [(createTrade clock (partiesOf sd (s.engine.cells best)
        (s.engine.cells own)).1 (partiesOf sd (s.engine.cells best) (s.engine.cells own)).2 qty
        (s.engine.cells best).price s.engine).1] := rfl
    rw [happ, h.history, List.append_assoc]
    rfl

/-- Giving a completely filled order back, off the book and into the pool, keeps the
invariant. -/
theorem LoopInv.cancel (h : LoopInv symbol own e₀ b₀ s) (hbest : best ∈ s.book.slots)
    {r : Option Slot} {book : OrderBook α}
    (hc : s.book.cancelOrder s.engine.cells (s.engine.cells best).id = .ok (r, book)) :
    LoopInv symbol own e₀ b₀ ⟨s.engine.deallocate best, book, s.trades⟩ := by
  obtain ⟨hl, hsym, hperm⟩ := h.linked.cancelOrder h.wf hc
  have hview := OrderBook.view_cancelOrder h.linked h.wf (s.engine.cells best).id
  rw [hc] at hview
  -- the slot given back is the maker's: ids select one node
  have hr : r = some best := by
    obtain ⟨n, hn, rfl⟩ := (OrderBook.mem_slots _).mp hbest
    rw [OrderBook.cancelOrder_slot h.linked h.wf hc, OrderBook.getOrderbyId,
      (h.linked.lookup _ _).mpr ⟨n, hn, rfl, rfl⟩]
    rfl
  subst hr
  have hsub : book.slots ⊆ s.book.slots := fun p hp =>
    hperm.mem_iff.mpr (List.mem_cons_of_mem _ hp)
  exact
    { linked := hl
      wf := (h.wf.cancelOrder_ok hview).2.1
      outside := fun hin => h.outside (hsub hin)
      symbol_eq := hsym.trans h.symbol_eq
      slots := List.perm_middle.symm.trans ((hperm.symm.append_left _).trans h.slots)
      sub := fun p hp => h.sub (hsub hp)
      frame := h.frame
      same := h.same
      books := h.books
      capacity := h.capacity
      history := h.history }

variable {clock sd}

/-- **One pass** keeps the invariant. -/
theorem LoopInv.next (h : LoopInv symbol own e₀ b₀ s) {s' : Matching α}
    (hb : matchBodyOf clock sd own s = .ok (.next s')) : LoopInv symbol own e₀ b₀ s' := by
  rcases matchBodyOf_cases clock sd own s with
    ⟨-, hdone⟩ | ⟨-, best, s₁, hbest, rfl, hnext | ⟨x, book, hcancel, hnext⟩ | ⟨fault, -, hfail⟩⟩
  · simp [hb] at hdone
  · obtain rfl := Iter.next.inj (Except.ok.inj (hb.symm.trans hnext))
    exact h.afterTrade clock sd (OrderBook.bestOf_mem_slots h.wf hbest) _
  · obtain rfl := Iter.next.inj (Except.ok.inj (hb.symm.trans hnext))
    have hmem := OrderBook.bestOf_mem_slots h.wf hbest
    exact (h.afterTrade clock sd hmem _).cancel hmem hcancel
  · simp [hb] at hfail

/-- **One pass refines one pass** of the observable loop. -/
theorem matchBodyOf_view (h : LoopInv symbol own e₀ b₀ s) :
    QueueBook.matchBody sd (s.view own) =
      (matchBodyOf clock sd own s).map (Iter.map (Matching.view own)) := by
  have hhead := OrderBook.bestOf_view h.wf sd.opposite
  rw [matchBodyOf_eq, QueueBook.matchBody]
  have hbook : (s.view own).book = s.book.view s.engine.cells := rfl
  have hown : (s.view own).own = s.engine.cells own := rfl
  rw [hbook, hown, hhead]
  split
  · rfl
  · rcases hbest : OrderBook.bestOf sd.opposite s.book with _ | best
    · rfl
    · have hmem := OrderBook.bestOf_mem_slots h.wf hbest
      simp only [Option.map_some]
      split
      · rfl
      · have hinv := h.afterTrade clock sd hmem
          (min (s.engine.cells own).remainingQty (s.engine.cells best).remainingQty)
        have hview := afterTrade_view clock sd h hmem
          (min (s.engine.cells own).remainingQty (s.engine.cells best).remainingQty)
        have hcell := afterTrade_cells clock sd (s := s) (h.ne_own hmem)
          (min (s.engine.cells own).remainingQty (s.engine.cells best).remainingQty) best
        rw [if_pos (.inr rfl)] at hcell
        have hcancel := OrderBook.view_cancelOrder hinv.linked hinv.wf (s.engine.cells best).id
        generalize afterTrade clock sd own best _ s = s' at hinv hview hcell hcancel ⊢
        rw [Matching.view, QueueBook.Matching.mk.injEq] at hview
        obtain ⟨hb, ho, ht⟩ := hview
        rw [hb] at hcancel
        simp only [hcell, Order.reduceQuantity_id]
        split
        · rw [← hbook, hcancel]
          cases s'.book.cancelOrder s'.engine.cells (s.engine.cells best).id with
          | error fault => rfl
          | ok r =>
              have hcells : (s'.engine.deallocate best).cells = s'.engine.cells := rfl
              simp only [Except.map, Iter.map, Matching.view, hcells, ho, ht]
        · simp only [Except.map, Iter.map, Matching.view, ho, ht, hb]

end Pass

/-! ### The whole loop -/

/-- **The matching loops refine the observable matching loop**, for every bound on the
passes and for every outcome. -/
theorem matchAgainst_view (clock : Nat → Timestamp) {symbol : Symbol} {own : Slot}
    {e : MatchingEngine α} {b : OrderBook α} (hl : OrderBook.Linked e.cells b)
    (hwf : QueueBook.WF symbol (b.view e.cells)) (hout : own ∉ b.slots) (fuel : Nat) :
    (b.view e.cells).matchAgainst fuel (e.cells own) =
      (matchAgainst clock (e.cells own).side fuel own b e).map (Matching.view own) :=
  FuelLoop.run_map (Matching.view own) (LoopInv symbol own e b) (fun _ h => matchBodyOf_view h)
    (fun _ _ h hnext => h.next hnext) fuel (.start hl hwf hout)

/-- The pass that leaves the loop changes nothing, and meets no order. -/
theorem matchBodyOf_done {sd : OrderSide} {own : Slot} {s s' : Matching α}
    (h : matchBodyOf clock sd own s = .ok (.done s')) :
    s' = s ∧ ¬ Meets sd own s.engine.cells s.book := by
  rcases matchBodyOf_cases clock sd own s with
    ⟨hmeets, hdone⟩ | ⟨-, best, s₁, -, -, hnext | ⟨x, book, -, hnext⟩ | ⟨fault, -, hfail⟩⟩
  · exact ⟨Iter.done.inj (Except.ok.inj (h.symm.trans hdone)), hmeets⟩
  · simp [h] at hnext
  · simp [h] at hnext
  · simp [h] at hfail

/-- A loop that returns leaves a state of the invariant. -/
theorem matchAgainst_inv {symbol : Symbol} {sd : OrderSide} {own : Slot} {e : MatchingEngine α}
    {b : OrderBook α} (hl : OrderBook.Linked e.cells b)
    (hwf : QueueBook.WF symbol (b.view e.cells)) (hout : own ∉ b.slots) {fuel : Nat}
    {s : Matching α} (h : matchAgainst clock sd fuel own b e = .ok s) :
    LoopInv symbol own e b s := by
  obtain ⟨s', hs', hdone⟩ := FuelLoop.run_invariant (LoopInv symbol own e b)
    (fun _ _ h hnext => h.next hnext) (.start hl hwf hout) h
  exact (matchBodyOf_done hdone).1 ▸ hs'

end MatchingEngine

end OrderMatchingEngine
