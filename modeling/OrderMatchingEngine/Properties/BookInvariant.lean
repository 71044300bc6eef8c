import Mathlib.Algebra.Order.Ring.Int
import OrderMatchingEngine.Refinement.Runs

/-!
# OrderMatchingEngine.Properties.BookInvariant

What holds of every book and of the pool between calls.

`Represents` is the representation invariant of one book in the terms of the source: its
levels, its look-up table and the orders behind its pointers. It is kept by all calls that
respect ids, provided no LIMIT or GFD order comes in at a NaN price: such an order is
appended to a level of another price. With prices that are numbers the best bid is moreover
always below the best ask.
-/

namespace OrderMatchingEngine

namespace OrderBook

variable {α : Type}

/-- **The representation invariant of a book**, in the terms of the source. -/
structure Represents (cells : Slot → Order α) (symbol : Symbol) (book : OrderBook α) : Prop where
  /-- No price level is empty. -/
  nonempty : ∀ sd, ∀ l ∈ book.priceMap sd, l.2 ≠ []
  /-- An order in a level is of this side, price and symbol, a LIMIT or GFD order, and not
  completely filled. -/
  placed : ∀ sd, ∀ l ∈ book.priceMap sd, ∀ n ∈ l.2,
    (cells n.order).side = sd ∧ (cells n.order).price = l.1 ∧ l.1 ≠ .nan ∧
      (cells n.order).symbol = symbol ∧
      ((cells n.order).type = .limit ∨ (cells n.order).type = .gfd) ∧
      (cells n.order).quantityFilled < (cells n.order).quantity
  /-- No two list nodes share an address. -/
  addrs : (book.allNodes.map (·.addr)).Nodup
  /-- The look-up table maps exactly the ids of these orders, each to the order and its
  own node. -/
  lookup : ∀ id info, book.orderLookup.lookup id = some info ↔
    ∃ n ∈ book.allNodes, (cells n.order).id = id ∧ info = ⟨n.order, n.addr⟩

theorem mem_nodes_of_mem_level {book : OrderBook α} {sd : OrderSide}
    {l : Price α × List ListNode} (hl : l ∈ book.priceMap sd) {n : ListNode} (hn : n ∈ l.2) :
    n ∈ book.nodes sd :=
  (mem_nodes book).mpr (LevelMap.mem_up.mpr ⟨l, hl, hn⟩)

/-- A linked book with a sound view is represented. -/
theorem represents [LinearOrder α] {cells : Slot → Order α} {symbol : Symbol}
    {book : OrderBook α} (hl : Linked cells book) (hwf : QueueBook.WF symbol (book.view cells))
    (hs : QueueBook.Sound (book.view cells)) : Represents cells symbol book where
  nonempty := levels_nonempty hwf
  placed sd l hlev n hn := by
    have hmem : cells n.order ∈ (book.view cells).orders sd := by
      rw [view_orders]
      exact List.mem_map_of_mem (f := fun n => cells n.order) (mem_nodes_of_mem_level hlev hn)
    have hexact : l.1 = (cells n.order).price := by
      have hlev' := hs.exact sd
      rw [view_levels] at hlev'
      exact hlev' (l.1, l.2.map fun n => cells n.order)
        (List.mem_map_of_mem (f := fun l => (l.1, l.2.map fun n => cells n.order)) hlev)
        (cells n.order) (List.mem_map_of_mem (f := fun n => cells n.order) hn)
    exact ⟨hwf.sides sd _ hmem, hexact.symm, hexact ▸ hs.numbers sd _ hmem,
      hwf.symbols sd _ hmem, hs.types sd _ hmem, hs.live sd _ hmem⟩
  addrs := hl.addrs
  lookup := hl.lookup

end OrderBook

namespace MatchingEngine

section Represented

variable {α : Type} [LinearOrder α] [Zero α] {clock : Nat → Timestamp} {n : Nat}
  {tr : List (Call α × Ret α)} {e : MatchingEngine α}

/-- The calls of the invariant: ids are fresh, orders come unfilled, and LIMIT and GFD
orders have numbers for prices. -/
def Proper (e : MatchingEngine α) (c : Call α) : Prop :=
  e.FreshId c ∧ c.Unfilled ∧ c.LimitsNumber

instance (e : MatchingEngine α) (c : Call α) : Decidable (e.Proper c) :=
  inferInstanceAs (Decidable (_ ∧ _ ∧ _))

theorem reaches_sound (h : Reaches clock n Proper tr e) (symbol : Symbol) :
    QueueBook.Sound (e.bookView symbol) :=
  reaches_bookView (fun _ _ hg => .of_freshId hg.1) (fun _ b => QueueBook.Sound b)
    (fun _ => .empty)
    (fun _ _ _ _ hg hwf hs hstep => QueueBook.step_sound hwf hstep hs hg.2.1 hg.2.2) h symbol

/-- **The representation invariant** of every reached state, and its consequence for
`cancel_order`: neither a cancel nor the removal of a filled order during matching ever
finds an order without its price level. -/
theorem books_represented (h : Reaches clock n Proper tr e) :
    (∀ symbol, OrderBook.Represents e.cells symbol (e.bookOf symbol)) ∧
      (e.orderPool.freeIndices ++ e.restingSlots).Nodup ∧
      (∀ symbol id, ¬ (e.bookOf symbol).levelMissing e.cells id) ∧
      ∀ (o : Order α) own rest, e.orderPool.freeIndices = own :: rest →
        ∀ s, FuelLoop.Passes (matchBodyOf clock o.side own)
            ⟨accepted o own rest e, e.bookOf o.symbol, []⟩ s →
          ∀ best, OrderBook.bestOf o.side.opposite s.book = some best → ∀ qty id,
            ¬ s.book.levelMissing (afterTrade clock o.side own best qty s).engine.cells id := by
  have he := reaches_inv (fun _ _ hg => .of_freshId hg.1) h
  refine ⟨?_, he.nodup, ?_, ?_⟩
  · intro symbol
    exact OrderBook.represents (he.book symbol).linked (he.book symbol).wf (reaches_sound h symbol)
  · intro symbol id
    exact OrderBook.not_levelMissing (he.book symbol).linked (he.book symbol).wf id
  · intro o own rest hfree s hs best hbest qty id
    obtain ⟨hout, hb, -⟩ := accepted_book (o := o) he hfree o.symbol
    have hinv := hs.invariant (LoopInv o.symbol own (accepted o own rest e) (e.bookOf o.symbol))
      (fun _ _ h hnext => h.next hnext) (.start hb.linked hb.wf hout)
    have htrade := hinv.afterTrade clock o.side (OrderBook.bestOf_mem_slots hinv.wf hbest) qty
    exact OrderBook.not_levelMissing htrade.linked htrade.wf id

/-! ### Best prices -/

theorem reaches_uncrossed (h : Reaches clock n (fun e c => e.FreshId c ∧ c.Priced) tr e)
    (symbol : Symbol) : (QueueBook.Exact (e.bookView symbol) ∧
      QueueBook.Numbers (e.bookView symbol)) ∧ QueueBook.Uncrossed (e.bookView symbol) :=
  reaches_bookView (fun _ _ hg => .of_freshId hg.1)
    (fun _ b => (QueueBook.Exact b ∧ QueueBook.Numbers b) ∧ QueueBook.Uncrossed b)
    (fun _ => ⟨⟨.empty, .empty⟩, .empty⟩)
    (fun _ _ _ _ hg hwf hI hs =>
      ⟨QueueBook.step_exact hwf hs hI.1.1 hI.1.2 fun _ hq =>
        hq.price_ne_nan (Call.Priced.queuesNumber hg.2),
        QueueBook.step_uncrossed hwf hs hI.1.1 hI.2⟩) h symbol

omit [Zero α] in
/-- The best order of a side is the first of the side, and no other has a better price. -/
theorem bestOf_best (he : EngineInv e) {symbol : Symbol}
    (hex : QueueBook.Exact (e.bookView symbol)) (sd : OrderSide) {p : Slot}
    (h : (e.bookOf symbol).bestOf sd = some p) :
    e.cells p ∈ (e.bookView symbol).orders sd ∧
      ∀ x ∈ (e.bookView symbol).orders sd,
        sd.better (e.cells p).price x.price ∨ (e.cells p).price = x.price := by
  have hhead := OrderBook.bestOf_view (he.book symbol).wf sd
  rw [h, Option.map_some, ← bookView] at hhead
  obtain ⟨rest, hrest⟩ := List.head?_eq_some_iff.mp hhead
  have hsorted := QueueBook.orders_sorted (he.book symbol).wf hex sd
  rw [← bookView, hrest] at hsorted
  rw [hrest]
  exact ⟨List.mem_cons_self .., List.forall_mem_cons.mpr
    ⟨.inr rfl, (List.pairwise_cons.mp hsorted).1⟩⟩

omit [Zero α] in
/-- A side with orders has a best order. -/
theorem bestOf_isSome (he : EngineInv e) {symbol : Symbol} (sd : OrderSide)
    (h : (e.bookView symbol).orders sd ≠ []) : ∃ p, (e.bookOf symbol).bestOf sd = some p := by
  have hhead := OrderBook.bestOf_view (he.book symbol).wf sd
  rcases hbest : (e.bookOf symbol).bestOf sd with _ | p
  · rw [hbest, Option.map_none, List.head?_eq_none_iff] at hhead
    exact absurd hhead h
  · exact ⟨p, rfl⟩

/-- **The book is never crossed**, the best bid and ask are the extreme prices of their
sides, and the spread is positive (`hsub` is what subtraction of doubles has to satisfy). -/
theorem never_crossed [Sub α] (hsub : ∀ a b : α, a < b → 0 < b - a)
    (h : Reaches clock n (fun e c => e.FreshId c ∧ c.Priced) tr e) (symbol : Symbol) :
    (∀ bid, (e.bookOf symbol).getBestBid = some bid →
      e.cells bid ∈ (e.bookView symbol).orders .buy ∧
        ∀ x ∈ (e.bookView symbol).orders .buy, x.price ≤ (e.cells bid).price) ∧
    (∀ ask, (e.bookOf symbol).getBestAsk = some ask →
      e.cells ask ∈ (e.bookView symbol).orders .sell ∧
        ∀ x ∈ (e.bookView symbol).orders .sell, (e.cells ask).price ≤ x.price) ∧
    ((e.bookView symbol).orders .buy ≠ [] → (e.bookView symbol).orders .sell ≠ [] →
      ∃ bid ask, (e.bookOf symbol).getBestBid = some bid ∧
        (e.bookOf symbol).getBestAsk = some ask ∧
        (e.cells bid).price < (e.cells ask).price ∧ 0 < (e.bookOf symbol).getSpread e.cells) := by
  have he := reaches_inv (fun _ _ hg => .of_freshId hg.1) h
  obtain ⟨⟨hex, hn⟩, hu⟩ := reaches_uncrossed h symbol
  have hbid : ∀ bid, (e.bookOf symbol).getBestBid = some bid → _ := fun bid hb =>
    bestOf_best he hex .buy hb
  have hask : ∀ ask, (e.bookOf symbol).getBestAsk = some ask → _ := fun ask ha =>
    bestOf_best he hex .sell ha
  refine ⟨?_, ?_, ?_⟩
  · intro bid hb
    obtain ⟨hmem, hbest⟩ := hbid bid hb
    refine ⟨hmem, fun x hx => Price.le_of_lt_or_eq (hn _ _ hmem) ((hbest x hx).imp_right .symm)⟩
  · intro ask ha
    obtain ⟨hmem, hbest⟩ := hask ask ha
    exact ⟨hmem, fun x hx => Price.le_of_lt_or_eq (hn _ _ hx) (hbest x hx)⟩
  · intro hbuy hsell
    obtain ⟨bid, hb⟩ := bestOf_isSome he .buy hbuy
    obtain ⟨ask, ha⟩ := bestOf_isSome he .sell hsell
    -- both best orders rest, and no resting bid meets a resting ask
    have hlt := hu _ (hbid bid hb).1 _ (hask ask ha).1
    refine ⟨bid, ask, hb, ha, hlt, ?_⟩
    have hspread : (e.bookOf symbol).getSpread e.cells =
        (e.cells ask).price - (e.cells bid).price := by
      have hb' : (e.bookOf symbol).getBestBid = some bid := hb
      have ha' : (e.bookOf symbol).getBestAsk = some ask := ha
      simp only [OrderBook.getSpread, hb', ha']
    rw [hspread]
    exact Price.zero_lt_sub hsub hlt

end Represented

/-! ### Concrete runs -/

section Concrete

/-- A limit order to buy one lot. -/
def bid (id : OrderID) (price : Price Int) : Order Int :=
  { id := id, symbol := [65], userId := 1, side := .buy, type := .limit, price := price,
    quantity := 1, timestamp := 0 }

/-- A limit order to sell one lot. -/
def ask (id : OrderID) (price : Price Int) : Order Int := { bid id price with side := .sell }

/-- The engine after a bid at 100 and an ask at 101. -/
def afterBidAsk : MatchingEngine Int :=
  ((execute (fun _ => 0) 10 (fun e c => e.FreshId c ∧ c.Priced) init
    [.processNewOrder (bid 1 (.num 100)), .processNewOrder (ask 2 (.num 101))]).map
      Prod.snd).getD init

theorem never_crossed_bidAsk :
    (∀ bid, (afterBidAsk.bookOf [65]).getBestBid = some bid →
      afterBidAsk.cells bid ∈ (afterBidAsk.bookView [65]).orders .buy ∧
        ∀ x ∈ (afterBidAsk.bookView [65]).orders .buy, x.price ≤ (afterBidAsk.cells bid).price) ∧
    (∀ ask, (afterBidAsk.bookOf [65]).getBestAsk = some ask →
      afterBidAsk.cells ask ∈ (afterBidAsk.bookView [65]).orders .sell ∧
        ∀ x ∈ (afterBidAsk.bookView [65]).orders .sell, (afterBidAsk.cells ask).price ≤ x.price) ∧
    ((afterBidAsk.bookView [65]).orders .buy ≠ [] → (afterBidAsk.bookView [65]).orders .sell ≠ [] →
      ∃ bid ask, (afterBidAsk.bookOf [65]).getBestBid = some bid ∧
        (afterBidAsk.bookOf [65]).getBestAsk = some ask ∧
        (afterBidAsk.cells bid).price < (afterBidAsk.cells ask).price ∧
        0 < (afterBidAsk.bookOf [65]).getSpread afterBidAsk.cells) :=
  never_crossed (fun _ _ => Int.sub_pos_of_lt) (reaches_of_execute (fun _ => 0) 10 100000
    [.processNewOrder (bid 1 (.num 100)), .processNewOrder (ask 2 (.num 101))] rfl) [65]

/-- **`validate_order` lets NaN through**: such a bid joins the level at 100. -/
theorem nan_misplaced :
    ∃ tr e, Reaches (fun _ => 0) 100000 (fun (e : MatchingEngine Int) c => e.FreshId c ∧ c.Unfilled)
        tr e ∧
      ∃ l ∈ (e.bookOf [65]).priceMap .buy, ∃ n ∈ l.2, (e.cells n.order).price ≠ l.1 :=
  ⟨_, _, reaches_of_execute (fun _ => 0) 10 100000
    [.processNewOrder (bid 1 (.num 100)), .processNewOrder (bid 2 .nan)] rfl, _,
    List.mem_singleton.mpr rfl, ⟨1, 99998⟩, by decide, by decide⟩

/-- The engine after two bids at different prices. -/
def afterTwoBids : MatchingEngine Int :=
  ((execute (fun _ => 0) 10 Proper init
    [.processNewOrder (bid 1 (.num 100)), .processNewOrder (bid 2 (.num 101))]).map
      Prod.snd).getD init

theorem books_represented_twoBids :
    (∀ symbol, OrderBook.Represents afterTwoBids.cells symbol (afterTwoBids.bookOf symbol)) ∧
      (afterTwoBids.orderPool.freeIndices ++ afterTwoBids.restingSlots).Nodup ∧
      (∀ symbol id, ¬ (afterTwoBids.bookOf symbol).levelMissing afterTwoBids.cells id) ∧
      ∀ (o : Order Int) own rest, afterTwoBids.orderPool.freeIndices = own :: rest →
        ∀ s, FuelLoop.Passes (matchBodyOf (fun _ => 0) o.side own)
            ⟨accepted o own rest afterTwoBids, afterTwoBids.bookOf o.symbol, []⟩ s →
          ∀ best, OrderBook.bestOf o.side.opposite s.book = some best → ∀ qty id,
            ¬ s.book.levelMissing (afterTrade (fun _ => 0) o.side own best qty s).engine.cells id :=
  books_represented (reaches_of_execute (fun _ => 0) 10 100000
    [.processNewOrder (bid 1 (.num 100)), .processNewOrder (bid 2 (.num 101))] rfl)

end Concrete

end MatchingEngine

end OrderMatchingEngine
