import OrderMatchingEngine.Abstract.Ladder
import OrderMatchingEngine.ClientGateway
import OrderMatchingEngine.Refinement.Lifting

/-!
# OrderMatchingEngine.Refinement.Quotes

What a quote shows of an observable book.

`getL2Quote` computes the ladders of the observable book (`getL2Quote_view`). So a snapshot
depends on that book alone: calls on other symbols do not change it (`Frame.snapshot?`), and a
book that is there stays (`Returns.keeps_book`). `Shows` is what makes a snapshot current.
-/

namespace OrderMatchingEngine

/-! ### Quotes and ladders -/

section Quotes

variable {α : Type} (cells : Slot → Order α)

theorem quoteLevel_view (level : Price α × List ListNode) :
    QueueBook.quoteLevel (level.1, level.2.map fun n => cells n.order) =
      OrderBook.quoteLevel cells level := by
  refine Prod.ext rfl ?_
  show ((level.2.map fun n => cells n.order).map Order.remainingQty).sum =
    level.2.foldl (fun totalQty n => totalQty + (cells n.order).remainingQty) 0
  rw [List.sum_eq_foldl, List.foldl_map, List.foldl_map]

/-- **A quote shows the ladders of the observable book.** -/
theorem getL2Quote_view (depth : Nat) (book : OrderBook α) :
    book.getL2Quote cells depth =
      ⟨(book.view cells).ladder depth .buy, (book.view cells).ladder depth .sell⟩ := by
  have hladder : ∀ m : List (Price α × List ListNode),
      ((LevelMap.mapElems (fun n => cells n.order) m).take depth).map QueueBook.quoteLevel =
        (m.take depth).map (OrderBook.quoteLevel cells) := by
    intro m
    rw [LevelMap.mapElems, ← List.map_take, List.map_map]
    exact List.map_congr_left fun level _ => quoteLevel_view cells level
  unfold OrderBook.getL2Quote QueueBook.ladder QueueBook.ranked OrderBook.view
  dsimp only
  rw [hladder, ← hladder book.buyOrders.reverse, LevelMap.mapElems, LevelMap.mapElems,
    List.map_reverse]

/-- **A level-1 quote shows the first orders of the observable book.** -/
theorem getL1Quote_entry [LinearOrder α] [Zero α] {symbol : Symbol} {book : OrderBook α}
    (hwf : QueueBook.WF symbol (book.view cells)) (sd : OrderSide) :
    (book.getL1Quote cells).entry sd = (book.view cells).firstEntry sd := by
  rw [QueueBook.firstEntry, OrderBook.bestOf_view hwf, Option.map_map]
  cases sd with
  | buy =>
      simp only [OrderBook.getL1Quote, L1Quote.entry, OrderBook.bestOf]
      cases book.getBestBid <;> rfl
  | sell =>
      simp only [OrderBook.getL1Quote, L1Quote.entry, OrderBook.bestOf]
      cases book.getBestAsk <;> rfl

theorem getL2Quote_entries (depth : Nat) (book : OrderBook α) (sd : OrderSide) :
    (book.getL2Quote cells depth).entries sd = (book.view cells).ladder depth sd := by
  rw [getL2Quote_view]
  cases sd <;> rfl

end Quotes

/-! ### Books that stay -/

namespace MatchingEngine

variable {α : Type} [LinearOrder α] [Zero α] {clock : Nat → Timestamp} {e e' : MatchingEngine α}
  {c : Call α} {r : Ret α}

/-- A book that is there stays. -/
theorem Returns.keeps_book (h : Returns clock e c r e') {book : OrderBook α}
    (hbook : e.getOrderBook c.symbol = some book) :
    ∃ book', e'.getOrderBook c.symbol = some book' := by
  by_cases hslot : e.HasSlot c
  · refine Option.isSome_iff_exists.mp ?_
    rw [h.opens hslot, hbook, Option.isSome_some, Bool.or_true]
  · cases c with
    | cancelOrder id symbol side => exact absurd trivial hslot
    | processNewOrder o =>
        obtain ⟨fuel, h⟩ := h
        obtain ⟨out, hp, -⟩ := call_process.mp h
        rw [processOrder_exhausted (not_not.mp hslot)] at hp
        obtain ⟨-, rfl⟩ := Prod.mk.inj (Except.ok.inj hp)
        exact ⟨book, hbook⟩

end MatchingEngine

/-! ### Snapshots -/

/-- The entries of a side that a snapshot says it has. -/
def MarketDataSnapshot.shown (snapshot : MarketDataSnapshot) :
    OrderSide → List (Price Int × Quantity)
  | .buy => snapshot.bids.take snapshot.numBids.toNat
  | .sell => snapshot.asks.take snapshot.numAsks.toNat

namespace ClientGateway

open QueueBook (BestLevels)

variable {g g' : ClientGateway} {symbol : Symbol}

/-- **The snapshot shows the book of the symbol as it is**: what a quote of five levels would list.
These are the best levels, where orders rest at the price of their level. -/
structure Shows (g : ClientGateway) (symbol : Symbol) (snapshot : MarketDataSnapshot) : Prop where
  quote : ∃ book, g.engine.getOrderBook symbol = some book ∧
    snapshot.shown .buy = (book.getL2Quote g.engine.cells 5).bids ∧
    snapshot.shown .sell = (book.getL2Quote g.engine.cells 5).asks
  best : QueueBook.Exact (g.engine.bookView symbol) → ∀ sd,
    BestLevels 5 sd ((g.engine.bookView symbol).orders sd) (snapshot.shown sd)

theorem snapshot?_congr (hbook : g'.engine.getOrderBook symbol = g.engine.getOrderBook symbol)
    (hview : g'.engine.bookView symbol = g.engine.bookView symbol) :
    g'.snapshot? symbol = g.snapshot? symbol := by
  unfold snapshot?
  rw [hbook]
  cases hget : g.engine.getOrderBook symbol with
  | none => rfl
  | some book =>
      have hget' : g'.engine.getOrderBook symbol = some book := hbook.trans hget
      rw [g.engine.bookView_eq symbol hget, g'.engine.bookView_eq symbol hget'] at hview
      dsimp only
      rw [getL2Quote_view, hview, ← getL2Quote_view]

/-- What happens to the book of another symbol is not seen. -/
theorem snapshot?_frame {symbol' : Symbol} {leaks : Nat} {trades : List (Trade Int)}
    (hf : MatchingEngine.Frame symbol' leaks trades g.engine g'.engine) (hne : symbol ≠ symbol') :
    g'.snapshot? symbol = g.snapshot? symbol :=
  snapshot?_congr (hf.books symbol hne) (hf.bookView hne)

theorem take_length_toNat {β : Type} {entries : List β} (h : entries.length ≤ 5) :
    entries.take (UInt32.ofNat entries.length).toNat = entries := by
  have hsize : entries.length < UInt32.size := Nat.lt_of_le_of_lt h (by decide)
  rw [UInt32.toNat_ofNat_of_lt' hsize]
  exact List.take_length

/-- A snapshot shows the ladders of the observable book, which is there. -/
theorem shown_of_snapshot? {snapshot : MarketDataSnapshot}
    (h : g.snapshot? symbol = some snapshot) :
    ∃ book, g.engine.getOrderBook symbol = some book ∧
      book.view g.engine.cells = g.engine.bookView symbol ∧
      ∀ sd, snapshot.shown sd = (g.engine.bookView symbol).ladder 5 sd := by
  unfold snapshot? at h
  split at h
  · simp at h
  · rename_i book hbook
    obtain rfl := Option.some.inj h
    have hview := (g.engine.bookView_eq symbol hbook).symm
    refine ⟨book, hbook, hview, fun sd => ?_⟩
    have hlen : ((book.view g.engine.cells).ladder 5 sd).length ≤ 5 := by
      rw [QueueBook.ladder, List.length_map]
      exact List.length_take_le _ _
    rw [← hview, getL2Quote_view]
    cases sd
    · exact take_length_toNat hlen
    · exact take_length_toNat hlen

/-- A snapshot that would be taken now is current. -/
theorem shows_of_snapshot? {snapshot : MarketDataSnapshot} (h : g.snapshot? symbol = some snapshot)
    (hinv : MatchingEngine.EngineInv g.engine) : g.Shows symbol snapshot := by
  obtain ⟨book, hbook, hview, hshown⟩ := shown_of_snapshot? h
  refine ⟨⟨book, hbook, ?_, ?_⟩, fun hexact sd => ?_⟩
  · rw [hshown, ← hview, getL2Quote_view]
  · rw [hshown, ← hview, getL2Quote_view]
  · rw [hshown]
    exact QueueBook.ladder_best (hinv.wf symbol) hexact 5 sd

end ClientGateway

end OrderMatchingEngine
