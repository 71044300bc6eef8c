import OrderMatchingEngine.Refinement.Answers
import OrderMatchingEngine.Refinement.Handlers

/-!
# OrderMatchingEngine.Properties.SnapshotDecoding

When does a snapshot decode to the book?

The engine counts the levels that it assigned (`num_bids`, `num_asks`); `handle_snapshot` ignores
the counts and takes every entry with a quantity. The entries behind the levels are memory that
nobody assigned. So the levels of the book arrive, in order and with their totals, and with them
one level for each further entry whose quantity is not zero by chance (`snapshot_decodes`).
-/

namespace OrderMatchingEngine

open ClientGateway GatewayService

/-! ### The levels of a book -/

namespace OrderBook

variable {α : Type}

/-- The levels of a side, best first. -/
def levels (book : OrderBook α) : OrderSide → List (Price α × List ListNode)
  | .buy => book.buyOrders.reverse
  | .sell => book.sellOrders

/-- What the orders of a level want together, as a number. -/
def levelTotal (cells : Slot → Order α) (level : Price α × List ListNode) : Nat :=
  (level.2.map fun n => (cells n.order).unfilled).sum

/-- The best levels of a side: five, or all there are. -/
def bestLevels (cells : Slot → Order α) (book : OrderBook α) (sd : OrderSide) :
    List (Price α × Nat) :=
  ((book.levels sd).take 5).map fun level => (level.1, levelTotal cells level)

/-- All levels have a price that is a double and a total that is positive and below `2^64`. -/
def Quotable (cells : Slot → Order Int) (book : OrderBook Int) : Prop :=
  ∀ sd, ∀ level ∈ book.levels sd,
    level.1.IsDouble ∧ 0 < levelTotal cells level ∧ levelTotal cells level < 2 ^ 64

/-- The unsigned total of a level. -/
theorem quoteLevel_total (cells : Slot → Order α) (level : Price α × List ListNode) :
    (quoteLevel cells level).2.toNat = levelTotal cells level % 2 ^ 64 := by
  suffices hsum : ∀ (nodes : List ListNode) (total : Quantity),
      (nodes.foldl (fun totalQty n => totalQty + (cells n.order).remainingQty) total).toNat =
        (total.toNat + (nodes.map fun n => (cells n.order).unfilled).sum) % 2 ^ 64 by
    rw [quoteLevel, hsum, levelTotal, UInt64.toNat_zero, Nat.zero_add]
  intro nodes
  induction nodes with
  | nil => exact fun total => (Nat.mod_eq_of_lt total.toNat_lt).symm
  | cons n nodes ih =>
      intro total
      rw [List.foldl_cons, ih, UInt64.toNat_add, List.map_cons, List.sum_cons, ← Nat.add_assoc,
        Nat.mod_add_mod]
      rfl

end OrderBook

/-! ### What is decoded -/

/-- A decoded level. -/
def levelValue (level : TradingPb2.PriceLevel) : Price Int × Nat :=
  (.ofBits level.price, level.quantity)

/-- `handle_snapshot` makes these levels of a message. -/
def Yields (junk : Nat → UInt8) (message : Message) (bids asks : List (Price Int × Nat)) : Prop :=
  ∃ out, handleSnapshot ((message.bytes junk).drop 5) = some out ∧
    out.bids.map levelValue = bids ∧ out.asks.map levelValue = asks

section Snapshots

variable {g : ClientGateway} {symbol : Symbol} {book : OrderBook Int} {cells : Slot → Order Int}

/-- The entries of a side, read back, are its best levels. -/
theorem entryLevel_levels (h : book.Quotable cells) (sd : OrderSide) :
    ((((book.levels sd).take 5).map (OrderBook.quoteLevel cells)).map entryLevel).map levelValue =
      book.bestLevels cells sd := by
  rw [List.map_map, List.map_map, OrderBook.bestLevels]
  refine List.map_congr_left fun level hmem => ?_
  obtain ⟨hprice, -, hlt⟩ := h sd level (List.mem_of_mem_take hmem)
  show (Price.ofBits level.1.bits, (OrderBook.quoteLevel cells level).2.toNat) = _
  rw [Price.ofBits_bits hprice, OrderBook.quoteLevel_total, Nat.mod_eq_of_lt hlt]

/-- A ladder of the best levels decodes to them alone if nothing is read behind them. -/
theorem ladder_decodes (h : book.Quotable cells) (sd : OrderSide) (junk : Nat → UInt8)
    (offset : Nat) :
    ((ladder junk offset (((book.levels sd).take 5).map (OrderBook.quoteLevel cells))).filterMap
        readEntry).map levelValue = book.bestLevels cells sd ↔
      ZeroBehind junk offset (book.levels sd).length := by
  have hquantity : ∀ entry ∈ ((book.levels sd).take 5).map (OrderBook.quoteLevel cells),
      0 < entry.2.toNat := by
    intro entry hmem
    obtain ⟨level, hlevel, rfl⟩ := List.mem_map.mp hmem
    obtain ⟨-, hpos, hlt⟩ := h sd level (List.mem_of_mem_take hlevel)
    rwa [OrderBook.quoteLevel_total, Nat.mod_eq_of_lt hlt]
  rw [filterMap_readEntry junk offset hquantity, List.map_append, entryLevel_levels h,
    List.append_right_eq_self, List.map_eq_nil_iff, filterMap_leftover, List.length_map,
    List.length_take]
  unfold ZeroBehind
  constructor
  · exact fun hzero i hn hi => hzero i (by omega) hi
  · exact fun hzero i hn hi => hzero i (by omega) hi

/-- The messages that carry a snapshot of a symbol's book. -/
def SnapshotSent (g : ClientGateway) (symbol : Symbol) (sent : Sent) : Prop :=
  sent ∈ g.broadcastMarketData symbol ∨
    ∃ fd req, cleanSymbol (OrderMatchingEngine.MarketDataRequest.symbol req) = symbol ∧
      sent ∈ (handleMarketDataRequest fd req g).1.sent

theorem snapshot?_eq (hbook : g.engine.getOrderBook symbol = some book) :
    g.snapshot? symbol = some
      { symbol := strncpy symbol 9
        numBids := .ofNat ((book.levels .buy).take 5).length
        numAsks := .ofNat ((book.levels .sell).take 5).length
        bids := ((book.levels .buy).take 5).map (OrderBook.quoteLevel g.engine.cells)
        asks := ((book.levels .sell).take 5).map (OrderBook.quoteLevel g.engine.cells) } := by
  rw [snapshot?, hbook]
  simp only [OrderBook.getL2Quote, OrderBook.levels, List.length_map]

/-- Both ways to send a snapshot send the same. -/
theorem SnapshotSent.message {sent : Sent} (h : SnapshotSent g symbol sent) :
    ∃ snapshot, g.snapshot? symbol = some snapshot ∧
      sent.message = .marketDataSnapshot snapshot := by
  rcases h with h | ⟨fd, req, rfl, h⟩
  · unfold broadcastMarketData at h
    split at h
    · simp at h
    · rename_i snapshot hsnapshot
      obtain ⟨fd, -, rfl⟩ := List.mem_map.mp h
      exact ⟨snapshot, hsnapshot, rfl⟩
  · by_cases hin : g.LoggedIn fd
    · rw [handleMarketDataRequest_eq hin] at h
      split at h
      · simp at h
      · rename_i snapshot hsnapshot
        obtain rfl := List.mem_singleton.mp h
        exact ⟨snapshot, hsnapshot, rfl⟩
    · simp [handleMarketDataRequest_dropped hin] at h

/-- A snapshot of a book is read as its best levels alone if nothing is read behind them. -/
theorem snapshot?_yields (hbook : g.engine.getOrderBook symbol = some book)
    (hquotable : book.Quotable g.engine.cells) {snapshot : MarketDataSnapshot}
    (hsnapshot : g.snapshot? symbol = some snapshot) (junk : Nat → UInt8) :
    Yields junk (.marketDataSnapshot snapshot) (book.bestLevels g.engine.cells .buy)
        (book.bestLevels g.engine.cells .sell) ↔
      ZeroBehind junk 23 (book.levels .buy).length ∧
        ZeroBehind junk 103 (book.levels .sell).length := by
  obtain rfl := Option.some.inj ((snapshot?_eq hbook).symm.trans hsnapshot)
  have hlen : ∀ sd, (((book.levels sd).take 5).map
      (OrderBook.quoteLevel g.engine.cells)).length ≤ 5 := fun sd => by
    rw [List.length_map, List.length_take]
    exact Nat.min_le_left _ _
  have hsymbol : (strncpy symbol 9).length ≤ 10 := by
    rw [length_strncpy]
    decide
  rw [← ladder_decodes hquotable .buy junk 23, ← ladder_decodes hquotable .sell junk 103, Yields,
    Message.bytes, handleSnapshot_bytes junk _ hsymbol (hlen .buy) (hlen .sell)]
  constructor
  · rintro ⟨out, hout, hbids, hasks⟩
    obtain rfl := Option.some.inj hout
    exact ⟨hbids, hasks⟩
  · exact fun h => ⟨_, rfl, h⟩

/-- **Snapshots decode to the book**, best five levels a side, exactly if the quantities of all
entries behind the levels are zero in the memory that the message was built in. -/
theorem snapshot_decodes (hbook : g.engine.getOrderBook symbol = some book)
    (hquotable : book.Quotable g.engine.cells) {sent : Sent} (hsent : SnapshotSent g symbol sent)
    (junk : Nat → UInt8) :
    Yields junk sent.message (book.bestLevels g.engine.cells .buy)
        (book.bestLevels g.engine.cells .sell) ↔
      ZeroBehind junk 23 (book.levels .buy).length ∧
        ZeroBehind junk 103 (book.levels .sell).length := by
  obtain ⟨snapshot, hsnapshot, hmessage⟩ := hsent.message
  rw [hmessage]
  exact snapshot?_yields hbook hquotable hsnapshot junk

end Snapshots

/-! ### A book with one level -/

/-- A gateway with one order, of five lots of symbol `A` for sale at 100.0. -/
def oneAsk : ClientGateway := (after oneClient (.newOrder 4 (smallRequest 1 7 65 0 1 1 5))).2

/-- The book of symbol `A`. -/
def oneAskBook : OrderBook Int := (oneAsk.engine.getOrderBook [65]).getD (.new [65])

/-- A request for the snapshot of symbol `A`. -/
def snapshotOfA : OrderMatchingEngine.MarketDataRequest :=
  ⟨[0, 0, 77, 15, 0, 65, 0, 0, 0, 0, 0, 0, 0, 0, 0], rfl⟩

theorem getOrderBook_oneAsk : oneAsk.engine.getOrderBook [65] = some oneAskBook := rfl

theorem oneAskBook_quotable : oneAskBook.Quotable oneAsk.engine.cells := by
  have hbuy : oneAskBook.levels .buy = [] := rfl
  have hsell : oneAskBook.levels .sell = [(.ofBits 0x4059000000000000, [⟨0, 99999⟩])] := rfl
  intro sd level hmem
  cases sd with
  | buy => simp [hbuy] at hmem
  | sell =>
      rw [hsell, List.mem_singleton] at hmem
      subst hmem
      exact ⟨⟨0x4059000000000000, rfl⟩, by decide, by decide⟩

/-- **Nine levels too many** are decoded where the memory holds ones. -/
theorem snapshot_with_leftovers : ∃ g symbol book sent, symbol.length < 9 ∧
    g.engine.getOrderBook symbol = some book ∧ book.Quotable g.engine.cells ∧
      SnapshotSent g symbol sent ∧
      ¬ Yields (fun _ => 1) sent.message (book.bestLevels g.engine.cells .buy)
        (book.bestLevels g.engine.cells .sell) := by
  obtain ⟨snapshot, hsnapshot⟩ : ∃ snapshot, oneAsk.snapshot? [65] = some snapshot := ⟨_, rfl⟩
  refine ⟨oneAsk, [65], oneAskBook, ⟨4, .marketDataSnapshot snapshot⟩, by decide, rfl,
    oneAskBook_quotable, .inr ⟨4, snapshotOfA, rfl, ?_⟩, ?_⟩
  · rw [handleMarketDataRequest_eq (by decide), show cleanSymbol _ = [65] from rfl, hsnapshot]
    exact List.mem_singleton.mpr rfl
  · rw [snapshot?_yields getOrderBook_oneAsk oneAskBook_quotable hsnapshot]
    intro hzero
    have hone : (1 : UInt8) = 0 := hzero.1 4 (by decide) (by decide) 0 (by decide)
    exact absurd hone (by decide)

/-- The same snapshot, built in zeroed memory. -/
theorem snapshot_decodes_zeroed : ∃ sent, SnapshotSent oneAsk [65] sent ∧
    Yields (fun _ => 0) sent.message (oneAskBook.bestLevels oneAsk.engine.cells .buy)
      (oneAskBook.bestLevels oneAsk.engine.cells .sell) := by
  obtain ⟨snapshot, hsnapshot⟩ : ∃ snapshot, oneAsk.snapshot? [65] = some snapshot := ⟨_, rfl⟩
  have hsent : SnapshotSent oneAsk [65] ⟨4, .marketDataSnapshot snapshot⟩ := by
    refine .inr ⟨4, snapshotOfA, rfl, ?_⟩
    rw [handleMarketDataRequest_eq (by decide), show cleanSymbol _ = [65] from rfl, hsnapshot]
    exact List.mem_singleton.mpr rfl
  refine ⟨_, hsent, ?_⟩
  exact (snapshot_decodes getOrderBook_oneAsk oneAskBook_quotable hsent fun _ => 0).mpr
    ⟨fun _ _ _ _ _ => rfl, fun _ _ _ _ _ => rfl⟩

end OrderMatchingEngine
