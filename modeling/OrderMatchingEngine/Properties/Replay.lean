import OrderMatchingEngine.Refinement.Clock
import OrderMatchingEngine.Refinement.Handlers

/-!
# OrderMatchingEngine.Properties.Replay

Replay of the event log.

`handleNewOrder` and `handleOrderCancel` append their requests, records of 49 and of 32 bytes, to
one file, and `replayEvents` reads it in records of 49 bytes. As long as the file holds new orders
only, the replayed engine is the live engine up to the times of trades (`replay_reproduces`), for
any ids, any clients and any prices. A cancel breaks the frame of the records: the order it took
out is in the replayed book (`replay_misses_cancel`).
-/

namespace OrderMatchingEngine

open Records (Packed read? reader forEach written)

namespace OrderBook

variable {α : Type} [LinearOrder α] {cells : Slot → Order α} {book book' : OrderBook α}
  {id : OrderID} {r : Option Slot}

/-- `cancel_order` of this id finds the order and its price level. -/
def Cancels (cells : Slot → Order α) (id : OrderID) (book : OrderBook α) : Prop :=
  ∃ info queue, book.orderLookup.lookup id = some info ∧
    LevelMap.find? (cells info.orderPtr).price (book.priceMap (cells info.orderPtr).side) =
      some queue

omit [LinearOrder α] in
theorem length_allNodes (book : OrderBook α) : book.allNodes.length =
    (LevelMap.up book.buyOrders).length + (LevelMap.up book.sellOrders).length := by
  rw [allNodes, List.length_append, ← getBuyOrders_eq, ← getSellOrders_eq, getBuyOrders,
    getSellOrders, countOrders_eq, countOrders_eq]

/-- A cancel that returns took a node out of the book if it found one, and did nothing
otherwise. No id has to be unique for this. -/
theorem cancelOrder_cases (h : book.cancelOrder cells id = .ok (r, book')) :
    (¬ book.Cancels cells id ∧ book' = book) ∨
      (book.Cancels cells id ∧ book'.allNodes.length < book.allNodes.length) := by
  unfold OrderBook.cancelOrder at h
  split at h
  · rename_i hlook
    obtain ⟨-, rfl⟩ := Prod.mk.inj (Except.ok.inj h)
    refine .inl ⟨?_, rfl⟩
    intro hfound
    obtain ⟨info, queue, hinfo, -⟩ := hfound
    simp [hlook] at hinfo
  · rename_i info hlook
    dsimp only at h
    split at h
    · rename_i hfind
      obtain ⟨-, rfl⟩ := Prod.mk.inj (Except.ok.inj h)
      refine .inl ⟨?_, rfl⟩
      intro hfound
      obtain ⟨info', queue, hinfo, hqueue⟩ := hfound
      obtain rfl := Option.some.inj (hlook.symm.trans hinfo)
      simp [hfind] at hqueue
    · rename_i queue hfind
      split at h
      · rename_i hany
        obtain ⟨-, rfl⟩ := Prod.mk.inj (Except.ok.inj h)
        refine .inr ⟨⟨info, queue, hlook, hfind⟩, ?_⟩
        have hlt := LevelMap.length_up_remove_lt hfind hany
        rw [length_allNodes, length_allNodes]
        cases hside : (cells info.orderPtr).side with
        | buy =>
            rw [hside] at hlt
            exact Nat.add_lt_add_right hlt _
        | sell =>
            rw [hside] at hlt
            exact Nat.add_lt_add_left hlt _
      · simp at h

end OrderBook

namespace MatchingEngine

/-- Two engines have the same books (levels, queues, orders) and trades, timestamps aside. -/
def SameState {α : Type} (e e' : MatchingEngine α) : Prop :=
  (∀ symbol, e.bookView symbol = e'.bookView symbol) ∧
    e.tradeHistory.map Trade.untimed = e'.tradeHistory.map Trade.untimed

section SameState

variable {α : Type} {e e' e'' : MatchingEngine α}

theorem SameState.of_untimed (h : e.untimed = e'.untimed) : e.SameState e' := by
  constructor
  · intro symbol
    rw [← untimed_bookView e, h, untimed_bookView]
  · exact congrArg MatchingEngine.tradeHistory h

theorem SameState.symm (h : e.SameState e') : e'.SameState e :=
  ⟨fun symbol => (h.1 symbol).symm, h.2.symm⟩

theorem SameState.trans (h : e.SameState e') (h' : e'.SameState e'') : e.SameState e'' :=
  ⟨fun symbol => (h.1 symbol).trans (h'.1 symbol), h.2.trans h'.2⟩

end SameState

section Cancel

variable {α : Type} [LinearOrder α] {e e' : MatchingEngine α} {id : OrderID} {symbol : Symbol}
  {side : Int} {x : Option (Order α)}

omit [LinearOrder α] in
theorem bookOf_setBook_of_ne (book : OrderBook α) {symbol' : Symbol} (h : symbol' ≠ symbol) :
    (e.setBook symbol book).bookOf symbol' = e.bookOf symbol' := by
  rw [bookOf_eq, bookOf_eq, setBook, AList.lookup_insert_ne h]

/-- A cancel is a cancel on the book of its symbol. It leaves the memory, the other books and
the trades alone. -/
theorem cancelOrder_spec (h : cancelOrder id symbol side e = .ok (x, e')) :
    e'.cells = e.cells ∧ e'.tradeHistory = e.tradeHistory ∧
      (∀ symbol' ≠ symbol, e'.bookOf symbol' = e.bookOf symbol') ∧
      ∃ r, (e.bookOf symbol).cancelOrder e.cells id = .ok (r, e'.bookOf symbol) := by
  obtain ⟨hpool, hhist, hother, -, -⟩ := openBook e symbol
  have hcells : (e.getOrCreateOrderBook symbol).2.cells = e.cells := congrArg ObjectPool.cells hpool
  have hothers : ∀ symbol' ≠ symbol,
      (e.getOrCreateOrderBook symbol).2.bookOf symbol' = e.bookOf symbol' := by
    intro symbol' hne
    exact e.bookOf_congr symbol' (hother symbol' hne)
  cases cancelOrder_cases h with
  | missed hc =>
      exact ⟨hcells, hhist, fun _ hne => (bookOf_setBook_of_ne _ hne).trans (hothers _ hne), none,
        by rw [bookOf_setBook]; exact hc⟩
  | @found ptr book hc =>
      refine ⟨hcells, hhist, ?_, some ptr, ?_⟩
      · intro symbol' hne
        rw [bookOf_deallocate, bookOf_setBook_of_ne _ hne, hothers _ hne]
      · rw [bookOf_deallocate, bookOf_setBook]
        exact hc

/-- **A cancel leaves the state alone exactly when it finds no order.** -/
theorem cancelOrder_sameState (h : cancelOrder id symbol side e = .ok (x, e')) :
    e.SameState e' ↔ ¬ (e.bookOf symbol).Cancels e.cells id := by
  obtain ⟨hcells, hhist, hother, r, hbook⟩ := cancelOrder_spec h
  rcases OrderBook.cancelOrder_cases hbook with ⟨hnone, heq⟩ | ⟨hfound, hlt⟩
  · refine ⟨fun _ => hnone, fun _ => ⟨fun symbol' => ?_, by rw [hhist]⟩⟩
    rw [bookView, bookView, hcells]
    by_cases hsym : symbol' = symbol
    · rw [hsym, heq]
    · rw [hother symbol' hsym]
  · refine ⟨?_, fun hnone => absurd hfound hnone⟩
    intro hsame
    have hlen := congrArg (fun b => b.allOrders.length) (hsame.1 symbol)
    simp only [bookView, OrderBook.view_allOrders, List.length_map] at hlen
    omega

end Cancel

end MatchingEngine

namespace ClientGateway

open MatchingEngine

/-! ### Handlers and the log -/

/-- A gateway that starts on a fresh engine with `n` slots, with an open and empty log. -/
structure Starts (n : Nat) (g : ClientGateway) : Prop where
  engine : g.engine = withPool n
  logOpen : g.logOpen = true
  eventLog : g.eventLog = []

/-- The request comes from a client who has logged in. -/
def FromLoggedIn (g : ClientGateway) : Request → Prop
  | .newOrder fd _ _ => g.LoggedIn fd
  | .orderCancel fd _ => g.LoggedIn fd

/-- The request is not a cancel, unless its client has not logged in. -/
def Replayable (g : ClientGateway) : Request → Prop
  | .newOrder _ _ _ => True
  | .orderCancel fd _ => ¬ g.LoggedIn fd

instance (g : ClientGateway) : (i : Request) → Decidable (g.FromLoggedIn i)
  | .newOrder fd _ _ => inferInstanceAs (Decidable (g.LoggedIn fd))
  | .orderCancel fd _ => inferInstanceAs (Decidable (g.LoggedIn fd))

variable {clock clock' now now' : Nat → Timestamp} {fuel fuel' n : Nat}
  {g g' g₀ g₀' : ClientGateway} {i : Request} {r : Reporting} {req : NewOrderRequest}

/-- Replaying a record is processing its order. -/
theorem replayEvent_eq : replayEvent clock now fuel req g =
    (processOrder clock fuel req.order g.engine).map fun x => { g with engine := x.2 } := by
  rw [replayEvent, handleNewOrderInternal, processNewOrder]
  cases processOrder clock fuel req.order g.engine <;> rfl

/-- **One request.** A replayable request that is handled leaves engine and log alone, or it
appends one record to the log and processes the order of that record. -/
theorem handles_spec (hopen : g.logOpen = true) (hrep : g.Replayable i)
    (h : Handles clock g i r g') :
    g'.logOpen = true ∧ ((g'.engine = g.engine ∧ g'.eventLog = g.eventLog) ∨
      ∃ (req : NewOrderRequest) (fuel : Nat) (out : Outcome Int),
        processOrder clock fuel req.order g.engine = .ok (out, g'.engine) ∧
          g'.eventLog = g.eventLog ++ req.units) := by
  obtain ⟨now, fuel, h⟩ := h
  cases i with
  | newOrder fd req behind =>
      by_cases hin : g.LoggedIn fd
      · obtain ⟨out, engine, hp, rfl, -⟩ := handleNewOrder_ok hin h
        obtain ⟨-, hlogOpen, hlog⟩ := log_frame req.units g
        rw [if_pos hopen] at hlog
        exact ⟨hlogOpen.trans hopen, .inr ⟨req, fuel, out, hp, hlog⟩⟩
      · obtain ⟨hengine, hlogOpen, hlog⟩ := session_frame fd g
        obtain ⟨-, rfl⟩ := Prod.mk.inj (Except.ok.inj (h.symm.trans (handleNewOrder_dropped hin)))
        exact ⟨hlogOpen.trans hopen, .inl ⟨hengine, hlog⟩⟩
  | orderCancel fd req =>
      obtain ⟨hengine, hlogOpen, hlog⟩ := session_frame fd g
      obtain ⟨-, rfl⟩ := Prod.mk.inj (Except.ok.inj (h.symm.trans (handleOrderCancel_dropped hrep)))
      exact ⟨hlogOpen.trans hopen, .inl ⟨hengine, hlog⟩⟩

/-! ### Replay -/

/-- A record that is replayed under one bound is replayed alike under a larger one. -/
theorem replayEvent_mono (hle : fuel ≤ fuel') (h : replayEvent clock now fuel req g = .ok g') :
    replayEvent clock now fuel' req g = .ok g' := by
  rw [replayEvent_eq] at h ⊢
  obtain ⟨⟨out, engine⟩, hp, rfl⟩ := FuelLoop.map_eq_ok.mp h
  obtain ⟨out', hp', -⟩ := call_process.mp (call_mono hle (call_process.mpr ⟨out, hp, rfl⟩))
  rw [hp']
  rfl

/-- Replaying a file of whole records, and behind them less than a record, is replaying the
records. -/
theorem replayEvents_written {recs : List NewOrderRequest} {tail : List UInt8}
    (htail : tail.length < 49) (g : ClientGateway) :
    replayEvents clock now fuel (some (written recs ++ tail)) g =
      forEach (replayEvent clock now fuel) recs g := by
  have hlen := Records.length_written recs
  rw [replayEvents, Records.run_reader htail (by rw [List.length_append, hlen]; omega)]
  cases forEach (replayEvent clock now fuel) recs g <;> rfl

/-- The file holds whole records whose replay on `g₀'` gives the live engine, times aside. -/
def Reproduced (clock' now' : Nat → Timestamp) (g₀' g : ClientGateway) : Prop :=
  ∃ recs fuel g', g.eventLog = written recs ∧
    forEach (replayEvent clock' now' fuel) recs g₀' = .ok g' ∧
    g'.engine.untimed = g.engine.untimed

/-- One more request. -/
theorem Reproduced.step (hopen : g.logOpen = true) (hrep : g.Replayable i) {g₁ : ClientGateway}
    (hg : Reproduced clock' now' g₀' g) (h : Handles clock g i r g₁) :
    Reproduced clock' now' g₀' g₁ := by
  obtain ⟨recs, fuel', g', hlog, hreplay, hsame⟩ := hg
  obtain ⟨-, ⟨hengine, hlog'⟩ | ⟨req, fuel, out, hp, hlog'⟩⟩ := handles_spec hopen hrep h
  · exact ⟨recs, fuel', g', hlog'.trans hlog, hreplay, by rw [hengine]; exact hsame⟩
  · -- A bound that serves the records so far and the new one.
    obtain ⟨r', engine', hcall', -, hsame'⟩ := call_untimed_congr clock'
      (Nat.le_max_right fuel' fuel) hsame (call_process.mpr ⟨out, hp, rfl⟩)
    obtain ⟨out', hp', -⟩ := call_process.mp hcall'
    refine ⟨recs ++ [req], max fuel' fuel, { g' with engine := engine' }, ?_, ?_, hsame'⟩
    · rw [hlog', hlog, Records.written_append]
      simp [written]
    · have hfront := Records.forEach_mono
        (fun _ _ _ => replayEvent_mono (Nat.le_max_left fuel' fuel)) hreplay
      rw [Records.forEach_append hfront, forEach, replayEvent_eq, hp']
      rfl

/-- A live run of replayable requests keeps the log open and reproduced. -/
theorem reproduced_of_run (clock' now' : Nat → Timestamp) {tr : List (Request × Reporting)}
    (h₀ : g₀.Starts n) (h₀' : g₀'.engine = withPool n)
    (h : Trace.Run (Trace.guarded Replayable (Handles clock)) g₀ tr g) :
    g.logOpen = true ∧ Reproduced clock' now' g₀' g := by
  refine Trace.Run.invariant (fun _ g => g.logOpen = true ∧ Reproduced clock' now' g₀' g) ?_ ?_ h
  · refine ⟨h₀.logOpen, [], 0, g₀', h₀.eventLog, rfl, ?_⟩
    rw [h₀.engine, h₀']
  · intro tr g i r g₁ _ hg hs
    exact ⟨(handles_spec hg.1 hs.1 hs.2).1, hg.2.step hg.1 hs.1 hs.2⟩

/-- The replay of the records, with fewer bytes than a record behind them, returns under some
bound, and under every bound under which it returns it gives the live engine, times aside. -/
theorem Reproduced.replays (hg : Reproduced clock' now' g₀' g) {tail : List UInt8}
    (htail : tail.length < 49) :
    (∃ fuel g', replayEvents clock' now' fuel (some (g.eventLog ++ tail)) g₀' = .ok g') ∧
      ∀ fuel g', replayEvents clock' now' fuel (some (g.eventLog ++ tail)) g₀' = .ok g' →
        g'.engine.untimed = g.engine.untimed := by
  obtain ⟨recs, fuel, g', hlog, hreplay, hsame⟩ := hg
  refine ⟨⟨fuel, g', ?_⟩, ?_⟩
  · rw [hlog, replayEvents_written htail]
    exact hreplay
  · intro fuel₁ g₁ h₁
    rw [hlog, replayEvents_written htail] at h₁
    have hmax := Records.forEach_mono
      (fun _ _ _ => replayEvent_mono (Nat.le_max_left fuel fuel₁)) hreplay
    have hmax₁ := Records.forEach_mono
      (fun _ _ _ => replayEvent_mono (Nat.le_max_right fuel fuel₁)) h₁
    obtain rfl := Except.ok.inj (hmax₁.symm.trans hmax)
    exact hsame

/-- A cancel by a client who has logged in: a record of another size behind the log, and a call of
`cancel_order`. -/
theorem handles_orderCancel (hopen : g.logOpen = true) {fd : Int} {req : OrderCancelRequest}
    (hin : g.LoggedIn fd) (h : Handles clock g (.orderCancel fd req) r g') :
    g'.eventLog = g.eventLog ++ req.units ∧
      ∃ x, cancelOrder req.clientOrderId (cleanSymbol req.symbol) req.side.toNat g.engine =
        .ok (x, g'.engine) := by
  obtain ⟨now, fuel, h⟩ := h
  obtain ⟨x, engine, hc, rfl, -⟩ := handleOrderCancel_ok hin h
  obtain ⟨-, -, hlog⟩ := log_frame req.units g
  rw [if_pos hopen] at hlog
  exact ⟨hlog, x, hc⟩

/-- **Replay reproduces the live engine** after every run without a cancel from a logged-in
client: it returns, and what it gives is the live engine, its pool and statistics included, but for
the times of trades. After one cancel more the replayed books and trades are those of the live
engine exactly when the cancel found no order. -/
theorem replay_reproduces {tr : List (Request × Reporting)} (h₀ : g₀.Starts n)
    (h₀' : g₀'.engine = withPool n)
    (h : Trace.Run (Trace.guarded Replayable (Handles clock)) g₀ tr g) :
    ((∃ fuel g', replayEvents clock' now' fuel (some g.eventLog) g₀' = .ok g') ∧
        ∀ fuel g', replayEvents clock' now' fuel (some g.eventLog) g₀' = .ok g' →
          g'.engine.untimed = g.engine.untimed ∧ g'.engine.SameState g.engine) ∧
      ∀ fd (req : OrderCancelRequest) r g₁, g.LoggedIn fd →
        Handles clock g (.orderCancel fd req) r g₁ →
        ∀ fuel g', replayEvents clock' now' fuel (some g₁.eventLog) g₀' = .ok g' →
          (g'.engine.SameState g₁.engine ↔
            ¬ (g.engine.bookOf (cleanSymbol req.symbol)).Cancels g.engine.cells
              req.clientOrderId) := by
  obtain ⟨hopen, hg⟩ := reproduced_of_run clock' now' h₀ h₀' h
  constructor
  · have hshort : ([] : List UInt8).length < 49 := by decide
    obtain ⟨hex, hall⟩ := hg.replays hshort
    rw [List.append_nil] at hex hall
    exact ⟨hex, fun fuel g' h' => ⟨hall fuel g' h', .of_untimed (hall fuel g' h')⟩⟩
  · intro fd req r g₁ hin hcancel fuel g' hreplay
    obtain ⟨hlog, x, hc⟩ := handles_orderCancel hopen hin hcancel
    rw [hlog] at hreplay
    have hsame : g'.engine.SameState g.engine :=
      .of_untimed ((hg.replays (by rw [req.size]; decide)).2 fuel g' hreplay)
    rw [← cancelOrder_sameState hc]
    exact ⟨fun h' => hsame.symm.trans h', fun h' => hsame.trans h'⟩

/-! ### Concrete runs -/

section Concrete

/-- A request to buy five lots of `A` at 100.0, as order 1 of user 7. -/
def buyFive : NewOrderRequest :=
  ⟨[0, 0, 78, 49, 0] ++ [1, 0, 0, 0, 0, 0, 0, 0] ++ [7, 0, 0, 0, 0, 0, 0, 0] ++
    [65, 0, 0, 0, 0, 0, 0, 0, 0, 0] ++ [0] ++ [1] ++ [0, 0, 0, 0, 0, 0, 0x59, 0x40] ++
    [5, 0, 0, 0, 0, 0, 0, 0], rfl⟩

/-- A request to cancel that order. -/
def cancelFive : OrderCancelRequest :=
  ⟨[0, 0, 67, 32, 0] ++ [1, 0, 0, 0, 0, 0, 0, 0] ++ [7, 0, 0, 0, 0, 0, 0, 0] ++
    [65, 0, 0, 0, 0, 0, 0, 0, 0, 0] ++ [0], rfl⟩

/-- The gateway after the order. -/
def afterBuy : ClientGateway := (after oneClient (.newOrder 4 buyFive)).2

theorem handles_buyFive : Handles (fun _ => 0) oneClient (.newOrder 4 buyFive)
    (after oneClient (.newOrder 4 buyFive)).1 afterBuy := ⟨fun _ => 0, 10, rfl⟩

/-- **A cancel is not replayed**: after an order and its cancel the live book is empty, and
the replayed book still holds the order. -/
theorem replay_misses_cancel :
    ∃ tr g g', oneClient.Starts 100000 ∧
      Trace.Run (Trace.guarded FromLoggedIn (Handles fun _ => 0)) oneClient tr g ∧
      tr.map Prod.fst = [.newOrder 4 buyFive, .orderCancel 4 cancelFive] ∧
      replayEvents (fun _ => 0) (fun _ => 0) 10 (some g.eventLog) oneClient = .ok g' ∧
      (g.engine.bookView [65]).allOrders.length = 0 ∧
      (g'.engine.bookView [65]).allOrders.length = 1 ∧ ¬ g'.engine.SameState g.engine := by
  have hcancel : Handles (fun _ => 0) afterBuy (.orderCancel 4 cancelFive)
      (after afterBuy (.orderCancel 4 cancelFive)).1
      (after afterBuy (.orderCancel 4 cancelFive)).2 := ⟨fun _ => 0, 10, rfl⟩
  have hin : FromLoggedIn oneClient (.newOrder 4 buyFive) := rfl
  have hin' : FromLoggedIn afterBuy (.orderCancel 4 cancelFive) := rfl
  refine ⟨_, _, _, ⟨rfl, rfl, rfl⟩,
    (Trace.Run.nil.snoc ⟨hin, handles_buyFive⟩).snoc ⟨hin', hcancel⟩, rfl, rfl, rfl, rfl,
    ?_⟩
  intro hsame
  have hlen := congrArg (fun b => b.allOrders.length) (hsame.1 [65])
  exact absurd hlen (by decide)

/-- A log with one order is replayed. -/
theorem replay_reproduces_buyFive :
    ((∃ fuel g', replayEvents (fun _ => 0) (fun _ => 0) fuel (some afterBuy.eventLog) oneClient =
          .ok g') ∧
        ∀ fuel g', replayEvents (fun _ => 0) (fun _ => 0) fuel (some afterBuy.eventLog) oneClient =
            .ok g' →
          g'.engine.untimed = afterBuy.engine.untimed ∧ g'.engine.SameState afterBuy.engine) ∧
      ∀ fd (req : OrderCancelRequest) r g₁, afterBuy.LoggedIn fd →
        Handles (fun _ => 0) afterBuy (.orderCancel fd req) r g₁ →
        ∀ fuel g', replayEvents (fun _ => 0) (fun _ => 0) fuel (some g₁.eventLog) oneClient =
            .ok g' →
          (g'.engine.SameState g₁.engine ↔
            ¬ (afterBuy.engine.bookOf (cleanSymbol req.symbol)).Cancels afterBuy.engine.cells
              req.clientOrderId) :=
  have hrep : Replayable oneClient (.newOrder 4 buyFive) := trivial
  replay_reproduces ⟨rfl, rfl, rfl⟩ rfl (Trace.Run.nil.snoc ⟨hrep, handles_buyFive⟩)

end Concrete

end ClientGateway

end OrderMatchingEngine
