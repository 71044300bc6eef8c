import OrderMatchingEngine.Library.Loop
import OrderMatchingEngine.Library.Trace
import OrderMatchingEngine.OrderBook

/-!
# OrderMatchingEngine.MatchingEngine

The matching engine (`src/matching_engine.cpp`).

Design points:

* The `while` loops of the two matching functions run under a fuel bound; running out of
  it is a `Fault`, so that "the call returns" is a statement about some bound.
* An `OrderBook &` is a value that is written back when the function that holds the
  reference is done with it.
* The wall clock is a parameter: `clock n` is the reading taken for the `n`-th trade of
  the history, so no two readings are related.
* `processOrder` also reports which `return` of `process_new_order` was taken and what
  `*order_ptr` was there. The source returns only the trades (`processNewOrder`).
-/

namespace OrderMatchingEngine

open FuelLoop (Iter)

/-- `struct MatchingEngine::Stats`. -/
structure Stats where
  totalOrders : UInt64 := 0
  totalTrades : UInt64 := 0
  totalVolume : UInt64 := 0
  deriving DecidableEq, Repr

/-- `class MatchingEngine`. -/
structure MatchingEngine (α : Type) where
  orderPool : ObjectPool (Order α)
  orderBooks : AList fun _ : Symbol => OrderBook α
  tradeHistory : List (Trade α)
  stats : Stats

/-- Where `process_new_order` returns. -/
inductive Exit
  /-- The pool had no free slot. -/
  | exhausted
  /-- `validate_order` failed. -/
  | invalid
  /-- A FOK order that `can_fill_completely` refused. -/
  | killed
  /-- An IOC order with a remainder. -/
  | iocRemainder
  /-- A MARKET order with a remainder. -/
  | marketRemainder
  /-- The order, or its remainder, was added to the book. -/
  | rested
  /-- The order was completely filled. -/
  | filled
  deriving DecidableEq, Repr

/-- What one `process_new_order` call did: its `return`, the order as it was there, and
the trades it returned. -/
structure Outcome (α : Type) where
  exit : Exit
  order : Order α
  trades : List (Trade α)
  deriving DecidableEq, Repr

namespace MatchingEngine

variable {α : Type}

/-- `MatchingEngine()` with a pool of the given size. -/
def withPool [Zero α] (poolSize : Nat) : MatchingEngine α :=
  { orderPool := .ofSize poolSize, orderBooks := ∅, tradeHistory := [], stats := {} }

/-- `MatchingEngine() : order_pool_(100000)`. -/
def init [Zero α] : MatchingEngine α := withPool 100000

/-- The memory behind the engine's `Order *` pointers. -/
abbrev cells (e : MatchingEngine α) : Slot → Order α := e.orderPool.cells

/-- `order_pool_.deallocate(order_ptr)`. -/
def deallocate (e : MatchingEngine α) (order : Slot) : MatchingEngine α :=
  { e with orderPool := e.orderPool.deallocate order }

/-- `void resetStats()`. -/
def resetStats (e : MatchingEngine α) : MatchingEngine α :=
  { e with stats := { totalOrders := 0, totalTrades := 0, totalVolume := 0 } }

/-- Write a book back that was changed through a reference. -/
def setBook (e : MatchingEngine α) (symbol : Symbol) (book : OrderBook α) : MatchingEngine α :=
  { e with orderBooks := e.orderBooks.insert symbol book }

/-- `OrderBook *get_order_book(const Symbol &symbol)`. -/
def getOrderBook (e : MatchingEngine α) (symbol : Symbol) : Option (OrderBook α) :=
  e.orderBooks.lookup symbol

/-- `OrderBook &get_or_create_order_book(const Symbol &symbol)`. -/
def getOrCreateOrderBook (e : MatchingEngine α) (symbol : Symbol) :
    OrderBook α × MatchingEngine α :=
  match e.orderBooks.lookup symbol with
  | some book => (book, e)
  | none => (.new symbol, e.setBook symbol (.new symbol))

/-- `bool validate_order(const Order &order)`. -/
def validateOrder [LinearOrder α] [Zero α] (order : Order α) : Bool :=
  if order.quantity = 0 then false
  else if order.symbol.isEmpty then false
  else if order.type = .limit ∧ order.price ≤ 0 then false
  else if order.price < 0 then false
  else true

/-! ### The liquidity check of FOK orders -/

section Scan

variable {β : Type}

/-- The inner loop of `can_fill_completely`, over one level: `none` is `return true`,
otherwise the quantity still needed. Both the subtraction and `<= 0` are unsigned. -/
def scanLevel (remainingQty : β → Quantity) : Quantity → List β → Option Quantity
  | neededQty, [] => some neededQty
  | neededQty, o :: orders =>
    let neededQty := neededQty - remainingQty o
    if neededQty ≤ 0 then none else scanLevel remainingQty neededQty orders

/-- The outer loop of `can_fill_completely`, over the levels in map order; `tooFar` is the
test that breaks it. -/
def scanLevels (remainingQty : β → Quantity) (tooFar : Price α → Bool) :
    Quantity → List (Price α × List β) → Bool
  | _, [] => false
  | neededQty, (price, ordersAtPrice) :: levels =>
    if tooFar price then false
    else
      match scanLevel remainingQty neededQty ordersAtPrice with
      | none => true
      | some neededQty => scanLevels remainingQty tooFar neededQty levels

end Scan

section Comparisons

variable [LinearOrder α]

/-- `bool can_fill_completely(const OrderBook &book, const Order &order)`. Both branches
scan their map from its lowest price. -/
def canFillCompletely (cells : Slot → Order α) (book : OrderBook α) (order : Order α) : Bool :=
  let remainingQty (n : ListNode) := (cells n.order).remainingQty
  match order.side with
  | .buy =>
    scanLevels remainingQty (fun price => price > order.price) order.quantity book.sellOrders
  | .sell =>
    scanLevels remainingQty (fun price => price < order.price) order.quantity book.buyOrders

end Comparisons

/-! ### Matching -/

/-- `Trade create_trade(...)`: the trade, which is also appended to the history and
counted in the statistics. -/
def createTrade (clock : Nat → Timestamp) (buyOrder sellOrder : Order α)
    (tradeQuantity : Quantity) (tradePrice : Price α) (e : MatchingEngine α) :
    Trade α × MatchingEngine α :=
  let trade : Trade α :=
    { buyOrderId := buyOrder.id
      buyUserId := buyOrder.userId
      sellOrderId := sellOrder.id
      sellUserId := sellOrder.userId
      symbol := buyOrder.symbol
      price := tradePrice
      quantity := tradeQuantity
      timestamp := clock e.tradeHistory.length }
  (trade,
    { e with
      tradeHistory := e.tradeHistory ++ [trade]
      stats := { e.stats with
        totalTrades := e.stats.totalTrades + 1
        totalVolume := e.stats.totalVolume + tradeQuantity } })

/-- The local state of a matching function: the engine, the book it matches against and
the trades so far. -/
structure Matching (α : Type) where
  engine : MatchingEngine α
  book : OrderBook α
  trades : List (Trade α)

section Loops

variable [LinearOrder α] (clock : Nat → Timestamp)

/-- One pass through the `while` loop shared by the two matching functions. They differ in
where the best opposite order is, in the comparison that ends the loop (`beyond best own`),
and in which of `best` and `own` is the buyer and which the seller. -/
def matchBody (getBest : OrderBook α → Option Slot) (beyond : Price α → Price α → Bool)
    (parties : Order α → Order α → Order α × Order α) (own : Slot) (s : Matching α) :
    Except Fault (Iter (Matching α)) :=
  let cells := s.engine.cells
  if (cells own).remainingQty = 0 then .ok (.done s)
  else
    match getBest s.book with
    | none => .ok (.done s)
    | some best =>
      -- a MARKET order takes any price
      if beyond (cells best).price (cells own).price && (cells own).type ≠ .market then
        .ok (.done s)
      else
        let tradeQty := min (cells own).remainingQty (cells best).remainingQty
        let buySell := parties (cells best) (cells own)
        let (trade, e) :=
          createTrade clock buySell.1 buySell.2 tradeQty (cells best).price s.engine
        let pool := (e.orderPool.modify own (·.reduceQuantity tradeQty)).modify best
          (·.reduceQuantity tradeQty)
        let e := { e with orderPool := pool }
        let trades := s.trades ++ [trade]
        if (pool.cells best).isFilled then
          match s.book.cancelOrder pool.cells (pool.cells best).id with
          | .error fault => .error fault
          | .ok (_, book) => .ok (.next ⟨e.deallocate best, book, trades⟩)
        else .ok (.next ⟨e, s.book, trades⟩)

/-- `match_against_buy_orders(OrderBook &book, Order *sell_order)`. -/
def matchAgainstBuyOrders (fuel : Nat) (sellOrder : Slot) (book : OrderBook α)
    (e : MatchingEngine α) : Except Fault (Matching α) :=
  FuelLoop.run .outOfFuel
    (matchBody clock OrderBook.getBestBid (fun bestBid own => bestBid < own)
      (fun bestBid own => (bestBid, own)) sellOrder)
    fuel ⟨e, book, []⟩

/-- `match_against_sell_orders(OrderBook &book, Order *buy_order)`. -/
def matchAgainstSellOrders (fuel : Nat) (buyOrder : Slot) (book : OrderBook α)
    (e : MatchingEngine α) : Except Fault (Matching α) :=
  FuelLoop.run .outOfFuel
    (matchBody clock OrderBook.getBestAsk (fun bestAsk own => bestAsk > own)
      (fun bestAsk own => (own, bestAsk)) buyOrder)
    fuel ⟨e, book, []⟩

/-- Step 4 of `process_new_order`: what happens to the order after matching. -/
def settle (order : Slot) (s : Matching α) : Exit × OrderBook α × MatchingEngine α :=
  let o := s.engine.cells order
  if !o.isFilled then
    if o.type = .ioc then (.iocRemainder, s.book, s.engine.deallocate order)
    else if o.type ≠ .market then
      (.rested, s.book.addOrder s.engine.cells order,
        { s.engine with
          stats := { s.engine.stats with totalOrders := s.engine.stats.totalOrders + 1 } })
    -- dropped; its slot is not given back
    else (.marketRemainder, s.book, s.engine)
  else (.filled, s.book, s.engine.deallocate order)

/-- `process_new_order`, with the `return` taken and the final `*order_ptr`. -/
def processOrder [Zero α] (fuel : Nat) (incomingOrder : Order α) (e : MatchingEngine α) :
    Except Fault (Outcome α × MatchingEngine α) :=
  match e.orderPool.allocate with
  | none => .ok (⟨.exhausted, incomingOrder, []⟩, e)
  | some (orderPtr, pool) =>
    let e := { e with orderPool := pool.write orderPtr incomingOrder }
    if !validateOrder incomingOrder then
      .ok (⟨.invalid, incomingOrder, []⟩, e.deallocate orderPtr)
    else
      let (book, e) := e.getOrCreateOrderBook incomingOrder.symbol
      if incomingOrder.type = .fok && !canFillCompletely e.cells book incomingOrder then
        -- `return {}` without `deallocate`
        .ok (⟨.killed, incomingOrder, []⟩, e)
      else
        let matched :=
          match incomingOrder.side with
          | .buy => matchAgainstSellOrders clock fuel orderPtr book e
          | .sell => matchAgainstBuyOrders clock fuel orderPtr book e
        match matched with
        | .error fault => .error fault
        | .ok s =>
          let (exit, book, e) := settle orderPtr s
          .ok (⟨exit, s.engine.cells orderPtr, s.trades⟩, e.setBook incomingOrder.symbol book)

/-- `std::vector<Trade> process_new_order(const Order &incoming_order)`. -/
def processNewOrder [Zero α] (fuel : Nat) (incomingOrder : Order α) (e : MatchingEngine α) :
    Except Fault (List (Trade α) × MatchingEngine α) :=
  (processOrder clock fuel incomingOrder e).map fun r => (r.1.trades, r.2)

omit clock in
/-- `std::optional<Order> cancel_order(const OrderID &id, const Symbol &symbol, int side)`.
The side is not used. -/
def cancelOrder (id : OrderID) (symbol : Symbol) (_side : Int) (e : MatchingEngine α) :
    Except Fault (Option (Order α) × MatchingEngine α) :=
  let (book, e) := e.getOrCreateOrderBook symbol
  match book.cancelOrder e.cells id with
  | .error fault => .error fault
  | .ok (none, book) => .ok (none, e.setBook symbol book)
  | .ok (some ptr, book) => .ok (some (e.cells ptr), (e.setBook symbol book).deallocate ptr)

end Loops

end MatchingEngine

/-! ### Calls -/

/-- A call of the engine's interface. -/
inductive Call (α : Type)
  | processNewOrder (order : Order α)
  | cancelOrder (id : OrderID) (symbol : Symbol) (side : Int)
  deriving DecidableEq, Repr

/-- What a call returned. -/
inductive Ret (α : Type)
  | processed (outcome : Outcome α)
  | cancelled (order : Option (Order α))
  deriving DecidableEq, Repr

/-- The symbol a call is about. -/
def Call.symbol {α : Type} : Call α → Symbol
  | .processNewOrder order => order.symbol
  | .cancelOrder _ symbol _ => symbol

/-- An outcome without the times of its trades. -/
def Outcome.untimed {α : Type} (out : Outcome α) : Outcome α :=
  { out with trades := out.trades.map Trade.untimed }

/-- A return value without the times of its trades. -/
def Ret.untimed {α : Type} : Ret α → Ret α
  | .processed outcome => .processed outcome.untimed
  | .cancelled order => .cancelled order

theorem Ret.untimed_eq_processed {α : Type} {r : Ret α} {out : Outcome α}
    (h : r.untimed = .processed out) : ∃ out', r = .processed out' ∧ out'.untimed = out := by
  cases r with
  | processed out' => exact ⟨out', rfl, Ret.processed.inj h⟩
  | cancelled x => simp [Ret.untimed] at h

/-- The trades a call returned. -/
def Ret.trades {α : Type} : Ret α → List (Trade α)
  | .processed outcome => outcome.trades
  | .cancelled _ => []

/-- The call was not refused for lack of a slot. -/
def Ret.Served {α : Type} : Ret α → Prop
  | .processed outcome => outcome.exit ≠ .exhausted
  | .cancelled _ => True

theorem Ret.served_untimed {α : Type} (r : Ret α) : r.untimed.Served ↔ r.Served := by
  cases r <;> exact Iff.rfl

namespace MatchingEngine

variable {α : Type} [LinearOrder α] [Zero α]

/-- Run one call under a bound on the passes of its matching loop. -/
def call (clock : Nat → Timestamp) (fuel : Nat) (e : MatchingEngine α) :
    Call α → Except Fault (Ret α × MatchingEngine α)
  | .processNewOrder order =>
    (processOrder clock fuel order e).map fun r => (.processed r.1, r.2)
  | .cancelOrder id symbol side =>
    (cancelOrder id symbol side e).map fun r => (.cancelled r.1, r.2)

/-- A call of `process_new_order` that returns. -/
theorem call_process {clock : Nat → Timestamp} {fuel : Nat} {o : Order α} {r : Ret α}
    {e e' : MatchingEngine α} : call clock fuel e (.processNewOrder o) = .ok (r, e') ↔
      ∃ out, processOrder clock fuel o e = .ok (out, e') ∧ r = .processed out := by
  rw [call, FuelLoop.map_eq_ok]
  constructor
  · intro h
    obtain ⟨⟨out, e''⟩, hp, hr⟩ := h
    obtain ⟨rfl, rfl⟩ := Prod.mk.inj hr
    exact ⟨out, hp, rfl⟩
  · intro h
    obtain ⟨out, hp, rfl⟩ := h
    exact ⟨(out, e'), hp, rfl⟩

/-- A call of `cancel_order` that returns. -/
theorem call_cancel {clock : Nat → Timestamp} {fuel : Nat} {id : OrderID} {symbol : Symbol}
    {side : Int} {r : Ret α} {e e' : MatchingEngine α} :
    call clock fuel e (.cancelOrder id symbol side) = .ok (r, e') ↔
      ∃ x, cancelOrder id symbol side e = .ok (x, e') ∧ r = .cancelled x := by
  rw [call, FuelLoop.map_eq_ok]
  constructor
  · intro h
    obtain ⟨⟨x, e''⟩, hp, hr⟩ := h
    obtain ⟨rfl, rfl⟩ := Prod.mk.inj hr
    exact ⟨x, hp, rfl⟩
  · intro h
    obtain ⟨x, hp, rfl⟩ := h
    exact ⟨(x, e'), hp, rfl⟩

/-- A call returns normally: under some bound it gives an answer and a next state. -/
def Returns (clock : Nat → Timestamp) (e : MatchingEngine α) (c : Call α) (r : Ret α)
    (e' : MatchingEngine α) : Prop :=
  ∃ fuel, call clock fuel e c = .ok (r, e')

/-- A fresh engine with `n` slots reaches `e` by the calls and answers of `tr`, each call
made where the guard `G` allows it. -/
def Reaches (clock : Nat → Timestamp) (n : Nat) (G : MatchingEngine α → Call α → Prop)
    (tr : List (Call α × Ret α)) (e : MatchingEngine α) : Prop :=
  Trace.Run (Trace.guarded G (Returns clock)) (withPool n) tr e

/-- Make the calls one after the other, each under the bound `fuel`; give up where the guard
forbids one or one does not return. -/
def execute (clock : Nat → Timestamp) (fuel : Nat) (G : MatchingEngine α → Call α → Prop)
    [∀ e c, Decidable (G e c)] (e : MatchingEngine α) :
    List (Call α) → Option (List (Call α × Ret α) × MatchingEngine α)
  | [] => some ([], e)
  | c :: cs =>
    if G e c then
      match call clock fuel e c with
      | .error _ => none
      | .ok (r, e') => (execute clock fuel G e' cs).map fun x => ((c, r) :: x.1, x.2)
    else none

theorem run_of_execute {clock : Nat → Timestamp} {fuel : Nat}
    {G : MatchingEngine α → Call α → Prop} [∀ e c, Decidable (G e c)] {cs : List (Call α)}
    {e₀ e e' : MatchingEngine α} {tr tr' : List (Call α × Ret α)}
    (h₀ : Trace.Run (Trace.guarded G (Returns clock)) e₀ tr e)
    (h : execute clock fuel G e cs = some (tr', e')) :
    Trace.Run (Trace.guarded G (Returns clock)) e₀ (tr ++ tr') e' := by
  induction cs generalizing e tr tr' with
  | nil =>
      simp only [execute, Option.some.injEq, Prod.mk.injEq] at h
      obtain ⟨rfl, rfl⟩ := h
      simpa using h₀
  | cons c cs ih =>
      unfold execute at h
      split at h
      · rename_i hg
        split at h
        · simp at h
        · rename_i r e₁ hc
          obtain ⟨⟨tr'', e''⟩, hrest, heq⟩ := Option.map_eq_some_iff.mp h
          obtain ⟨rfl, rfl⟩ := Prod.mk.inj heq
          have := ih (h₀.snoc ⟨hg, fuel, hc⟩) hrest
          simpa using this
      · simp at h

/-- What `execute` computes is reached. -/
theorem reaches_of_execute (clock : Nat → Timestamp) (fuel n : Nat)
    {G : MatchingEngine α → Call α → Prop} [∀ e c, Decidable (G e c)] (cs : List (Call α))
    {e : MatchingEngine α} {tr : List (Call α × Ret α)}
    (h : execute clock fuel G (withPool n) cs = some (tr, e)) : Reaches clock n G tr e :=
  run_of_execute .nil h

/-- The answers to the calls and the engine after them. -/
def ran (clock : Nat → Timestamp) (fuel n : Nat) (G : MatchingEngine α → Call α → Prop)
    [∀ e c, Decidable (G e c)] (cs : List (Call α)) : List (Call α × Ret α) × MatchingEngine α :=
  (execute clock fuel G (withPool n) cs).getD ([], withPool n)

theorem reaches_ran {clock : Nat → Timestamp} {fuel n : Nat}
    {G : MatchingEngine α → Call α → Prop} [∀ e c, Decidable (G e c)] {cs : List (Call α)}
    (h : (execute clock fuel G (withPool n) cs).isSome = true) :
    Reaches clock n G (ran clock fuel n G cs).1 (ran clock fuel n G cs).2 := by
  obtain ⟨x, hx⟩ := Option.isSome_iff_exists.mp h
  have heq : ran clock fuel n G cs = x := by rw [ran, hx, Option.getD_some]
  rw [heq]
  exact reaches_of_execute clock fuel n cs hx

end MatchingEngine

/-! ### Conditions on calls -/

namespace MatchingEngine

variable {α : Type}

/-- Some order with this id rests in the symbol's book. -/
def Rests (e : MatchingEngine α) (symbol : Symbol) (id : OrderID) : Prop :=
  ∃ book, e.getOrderBook symbol = some book ∧ ∃ n ∈ book.allNodes, (e.cells n.order).id = id

instance (e : MatchingEngine α) (symbol : Symbol) (id : OrderID) :
    Decidable (e.Rests symbol id) :=
  match h : e.getOrderBook symbol with
  | none => isFalse fun hr => by
      obtain ⟨book, hbook, -⟩ := hr
      simp [h] at hbook
  | some book => decidable_of_iff (∃ n ∈ book.allNodes, (e.cells n.order).id = id)
      ⟨fun hn => ⟨book, h, hn⟩, fun hr => by
        obtain ⟨book', hbook, hn⟩ := hr
        obtain rfl := Option.some.inj (h.symm.trans hbook)
        exact hn⟩

/-- The call does not submit an order under the id of one resting in that symbol's book. -/
def FreshId (e : MatchingEngine α) : Call α → Prop
  | .processNewOrder order => ¬ e.Rests order.symbol order.id
  | .cancelOrder _ _ _ => True

/-- The call does not submit an order that may be queued (LIMIT, GFD, FOK) under the id of
one resting in that symbol's book. -/
def QueuesFresh (e : MatchingEngine α) : Call α → Prop
  | .processNewOrder order =>
    order.type ≠ .ioc → order.type ≠ .market → ¬ e.Rests order.symbol order.id
  | .cancelOrder _ _ _ => True

instance (e : MatchingEngine α) : (c : Call α) → Decidable (e.FreshId c)
  | .processNewOrder order => inferInstanceAs (Decidable (¬ e.Rests order.symbol order.id))
  | .cancelOrder _ _ _ => inferInstanceAs (Decidable True)

instance (e : MatchingEngine α) : (c : Call α) → Decidable (e.QueuesFresh c)
  | .processNewOrder order => inferInstanceAs (Decidable
      (order.type ≠ .ioc → order.type ≠ .market → ¬ e.Rests order.symbol order.id))
  | .cancelOrder _ _ _ => inferInstanceAs (Decidable True)

end MatchingEngine

namespace Call

variable {α : Type}

/-- An order is submitted with nothing of it executed. -/
def Unfilled : Call α → Prop
  | .processNewOrder order => order.quantityFilled = 0
  | .cancelOrder _ _ _ => True

/-- An order is submitted with a number for its price. -/
def Priced : Call α → Prop
  | .processNewOrder order => order.price ≠ .nan
  | .cancelOrder _ _ _ => True

/-- An order that may be queued (LIMIT, GFD, FOK) is submitted with a number for its
price. -/
def QueuesNumber : Call α → Prop
  | .processNewOrder order => order.type ≠ .ioc → order.type ≠ .market → order.price ≠ .nan
  | .cancelOrder _ _ _ => True

/-- A LIMIT or GFD order is submitted with a number for its price. -/
def LimitsNumber : Call α → Prop
  | .processNewOrder order => order.type = .limit ∨ order.type = .gfd → order.price ≠ .nan
  | .cancelOrder _ _ _ => True

theorem Priced.queuesNumber {c : Call α} (h : c.Priced) : c.QueuesNumber := by
  cases c with
  | processNewOrder order => exact fun _ _ => h
  | cancelOrder id symbol side => trivial

instance : (c : Call α) → Decidable c.Unfilled
  | .processNewOrder order => inferInstanceAs (Decidable (order.quantityFilled = 0))
  | .cancelOrder _ _ _ => inferInstanceAs (Decidable True)

section Decidable

variable [DecidableEq α]

instance : (c : Call α) → Decidable c.Priced
  | .processNewOrder order => inferInstanceAs (Decidable (order.price ≠ .nan))
  | .cancelOrder _ _ _ => inferInstanceAs (Decidable True)

instance : (c : Call α) → Decidable c.LimitsNumber
  | .processNewOrder order => inferInstanceAs (Decidable
      (order.type = .limit ∨ order.type = .gfd → order.price ≠ .nan))
  | .cancelOrder _ _ _ => inferInstanceAs (Decidable True)

instance : (c : Call α) → Decidable c.QueuesNumber
  | .processNewOrder order => inferInstanceAs (Decidable
      (order.type ≠ .ioc → order.type ≠ .market → order.price ≠ .nan))
  | .cancelOrder _ _ _ => inferInstanceAs (Decidable True)

end Decidable

end Call

end OrderMatchingEngine
