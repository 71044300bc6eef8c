import Mathlib.Algebra.Order.Ring.Nat
import Mathlib.Data.List.AList
import Mathlib.Logic.Function.Basic
import OrderMatchingEngine.Library.LevelMap
import OrderMatchingEngine.Types

/-!
# OrderMatchingEngine.OrderBook

The object pool (`include/object_pool.h`) and the order book (`src/order_book.cpp`).

Design points:

* An `Order *` is the index of the pooled object (`Slot`); reading through it takes the
  pool's cells, so aliased and stale pointers behave as they do in memory.
* `std::map<Price, std::list<Order *>>` is an ordered map of queues of list nodes. A node
  carries its own address, because `order_lookup_` stores an iterator to the node next to
  the order pointer and the two can be told apart only by it.
* `std::list::erase` with an iterator into another list is undefined behaviour. The model
  reports it as a `Fault` rather than giving it a meaning.
-/

namespace OrderMatchingEngine

/-- The index of a pooled object: what an `Order *` points at. -/
abbrev Slot := Nat

/-- Ways in which a call does not return normally. -/
inductive Fault
  /-- A loop is still running at the end of its bound. -/
  | outOfFuel
  /-- An iterator was used with a list it does not belong to (undefined behaviour). -/
  | invalidIterator
  /-- A null pointer was followed (undefined behaviour). -/
  | nullPointer
  /-- A C string was read past the end of its memory (undefined behaviour). -/
  | unterminatedString
  /-- A field was read past the end of its memory (undefined behaviour). -/
  | outOfBounds
  deriving DecidableEq, Repr

/-! ### The object pool -/

/-- `ObjectPool<T>`: the cells and the stack of free indices, top of the stack first. -/
structure ObjectPool (T : Type) where
  cells : Slot → T
  capacity : Nat
  freeIndices : List Slot

namespace ObjectPool

variable {T : Type}

/-- The indices below `n`, largest first: a stack onto which `0, …, n - 1` were pushed. -/
def indicesBelow : Nat → List Slot
  | 0 => []
  | n + 1 => n :: indicesBelow n

/-- `explicit ObjectPool(size_t pool_size)`. -/
def ofSize [Inhabited T] (poolSize : Nat) : ObjectPool T :=
  { cells := fun _ => default, capacity := poolSize, freeIndices := indicesBelow poolSize }

/-- `T *allocate()`: pop a free index, or `nullptr` when there is none. -/
def allocate (pool : ObjectPool T) : Option (Slot × ObjectPool T) :=
  match pool.freeIndices with
  | [] => none
  | index :: rest => some (index, { pool with freeIndices := rest })

/-- `void deallocate(T *obj)`: push the object's index. -/
def deallocate (pool : ObjectPool T) (obj : Slot) : ObjectPool T :=
  { pool with freeIndices := obj :: pool.freeIndices }

/-- `size_t available() const`. -/
def available (pool : ObjectPool T) : Nat := pool.freeIndices.length

/-- Assignment through a pointer into the pool. -/
def write (pool : ObjectPool T) (obj : Slot) (x : T) : ObjectPool T :=
  { pool with cells := Function.update pool.cells obj x }

/-- Read, change and write back one pooled object. -/
def modify (pool : ObjectPool T) (obj : Slot) (f : T → T) : ObjectPool T :=
  pool.write obj (f (pool.cells obj))

end ObjectPool

/-! ### The order book -/

/-- A node of a `std::list<Order *>`: its address and the pointer it holds. -/
structure ListNode where
  addr : Nat
  order : Slot
  deriving DecidableEq, Repr

/-- `struct OrderInfo`: the order and the iterator to its node. -/
structure OrderInfo where
  orderPtr : Slot
  listIt : Nat
  deriving DecidableEq, Repr

/-- `class OrderBook`. Both price maps are in ascending price order. `nextNode` is the
address the next list node receives. -/
structure OrderBook (α : Type) where
  symbol : Symbol
  buyOrders : List (Price α × List ListNode)
  sellOrders : List (Price α × List ListNode)
  orderLookup : AList fun _ : OrderID => OrderInfo
  nextNode : Nat

namespace OrderBook

variable {α : Type}

/-- `explicit OrderBook(const Symbol &symbol)`. -/
def new (symbol : Symbol) : OrderBook α :=
  { symbol := symbol, buyOrders := [], sellOrders := [], orderLookup := ∅, nextNode := 0 }

/-- The price map of a side: `(side == OrderSide::BUY) ? buy_orders_ : sell_orders_`. -/
def priceMap (book : OrderBook α) : OrderSide → List (Price α × List ListNode)
  | .buy => book.buyOrders
  | .sell => book.sellOrders

/-- Replace the price map of a side. -/
def setPriceMap (book : OrderBook α) (m : List (Price α × List ListNode)) : OrderSide → OrderBook α
  | .buy => { book with buyOrders := m }
  | .sell => { book with sellOrders := m }

section SetPriceMap

variable (book : OrderBook α) (m : List (Price α × List ListNode)) (sd : OrderSide)

@[simp] theorem setPriceMap_symbol : (book.setPriceMap m sd).symbol = book.symbol := by
  cases sd <;> rfl
@[simp] theorem setPriceMap_orderLookup :
    (book.setPriceMap m sd).orderLookup = book.orderLookup := by cases sd <;> rfl
@[simp] theorem setPriceMap_nextNode : (book.setPriceMap m sd).nextNode = book.nextNode := by
  cases sd <;> rfl
@[simp] theorem priceMap_setPriceMap_self : (book.setPriceMap m sd).priceMap sd = m := by
  cases sd <;> rfl

theorem priceMap_setPriceMap_of_ne {sd' : OrderSide} (h : sd' ≠ sd) :
    (book.setPriceMap m sd).priceMap sd' = book.priceMap sd' := by
  cases sd <;> cases sd' <;> first | rfl | exact absurd rfl h

end SetPriceMap

section Comparisons

variable [LinearOrder α]

/-- `void add_order(Order *order)`: append to the order's level and overwrite its
`order_lookup_` entry. -/
def addOrder (cells : Slot → Order α) (order : Slot) (book : OrderBook α) : OrderBook α :=
  let o := cells order
  let node : ListNode := ⟨book.nextNode, order⟩
  let book := book.setPriceMap (LevelMap.pushBack o.price node (book.priceMap o.side)) o.side
  { book with
    orderLookup := book.orderLookup.insert o.id ⟨order, node.addr⟩
    nextNode := book.nextNode + 1 }

/-- `Order *cancel_order(const OrderID &order_id)`. The level is found by the price the
order has now; erasing the looked-up node from it is defined only if it is there. -/
def cancelOrder (cells : Slot → Order α) (orderId : OrderID) (book : OrderBook α) :
    Except Fault (Option Slot × OrderBook α) :=
  match book.orderLookup.lookup orderId with
  | none => .ok (none, book)
  | some info =>
    let o := cells info.orderPtr
    match LevelMap.find? o.price (book.priceMap o.side) with
    -- `return nullptr`, with the entry of `order_lookup_` left in place
    | none => .ok (none, book)
    | some orderlist =>
      if orderlist.any (·.addr == info.listIt) then
        let m := LevelMap.remove o.price (·.addr == info.listIt) (book.priceMap o.side)
        .ok (some info.orderPtr,
          { book.setPriceMap m o.side with orderLookup := book.orderLookup.erase orderId })
      else .error .invalidIterator

/-- `cancel_order` of this id would find the order but not its price level. -/
def levelMissing (cells : Slot → Order α) (orderId : OrderID) (book : OrderBook α) : Prop :=
  ∃ info, book.orderLookup.lookup orderId = some info ∧
    LevelMap.find? (cells info.orderPtr).price (book.priceMap (cells info.orderPtr).side) = none

end Comparisons

/-- `Order *getOrderbyId(const OrderID &orderid)`. -/
def getOrderbyId (orderId : OrderID) (book : OrderBook α) : Option Slot :=
  (book.orderLookup.lookup orderId).map (·.orderPtr)

/-- `Order *getBestBid()`: the front of the last level. -/
def getBestBid (book : OrderBook α) : Option Slot := (LevelMap.back book.buyOrders).map (·.order)

/-- `Order *getBestAsk()`: the front of the first level. -/
def getBestAsk (book : OrderBook α) : Option Slot := (LevelMap.front book.sellOrders).map (·.order)

/-- `Price getSpread()`. -/
def getSpread [Zero α] [Sub α] (cells : Slot → Order α) (book : OrderBook α) : Price α :=
  match book.getBestBid, book.getBestAsk with
  | some bestBid, some bestAsk => (cells bestAsk).price - (cells bestBid).price
  | _, _ => 0

/-- `L1Quote getL1Quote()`. -/
def getL1Quote [Zero α] (cells : Slot → Order α) (book : OrderBook α) : L1Quote α :=
  { bid := (book.getBestBid.map fun bestBid => (cells bestBid).price).getD 0
    bidQty := (book.getBestBid.map fun bestBid => (cells bestBid).remainingQty).getD 0
    ask := (book.getBestAsk.map fun bestAsk => (cells bestAsk).price).getD 0
    askQty := (book.getBestAsk.map fun bestAsk => (cells bestAsk).remainingQty).getD 0 }

/-- One entry of an `L2Quote`: the price of a level and its total, an unsigned sum. -/
def quoteLevel (cells : Slot → Order α) (level : Price α × List ListNode) : Price α × Quantity :=
  (level.1, level.2.foldl (fun totalQty n => totalQty + (cells n.order).remainingQty) 0)

/-- `L2Quote getL2Quote(size_t depth) const`. -/
def getL2Quote (cells : Slot → Order α) (depth : Nat) (book : OrderBook α) : L2Quote α :=
  { bids := (book.buyOrders.reverse.take depth).map (quoteLevel cells)
    asks := (book.sellOrders.take depth).map (quoteLevel cells) }

/-- The number of list nodes in a price map. -/
def countOrders (m : List (Price α × List ListNode)) : Nat := (m.map fun l => l.2.length).sum

/-- `size_t getBuyOrders() const`. -/
def getBuyOrders (book : OrderBook α) : Nat := countOrders book.buyOrders

/-- `size_t getSellOrders() const`. -/
def getSellOrders (book : OrderBook α) : Nat := countOrders book.sellOrders

/-- `size_t getTotalOrders() const`. -/
def getTotalOrders (book : OrderBook α) : Nat := book.orderLookup.entries.length

/-! ### Nodes and slots -/

/-- The list nodes of a side in priority order: best price first, queue order in a level. -/
def nodes (book : OrderBook α) : OrderSide → List ListNode
  | .buy => LevelMap.down book.buyOrders
  | .sell => LevelMap.up book.sellOrders

/-- All list nodes of the book. -/
def allNodes (book : OrderBook α) : List ListNode := book.nodes .buy ++ book.nodes .sell

/-- The pool slots its nodes point at. -/
def slots (book : OrderBook α) : List Slot := book.allNodes.map (·.order)

/-- A price map in the priority order of a side. -/
def inOrder {β : Type} (sd : OrderSide) (m : List (Price α × List β)) : List β :=
  match sd with
  | .buy => LevelMap.down m
  | .sell => LevelMap.up m

theorem nodes_eq (book : OrderBook α) (sd : OrderSide) :
    book.nodes sd = inOrder sd (book.priceMap sd) := by cases sd <;> rfl

theorem mem_inOrder {β : Type} {sd : OrderSide} {m : List (Price α × List β)} {x : β} :
    x ∈ inOrder sd m ↔ x ∈ LevelMap.up m := by
  cases sd
  · exact LevelMap.mem_down
  · exact Iff.rfl

theorem inOrder_perm_up {β : Type} (sd : OrderSide) (m : List (Price α × List β)) :
    (inOrder sd m).Perm (LevelMap.up m) := by
  cases sd
  · exact LevelMap.down_perm_up m
  · exact .refl _

theorem inOrder_mapElems {β γ : Type} (sd : OrderSide) (f : β → γ)
    (m : List (Price α × List β)) : inOrder sd (LevelMap.mapElems f m) = (inOrder sd m).map f := by
  cases sd
  · exact LevelMap.down_mapElems f m
  · exact LevelMap.up_mapElems f m

theorem inOrder_remove {β : Type} [LinearOrder α] (sd : OrderSide) {k : Price α} {p : β → Bool}
    {m : List (Price α × List β)} {q : List β} (h : LevelMap.find? k m = some q)
    (hq : q.any p = true)
    (hp : (LevelMap.up m).Pairwise fun x y => ¬ (p x = true ∧ p y = true)) :
    inOrder sd (LevelMap.remove k p m) = (inOrder sd m).filter fun x => !p x := by
  cases sd
  · exact (LevelMap.up_down_remove h hq hp).2
  · exact (LevelMap.up_down_remove h hq hp).1

theorem countOrders_eq (m : List (Price α × List ListNode)) :
    countOrders m = (LevelMap.up m).length := by
  simp [countOrders, LevelMap.up, List.length_flatMap]

theorem getBuyOrders_eq (book : OrderBook α) : book.getBuyOrders = (book.nodes .buy).length :=
  (countOrders_eq _).trans (LevelMap.down_perm_up _).length_eq.symm

theorem getSellOrders_eq (book : OrderBook α) : book.getSellOrders = (book.nodes .sell).length :=
  countOrders_eq _

end OrderBook

end OrderMatchingEngine
