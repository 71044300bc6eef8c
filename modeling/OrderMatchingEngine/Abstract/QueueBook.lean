import OrderMatchingEngine.MatchingEngine

/-!
# OrderMatchingEngine.Abstract.QueueBook

The book as an observer sees it: price levels that queue the orders themselves.

There are no pointers, list nodes or look-up table here. An order is found by its id, and
ids are unique in a well-formed book (`WF`). The operations mirror those of the engine on
one book: `addOrder`, `cancelOrder`, the two matching loops (one loop with the taker's
side as a parameter) and `submit`, which is `process_new_order` from the liquidity check
on. `OrderMatchingEngine.Refinement` shows that the engine computes them.

`orders sd` lists a side in priority order, so the best order is its head. Everything the
claims need about matching is read off that list.
-/

namespace OrderMatchingEngine

open FuelLoop (Iter)
open MatchingEngine (scanLevels validateOrder)
open OrderBook (inOrder mem_inOrder inOrder_perm_up inOrder_mapElems inOrder_remove)

/-- The observable book: levels in ascending price order, each with its queue. -/
structure QueueBook (α : Type) where
  bids : List (Price α × List (Order α))
  asks : List (Price α × List (Order α))
  deriving DecidableEq, Repr

namespace QueueBook

variable {α : Type}

/-- A book without orders. -/
def empty : QueueBook α := ⟨[], []⟩

/-- The levels of a side, in ascending price order. -/
def levels (b : QueueBook α) : OrderSide → List (Price α × List (Order α))
  | .buy => b.bids
  | .sell => b.asks

/-- Replace the levels of a side. -/
def setLevels (b : QueueBook α) (m : List (Price α × List (Order α))) : OrderSide → QueueBook α
  | .buy => { b with bids := m }
  | .sell => { b with asks := m }

/-- The orders of a side in priority order: best price first, queue order in a level. -/
def orders (b : QueueBook α) : OrderSide → List (Order α)
  | .buy => LevelMap.down b.bids
  | .sell => LevelMap.up b.asks

@[simp] theorem orders_empty (sd : OrderSide) : (empty : QueueBook α).orders sd = [] := by
  cases sd <;> rfl

/-- All orders of the book. -/
def allOrders (b : QueueBook α) : List (Order α) := b.orders .buy ++ b.orders .sell

/-- The order with the given id. -/
def find? (b : QueueBook α) (id : OrderID) : Option (Order α) := b.allOrders.find? (·.id == id)

/-- Change every order of the book. -/
def mapOrders (f : Order α → Order α) (b : QueueBook α) : QueueBook α :=
  ⟨LevelMap.mapElems f b.bids, LevelMap.mapElems f b.asks⟩

/-- Take the order with the given id out of the book. -/
def without (id : OrderID) (b : QueueBook α) : QueueBook α :=
  ⟨LevelMap.erase (·.id == id) b.bids, LevelMap.erase (·.id == id) b.asks⟩

/-- Execute `qty` of the order with the given id. -/
def fill (id : OrderID) (qty : Quantity) (b : QueueBook α) : QueueBook α :=
  b.mapOrders fun o => if o.id = id then o.reduceQuantity qty else o

section Comparisons

variable [LinearOrder α]

/-- Queue an order at its price. -/
def addOrder (o : Order α) (b : QueueBook α) : QueueBook α :=
  b.setLevels (LevelMap.pushBack o.price o (b.levels o.side)) o.side

/-- Take the order with the given id out of the level its price selects. -/
def cancelOrder (id : OrderID) (b : QueueBook α) :
    Except Fault (Option (Order α) × QueueBook α) :=
  match b.find? id with
  | none => .ok (none, b)
  | some o =>
    match LevelMap.find? o.price (b.levels o.side) with
    | none => .ok (none, b)
    | some queue =>
      if queue.any (·.id == id) then
        .ok (some o,
          b.setLevels (LevelMap.remove o.price (·.id == id) (b.levels o.side)) o.side)
      else .error .invalidIterator

/-- The scan of `can_fill_completely`, which starts at the lowest price on either side. -/
def canFillCompletely (b : QueueBook α) (o : Order α) : Bool :=
  match o.side with
  | .buy => scanLevels Order.remainingQty (fun price => price > o.price) o.quantity b.asks
  | .sell => scanLevels Order.remainingQty (fun price => price < o.price) o.quantity b.bids

/-- Does `own`, taking on side `sd`, refuse to trade at the price of `maker`? -/
def refuses (sd : OrderSide) (own maker : Order α) : Bool :=
  (match sd with
    | .buy => decide (maker.price > own.price)
    | .sell => decide (maker.price < own.price)) && own.type ≠ .market

end Comparisons

/-- The trade, untimed, of `own`, taking on side `sd`, with a resting order. -/
def trade (sd : OrderSide) (own maker : Order α) (qty : Quantity) : Trade α :=
  match sd with
  | .buy =>
    { buyOrderId := own.id, buyUserId := own.userId, sellOrderId := maker.id,
      sellUserId := maker.userId, symbol := own.symbol, price := maker.price, quantity := qty,
      timestamp := 0 }
  | .sell =>
    { buyOrderId := maker.id, buyUserId := maker.userId, sellOrderId := own.id,
      sellUserId := own.userId, symbol := maker.symbol, price := maker.price, quantity := qty,
      timestamp := 0 }

/-- The state of a matching loop. -/
structure Matching (α : Type) where
  book : QueueBook α
  own : Order α
  trades : List (Trade α)

section Loops

variable [LinearOrder α]

/-- One pass of a matching loop for a taker on side `sd`. -/
def matchBody (sd : OrderSide) (s : Matching α) : Except Fault (Iter (Matching α)) :=
  if s.own.remainingQty = 0 then .ok (.done s)
  else
    match (s.book.orders sd.opposite).head? with
    | none => .ok (.done s)
    | some best =>
      if refuses sd s.own best then .ok (.done s)
      else
        let qty := min s.own.remainingQty best.remainingQty
        let own := s.own.reduceQuantity qty
        let book := s.book.fill best.id qty
        let trades := s.trades ++ [trade sd s.own best qty]
        if (best.reduceQuantity qty).isFilled then
          match book.cancelOrder best.id with
          | .error fault => .error fault
          | .ok (_, book) => .ok (.next ⟨book, own, trades⟩)
        else .ok (.next ⟨book, own, trades⟩)

/-- The matching loop for a taker. -/
def matchAgainst (fuel : Nat) (own : Order α) (b : QueueBook α) : Except Fault (Matching α) :=
  FuelLoop.run .outOfFuel (matchBody own.side) fuel ⟨b, own, []⟩

/-- If the order with the given id rests, then in the level that its price selects. -/
def InLevel (id : OrderID) (b : QueueBook α) : Prop :=
  ∀ x ∈ b.allOrders, x.id = id →
    ∃ queue, LevelMap.find? x.price (b.levels x.side) = some queue ∧ x ∈ queue

/-- What happens to the taker after matching. -/
def settle (own : Order α) (b : QueueBook α) : Exit × QueueBook α :=
  if !own.isFilled then
    if own.type = .ioc then (.iocRemainder, b)
    else if own.type ≠ .market then (.rested, b.addOrder own)
    else (.marketRemainder, b)
  else (.filled, b)

/-- `process_new_order` on its book, for an order that was validated and has a slot. -/
def submit (fuel : Nat) (o : Order α) (b : QueueBook α) :
    Except Fault (Outcome α × QueueBook α) :=
  if o.type = .fok && !b.canFillCompletely o then .ok (⟨.killed, o, []⟩, b)
  else
    match b.matchAgainst fuel o with
    | .error fault => .error fault
    | .ok s => .ok (⟨(settle s.own s.book).1, s.own, s.trades⟩, (settle s.own s.book).2)

/-- **What a call can do to the observable book of its symbol.** -/
inductive Step [Zero α] (b : QueueBook α) : Call α → Ret α → QueueBook α → Prop
  | exhausted (o : Order α) :
      Step b (.processNewOrder o) (.processed ⟨.exhausted, o, []⟩) b
  | invalid {o : Order α} (hv : validateOrder o = false) :
      Step b (.processNewOrder o) (.processed ⟨.invalid, o, []⟩) b
  | submit {o : Order α} {out : Outcome α} {b' : QueueBook α} (fuel : Nat)
      (hv : validateOrder o = true) (h : b.submit fuel o = .ok (out, b')) :
      Step b (.processNewOrder o) (.processed out) b'
  | cancel {id : OrderID} {symbol : Symbol} {side : Int} {r : Option (Order α)}
      {b' : QueueBook α} (h : b.cancelOrder id = .ok (r, b')) :
      Step b (.cancelOrder id symbol side) (.cancelled r) b'

end Loops

/-! ### Well-formed books -/

@[simp] theorem levels_setLevels_self (b : QueueBook α) (m) (sd : OrderSide) :
    (b.setLevels m sd).levels sd = m := by cases sd <;> rfl

theorem levels_setLevels_of_ne (b : QueueBook α) (m) {sd sd' : OrderSide} (h : sd' ≠ sd) :
    (b.setLevels m sd).levels sd' = b.levels sd' := by
  cases sd <;> cases sd' <;> first | rfl | exact absurd rfl h

theorem levels_mapOrders (f : Order α → Order α) (b : QueueBook α) (sd : OrderSide) :
    (b.mapOrders f).levels sd = LevelMap.mapElems f (b.levels sd) := by cases sd <;> rfl

theorem orders_eq (b : QueueBook α) (sd : OrderSide) : b.orders sd = inOrder sd (b.levels sd) := by
  cases sd <;> rfl

theorem mem_orders {b : QueueBook α} {sd : OrderSide} {o : Order α} :
    o ∈ b.orders sd ↔ o ∈ LevelMap.up (b.levels sd) := by
  rw [orders_eq, mem_inOrder]

theorem orders_perm (b : QueueBook α) (sd : OrderSide) :
    (b.orders sd).Perm (LevelMap.up (b.levels sd)) := by
  rw [orders_eq]
  exact inOrder_perm_up _ _

theorem mem_allOrders {b : QueueBook α} {o : Order α} :
    o ∈ b.allOrders ↔ ∃ sd, o ∈ b.orders sd := by
  rw [allOrders, List.mem_append]
  constructor
  · intro hmem
    rcases hmem with h | h
    · exact ⟨.buy, h⟩
    · exact ⟨.sell, h⟩
  · intro hmem
    obtain ⟨sd, h⟩ := hmem
    cases sd
    · exact .inl h
    · exact .inr h

theorem orders_mapOrders (f : Order α → Order α) (b : QueueBook α) (sd : OrderSide) :
    (b.mapOrders f).orders sd = (b.orders sd).map f := by
  rw [orders_eq, orders_eq, levels_mapOrders, inOrder_mapElems]

/-- A well-formed book of a symbol: well-formed levels, every order on its own side and of
this symbol, and no two orders with one id. -/
structure WF [LT α] (symbol : Symbol) (b : QueueBook α) : Prop where
  levels : ∀ sd, LevelMap.WF Order.price (b.levels sd)
  sides : ∀ sd, ∀ o ∈ b.orders sd, o.side = sd
  symbols : ∀ sd, ∀ o ∈ b.orders sd, o.symbol = symbol
  ids : (b.allOrders.map Order.id).Nodup

/-- No order of the book is completely filled. -/
def Live (b : QueueBook α) : Prop := ∀ sd, ∀ o ∈ b.orders sd, o.Live

/-- No order of the book has a price that is not a number. -/
def Numbers (b : QueueBook α) : Prop := ∀ sd, ∀ o ∈ b.orders sd, o.price ≠ .nan

/-- Every order's price is the key of its level. -/
def Exact (b : QueueBook α) : Prop := ∀ sd, LevelMap.Exact Order.price (b.levels sd)

theorem WF.empty [LT α] (symbol : Symbol) : WF symbol (QueueBook.empty : QueueBook α) where
  levels sd := by cases sd <;> exact .nil _
  sides sd := by simp
  symbols sd := by simp
  ids := by simp [allOrders]

theorem Live.empty : Live (QueueBook.empty : QueueBook α) := fun sd => by simp

theorem Numbers.empty : Numbers (QueueBook.empty : QueueBook α) := fun sd => by simp

theorem Exact.empty : Exact (QueueBook.empty : QueueBook α) := fun sd => by
  cases sd <;> exact .nil _

/-- A cancel of an id that no order has leaves the book alone. -/
theorem cancelOrder_absent [LinearOrder α] {b : QueueBook α} {id : OrderID}
    (hb : ∀ x ∈ b.allOrders, x.id ≠ id) : b.cancelOrder id = .ok (none, b) := by
  have hfind : b.find? id = none := by
    rw [QueueBook.find?, List.find?_eq_none]
    intro x hx
    simpa using hb x hx
  rw [cancelOrder, hfind]

namespace WF

variable [LinearOrder α] {symbol : Symbol} {b : QueueBook α}

/-- Two orders of a well-formed book with one id are the same order. -/
theorem id_inj (hb : WF symbol b) {o o' : Order α} (h : o ∈ b.allOrders) (h' : o' ∈ b.allOrders)
    (hid : o.id = o'.id) : o = o' :=
  List.inj_on_of_nodup_map hb.ids h h' hid

theorem orders_ids (hb : WF symbol b) (sd : OrderSide) : ((b.orders sd).map Order.id).Nodup := by
  have h := hb.ids
  rw [allOrders, List.map_append] at h
  cases sd
  · exact h.of_append_left
  · exact h.of_append_right

/-- The orders behind the first one of a side have other ids. -/
theorem id_ne_of_tail (hb : WF symbol b) {sd : OrderSide} {best x : Order α}
    {rest : List (Order α)} (h : b.orders sd = best :: rest) (hx : x ∈ rest) : x.id ≠ best.id := by
  have hids := hb.orders_ids sd
  rw [h, List.map_cons, List.nodup_cons] at hids
  exact fun hid => hids.1 (hid ▸ List.mem_map_of_mem hx)

/-- So have the orders of the other side. -/
theorem id_ne_of_side (hb : WF symbol b) {sd sd' : OrderSide} (hne : sd' ≠ sd) {o x : Order α}
    (ho : o ∈ b.orders sd) (hx : x ∈ b.orders sd') : x.id ≠ o.id := by
  intro hid
  obtain rfl := hb.id_inj (mem_allOrders.mpr ⟨_, hx⟩) (mem_allOrders.mpr ⟨_, ho⟩) hid
  exact hne ((hb.sides _ _ hx).symm.trans (hb.sides _ _ ho))

/-- Looking an id up finds exactly the order that has it. -/
theorem find?_eq_some (hb : WF symbol b) {id : OrderID} {o : Order α} :
    b.find? id = some o ↔ o ∈ b.allOrders ∧ o.id = id := by
  unfold QueueBook.find?
  constructor
  · intro h
    exact ⟨List.mem_of_find?_eq_some h, by simpa using List.find?_some h⟩
  · intro horder
    obtain ⟨hmem, rfl⟩ := horder
    obtain ⟨o', ho'⟩ : ∃ o', b.allOrders.find? (·.id == o.id) = some o' :=
      Option.isSome_iff_exists.mp (List.find?_isSome.mpr ⟨o, hmem, by simp⟩)
    rw [ho', hb.id_inj (List.mem_of_find?_eq_some ho') hmem (by simpa using List.find?_some ho')]


/-- Changing executed quantities keeps a book well formed. -/
theorem mapOrders (hb : WF symbol b) {f : Order α → Order α}
    (hf : ∀ o : Order α, o.SameOrder (f o)) : WF symbol (b.mapOrders f) where
  levels sd := by
    rw [levels_mapOrders]
    exact (hb.levels sd).mapElems fun o _ => by rw [hf o]
  sides sd := by
    rw [orders_mapOrders]
    refine List.forall_mem_map.mpr ?_
    intro o ho
    rw [hf o]
    exact hb.sides sd o ho
  symbols sd := by
    rw [orders_mapOrders]
    refine List.forall_mem_map.mpr ?_
    intro o ho
    rw [hf o]
    exact hb.symbols sd o ho
  ids := by
    have hid : ∀ o : Order α, (f o).id = o.id := fun o => by rw [hf o]
    have h := hb.ids
    simp only [allOrders, orders_mapOrders, List.map_append, List.map_map, Function.comp_def,
      hid] at h ⊢
    exact h

theorem fill (hb : WF symbol b) (id : OrderID) (qty : Quantity) : WF symbol (b.fill id qty) :=
  hb.mapOrders fun o => by
    split
    · exact o.sameOrder_reduceQuantity qty
    · exact .refl o

/-- A book whose sides list sub-lists of a well-formed one's is well formed. -/
theorem of_sublist {b' : QueueBook α} (hb : WF symbol b)
    (hl : ∀ sd, LevelMap.WF Order.price (b'.levels sd))
    (hsub : ∀ sd, (b'.orders sd).Sublist (b.orders sd)) : WF symbol b' where
  levels := hl
  sides sd o ho := hb.sides sd o ((hsub sd).mem ho)
  symbols sd o ho := hb.symbols sd o ((hsub sd).mem ho)
  ids := hb.ids.sublist (((hsub .buy).append (hsub .sell)).map Order.id)

/-- The orders of one side with a given id come down to a single one. -/
theorem pairwise_id (hb : WF symbol b) (sd : OrderSide) (id : OrderID) :
    (LevelMap.up (b.levels sd)).Pairwise
      fun x y => ¬ ((x.id == id) = true ∧ (y.id == id) = true) := by
  have h := ((b.orders_perm sd).map Order.id).nodup_iff.mp (hb.orders_ids sd)
  refine (List.pairwise_map.mp h).imp fun {x y} hne hxy => hne ?_
  rw [beq_iff_eq.mp hxy.1, beq_iff_eq.mp hxy.2]

section Resting

variable {sd : OrderSide} {o : Order α} {queue : List (Order α)}

/-- The cancel of a resting order looks for it in the level that its price selects. -/
theorem cancelOrder_resting (hb : WF symbol b) (ho : o ∈ b.orders sd)
    (hq : LevelMap.find? o.price (b.levels sd) = some queue) :
    b.cancelOrder o.id =
      if queue.any (·.id == o.id) then
        .ok (some o, b.setLevels (LevelMap.remove o.price (·.id == o.id) (b.levels sd)) sd)
      else .error .invalidIterator := by
  obtain rfl := hb.sides sd o ho
  have hfind := hb.find?_eq_some.mpr ⟨mem_allOrders.mpr ⟨_, ho⟩, rfl⟩
  rw [cancelOrder, hfind]
  dsimp only
  rw [hq]

/-- A resting order is in a level if its id is. -/
theorem any_id_iff (hb : WF symbol b) (ho : o ∈ b.orders sd)
    (hq : LevelMap.find? o.price (b.levels sd) = some queue) :
    (queue.any fun x => x.id == o.id) = true ↔ o ∈ queue := by
  rw [List.any_eq_true]
  constructor
  · intro h
    obtain ⟨x, hx, hid⟩ := h
    have hmem := mem_orders.mpr (LevelMap.mem_up_of_find? hq hx)
    rwa [hb.id_inj (mem_allOrders.mpr ⟨_, ho⟩) (mem_allOrders.mpr ⟨_, hmem⟩)
      (beq_iff_eq.mp hid).symm]
  · exact fun h => ⟨o, h, by simp⟩

/-- What rests when an order was taken out of its level. -/
theorem orders_remove (hb : WF symbol b) (ho : o ∈ b.orders sd)
    (hq : LevelMap.find? o.price (b.levels sd) = some queue)
    (hany : (queue.any fun x => x.id == o.id) = true) (sd' : OrderSide) :
    (b.setLevels (LevelMap.remove o.price (·.id == o.id) (b.levels sd)) sd).orders sd' =
      (b.orders sd').filter fun x => !(x.id == o.id) := by
  by_cases hsd : sd' = sd
  · subst hsd
    rw [orders_eq, levels_setLevels_self, orders_eq]
    exact inOrder_remove _ hq hany (hb.pairwise_id _ o.id)
  · rw [orders_eq, levels_setLevels_of_ne _ _ hsd, ← orders_eq]
    refine (List.filter_eq_self.mpr ?_).symm
    intro x hx
    simpa using hb.id_ne_of_side hsd ho hx

/-- What the cancel of a resting order does if it returns. -/
theorem cancelOrder_found (hb : WF symbol b) (ho : o ∈ b.orders sd) {r : Option (Order α)}
    {b' : QueueBook α} (hc : b.cancelOrder o.id = .ok (r, b')) :
    ∃ queue, LevelMap.find? o.price (b.levels sd) = some queue ∧
      (queue.any fun x => x.id == o.id) = true ∧ r = some o ∧
      b' = b.setLevels (LevelMap.remove o.price (·.id == o.id) (b.levels sd)) sd := by
  obtain ⟨queue, hq⟩ := (hb.levels sd).find?_isSome (mem_orders.mp ho)
  rw [hb.cancelOrder_resting ho hq] at hc
  split at hc
  · rename_i hany
    obtain ⟨rfl, rfl⟩ := Prod.mk.inj (Except.ok.inj hc)
    exact ⟨queue, hq, hany, rfl, rfl⟩
  · simp at hc

/-- What the cancel of a resting order leaves of its side. -/
theorem levels_of_cancelOrder (hb : WF symbol b) (ho : o ∈ b.orders sd) {r : Option (Order α)}
    {b' : QueueBook α} (hc : b.cancelOrder o.id = .ok (r, b')) :
    b'.levels sd = LevelMap.remove o.price (·.id == o.id) (b.levels sd) := by
  obtain ⟨queue, -, -, -, rfl⟩ := hb.cancelOrder_found ho hc
  exact levels_setLevels_self ..

end Resting

/-- A cancel finds no order, or one that rests on some side. -/
theorem cancelOrder_cases (hb : WF symbol b) {id : OrderID} {r : Option (Order α)}
    {b' : QueueBook α} (h : b.cancelOrder id = .ok (r, b')) :
    ((∀ x ∈ b.allOrders, x.id ≠ id) ∧ b.find? id = none ∧ r = none ∧ b' = b) ∨
      ∃ o sd queue, o ∈ b.orders sd ∧ o.id = id ∧ b.find? id = some o ∧
        LevelMap.find? o.price (b.levels sd) = some queue ∧
        (queue.any fun x => x.id == o.id) = true ∧ r = some o ∧
        b' = b.setLevels (LevelMap.remove o.price (·.id == o.id) (b.levels sd)) sd := by
  rcases hf : b.find? id with _ | o
  · rw [cancelOrder, hf] at h
    obtain ⟨rfl, rfl⟩ := Prod.mk.inj (Except.ok.inj h)
    rw [QueueBook.find?, List.find?_eq_none] at hf
    exact .inl ⟨fun x hx => by simpa using hf x hx, rfl, rfl, rfl⟩
  · obtain ⟨hmem, rfl⟩ := hb.find?_eq_some.mp hf
    obtain ⟨sd, ho⟩ := mem_allOrders.mp hmem
    obtain ⟨queue, hcancel⟩ := hb.cancelOrder_found ho h
    exact .inr ⟨o, sd, queue, ho, rfl, rfl, hcancel⟩

/-- **Cancelling.** A cancel that returns gives the order with that id, if there is one,
takes it off the book and leaves every other order in its place. -/
theorem cancelOrder_ok (hb : WF symbol b) {id : OrderID} {r : Option (Order α)}
    {b' : QueueBook α} (h : b.cancelOrder id = .ok (r, b')) :
    r = b.find? id ∧ WF symbol b' ∧
      ∀ sd, b'.orders sd = (b.orders sd).filter fun o => !(o.id == id) := by
  rcases hb.cancelOrder_cases h with
    ⟨hnone, hf, rfl, rfl⟩ | ⟨o, sd, queue, ho, rfl, hf, hq, hany, rfl, rfl⟩
  · refine ⟨hf.symm, hb, ?_⟩
    intro sd
    -- an id that nobody has is filtered out of nothing
    refine (List.filter_eq_self.mpr ?_).symm
    intro o ho
    simpa using hnone o (mem_allOrders.mpr ⟨sd, ho⟩)
  · have horders := hb.orders_remove ho hq hany
    refine ⟨hf.symm, hb.of_sublist ?_ ?_, horders⟩
    · intro sd'
      by_cases hsd : sd' = sd
      · subst hsd
        rw [levels_setLevels_self]
        exact (hb.levels _).remove _ _
      · rw [levels_setLevels_of_ne _ _ hsd]
        exact hb.levels sd'
    · intro sd'
      rw [horders]
      exact List.filter_sublist

/-- A book that lacks the order is left alone. -/
theorem without_eq_self (hb : WF symbol b) {id : OrderID} (h : ∀ x ∈ b.allOrders, x.id ≠ id) :
    b.without id = b := by
  have hlevels : ∀ sd, LevelMap.erase (·.id == id) (b.levels sd) = b.levels sd := by
    intro sd
    refine LevelMap.erase_eq_self (hb.levels sd).nonempty ?_
    intro x hx
    simpa using h x (mem_allOrders.mpr ⟨sd, mem_orders.mpr hx⟩)
  exact congrArg₂ QueueBook.mk (hlevels .buy) (hlevels .sell)

/-- **A cancel that returns** gives the order with that id, if there is one, and leaves the book
without it. -/
theorem cancelOrder_without (hb : WF symbol b) {id : OrderID} {r : Option (Order α)}
    {b' : QueueBook α} (h : b.cancelOrder id = .ok (r, b')) :
    r = b.find? id ∧ b' = b.without id := by
  refine ⟨(hb.cancelOrder_ok h).1, ?_⟩
  rcases hb.cancelOrder_cases h with
    ⟨hnone, -, -, rfl⟩ | ⟨o, sd, queue, ho, rfl, -, hq, hany, -, rfl⟩
  · exact (hb.without_eq_self hnone).symm
  · have hother : LevelMap.erase (·.id == o.id) (b.levels sd.opposite) = b.levels sd.opposite := by
      refine LevelMap.erase_eq_self (hb.levels _).nonempty ?_
      intro x hx
      simpa using hb.id_ne_of_side sd.ne_opposite.symm ho (mem_orders.mpr hx)
    rw [LevelMap.remove_eq_erase hq hany (hb.levels sd).nonempty (hb.pairwise_id sd o.id)]
    cases sd with
    | buy => exact congrArg (QueueBook.mk _) hother.symm
    | sell => exact congrArg (QueueBook.mk · _) hother.symm

/-- **A cancel returns exactly if** the order does not rest, or is in the level that its price
selects. -/
theorem cancelOrder_returns_iff (hb : WF symbol b) (id : OrderID) :
    (∃ r b', b.cancelOrder id = .ok (r, b')) ↔ b.InLevel id := by
  rcases hf : b.find? id with _ | o
  · refine iff_of_true ⟨none, b, by rw [cancelOrder, hf]⟩ ?_
    rw [QueueBook.find?, List.find?_eq_none] at hf
    intro x hx hid
    exact absurd hid (by simpa using hf x hx)
  · obtain ⟨hmem, rfl⟩ := hb.find?_eq_some.mp hf
    obtain ⟨sd, ho⟩ := mem_allOrders.mp hmem
    obtain ⟨queue, hq⟩ := (hb.levels sd).find?_isSome (mem_orders.mp ho)
    have hside := hb.sides sd o ho
    constructor
    · intro hreturns x hx hid
      obtain ⟨r, b', h⟩ := hreturns
      obtain ⟨queue, hq, hany, -⟩ := hb.cancelOrder_found ho h
      obtain rfl := hb.id_inj hx hmem hid
      exact ⟨queue, hside.symm ▸ hq, (hb.any_id_iff ho hq).mp hany⟩
    · intro hin
      obtain ⟨queue', hq', hmem'⟩ := hin o hmem rfl
      rw [hside, hq] at hq'
      obtain rfl := Option.some.inj hq'
      rw [hb.cancelOrder_resting ho hq, if_pos ((hb.any_id_iff ho hq).mpr hmem')]
      exact ⟨_, _, rfl⟩

/-- Where prices are exact a cancel always returns. -/
theorem cancelOrder_total (hb : WF symbol b) (he : Exact b) (id : OrderID) :
    ∃ r b', b.cancelOrder id = .ok (r, b') ∧ Exact b' := by
  rcases hf : b.find? id with _ | o
  · rw [cancelOrder, hf]
    exact ⟨none, b, rfl, he⟩
  · obtain ⟨hmem, rfl⟩ := hb.find?_eq_some.mp hf
    obtain ⟨sd, ho⟩ := mem_allOrders.mp hmem
    obtain ⟨queue, hq, hoq⟩ := (he sd).find? (hb.levels sd).sorted (mem_orders.mp ho)
    rw [hb.cancelOrder_resting ho hq, if_pos ((hb.any_id_iff ho hq).mpr hoq)]
    refine ⟨_, _, rfl, ?_⟩
    intro sd'
    by_cases hsd : sd' = sd
    · subst hsd
      rw [levels_setLevels_self]
      exact (he _).remove _ _
    · rw [levels_setLevels_of_ne _ _ hsd]
      exact he sd'

theorem orders_addOrder_of_ne {o : Order α} (sd : OrderSide) (h : sd ≠ o.side) :
    (b.addOrder o).orders sd = b.orders sd := by
  rw [orders_eq, addOrder, levels_setLevels_of_ne _ _ h, ← orders_eq]

theorem orders_addOrder_perm (o : Order α) :
    ((b.addOrder o).orders o.side).Perm (o :: b.orders o.side) := by
  refine (orders_perm _ _).trans ?_
  rw [addOrder, levels_setLevels_self]
  exact (LevelMap.up_pushBack_perm _ _ _).trans ((b.orders_perm o.side).symm.cons o)

theorem allOrders_addOrder_perm (o : Order α) :
    ((b.addOrder o).allOrders).Perm (o :: b.allOrders) := by
  have hs := orders_addOrder_perm (b := b) o
  rw [allOrders, allOrders]
  rcases hside : o.side with _ | _
  · rw [hside] at hs
    rw [orders_addOrder_of_ne .sell (by simp [hside])]
    exact hs.append_right _
  · rw [hside] at hs
    rw [orders_addOrder_of_ne .buy (by simp [hside])]
    exact (hs.append_left _).trans List.perm_middle

theorem mem_orders_addOrder {o x : Order α} {sd : OrderSide} :
    x ∈ (b.addOrder o).orders sd ↔ (x = o ∧ sd = o.side) ∨ x ∈ b.orders sd := by
  by_cases h : sd = o.side
  · subst h
    rw [(orders_addOrder_perm o).mem_iff, List.mem_cons]
    simp
  · rw [orders_addOrder_of_ne sd h]
    simp [h]

/-- Queueing an order under an id that no resting order has keeps a book well formed. -/
theorem addOrder (hb : WF symbol b) {o : Order α} (hsym : o.symbol = symbol)
    (hfresh : ∀ x ∈ b.allOrders, x.id ≠ o.id) : WF symbol (b.addOrder o) where
  levels sd := by
    unfold QueueBook.addOrder
    by_cases h : sd = o.side
    · subst h
      rw [levels_setLevels_self]
      exact (hb.levels o.side).pushBack o
    · rw [levels_setLevels_of_ne _ _ h]
      exact hb.levels sd
  sides sd x hx := by
    rcases mem_orders_addOrder.mp hx with ⟨rfl, rfl⟩ | hx
    · rfl
    · exact hb.sides sd x hx
  symbols sd x hx := by
    rcases mem_orders_addOrder.mp hx with ⟨rfl, -⟩ | hx
    · exact hsym
    · exact hb.symbols sd x hx
  ids := by
    rw [((allOrders_addOrder_perm o).map Order.id).nodup_iff, List.map_cons, List.nodup_cons]
    refine ⟨?_, hb.ids⟩
    intro h
    obtain ⟨x, hx, hid⟩ := List.mem_map.mp h
    exact hfresh x hx hid

end WF

end QueueBook

end OrderMatchingEngine
