import OrderMatchingEngine.Abstract.Matching

/-!
# OrderMatchingEngine.Refinement.Book

The pointer book refines the observable book, operation by operation.

`OrderBook.view` reads the orders through the pool. `Linked` is the part of the
representation invariant that the view cannot see: node addresses are unique and
`order_lookup_` maps exactly the ids of the queued orders, each to its order and its node.
Under it, and with a well-formed view, every operation of the pointer book computes the
operation of the same name on the view; each lemma also says which slots the book keeps.
-/

namespace OrderMatchingEngine

/-- An element of a list with distinct keys can be put in front of the others. -/
theorem perm_cons_filter_of_nodup_map {β γ : Type} [DecidableEq γ] {f : β → γ} {l : List β}
    (h : (l.map f).Nodup) {x : β} (hx : x ∈ l) :
    l.Perm (x :: l.filter fun y => !(f y == f x)) := by
  induction l with
  | nil => simp at hx
  | cons y l ih =>
      rw [List.map_cons, List.nodup_cons] at h
      rcases List.mem_cons.mp hx with rfl | hx
      · rw [List.filter_cons_of_neg (by simp)]
        refine .cons _ (List.Perm.of_eq (List.filter_eq_self.mpr ?_).symm)
        intro z hz
        have hne : f z ≠ f x := fun hzx => h.1 (hzx ▸ List.mem_map_of_mem hz)
        simpa using hne
      · have hne : f y ≠ f x := fun hyx => h.1 (hyx ▸ List.mem_map_of_mem hx)
        rw [List.filter_cons_of_pos (by simpa using hne)]
        exact ((ih h.2 hx).cons y).trans (.swap _ _ _)

namespace OrderBook

variable {α : Type}

/-! ### The view -/

/-- The book with the orders in place of the pointers. -/
def view (cells : Slot → Order α) (book : OrderBook α) : QueueBook α :=
  ⟨LevelMap.mapElems (fun n => cells n.order) book.buyOrders,
    LevelMap.mapElems (fun n => cells n.order) book.sellOrders⟩

section View

variable (cells : Slot → Order α) (book : OrderBook α)

theorem view_levels (sd : OrderSide) : (book.view cells).levels sd =
    LevelMap.mapElems (fun n => cells n.order) (book.priceMap sd) := by cases sd <;> rfl

theorem view_orders (sd : OrderSide) :
    (book.view cells).orders sd = (book.nodes sd).map fun n => cells n.order := by
  rw [QueueBook.orders_eq, view_levels, inOrder_mapElems, nodes_eq]

theorem view_allOrders :
    (book.view cells).allOrders = book.allNodes.map fun n => cells n.order := by
  rw [QueueBook.allOrders, view_orders, view_orders, allNodes, List.map_append]

theorem view_setPriceMap (m : List (Price α × List ListNode)) (sd : OrderSide) :
    (book.setPriceMap m sd).view cells =
      (book.view cells).setLevels (LevelMap.mapElems (fun n => cells n.order) m) sd := by
  cases sd <;> rfl

theorem mem_nodes {sd : OrderSide} {n : ListNode} :
    n ∈ book.nodes sd ↔ n ∈ LevelMap.up (book.priceMap sd) := by
  rw [nodes_eq, mem_inOrder]

theorem mem_allNodes {n : ListNode} : n ∈ book.allNodes ↔ ∃ sd, n ∈ book.nodes sd := by
  rw [allNodes, List.mem_append]
  constructor
  · intro hmem
    rcases hmem with h | h
    · exact ⟨.buy, h⟩
    · exact ⟨.sell, h⟩
  · intro hmem
    obtain ⟨sd, h⟩ := hmem
    cases sd
    · exact .inl h
    · exact .inr h

theorem mem_slots {p : Slot} : p ∈ book.slots ↔ ∃ n ∈ book.allNodes, n.order = p := by
  rw [slots, List.mem_map]

end View

/-- Two memories that agree on the book's slots give it one view. -/
theorem view_congr {cells cells' : Slot → Order α} {book : OrderBook α}
    (h : ∀ p ∈ book.slots, cells p = cells' p) : book.view cells = book.view cells' := by
  have hn : ∀ sd, ∀ n ∈ LevelMap.up (book.priceMap sd), cells n.order = cells' n.order := by
    intro sd n hn
    exact h _ ((mem_slots _).mpr ⟨n, (mem_allNodes _).mpr ⟨sd, (mem_nodes _).mpr hn⟩, rfl⟩)
  rw [view, view, QueueBook.mk.injEq]
  exact ⟨LevelMap.mapElems_congr (hn .buy), LevelMap.mapElems_congr (hn .sell)⟩

/-! ### The linked representation -/

/-- The hidden part of the representation invariant: every node has its own address, below
the next one to be given out, and the look-up table maps exactly the ids of the queued
orders, each to that order and to its own node. -/
structure Linked (cells : Slot → Order α) (book : OrderBook α) : Prop where
  addrs : (book.allNodes.map (·.addr)).Nodup
  below : ∀ n ∈ book.allNodes, n.addr < book.nextNode
  lookup : ∀ id info, book.orderLookup.lookup id = some info ↔
    ∃ n ∈ book.allNodes, (cells n.order).id = id ∧ info = ⟨n.order, n.addr⟩

theorem Linked.new (cells : Slot → Order α) (symbol : Symbol) :
    Linked cells (OrderBook.new symbol : OrderBook α) where
  addrs := by simp [OrderBook.new, allNodes, nodes]
  below := by simp [OrderBook.new, allNodes, nodes]
  lookup := by simp [OrderBook.new, allNodes, nodes]

namespace Linked

variable {cells : Slot → Order α} {book : OrderBook α}

/-- Two nodes that hold orders of one id are the same node. -/
theorem node_inj (h : Linked cells book) {n n' : ListNode} (hn : n ∈ book.allNodes)
    (hn' : n' ∈ book.allNodes) (hid : (cells n.order).id = (cells n'.order).id) : n = n' := by
  have hl := (h.lookup _ _).mpr ⟨n, hn, rfl, rfl⟩
  rw [hid, (h.lookup _ _).mpr ⟨n', hn', rfl, rfl⟩, Option.some.injEq, OrderInfo.mk.injEq] at hl
  exact List.inj_on_of_nodup_map h.addrs hn hn' hl.2.symm

/-- The book stays linked when memory changes without touching the ids of its orders. -/
theorem congr (h : Linked cells book) {cells' : Slot → Order α}
    (hid : ∀ p ∈ book.slots, (cells' p).id = (cells p).id) : Linked cells' book where
  addrs := h.addrs
  below := h.below
  lookup id info := by
    rw [h.lookup]
    constructor
    · intro hnode
      obtain ⟨n, hn, hnid, hinfo⟩ := hnode
      exact ⟨n, hn, (hid _ ((mem_slots _).mpr ⟨n, hn, rfl⟩)).trans hnid, hinfo⟩
    · intro hnode
      obtain ⟨n, hn, hnid, hinfo⟩ := hnode
      exact ⟨n, hn, (hid _ ((mem_slots _).mpr ⟨n, hn, rfl⟩)).symm.trans hnid, hinfo⟩

/-- The look-up table has one entry for each queued order. -/
theorem getTotalOrders (h : Linked cells book) :
    book.getTotalOrders = book.allNodes.length := by
  have hkeys : (book.allNodes.map fun n => (cells n.order).id).Nodup := by
    refine List.Nodup.map_on (fun n hn n' hn' hid => h.node_inj hn hn' hid) ?_
    exact List.Nodup.of_map _ h.addrs
  have hperm : book.orderLookup.keys.Perm (book.allNodes.map fun n => (cells n.order).id) := by
    refine (List.perm_ext_iff_of_nodup (AList.keys_nodup _) hkeys).mpr ?_
    intro id
    rw [← AList.mem_keys, ← AList.lookup_isSome, Option.isSome_iff_exists, List.mem_map]
    constructor
    · intro hlook
      obtain ⟨info, hinfo⟩ := hlook
      obtain ⟨n, hn, hid, -⟩ := (h.lookup _ _).mp hinfo
      exact ⟨n, hn, hid⟩
    · intro hnode
      obtain ⟨n, hn, hid⟩ := hnode
      exact ⟨_, (h.lookup _ _).mpr ⟨n, hn, hid, rfl⟩⟩
  have hlen := hperm.length_eq
  rw [List.length_map] at hlen
  rw [← hlen, OrderBook.getTotalOrders, AList.keys, List.keys, List.length_map]

end Linked

/-! ### Best orders and the liquidity scan -/

section Best

variable [LinearOrder α] {cells : Slot → Order α} {book : OrderBook α} {symbol : Symbol}

/-- No level of a book with a well-formed view is empty. -/
theorem levels_nonempty (hwf : QueueBook.WF symbol (book.view cells)) (sd : OrderSide) :
    ∀ l ∈ book.priceMap sd, l.2 ≠ [] := by
  intro l hl
  have h := (hwf.levels sd).nonempty (l.1, l.2.map fun n => cells n.order) (by
    rw [view_levels]
    exact List.mem_map_of_mem (f := fun l => (l.1, l.2.map fun n => cells n.order)) hl)
  simpa using h

/-- The best order of a side: `getBestBid` or `getBestAsk`. -/
def bestOf : OrderSide → OrderBook α → Option Slot
  | .buy => getBestBid
  | .sell => getBestAsk

/-- The best order is the first one in priority order. -/
theorem bestOf_eq (hwf : QueueBook.WF symbol (book.view cells)) (sd : OrderSide) :
    book.bestOf sd = (book.nodes sd).head?.map (·.order) := by
  cases sd
  · exact congrArg (Option.map (·.order)) (LevelMap.back_eq_head? (levels_nonempty hwf .buy))
  · exact congrArg (Option.map (·.order)) (LevelMap.front_eq_head? (levels_nonempty hwf .sell))

theorem bestOf_view (hwf : QueueBook.WF symbol (book.view cells)) (sd : OrderSide) :
    ((book.view cells).orders sd).head? = (book.bestOf sd).map cells := by
  rw [bestOf_eq hwf, view_orders, List.head?_map, Option.map_map]
  rfl

theorem bestOf_mem_slots (hwf : QueueBook.WF symbol (book.view cells)) {sd : OrderSide}
    {p : Slot} (h : book.bestOf sd = some p) : p ∈ book.slots := by
  rw [bestOf_eq hwf, Option.map_eq_some_iff] at h
  obtain ⟨n, hn, rfl⟩ := h
  exact (mem_slots _).mpr ⟨n, (mem_allNodes _).mpr ⟨sd, List.mem_of_mem_head? hn⟩, rfl⟩

end Best

theorem scanLevel_map {β γ : Type} (f : β → γ) (rem : γ → Quantity) (neededQty : Quantity)
    (l : List β) : MatchingEngine.scanLevel rem neededQty (l.map f) =
      MatchingEngine.scanLevel (fun x => rem (f x)) neededQty l := by
  induction l generalizing neededQty with
  | nil => rfl
  | cons x l ih => simp only [List.map_cons, MatchingEngine.scanLevel, ih]

theorem scanLevels_mapElems {β γ : Type} (f : β → γ) (rem : γ → Quantity)
    (tooFar : Price α → Bool) (neededQty : Quantity) (m : List (Price α × List β)) :
    MatchingEngine.scanLevels rem tooFar neededQty (LevelMap.mapElems f m) =
      MatchingEngine.scanLevels (fun x => rem (f x)) tooFar neededQty m := by
  induction m generalizing neededQty with
  | nil => rfl
  | cons l m ih =>
      simp only [LevelMap.mapElems_cons, MatchingEngine.scanLevels, scanLevel_map, ih]

theorem canFillCompletely_view [LinearOrder α] (cells : Slot → Order α) (book : OrderBook α)
    (o : Order α) :
    (book.view cells).canFillCompletely o = MatchingEngine.canFillCompletely cells book o := by
  unfold QueueBook.canFillCompletely MatchingEngine.canFillCompletely view
  cases o.side
  · exact scanLevels_mapElems _ _ _ _ _
  · exact scanLevels_mapElems _ _ _ _ _

/-! ### Executing part of a resting order -/

/-- Writing an executed quantity through a pointer of the book fills that order in the
view. -/
theorem view_update [LinearOrder α] {cells : Slot → Order α} {book : OrderBook α}
    (h : Linked cells book) {p : Slot} (hp : p ∈ book.slots) (qty : Quantity) :
    book.view (Function.update cells p ((cells p).reduceQuantity qty)) =
      (book.view cells).fill (cells p).id qty := by
  obtain ⟨n, hn, rfl⟩ := (mem_slots _).mp hp
  have hnode : ∀ sd, ∀ n' ∈ LevelMap.up (book.priceMap sd),
      Function.update cells n.order ((cells n.order).reduceQuantity qty) n'.order =
        if (cells n'.order).id = (cells n.order).id then (cells n'.order).reduceQuantity qty
        else cells n'.order := by
    intro sd n' hn'
    have hmem : n' ∈ book.allNodes := (mem_allNodes _).mpr ⟨sd, (mem_nodes _).mpr hn'⟩
    by_cases hid : (cells n'.order).id = (cells n.order).id
    · obtain rfl := h.node_inj hmem hn hid
      rw [Function.update_self, if_pos rfl]
    · have hne : n'.order ≠ n.order := fun heq => hid (by rw [heq])
      rw [Function.update_of_ne hne, if_neg hid]
  have hside : ∀ sd, LevelMap.mapElems (fun n' => Function.update cells n.order
      ((cells n.order).reduceQuantity qty) n'.order) (book.priceMap sd) =
        LevelMap.mapElems (fun o => if o.id = (cells n.order).id then o.reduceQuantity qty else o)
          (LevelMap.mapElems (fun n => cells n.order) (book.priceMap sd)) := by
    intro sd
    rw [LevelMap.mapElems_congr (hnode sd), LevelMap.mapElems, LevelMap.mapElems,
      LevelMap.mapElems, List.map_map]
    simp [Function.comp_def]
  rw [QueueBook.fill, QueueBook.mapOrders, view, QueueBook.mk.injEq]
  exact ⟨hside .buy, hside .sell⟩

/-! ### Adding an order -/

section AddOrder

variable [LinearOrder α] {cells : Slot → Order α} {book : OrderBook α}

theorem priceMap_addOrder (cells : Slot → Order α) (book : OrderBook α) (p : Slot)
    (sd : OrderSide) : (book.addOrder cells p).priceMap sd =
      (book.setPriceMap (LevelMap.pushBack (cells p).price ⟨book.nextNode, p⟩
        (book.priceMap (cells p).side)) (cells p).side).priceMap sd := by
  cases sd <;> rfl

theorem view_addOrder (cells : Slot → Order α) (book : OrderBook α) (p : Slot) :
    (book.addOrder cells p).view cells = (book.view cells).addOrder (cells p) := by
  have h : (book.addOrder cells p).view cells =
      (book.setPriceMap (LevelMap.pushBack (cells p).price ⟨book.nextNode, p⟩
        (book.priceMap (cells p).side)) (cells p).side).view cells := rfl
  rw [h, view_setPriceMap, QueueBook.addOrder, view_levels]
  rw [← LevelMap.pushBack_mapElems]

theorem allNodes_addOrder_perm (cells : Slot → Order α) (book : OrderBook α) (p : Slot) :
    (book.addOrder cells p).allNodes.Perm (⟨book.nextNode, p⟩ :: book.allNodes) := by
  have hself : ((book.addOrder cells p).nodes (cells p).side).Perm
      (⟨book.nextNode, p⟩ :: book.nodes (cells p).side) := by
    rw [nodes_eq, nodes_eq, priceMap_addOrder, priceMap_setPriceMap_self]
    exact (inOrder_perm_up _ _).trans
      ((LevelMap.up_pushBack_perm _ _ _).trans ((inOrder_perm_up _ _).symm.cons _))
  have hother : ∀ sd, sd ≠ (cells p).side →
      (book.addOrder cells p).nodes sd = book.nodes sd := by
    intro sd hsd
    rw [nodes_eq, nodes_eq, priceMap_addOrder, priceMap_setPriceMap_of_ne _ _ _ hsd]
  rw [allNodes, allNodes]
  rcases hsd : (cells p).side with _ | _
  · rw [hsd] at hself
    rw [hother .sell (by simp [hsd])]
    exact hself.append_right _
  · rw [hsd] at hself
    rw [hother .buy (by simp [hsd])]
    exact (hself.append_left _).trans List.perm_middle

theorem slots_addOrder_perm (cells : Slot → Order α) (book : OrderBook α) (p : Slot) :
    (book.addOrder cells p).slots.Perm (p :: book.slots) :=
  List.Perm.map ListNode.order (allNodes_addOrder_perm cells book p)

/-- An order that is added under a fresh id is linked by its own node. -/
theorem Linked.addOrder (h : Linked cells book) {p : Slot}
    (hfresh : ∀ n ∈ book.allNodes, (cells n.order).id ≠ (cells p).id) :
    Linked cells (book.addOrder cells p) := by
  have hperm := allNodes_addOrder_perm cells book p
  have hmem : ∀ n, n ∈ (book.addOrder cells p).allNodes ↔
      n = ⟨book.nextNode, p⟩ ∨ n ∈ book.allNodes := fun n => by
    rw [hperm.mem_iff, List.mem_cons]
  have hnext : (book.addOrder cells p).nextNode = book.nextNode + 1 := by
    simp [OrderBook.addOrder]
  have hlookup : (book.addOrder cells p).orderLookup =
      book.orderLookup.insert (cells p).id ⟨p, book.nextNode⟩ := by
    simp [OrderBook.addOrder]
  refine ⟨?_, ?_, ?_⟩
  · rw [(hperm.map _).nodup_iff, List.map_cons, List.nodup_cons]
    refine ⟨?_, h.addrs⟩
    intro hin
    obtain ⟨n, hn, haddr⟩ := List.mem_map.mp hin
    exact absurd haddr (Nat.ne_of_lt (h.below n hn))
  · intro n hn
    rw [hnext]
    rcases (hmem n).mp hn with rfl | hn
    · exact Nat.lt_succ_self _
    · exact Nat.lt_succ_of_lt (h.below n hn)
  · intro id info
    rw [hlookup]
    -- the entry of `id` is overwritten, which is harmless as no node has that id
    by_cases hid : id = (cells p).id
    · subst hid
      rw [AList.lookup_insert, Option.some.injEq]
      constructor
      · rintro rfl
        exact ⟨_, (hmem _).mpr (.inl rfl), rfl, rfl⟩
      · intro hnode
        obtain ⟨n, hn, hnid, rfl⟩ := hnode
        rcases (hmem n).mp hn with rfl | hn
        · rfl
        · exact absurd hnid (hfresh n hn)
    · rw [AList.lookup_insert_ne hid, h.lookup]
      constructor
      · intro hnode
        obtain ⟨n, hn, hrest⟩ := hnode
        exact ⟨n, (hmem n).mpr (.inr hn), hrest⟩
      · intro hnode
        obtain ⟨n, hn, hnid, hinfo⟩ := hnode
        rcases (hmem n).mp hn with rfl | hn
        · exact absurd hnid.symm hid
        · exact ⟨n, hn, hnid, hinfo⟩

end AddOrder

/-! ### Cancelling an order -/

section CancelOrder

variable [LinearOrder α] {cells : Slot → Order α} {book : OrderBook α}

omit [LinearOrder α] in
/-- The nodes of a linked book come down to a single one for each address. -/
theorem Linked.pairwise_addr (h : Linked cells book) (sd : OrderSide) (addr : Nat) :
    (LevelMap.up (book.priceMap sd)).Pairwise
      fun n n' => ¬ ((n.addr == addr) = true ∧ (n'.addr == addr) = true) := by
  have hsub : ((book.nodes sd).map (·.addr)).Nodup := by
    have haddrs := h.addrs
    rw [allNodes, List.map_append] at haddrs
    cases sd
    · exact haddrs.of_append_left
    · exact haddrs.of_append_right
  rw [nodes_eq] at hsub
  have hup := ((inOrder_perm_up sd (book.priceMap sd)).map ListNode.addr).nodup_iff.mp hsub
  refine (List.pairwise_map.mp hup).imp fun {n n'} hne hand => hne ?_
  rw [beq_iff_eq.mp hand.1, beq_iff_eq.mp hand.2]

omit [LinearOrder α] in
/-- What the look-up of an id finds: the node that holds the order, or that there is none. -/
theorem Linked.lookup_cases (h : Linked cells book) (id : OrderID) :
    (book.orderLookup.lookup id = none ∧ ∀ n ∈ book.allNodes, (cells n.order).id ≠ id) ∨
      ∃ n ∈ book.allNodes, (cells n.order).id = id ∧
        book.orderLookup.lookup id = some ⟨n.order, n.addr⟩ := by
  rcases hl : book.orderLookup.lookup id with _ | info
  · refine .inl ⟨rfl, ?_⟩
    intro n hn hid
    rw [(h.lookup id _).mpr ⟨n, hn, hid, rfl⟩] at hl
    simp at hl
  · obtain ⟨n, hn, hid, rfl⟩ := (h.lookup id info).mp hl
    exact .inr ⟨n, hn, hid, rfl⟩

theorem find?_view (hl : Linked cells book) {symbol : Symbol}
    (hwf : QueueBook.WF symbol (book.view cells)) (id : OrderID) :
    (book.view cells).find? id = (book.getOrderbyId id).map cells := by
  unfold getOrderbyId
  rcases hl.lookup_cases id with ⟨hnone, hno⟩ | ⟨n, hn, hid, hsome⟩
  · rw [hnone, QueueBook.find?, view_allOrders]
    simp only [Option.map_none, List.find?_eq_none, List.mem_map]
    rintro o ⟨n, hn, rfl⟩
    simpa using hno n hn
  · rw [hsome]
    refine hwf.find?_eq_some.mpr ⟨?_, hid⟩
    rw [view_allOrders]
    exact List.mem_map_of_mem (f := fun n => cells n.order) hn

/-- **Cancelling refines cancelling**: the pointer book finds, returns and removes the same
order, and fails where the observable book fails. -/
theorem view_cancelOrder (hl : Linked cells book) {symbol : Symbol}
    (hwf : QueueBook.WF symbol (book.view cells)) (id : OrderID) :
    (book.view cells).cancelOrder id =
      (book.cancelOrder cells id).map fun r => (r.1.map cells, r.2.view cells) := by
  rw [QueueBook.cancelOrder, OrderBook.cancelOrder, find?_view hl hwf, getOrderbyId]
  rcases hl.lookup_cases id with ⟨hnone, -⟩ | ⟨n, hn, hid, hsome⟩
  · simp only [hnone, Option.map_none, Except.map]
  · simp only [hsome, Option.map_some, view_levels, LevelMap.find?_mapElems]
    rcases hq : LevelMap.find? (cells n.order).price (book.priceMap (cells n.order).side)
      with _ | queue
    · simp only [Option.map_none, Except.map]
    · -- the two removals pick the same node: by id in the view, by address in the book
      have hsame : ∀ n' ∈ LevelMap.up (book.priceMap (cells n.order).side),
          ((cells n'.order).id == id) = (n'.addr == n.addr) := by
        intro n' hn'
        have hmem : n' ∈ book.allNodes := (mem_allNodes _).mpr ⟨_, (mem_nodes _).mpr hn'⟩
        rw [Bool.eq_iff_iff, beq_iff_eq, beq_iff_eq]
        constructor
        · intro hid'
          rw [hl.node_inj hmem hn (hid'.trans hid.symm)]
        · intro haddr
          rw [List.inj_on_of_nodup_map hl.addrs hmem hn haddr, hid]
      have hany : (queue.map fun n => cells n.order).any (·.id == id) =
          queue.any (·.addr == n.addr) := by
        rw [List.any_map, Bool.eq_iff_iff, List.any_eq_true, List.any_eq_true]
        refine exists_congr fun n' => and_congr_right ?_
        intro hn'
        rw [Function.comp_apply, hsame n' (LevelMap.mem_up_of_find? hq hn')]
      have hremove := LevelMap.remove_mapElems (f := fun n : ListNode => cells n.order)
        (q := fun o => o.id == id) (cells n.order).price hsame
      simp only [Option.map_some, hany]
      split
      · rw [hremove, ← view_setPriceMap]
        rfl
      · rfl

/-- What a cancel that returns does to the nodes of a linked book: nothing, or it takes the
node of the order out, and nothing else. -/
theorem Linked.cancelOrder_ok (hl : Linked cells book) {symbol : Symbol}
    (hwf : QueueBook.WF symbol (book.view cells)) {id : OrderID} {r : Option Slot}
    {book' : OrderBook α} (h : book.cancelOrder cells id = .ok (r, book')) :
    (r = none ∧ book' = book) ∨
      ∃ n ∈ book.allNodes, r = some n.order ∧ (cells n.order).id = id ∧
        book'.symbol = book.symbol ∧ book'.nextNode = book.nextNode ∧
        book'.orderLookup = book.orderLookup.erase id ∧
        ∀ sd, book'.nodes sd = (book.nodes sd).filter fun n' => !(n'.addr == n.addr) := by
  unfold OrderBook.cancelOrder at h
  rcases hl.lookup_cases id with ⟨hnone, -⟩ | ⟨n, hn, hid, hsome⟩
  · simp only [hnone, Except.ok.injEq, Prod.mk.injEq] at h
    exact .inl ⟨h.1.symm, h.2.symm⟩
  · simp only [hsome] at h
    split at h
    · simp only [Except.ok.injEq, Prod.mk.injEq] at h
      exact .inl ⟨h.1.symm, h.2.symm⟩
    · rename_i queue hq
      split at h
      · rename_i hany
        simp only [Except.ok.injEq, Prod.mk.injEq] at h
        obtain ⟨rfl, rfl⟩ := h
        refine .inr ⟨n, hn, rfl, hid, by simp, by simp, rfl, fun sd => ?_⟩
        have hnodes : ∀ lookup, OrderBook.nodes { book.setPriceMap (LevelMap.remove
            (cells n.order).price (fun x => x.addr == n.addr) (book.priceMap (cells n.order).side))
            (cells n.order).side with orderLookup := lookup } sd =
              (book.setPriceMap (LevelMap.remove (cells n.order).price
                (fun x => x.addr == n.addr) (book.priceMap (cells n.order).side))
                (cells n.order).side).nodes sd := fun _ => by cases sd <;> rfl
        rw [hnodes]
        by_cases hsd : sd = (cells n.order).side
        · subst hsd
          rw [nodes_eq, priceMap_setPriceMap_self, nodes_eq,
            inOrder_remove _ hq hany (hl.pairwise_addr _ _)]
        · rw [nodes_eq, priceMap_setPriceMap_of_ne _ _ _ hsd, ← nodes_eq]
          refine (List.filter_eq_self.mpr ?_).symm
          intro n' hn'
          have hne : n'.addr ≠ n.addr := by
            intro haddr
            obtain rfl :=
              List.inj_on_of_nodup_map hl.addrs ((mem_allNodes _).mpr ⟨sd, hn'⟩) hn haddr
            refine hsd (hwf.sides sd (cells n'.order) ?_).symm
            rw [view_orders]
            exact List.mem_map_of_mem (f := fun n => cells n.order) hn'
          simpa using hne
      · simp at h

/-- A book stays linked when a cancel on it returns. Its slots are the old ones without the
slot that is given back. -/
theorem Linked.cancelOrder (hl : Linked cells book) {symbol : Symbol}
    (hwf : QueueBook.WF symbol (book.view cells)) {id : OrderID} {r : Option Slot}
    {book' : OrderBook α} (h : book.cancelOrder cells id = .ok (r, book')) :
    Linked cells book' ∧ book'.symbol = book.symbol ∧
      book.slots.Perm (r.toList ++ book'.slots) := by
  rcases hl.cancelOrder_ok hwf h with ⟨rfl, rfl⟩ | ⟨n, hn, rfl, hid, hsym, hnext, hlook, hnodes⟩
  · exact ⟨hl, rfl, .refl _⟩
  · have hnode : book'.allNodes = book.allNodes.filter fun n' => !(n'.addr == n.addr) := by
      rw [allNodes, hnodes, hnodes, allNodes, List.filter_append]
    have hmem : ∀ n', n' ∈ book'.allNodes ↔ n' ∈ book.allNodes ∧ n' ≠ n := by
      intro n'
      rw [hnode, List.mem_filter]
      refine and_congr_right ?_
      intro hn'
      rw [Bool.not_eq_true', beq_eq_false_iff_ne]
      exact not_congr ⟨fun haddr => List.inj_on_of_nodup_map hl.addrs hn' hn haddr,
        fun heq => heq ▸ rfl⟩
    refine ⟨⟨?_, ?_, ?_⟩, hsym, ?_⟩
    · rw [hnode]
      exact hl.addrs.sublist (List.filter_sublist.map _)
    · intro n' hn'
      rw [hnext]
      exact hl.below n' ((hmem n').mp hn').1
    · intro id' info
      rw [hlook]
      by_cases hid' : id' = id
      · subst hid'
        rw [AList.lookup_erase]
        refine ⟨fun h => by simp at h, ?_⟩
        intro hnode
        obtain ⟨n', hn', hnid, -⟩ := hnode
        obtain ⟨hn', hne⟩ := (hmem n').mp hn'
        exact absurd (hl.node_inj hn' hn (hnid.trans hid.symm)) hne
      · rw [AList.lookup_erase_ne hid', hl.lookup]
        constructor
        · intro hnode
          obtain ⟨n', hn', hnid, hinfo⟩ := hnode
          refine ⟨n', (hmem n').mpr ⟨hn', fun heq => hid' ?_⟩, hnid, hinfo⟩
          rw [← hnid, heq, hid]
        · intro hnode
          obtain ⟨n', hn', hrest⟩ := hnode
          exact ⟨n', ((hmem n').mp hn').1, hrest⟩
    · rw [slots, slots, hnode]
      exact (perm_cons_filter_of_nodup_map hl.addrs hn).map _

/-- Cancelling reads of an order where it rests. -/
theorem cancelOrder_congr {cells' : Slot → Order α}
    (h : ∀ p, (cells' p).side = (cells p).side ∧ (cells' p).price = (cells p).price)
    (id : OrderID) : book.cancelOrder cells' id = book.cancelOrder cells id := by
  unfold OrderBook.cancelOrder
  cases book.orderLookup.lookup id with
  | none => rfl
  | some info =>
      dsimp only
      rw [(h info.orderPtr).1, (h info.orderPtr).2]

/-- **An order that was just added is cancelled** without a trace, but for its node's address. -/
theorem cancelOrder_addOrder (hl : Linked cells book)
    (hne : ∀ sd, ∀ l ∈ book.priceMap sd, l.2 ≠ []) {p : Slot}
    (hfresh : ∀ n ∈ book.allNodes, (cells n.order).id ≠ (cells p).id) :
    (book.addOrder cells p).cancelOrder cells (cells p).id =
      .ok (some p, { book with nextNode := book.nextNode + 1 }) := by
  have hlook : (book.addOrder cells p).orderLookup =
      book.orderLookup.insert (cells p).id ⟨p, book.nextNode⟩ := by
    simp [addOrder]
  have hmap : (book.addOrder cells p).priceMap (cells p).side =
      LevelMap.pushBack (cells p).price ⟨book.nextNode, p⟩ (book.priceMap (cells p).side) := by
    rw [priceMap_addOrder, priceMap_setPriceMap_self]
  have hremove : LevelMap.remove (cells p).price (fun n => n.addr == book.nextNode)
      (LevelMap.pushBack (cells p).price (⟨book.nextNode, p⟩ : ListNode)
        (book.priceMap (cells p).side)) = book.priceMap (cells p).side := by
    refine LevelMap.remove_pushBack _ (hne _) (beq_self_eq_true _) ?_
    intro n hn
    have hlt := hl.below n ((mem_allNodes _).mpr ⟨_, (mem_nodes _).mpr hn⟩)
    simpa using Nat.ne_of_lt hlt
  have herase : (book.orderLookup.insert (cells p).id ⟨p, book.nextNode⟩).erase (cells p).id =
      book.orderLookup := by
    have hnone : book.orderLookup.lookup (cells p).id = none := by
      rcases hl.lookup_cases (cells p).id with ⟨hnone, -⟩ | ⟨n, hn, hid, -⟩
      · exact hnone
      · exact absurd hid (hfresh n hn)
    refine AList.ext ?_
    show List.kerase _ (List.kinsert _ _ _) = _
    rw [List.kinsert_def, List.kerase_of_notMem_keys (AList.lookup_eq_none.mp hnone)]
    exact List.kerase_cons_eq
      (s := (⟨(cells p).id, ⟨p, book.nextNode⟩⟩ : Sigma fun _ : OrderID => OrderInfo)) rfl
  obtain ⟨queue, hqueue⟩ := LevelMap.find?_pushBack (cells p).price
    (⟨book.nextNode, p⟩ : ListNode) (book.priceMap (cells p).side)
  rw [OrderBook.cancelOrder, hlook, AList.lookup_insert]
  dsimp only
  rw [hmap, hqueue]
  dsimp only
  rw [if_pos (by simp), hremove, herase, addOrder]
  cases (cells p).side <;> rfl

/-- In a well-formed book the level of a queued order is there. -/
theorem not_levelMissing (hl : Linked cells book) {symbol : Symbol}
    (hwf : QueueBook.WF symbol (book.view cells)) (id : OrderID) :
    ¬ book.levelMissing cells id := by
  intro h
  obtain ⟨info, hinfo, hnone⟩ := h
  obtain ⟨n, hn, -, rfl⟩ := (hl.lookup id info).mp hinfo
  obtain ⟨sd, hsd⟩ := (mem_allNodes _).mp hn
  have hmem : cells n.order ∈ (book.view cells).orders sd := by
    rw [view_orders]
    exact List.mem_map_of_mem (f := fun n => cells n.order) hsd
  obtain rfl := hwf.sides sd _ hmem
  obtain ⟨queue, hqueue⟩ := (hwf.levels (cells n.order).side).find?_isSome
    (QueueBook.mem_orders.mp hmem)
  rw [view_levels, LevelMap.find?_mapElems, hnone] at hqueue
  simp at hqueue

/-- A cancel that returns gives the slot the look-up table has for the id. -/
theorem cancelOrder_slot (hl : Linked cells book) {symbol : Symbol}
    (hwf : QueueBook.WF symbol (book.view cells)) {id : OrderID} {r : Option Slot}
    {book' : OrderBook α} (h : book.cancelOrder cells id = .ok (r, book')) :
    r = book.getOrderbyId id := by
  have hview := view_cancelOrder hl hwf id
  rw [h] at hview
  have hfound := (hwf.cancelOrder_ok hview).1
  rcases hl.cancelOrder_ok hwf h with ⟨rfl, -⟩ | ⟨n, hn, rfl, hid, -⟩
  · rw [find?_view hl hwf] at hfound
    exact (Option.map_eq_none_iff.mp hfound.symm).symm
  · rw [getOrderbyId, (hl.lookup id _).mpr ⟨n, hn, hid, rfl⟩]
    rfl

end CancelOrder

end OrderBook

end OrderMatchingEngine
