import OrderMatchingEngine.Refinement.Matching

/-!
# OrderMatchingEngine.Refinement.Engine

The engine refines a family of observable books, one for each symbol.

`bookView e symbol` is the observable book of a symbol (empty before its first call).
`EngineInv` is the representation invariant: every book is linked and well formed, and the
free slots and the slots of all books are pairwise distinct. Under it a call computes
`QueueBook.submit` or `QueueBook.cancelOrder` on the view of its own symbol and leaves the
other views alone, and every slot it takes is either on the free list, in a book or leaked
(`Exit.leaks`) when it returns.

What a call does to the state is said once, in `processOrder_cases` and `cancelOrder_cases`.
-/

namespace OrderMatchingEngine

/-- The slots that a return of `process_new_order` neither queues nor gives back. -/
def Exit.leaks : Exit → Nat
  | .killed | .marketRemainder => 1
  | _ => 0

/-- The slots a call leaks. -/
def Ret.leaks {α : Type} : Ret α → Nat
  | .processed out => out.exit.leaks
  | .cancelled _ => 0

namespace MatchingEngine

variable {α : Type}

/-! ### The books and slots of an engine -/

/-- The book of a symbol, which is empty before the first call that names the symbol. -/
def bookOf (e : MatchingEngine α) (symbol : Symbol) : OrderBook α :=
  (e.getOrCreateOrderBook symbol).1

/-- The observable book of a symbol. -/
def bookView (e : MatchingEngine α) (symbol : Symbol) : QueueBook α :=
  (e.bookOf symbol).view e.cells

/-- The slots of the orders that rest in the books. -/
def restingSlots (e : MatchingEngine α) : List Slot :=
  e.orderBooks.entries.flatMap fun entry => entry.2.slots

/-- The slots of the orders that rest in the books of other symbols. -/
def otherSlots (e : MatchingEngine α) (symbol : Symbol) : List Slot :=
  (e.orderBooks.erase symbol).entries.flatMap fun entry => entry.2.slots

/-- The slots the engine keeps track of. -/
def ownedSlots (e : MatchingEngine α) : List Slot := e.orderPool.freeIndices ++ e.restingSlots

section Books

variable (e : MatchingEngine α) (symbol : Symbol)

theorem bookOf_eq : e.bookOf symbol = (e.orderBooks.lookup symbol).getD (.new symbol) := by
  rw [bookOf, getOrCreateOrderBook]
  cases e.orderBooks.lookup symbol <;> rfl

theorem getOrderBook_eq_some {book : OrderBook α} (h : e.getOrderBook symbol = some book) :
    e.bookOf symbol = book := by
  unfold getOrderBook at h
  rw [bookOf_eq, h]
  rfl

theorem bookView_eq {book : OrderBook α} (h : e.getOrderBook symbol = some book) :
    e.bookView symbol = book.view e.cells := by
  rw [bookView, e.getOrderBook_eq_some symbol h]

theorem bookOf_congr {e' : MatchingEngine α} (h : e'.getOrderBook symbol = e.getOrderBook symbol) :
    e'.bookOf symbol = e.bookOf symbol := by
  unfold getOrderBook at h
  rw [bookOf_eq, h, bookOf_eq]

@[simp] theorem bookOf_setBook (book : OrderBook α) :
    (e.setBook symbol book).bookOf symbol = book := by
  rw [bookOf_eq, setBook, AList.lookup_insert]
  rfl

@[simp] theorem bookOf_deallocate (p : Slot) :
    (e.deallocate p).bookOf symbol = e.bookOf symbol := by
  rw [bookOf_eq, bookOf_eq]
  rfl

theorem restingSlots_setBook (book : OrderBook α) :
    (e.setBook symbol book).restingSlots = book.slots ++ e.otherSlots symbol := rfl

@[simp] theorem otherSlots_setBook (book : OrderBook α) :
    (e.setBook symbol book).otherSlots symbol = e.otherSlots symbol := by
  have hentries : ((e.setBook symbol book).orderBooks.erase symbol).entries =
      (e.orderBooks.erase symbol).entries :=
    List.kerase_cons_eq (s := (⟨symbol, book⟩ : Sigma fun _ : Symbol => OrderBook α))
      (l := List.kerase symbol e.orderBooks.entries) rfl
  rw [otherSlots, hentries, otherSlots]

/-- The resting slots are those of one book and those of the others. -/
theorem restingSlots_perm :
    e.restingSlots.Perm ((e.bookOf symbol).slots ++ e.otherSlots symbol) := by
  rcases hl : e.orderBooks.lookup symbol with _ | book
  · have hnot : symbol ∉ e.orderBooks.entries.keys := AList.lookup_eq_none.mp hl
    have hslots : (OrderBook.new symbol : OrderBook α).slots = [] := rfl
    have herase : (e.orderBooks.erase symbol).entries = e.orderBooks.entries :=
      List.kerase_of_notMem_keys hnot
    rw [bookOf_eq, hl, Option.getD_none, hslots, otherSlots, herase]
    exact .refl _
  · have hmem : symbol ∈ e.orderBooks.entries.keys :=
      AList.lookup_isSome.mp (Option.isSome_iff_exists.mpr ⟨book, hl⟩)
    obtain ⟨book', l₁, l₂, -, hentries, herase⟩ := List.exists_of_kerase hmem
    obtain rfl : book' = book := by
      have hin : (⟨symbol, book'⟩ : Sigma fun _ => OrderBook α) ∈ e.orderBooks.entries := by
        rw [hentries]
        simp
      exact Option.some.inj ((AList.mem_lookup_iff.mpr hin).symm.trans hl)
    have hothers : (e.orderBooks.erase symbol).entries = l₁ ++ l₂ := herase
    rw [bookOf_eq, hl, Option.getD_some, otherSlots, hothers, restingSlots, hentries,
      List.flatMap_append, List.flatMap_append, List.flatMap_cons]
    exact List.perm_append_comm_assoc _ _ _

/-- The slots of another symbol's book are among the other slots. -/
theorem slots_subset_otherSlots {symbol' : Symbol} (h : symbol' ≠ symbol) :
    (e.bookOf symbol').slots ⊆ e.otherSlots symbol := by
  intro p hp
  rcases hl : e.orderBooks.lookup symbol' with _ | book
  · rw [bookOf_eq, hl] at hp
    simp [OrderBook.new, OrderBook.slots, OrderBook.allNodes, OrderBook.nodes] at hp
  · rw [bookOf_eq, hl] at hp
    have hin : (⟨symbol', book⟩ : Sigma fun _ => OrderBook α) ∈
        (e.orderBooks.erase symbol).entries := by
      rw [← AList.mem_lookup_iff, AList.lookup_erase_ne h]
      exact hl
    exact List.mem_flatMap.mpr ⟨_, hin, hp⟩

/-- Opening a symbol's book changes no book. -/
theorem openBook :
    (e.getOrCreateOrderBook symbol).2.orderPool = e.orderPool ∧
      (e.getOrCreateOrderBook symbol).2.tradeHistory = e.tradeHistory ∧
      (∀ symbol' ≠ symbol,
        (e.getOrCreateOrderBook symbol).2.getOrderBook symbol' = e.getOrderBook symbol') ∧
      (e.getOrCreateOrderBook symbol).2.bookOf symbol = e.bookOf symbol ∧
      (e.getOrCreateOrderBook symbol).2.otherSlots symbol = e.otherSlots symbol := by
  unfold getOrCreateOrderBook
  rcases hl : e.orderBooks.lookup symbol with _ | book
  · refine ⟨rfl, rfl, ?_, ?_, otherSlots_setBook e symbol _⟩
    · intro symbol' h
      exact AList.lookup_insert_ne h
    · simp [bookOf_eq e, hl]
  · exact ⟨rfl, rfl, fun _ _ => rfl, rfl, rfl⟩

theorem getOrCreateOrderBook_stats (e : MatchingEngine α) (symbol : Symbol) :
    (e.getOrCreateOrderBook symbol).2.stats = e.stats := by
  unfold getOrCreateOrderBook
  split <;> rfl

end Books

/-! ### The representation invariant -/

/-- The book of a symbol represents a well-formed observable book. -/
structure BookInv [LT α] (cells : Slot → Order α) (symbol : Symbol) (book : OrderBook α) :
    Prop where
  symbol_eq : book.symbol = symbol
  linked : OrderBook.Linked cells book
  wf : QueueBook.WF symbol (book.view cells)

/-- **The representation invariant of the engine.** -/
structure EngineInv [LT α] (e : MatchingEngine α) : Prop where
  book : ∀ symbol, BookInv e.cells symbol (e.bookOf symbol)
  nodup : e.ownedSlots.Nodup
  bounded : ∀ p ∈ e.ownedSlots, p < e.orderPool.capacity

/-- The observable books are well formed. -/
theorem EngineInv.wf [LT α] {e : MatchingEngine α} (he : EngineInv e) (symbol : Symbol) :
    QueueBook.WF symbol (e.bookView symbol) := (he.book symbol).wf

theorem mem_indicesBelow {n p : Nat} : p ∈ ObjectPool.indicesBelow n ↔ p < n := by
  induction n with
  | zero => simp [ObjectPool.indicesBelow]
  | succ n ih =>
      rw [ObjectPool.indicesBelow, List.mem_cons, ih]
      omega

theorem nodup_indicesBelow (n : Nat) : (ObjectPool.indicesBelow n).Nodup := by
  induction n with
  | zero => exact List.nodup_nil
  | succ n ih =>
      rw [ObjectPool.indicesBelow, List.nodup_cons, mem_indicesBelow]
      exact ⟨by omega, ih⟩

theorem length_indicesBelow (n : Nat) : (ObjectPool.indicesBelow n).length = n := by
  induction n with
  | zero => rfl
  | succ n ih => rw [ObjectPool.indicesBelow, List.length_cons, ih]

section Invariant

variable [LinearOrder α]

theorem BookInv.new (cells : Slot → Order α) (symbol : Symbol) :
    BookInv cells symbol (OrderBook.new symbol : OrderBook α) where
  symbol_eq := rfl
  linked := .new cells symbol
  wf := .empty symbol

/-- A book does not notice changes of memory elsewhere. -/
theorem BookInv.congr {cells cells' : Slot → Order α} {symbol : Symbol} {book : OrderBook α}
    (h : BookInv cells symbol book) (hc : ∀ p ∈ book.slots, cells' p = cells p) :
    BookInv cells' symbol book where
  symbol_eq := h.symbol_eq
  linked := h.linked.congr fun p hp => by rw [hc p hp]
  wf := by
    rw [OrderBook.view_congr hc]
    exact h.wf

theorem EngineInv.withPool [Zero α] (n : Nat) : EngineInv (withPool n : MatchingEngine α) where
  book symbol := .new _ symbol
  nodup := by simpa [ownedSlots, MatchingEngine.withPool, restingSlots, ObjectPool.ofSize] using
    nodup_indicesBelow n
  bounded p hp := by simpa [ownedSlots, MatchingEngine.withPool, restingSlots, ObjectPool.ofSize,
    mem_indicesBelow] using hp

/-! ### What a call leaves alone -/

/-- The effect of a call on everything but its own book: the other books and their orders
stay, the trades are appended to the history, and all slots are accounted for. -/
structure Frame (symbol : Symbol) (leaks : Nat) (trades : List (Trade α))
    (e e' : MatchingEngine α) : Prop where
  books : ∀ symbol' ≠ symbol, e'.getOrderBook symbol' = e.getOrderBook symbol'
  cells : ∀ p ∈ e.otherSlots symbol, e'.cells p = e.cells p
  history : e'.tradeHistory = e.tradeHistory ++ trades
  capacity : e'.orderPool.capacity = e.orderPool.capacity
  slots : ∃ leaked : List Slot, leaked.length = leaks ∧
    (leaked ++ e'.ownedSlots).Perm e.ownedSlots

section Frame

variable {symbol : Symbol} {leaks : Nat} {trades : List (Trade α)} {e e' : MatchingEngine α}

omit [LinearOrder α] in
/-- The books of other symbols, seen, where nothing of them is changed. -/
theorem bookView_of_ne {symbol' : Symbol} (h : symbol' ≠ symbol)
    (hbooks : e'.getOrderBook symbol' = e.getOrderBook symbol')
    (hcells : ∀ p ∈ e.otherSlots symbol, e'.cells p = e.cells p) :
    e'.bookView symbol' = e.bookView symbol' := by
  rw [MatchingEngine.bookView, e.bookOf_congr symbol' hbooks]
  exact OrderBook.view_congr fun p hp => hcells p (e.slots_subset_otherSlots symbol h hp)

omit [LinearOrder α] in
theorem Frame.bookOf (hf : Frame symbol leaks trades e e') {symbol' : Symbol}
    (h : symbol' ≠ symbol) : e'.bookOf symbol' = e.bookOf symbol' :=
  e.bookOf_congr symbol' (hf.books symbol' h)

omit [LinearOrder α] in
theorem Frame.bookView (hf : Frame symbol leaks trades e e') {symbol' : Symbol}
    (h : symbol' ≠ symbol) : e'.bookView symbol' = e.bookView symbol' :=
  bookView_of_ne h (hf.books symbol' h) hf.cells

/-- A call that leaves its own book well formed keeps the representation invariant. -/
theorem EngineInv.of_frame (he : EngineInv e) (hf : Frame symbol leaks trades e e')
    (hb : BookInv e'.cells symbol (e'.bookOf symbol)) : EngineInv e' where
  book symbol' := by
    by_cases h : symbol' = symbol
    · exact h ▸ hb
    · rw [hf.bookOf h]
      exact (he.book symbol').congr fun p hp =>
        hf.cells p (e.slots_subset_otherSlots symbol h hp)
  nodup := by
    obtain ⟨leaked, -, hperm⟩ := hf.slots
    exact (hperm.nodup_iff.mpr he.nodup).of_append_right
  bounded p hp := by
    obtain ⟨leaked, -, hperm⟩ := hf.slots
    rw [hf.capacity]
    exact he.bounded p (hperm.mem_iff.mp (List.mem_append_right _ hp))

end Frame

/-! ### Settling -/

/-- What `settle` leaves: memory and history as they were, a book that is still well formed,
and one slot settled, unless it leaks. -/
theorem settle_spec {symbol : Symbol} {own : Slot} {e₀ : MatchingEngine α} {b₀ : OrderBook α}
    {s : Matching α} (h : LoopInv symbol own e₀ b₀ s) (hb : b₀.symbol = symbol)
    (hsym : (e₀.cells own).symbol = symbol)
    (hfresh : (e₀.cells own).type ≠ .ioc → (e₀.cells own).type ≠ .market →
      ∀ p ∈ b₀.slots, (e₀.cells p).id ≠ (e₀.cells own).id) :
    (settle own s).2.2.cells = s.engine.cells ∧
      (settle own s).2.2.orderBooks = s.engine.orderBooks ∧
      (settle own s).2.2.tradeHistory = s.engine.tradeHistory ∧
      (settle own s).2.2.orderPool.capacity = s.engine.orderPool.capacity ∧
      BookInv s.engine.cells symbol (settle own s).2.1 ∧
      ∃ leaked : List Slot, leaked.length = (settle own s).1.leaks ∧
        (leaked ++ ((settle own s).2.2.orderPool.freeIndices ++ (settle own s).2.1.slots)).Perm
          (own :: (s.engine.orderPool.freeIndices ++ s.book.slots)) := by
  have hbook : BookInv s.engine.cells symbol s.book := ⟨h.symbol_eq.trans hb, h.linked, h.wf⟩
  have hid : ∀ p, (s.engine.cells p).id = (e₀.cells p).id := fun p => by rw [h.same p]
  have htype : (s.engine.cells own).type = (e₀.cells own).type := by rw [h.same own]
  unfold settle
  dsimp only
  split
  · split
    · exact ⟨rfl, rfl, rfl, rfl, hbook, [], rfl, .refl _⟩
    · rename_i hioc
      split
      · rename_i hmarket
        -- matching changes no ids, so the id is as fresh as it was
        have hne : ∀ p ∈ s.book.slots, (s.engine.cells p).id ≠ (s.engine.cells own).id := by
          intro p hp
          rw [hid, hid]
          exact hfresh (htype ▸ hioc) (htype ▸ hmarket) p (h.sub hp)
        refine ⟨rfl, rfl, rfl, rfl, ⟨?_, ?_, ?_⟩, [], rfl, ?_⟩
        · simpa [OrderBook.addOrder] using hbook.symbol_eq
        · exact hbook.linked.addOrder fun n hn =>
            hne n.order ((OrderBook.mem_slots _).mpr ⟨n, hn, rfl⟩)
        · rw [OrderBook.view_addOrder]
          refine hbook.wf.addOrder (by rw [h.same own, ← hsym]) ?_
          rw [OrderBook.view_allOrders]
          exact List.forall_mem_map.mpr fun n hn =>
            hne n.order ((OrderBook.mem_slots _).mpr ⟨n, hn, rfl⟩)
        · exact ((OrderBook.slots_addOrder_perm _ _ _).append_left _).trans List.perm_middle
      · exact ⟨rfl, rfl, rfl, rfl, hbook, [own], rfl, .refl _⟩
  · exact ⟨rfl, rfl, rfl, rfl, hbook, [], rfl, .refl _⟩

/-- Settling changes neither the memory nor, before it is written back, any book. -/
theorem settle_others (own : Slot) (s : Matching α) :
    (settle own s).2.2.cells = s.engine.cells ∧
      (settle own s).2.2.orderBooks = s.engine.orderBooks := by
  unfold settle
  dsimp only
  split
  · split
    · exact ⟨rfl, rfl⟩
    · split <;> exact ⟨rfl, rfl⟩
  · exact ⟨rfl, rfl⟩

/-- Settling is the observable settling. -/
theorem settle_view (own : Slot) (s : Matching α) :
    QueueBook.settle (s.engine.cells own) (s.book.view s.engine.cells) =
      ((settle own s).1, (settle own s).2.1.view (settle own s).2.2.cells) := by
  rw [QueueBook.settle, settle]
  dsimp only
  split
  · split
    · rfl
    · split
      · rw [← OrderBook.view_addOrder]
      · rfl
  · rfl

/-! ### Processing an order -/

/-- The engine after the order was written to the slot it was given. -/
def stored (o : Order α) (own : Slot) (rest : List Slot) (e : MatchingEngine α) :
    MatchingEngine α :=
  let pool : ObjectPool (Order α) := { e.orderPool with freeIndices := rest }
  { e with orderPool := pool.write own o }

/-- The engine when an accepted order is about to be matched: the order stored, its book
opened. -/
def accepted (o : Order α) (own : Slot) (rest : List Slot) (e : MatchingEngine α) :
    MatchingEngine α :=
  ((stored o own rest e).getOrCreateOrderBook o.symbol).2

section Accepted

variable {clock : Nat → Timestamp} {o : Order α} {own : Slot} {rest : List Slot}
  {e : MatchingEngine α}

omit [LinearOrder α] in
theorem bookOf_stored (o : Order α) (own : Slot) (rest : List Slot) (e : MatchingEngine α)
    (symbol : Symbol) : (stored o own rest e).bookOf symbol = e.bookOf symbol := by
  rw [bookOf_eq, bookOf_eq]
  rfl

omit [LinearOrder α] in
theorem accepted_spec (o : Order α) (own : Slot) (rest : List Slot) (e : MatchingEngine α) :
    (accepted o own rest e).cells = Function.update e.cells own o ∧
      (accepted o own rest e).orderPool.freeIndices = rest ∧
      (accepted o own rest e).orderPool.capacity = e.orderPool.capacity ∧
      (accepted o own rest e).tradeHistory = e.tradeHistory ∧
      (∀ symbol ≠ o.symbol, (accepted o own rest e).getOrderBook symbol = e.getOrderBook symbol) ∧
      (accepted o own rest e).bookOf o.symbol = e.bookOf o.symbol ∧
      (accepted o own rest e).otherSlots o.symbol = e.otherSlots o.symbol := by
  obtain ⟨hpool, hhist, hbooks, hbook, hother⟩ := openBook (stored o own rest e) o.symbol
  refine ⟨?_, ?_, ?_, hhist, hbooks, hbook.trans (bookOf_stored o own rest e _), hother⟩
  · exact congrArg ObjectPool.cells hpool
  · exact congrArg ObjectPool.freeIndices hpool
  · exact (congrArg ObjectPool.capacity hpool).trans rfl

/-- `process_new_order` for an order that gets a slot and is valid. -/
theorem processOrder_accepted [Zero α] (hfree : e.orderPool.freeIndices = own :: rest)
    (hv : validateOrder o = true) (fuel : Nat) :
    processOrder clock fuel o e =
      if o.type = .fok && !canFillCompletely (accepted o own rest e).cells (e.bookOf o.symbol) o
      then .ok (⟨.killed, o, []⟩, accepted o own rest e)
      else
        match matchAgainst clock o.side fuel own (e.bookOf o.symbol) (accepted o own rest e) with
        | .error fault => .error fault
        | .ok s => .ok (⟨(settle own s).1, s.engine.cells own, s.trades⟩,
            (settle own s).2.2.setBook o.symbol (settle own s).2.1) := by
  have hbook : ((stored o own rest e).getOrCreateOrderBook o.symbol).1 = e.bookOf o.symbol :=
    bookOf_stored o own rest e o.symbol
  rw [processOrder, ObjectPool.allocate, hfree, ← hbook]
  simp only [hv]
  cases o.side <;> rfl

/-- `process_new_order` for an order that gets a slot and is not valid. -/
theorem processOrder_invalid [Zero α] (hfree : e.orderPool.freeIndices = own :: rest)
    (hv : validateOrder o = false) (fuel : Nat) :
    processOrder clock fuel o e = .ok (⟨.invalid, o, []⟩,
      { e with orderPool := e.orderPool.write own o }) := by
  rw [processOrder, ObjectPool.allocate, hfree]
  simp only [hv]
  have hpool : (ObjectPool.write { e.orderPool with freeIndices := rest } own o).deallocate own =
      e.orderPool.write own o := by
    simp only [ObjectPool.deallocate, ObjectPool.write, hfree]
  simp only [deallocate, hpool]
  rfl

/-- `process_new_order` without a free slot. -/
theorem processOrder_exhausted [Zero α] (hfree : e.orderPool.freeIndices = []) (fuel : Nat) :
    processOrder clock fuel o e = .ok (⟨.exhausted, o, []⟩, e) := by
  rw [processOrder, ObjectPool.allocate, hfree]

/-- How `process_new_order` returns, by how far the order gets. -/
inductive Processing [Zero α] (clock : Nat → Timestamp) (fuel : Nat) (o : Order α)
    (e : MatchingEngine α) : Outcome α → MatchingEngine α → Prop
  | exhausted (hfree : e.orderPool.freeIndices = []) :
      Processing clock fuel o e ⟨.exhausted, o, []⟩ e
  | invalid {own : Slot} {rest : List Slot} (hfree : e.orderPool.freeIndices = own :: rest)
      (hv : validateOrder o = false) :
      Processing clock fuel o e ⟨.invalid, o, []⟩ { e with orderPool := e.orderPool.write own o }
  | killed {own : Slot} {rest : List Slot} (hfree : e.orderPool.freeIndices = own :: rest)
      (hv : validateOrder o = true) (hfok : o.type = .fok) :
      Processing clock fuel o e ⟨.killed, o, []⟩ (accepted o own rest e)
  | settled {own : Slot} {rest : List Slot} {s : Matching α}
      (hfree : e.orderPool.freeIndices = own :: rest) (hv : validateOrder o = true)
      (hs : matchAgainst clock o.side fuel own (e.bookOf o.symbol) (accepted o own rest e) =
        .ok s) :
      Processing clock fuel o e ⟨(settle own s).1, s.engine.cells own, s.trades⟩
        ((settle own s).2.2.setBook o.symbol (settle own s).2.1)

/-- **What `process_new_order` does.** -/
theorem processOrder_cases [Zero α] {fuel : Nat} {out : Outcome α} {e' : MatchingEngine α}
    (h : processOrder clock fuel o e = .ok (out, e')) : Processing clock fuel o e out e' := by
  rcases hfree : e.orderPool.freeIndices with _ | ⟨own, rest⟩
  · rw [processOrder_exhausted hfree] at h
    obtain ⟨rfl, rfl⟩ := Prod.mk.inj (Except.ok.inj h)
    exact .exhausted hfree
  rcases hv : validateOrder o with _ | _
  · rw [processOrder_invalid hfree hv] at h
    obtain ⟨rfl, rfl⟩ := Prod.mk.inj (Except.ok.inj h)
    exact .invalid hfree hv
  rw [processOrder_accepted hfree hv] at h
  split at h
  · rename_i hkill
    obtain ⟨rfl, rfl⟩ := Prod.mk.inj (Except.ok.inj h)
    rw [Bool.and_eq_true, decide_eq_true_eq] at hkill
    exact .killed hfree hv hkill.1
  · split at h
    · simp at h
    · rename_i s hs
      obtain ⟨rfl, rfl⟩ := Prod.mk.inj (Except.ok.inj h)
      exact .settled hfree hv hs

/-- A slot from the free list is in no book. -/
theorem EngineInv.free_notMem (he : EngineInv e) (hfree : e.orderPool.freeIndices = own :: rest) :
    own ∉ rest ∧ own ∉ e.restingSlots := by
  have h := he.nodup
  rw [ownedSlots, hfree, List.cons_append, List.nodup_cons, List.mem_append, not_or] at h
  exact h.1

omit [LinearOrder α] in
theorem slots_subset_restingSlots (e : MatchingEngine α) (symbol : Symbol) :
    (e.bookOf symbol).slots ⊆ e.restingSlots := fun _ hp =>
  (e.restingSlots_perm symbol).mem_iff.mpr (List.mem_append_left _ hp)

/-- A refused order is still written to its slot, where no book can see it. -/
theorem cells_write (he : EngineInv e) (hfree : e.orderPool.freeIndices = own :: rest)
    {p : Slot} (hp : p ∈ e.restingSlots) : (e.orderPool.write own o).cells p = e.cells p := by
  have hne : p ≠ own := fun heq => (he.free_notMem hfree).2 (heq ▸ hp)
  exact Function.update_of_ne hne _ _

theorem bookView_write (he : EngineInv e) (hfree : e.orderPool.freeIndices = own :: rest)
    (symbol : Symbol) :
    bookView { e with orderPool := e.orderPool.write own o } symbol = e.bookView symbol := by
  rw [bookView, bookOf_eq, ← bookOf_eq e, bookView]
  exact OrderBook.view_congr fun p hp =>
    cells_write he hfree (slots_subset_restingSlots e symbol hp)

/-- Storing an accepted order does not change the book it will meet. -/
theorem accepted_book (he : EngineInv e) (hfree : e.orderPool.freeIndices = own :: rest)
    (symbol : Symbol) :
    own ∉ (e.bookOf symbol).slots ∧
      BookInv (accepted o own rest e).cells symbol (e.bookOf symbol) ∧
      (e.bookOf symbol).view (accepted o own rest e).cells = e.bookView symbol := by
  have hout : own ∉ (e.bookOf symbol).slots := fun hin =>
    (he.free_notMem hfree).2 (slots_subset_restingSlots e symbol hin)
  have hcells : ∀ p ∈ (e.bookOf symbol).slots, (accepted o own rest e).cells p = e.cells p := by
    intro p hp
    have hne : p ≠ own := fun heq => hout (heq ▸ hp)
    rw [(accepted_spec o own rest e).1, Function.update_of_ne hne]
  exact ⟨hout, (he.book symbol).congr hcells, OrderBook.view_congr hcells⟩

/-- **Processing an accepted order refines `submit`** on the observable book of its symbol,
bound by bound and failures included. -/
theorem processOrder_view [Zero α] (clock : Nat → Timestamp) (he : EngineInv e)
    (hfree : e.orderPool.freeIndices = own :: rest) (hv : validateOrder o = true) (fuel : Nat) :
    (e.bookView o.symbol).submit fuel o =
      (processOrder clock fuel o e).map fun r => (r.1.untimed, r.2.bookView o.symbol) := by
  obtain ⟨hout, hb, hview⟩ := accepted_book (o := o) he hfree o.symbol
  obtain ⟨hcells, -, -, -, -, hbook, -⟩ := accepted_spec o own rest e
  have hown : (accepted o own rest e).cells own = o := by rw [hcells, Function.update_self]
  rw [processOrder_accepted hfree hv, QueueBook.submit, ← hview,
    OrderBook.canFillCompletely_view]
  split
  · simp only [Except.map, bookView, hbook]
    rfl
  · have hloop := matchAgainst_view clock hb.linked hb.wf hout fuel
    rw [hown] at hloop
    rw [hloop]
    cases matchAgainst clock o.side fuel own (e.bookOf o.symbol) (accepted o own rest e) with
    | error fault => rfl
    | ok s =>
        simp only [Except.map, Matching.view, settle_view, bookView, bookOf_setBook]
        rfl

/-- Storing an accepted order takes its slot and changes nothing else. -/
theorem accepted_frame (he : EngineInv e) (hfree : e.orderPool.freeIndices = own :: rest) :
    Frame o.symbol 1 [] e (accepted o own rest e) := by
  obtain ⟨hcells, hrest, hcap, hhist, hbooks, hbook, hother⟩ := accepted_spec o own rest e
  refine ⟨hbooks, fun p hp => ?_, by simpa using hhist, hcap, [own], rfl, ?_⟩
  · have hne : p ≠ own := by
      rintro rfl
      exact (he.free_notMem hfree).2
        ((e.restingSlots_perm o.symbol).mem_iff.mpr (List.mem_append_right _ hp))
    rw [hcells, Function.update_of_ne hne]
  · have hresting : (accepted o own rest e).restingSlots.Perm e.restingSlots := by
      refine ((accepted o own rest e).restingSlots_perm o.symbol).trans ?_
      rw [hbook, hother]
      exact (e.restingSlots_perm o.symbol).symm
    rw [ownedSlots, ownedSlots, hrest, hfree]
    exact hresting.append_left (own :: rest)

/-- An order that was stored, matched and settled has left the other books alone. -/
theorem settled_others (he : EngineInv e) (hfree : e.orderPool.freeIndices = own :: rest)
    {s : Matching α} (h : LoopInv o.symbol own (accepted o own rest e) (e.bookOf o.symbol) s) :
    (∀ symbol ≠ o.symbol, ((settle own s).2.2.setBook o.symbol (settle own s).2.1).getOrderBook
        symbol = e.getOrderBook symbol) ∧
      ∀ p ∈ e.otherSlots o.symbol,
        ((settle own s).2.2.setBook o.symbol (settle own s).2.1).cells p = e.cells p := by
  obtain ⟨hscells, hsbooks⟩ := settle_others own s
  obtain ⟨-, -, -, -, hbooks, -, -⟩ := accepted_spec o own rest e
  have hacc := accepted_frame (o := o) he hfree
  constructor
  · intro symbol hne
    rw [← hbooks symbol hne, getOrderBook, setBook, AList.lookup_insert_ne hne, hsbooks, h.books,
      getOrderBook]
  · intro p hp
    -- another book's slot is neither the taker's nor one of the book that was matched
    have hresting := (e.restingSlots_perm o.symbol).nodup_iff.mp he.nodup.of_append_right
    have hnotown : p ≠ own := by
      rintro rfl
      exact (he.free_notMem hfree).2
        ((e.restingSlots_perm o.symbol).mem_iff.mpr (List.mem_append_right _ hp))
    have hnotbook : p ∉ (e.bookOf o.symbol).slots := fun hin =>
      (List.nodup_append.mp hresting).2.2 p hin p hp rfl
    show (settle own s).2.2.cells p = e.cells p
    rw [hscells, h.frame p hnotbook hnotown, hacc.cells p hp]

/-- An order that was stored and matched is settled: what the call as a whole leaves. -/
theorem settled_frame (he : EngineInv e) (hfree : e.orderPool.freeIndices = own :: rest)
    (hfresh : o.type ≠ .ioc → o.type ≠ .market →
      ∀ x ∈ (e.bookView o.symbol).allOrders, x.id ≠ o.id) {s : Matching α}
    (h : LoopInv o.symbol own (accepted o own rest e) (e.bookOf o.symbol) s) :
    BookInv (settle own s).2.2.cells o.symbol (settle own s).2.1 ∧
      Frame o.symbol (settle own s).1.leaks s.trades e
        ((settle own s).2.2.setBook o.symbol (settle own s).2.1) := by
  obtain ⟨hcells, hrest, hcap, hhist, -, hbook, hother⟩ := accepted_spec o own rest e
  obtain ⟨hout, hb, hview⟩ := accepted_book (o := o) he hfree o.symbol
  have hown : (accepted o own rest e).cells own = o := by rw [hcells, Function.update_self]
  obtain ⟨hscells, hsbooks, hshist, hscap, hsbook, leaked, hleaked, hperm⟩ :=
    settle_spec h hb.symbol_eq (by rw [hown]) (by
      rw [hown]
      intro hioc hmarket p hp
      refine hfresh hioc hmarket _ ?_
      obtain ⟨n, hn, rfl⟩ := (OrderBook.mem_slots _).mp hp
      rw [← hview, OrderBook.view_allOrders]
      exact List.mem_map_of_mem (f := fun n => (accepted o own rest e).cells n.order) hn)
  have hothers : (settle own s).2.2.otherSlots o.symbol = e.otherSlots o.symbol := by
    rw [← hother, otherSlots, otherSlots, hsbooks, h.books]
  obtain ⟨hothersBooks, hothersCells⟩ := settled_others he hfree h
  refine ⟨hscells ▸ hsbook, hothersBooks, hothersCells, ?_, ?_, leaked, hleaked, ?_⟩
  · show (settle own s).2.2.tradeHistory = _
    rw [hshist, h.history, hhist]
  · show (settle own s).2.2.orderPool.capacity = _
    rw [hscap, h.capacity, hcap]
  · have hstart := h.slots
    rw [hrest] at hstart
    have hsettle := (hperm.trans (hstart.cons own)).append_right (e.otherSlots o.symbol)
    rw [ownedSlots, restingSlots_setBook, hothers, ownedSlots, hfree]
    refine (List.Perm.of_eq ?_).trans (hsettle.trans ?_)
    · simp only [List.append_assoc]
      rfl
    · rw [List.cons_append, List.cons_append, List.append_assoc]
      exact ((e.restingSlots_perm o.symbol).symm.append_left rest).cons own

/-- **What processing an order leaves.** -/
theorem processOrder_ok [Zero α] (he : EngineInv e) {fuel : Nat} {out : Outcome α}
    {e' : MatchingEngine α} (h : processOrder clock fuel o e = .ok (out, e'))
    (hfresh : o.type ≠ .ioc → o.type ≠ .market →
      ∀ x ∈ (e.bookView o.symbol).allOrders, x.id ≠ o.id) :
    EngineInv e' ∧ Frame o.symbol out.exit.leaks out.trades e e' := by
  cases processOrder_cases h with
  | exhausted =>
      exact ⟨he, fun _ _ => rfl, fun _ _ => rfl, (List.append_nil _).symm, rfl, [], rfl, .refl _⟩
  | @invalid own rest hfree hv =>
      have hframe : Frame o.symbol 0 [] e { e with orderPool := e.orderPool.write own o } :=
        ⟨fun _ _ => rfl, fun p hp => cells_write he hfree
          ((e.restingSlots_perm o.symbol).mem_iff.mpr (List.mem_append_right _ hp)),
          (List.append_nil _).symm, rfl, [], rfl, .refl _⟩
      refine ⟨he.of_frame hframe ?_, hframe⟩
      rw [bookOf_eq, ← bookOf_eq e]
      exact (he.book o.symbol).congr fun p hp =>
        cells_write he hfree (slots_subset_restingSlots e o.symbol hp)
  | @killed own rest hfree =>
      have hframe := accepted_frame (o := o) he hfree
      refine ⟨he.of_frame hframe ?_, hframe⟩
      rw [(accepted_spec o own rest e).2.2.2.2.2.1]
      exact (accepted_book (o := o) he hfree o.symbol).2.1
  | settled hfree hv hs =>
      obtain ⟨hout, hb, -⟩ := accepted_book (o := o) he hfree o.symbol
      obtain ⟨hbook, hframe⟩ := settled_frame he hfree hfresh
        (matchAgainst_inv hb.linked hb.wf hout hs)
      refine ⟨he.of_frame hframe ?_, hframe⟩
      rw [bookOf_setBook]
      exact hbook

/-- **Processing an order leaves the books of other symbols alone**, whatever its id is. -/
theorem processOrder_others [Zero α] (he : EngineInv e) {fuel : Nat} {out : Outcome α}
    {e' : MatchingEngine α} (h : processOrder clock fuel o e = .ok (out, e')) {symbol : Symbol}
    (hne : symbol ≠ o.symbol) : e'.bookView symbol = e.bookView symbol := by
  cases processOrder_cases h with
  | exhausted => rfl
  | invalid hfree => exact bookView_write he hfree symbol
  | killed hfree => exact (accepted_frame he hfree).bookView hne
  | settled hfree hv hs =>
      obtain ⟨hout, hb, -⟩ := accepted_book (o := o) he hfree o.symbol
      obtain ⟨hbooks, hcells⟩ :=
        settled_others he hfree (matchAgainst_inv hb.linked hb.wf hout hs)
      exact bookView_of_ne hne (hbooks symbol hne) hcells

end Accepted

/-! ### Cancelling an order -/

section Cancel

variable {id : OrderID} {symbol : Symbol} {side : Int} {e : MatchingEngine α}

/-- How `cancel_order` returns. -/
inductive Cancelling (id : OrderID) (symbol : Symbol) (e : MatchingEngine α) :
    Option (Order α) → MatchingEngine α → Prop
  | missed {book : OrderBook α}
      (hc : (e.bookOf symbol).cancelOrder e.cells id = .ok (none, book)) :
      Cancelling id symbol e none ((e.getOrCreateOrderBook symbol).2.setBook symbol book)
  | found {ptr : Slot} {book : OrderBook α}
      (hc : (e.bookOf symbol).cancelOrder e.cells id = .ok (some ptr, book)) :
      Cancelling id symbol e (some (e.cells ptr))
        (((e.getOrCreateOrderBook symbol).2.setBook symbol book).deallocate ptr)

/-- **What `cancel_order` does.** -/
theorem cancelOrder_cases {r : Option (Order α)} {e' : MatchingEngine α}
    (h : cancelOrder id symbol side e = .ok (r, e')) : Cancelling id symbol e r e' := by
  obtain ⟨hpool, -⟩ := openBook e symbol
  have hcells : (e.getOrCreateOrderBook symbol).2.cells = e.cells := congrArg ObjectPool.cells hpool
  unfold cancelOrder at h
  dsimp only at h
  rw [hcells] at h
  split at h
  · simp at h
  · rename_i book hc
    obtain ⟨rfl, rfl⟩ := Prod.mk.inj (Except.ok.inj h)
    exact .missed hc
  · rename_i ptr book hc
    obtain ⟨rfl, rfl⟩ := Prod.mk.inj (Except.ok.inj h)
    exact .found hc

/-- **Cancelling refines cancelling** on the observable book of the symbol. -/
theorem cancelOrder_view (he : EngineInv e) (id : OrderID) (symbol : Symbol) (side : Int) :
    (e.bookView symbol).cancelOrder id =
      (cancelOrder id symbol side e).map fun r => (r.1, r.2.bookView symbol) := by
  obtain ⟨hpool, -⟩ := openBook e symbol
  have hb := he.book symbol
  rw [bookView, OrderBook.view_cancelOrder hb.linked hb.wf, cancelOrder]
  have hcells : (e.getOrCreateOrderBook symbol).2.cells = e.cells := congrArg ObjectPool.cells hpool
  have hbook : (e.getOrCreateOrderBook symbol).1 = e.bookOf symbol := rfl
  simp only [hcells, hbook]
  rcases (e.bookOf symbol).cancelOrder e.cells id with fault | ⟨_ | ptr, book⟩
  · rfl
  · simp only [Except.map, bookView, bookOf_setBook]
    rw [← hcells]
    rfl
  · simp only [Except.map, Option.map_some, bookView, bookOf_deallocate, bookOf_setBook]
    rw [← hcells]
    rfl

/-- Cancelling counts nothing. -/
theorem cancelOrder_stats {r : Option (Order α)} {e' : MatchingEngine α}
    (h : cancelOrder id symbol side e = .ok (r, e')) : e'.stats = e.stats := by
  cases cancelOrder_cases h with
  | missed => exact getOrCreateOrderBook_stats e symbol
  | found => exact getOrCreateOrderBook_stats e symbol

/-- **What cancelling leaves.** -/
theorem cancelOrder_ok (he : EngineInv e) {r : Option (Order α)} {e' : MatchingEngine α}
    (h : cancelOrder id symbol side e = .ok (r, e')) :
    EngineInv e' ∧ Frame symbol 0 [] e e' := by
  obtain ⟨hpool, hhist, hbooks, -, hother⟩ := openBook e symbol
  have hb := he.book symbol
  have hcases := cancelOrder_cases h
  generalize hopened : (e.getOrCreateOrderBook symbol).2 = e₁ at hpool hhist hbooks hother
  have hcells : e₁.cells = e.cells := congrArg ObjectPool.cells hpool
  have hcap : e₁.orderPool.capacity = e.orderPool.capacity := congrArg ObjectPool.capacity hpool
  have hfree : e₁.orderPool.freeIndices = e.orderPool.freeIndices :=
    congrArg ObjectPool.freeIndices hpool
  -- the call leaves `ptr?` on the free list and the other slots of the book in the book
  have hdone : ∀ (ptr : Option Slot) (book : OrderBook α) (e' : MatchingEngine α),
      (e.bookOf symbol).cancelOrder e.cells id = .ok (ptr, book) → e'.cells = e.cells →
      e'.orderBooks = (e₁.setBook symbol book).orderBooks → e'.tradeHistory = e.tradeHistory →
      e'.orderPool.capacity = e.orderPool.capacity →
      e'.orderPool.freeIndices = ptr.toList ++ e.orderPool.freeIndices →
      EngineInv e' ∧ Frame symbol 0 [] e e' := by
    intro ptr book e' hc hcells' hbooks' hhist' hcap' hfree'
    obtain ⟨hl, hsym, hperm⟩ := hb.linked.cancelOrder hb.wf hc
    have hview := OrderBook.view_cancelOrder hb.linked hb.wf id
    rw [hc] at hview
    have hbook' : e'.bookOf symbol = book := by
      rw [bookOf_eq, hbooks', ← bookOf_eq, bookOf_setBook]
    have hframe : Frame symbol 0 [] e e' := by
      refine ⟨fun symbol' hne => ?_, fun p _ => by rw [hcells'], by simpa using hhist', hcap', [],
        rfl, ?_⟩
      · rw [← hbooks symbol' hne, getOrderBook, hbooks', setBook, AList.lookup_insert_ne hne,
          getOrderBook]
      · have hresting : e'.restingSlots = book.slots ++ e.otherSlots symbol := by
          rw [restingSlots, hbooks', ← restingSlots, restingSlots_setBook, hother]
        rw [List.nil_append, ownedSlots, ownedSlots, hresting, hfree', List.append_assoc]
        refine (List.perm_append_comm_assoc _ _ _).trans (.append_left _ ?_)
        rw [← List.append_assoc]
        exact (hperm.symm.append_right _).trans (e.restingSlots_perm symbol).symm
    refine ⟨he.of_frame hframe ?_, hframe⟩
    rw [hbook', hcells']
    exact ⟨hsym.trans hb.symbol_eq, hl, (hb.wf.cancelOrder_ok hview).2.1⟩
  cases hcases with
  | @missed book hc =>
      rw [hopened]
      exact hdone none book _ hc hcells rfl hhist hcap hfree
  | @found ptr book hc =>
      rw [hopened]
      exact hdone (some ptr) book _ hc hcells rfl hhist hcap (congrArg (ptr :: ·) hfree)

end Cancel

/-! ### Calls and runs -/

section Calls

variable {clock : Nat → Timestamp} {e e' : MatchingEngine α}

omit [LinearOrder α] in
theorem rests_iff (e : MatchingEngine α) (symbol : Symbol) (id : OrderID) :
    e.Rests symbol id ↔ ∃ x ∈ (e.bookView symbol).allOrders, x.id = id := by
  rw [bookView, OrderBook.view_allOrders, Rests]
  constructor
  · intro hrests
    obtain ⟨book, hbook, n, hn, hid⟩ := hrests
    refine ⟨e.cells n.order, ?_, hid⟩
    rw [getOrderBook_eq_some e symbol hbook]
    exact List.mem_map_of_mem (f := fun n => e.cells n.order) hn
  · intro horder
    obtain ⟨x, hx, hid⟩ := horder
    obtain ⟨n, hn, rfl⟩ := List.mem_map.mp hx
    rcases hl : e.getOrderBook symbol with _ | book
    · unfold getOrderBook at hl
      rw [bookOf_eq, hl] at hn
      simp [OrderBook.new, OrderBook.allNodes, OrderBook.nodes] at hn
    · rw [getOrderBook_eq_some e symbol hl] at hn
      exact ⟨book, rfl, n, hn, hid⟩

variable [Zero α]

omit [LinearOrder α] [Zero α] in
theorem QueuesFresh.of_freshId {c : Call α} (h : e.FreshId c) : e.QueuesFresh c := by
  cases c with
  | processNewOrder order => exact fun _ _ => h
  | cancelOrder id symbol side => trivial

/-- **What a call leaves**, apart from its own book. -/
theorem call_ok (he : EngineInv e) {fuel : Nat} {c : Call α} {r : Ret α}
    (hfresh : e.QueuesFresh c) (h : call clock fuel e c = .ok (r, e')) :
    EngineInv e' ∧ Frame c.symbol r.leaks r.trades e e' := by
  cases c with
  | processNewOrder o =>
      obtain ⟨out, hp, rfl⟩ := call_process.mp h
      refine processOrder_ok he hp ?_
      intro hioc hmarket x hx hid
      exact hfresh hioc hmarket ((rests_iff e _ _).mpr ⟨x, hx, hid⟩)
  | cancelOrder id symbol side =>
      obtain ⟨x, hp, rfl⟩ := call_cancel.mp h
      exact cancelOrder_ok he hp

/-- **A call refines a step** of the observable book of its symbol. -/
theorem call_step (he : EngineInv e) {fuel : Nat} {c : Call α} {r : Ret α}
    (h : call clock fuel e c = .ok (r, e')) :
    QueueBook.Step (e.bookView c.symbol) c r.untimed (e'.bookView c.symbol) := by
  cases c with
  | processNewOrder o =>
      obtain ⟨out, hp, rfl⟩ := call_process.mp h
      rcases hfree : e.orderPool.freeIndices with _ | ⟨own, rest⟩
      · rw [processOrder_exhausted hfree, Except.ok.injEq, Prod.mk.injEq] at hp
        obtain ⟨rfl, rfl⟩ := hp
        exact .exhausted o
      rcases hv : validateOrder o with _ | _
      · rw [processOrder_invalid hfree hv, Except.ok.injEq, Prod.mk.injEq] at hp
        obtain ⟨rfl, rfl⟩ := hp
        rw [Call.symbol, bookView_write he hfree]
        exact .invalid hv
      · refine .submit fuel hv ?_
        rw [Call.symbol, processOrder_view clock he hfree hv, hp]
        rfl
  | cancelOrder id symbol side =>
      obtain ⟨x, hp, rfl⟩ := call_cancel.mp h
      refine .cancel ?_
      rw [Call.symbol, cancelOrder_view he id symbol side, hp]
      rfl

end Calls

end Invariant

end MatchingEngine

end OrderMatchingEngine
