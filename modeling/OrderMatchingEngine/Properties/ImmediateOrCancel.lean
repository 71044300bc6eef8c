import OrderMatchingEngine.Properties.FokCompleteness
import OrderMatchingEngine.Refinement.Clock
import OrderMatchingEngine.Refinement.Retyping

/-!
# OrderMatchingEngine.Properties.ImmediateOrCancel

An IOC order is a LIMIT order that is cancelled at once.

The two are matched alike, since the loop does not tell their types apart. What is left of the IOC
order goes straight back to the pool; what is left of the LIMIT order is queued, in a level that
may be new and under an entry of `order_lookup_`, and the cancel takes all three away again. Only
the address that the next list node receives has moved on.
-/

namespace OrderMatchingEngine

/-- The book without the address its next list node receives. -/
def OrderBook.nextless {α : Type} (book : OrderBook α) : OrderBook α := { book with nextNode := 0 }

namespace MatchingEngine

/-- Two engines have the same books, but for the addresses new list nodes will receive, the same
orders in them, the same trades, timestamps aside, and the same stack of free slots. -/
structure SameBooks {α : Type} (e e' : MatchingEngine α) : Prop where
  books : ∀ symbol, (e.getOrderBook symbol).map OrderBook.nextless =
    (e'.getOrderBook symbol).map OrderBook.nextless
  orders : ∀ symbol, e.bookView symbol = e'.bookView symbol
  history : e.tradeHistory.map Trade.untimed = e'.tradeHistory.map Trade.untimed
  free : e.orderPool.freeIndices = e'.orderPool.freeIndices

section SameBooks

variable {α : Type} {e e' e'' : MatchingEngine α}

theorem SameBooks.of_untimed (h : e.untimed = e'.untimed) : e.SameBooks e' where
  books symbol := by
    have hbooks : e.untimed.orderBooks = e'.untimed.orderBooks := by rw [h]
    show (e.untimed.orderBooks.lookup symbol).map _ = (e'.untimed.orderBooks.lookup symbol).map _
    rw [hbooks]
  orders symbol := by rw [← untimed_bookView e, h, untimed_bookView]
  history := congrArg MatchingEngine.tradeHistory h
  free := by
    show e.untimed.orderPool.freeIndices = e'.untimed.orderPool.freeIndices
    rw [h]

theorem SameBooks.trans (h : e.SameBooks e') (h' : e'.SameBooks e'') : e.SameBooks e'' where
  books symbol := (h.books symbol).trans (h'.books symbol)
  orders symbol := (h.orders symbol).trans (h'.orders symbol)
  history := h.history.trans h'.history
  free := h.free.trans h'.free

/-- What a book shows does not depend on the address of the next node. -/
theorem view_nextless {cells : Slot → Order α} {book book' : OrderBook α}
    (h : book.nextless = book'.nextless) : book.view cells = book'.view cells := by
  have hview : ∀ book : OrderBook α, book.view cells = book.nextless.view cells := fun _ => rfl
  rw [hview, h, ← hview]

/-- Engines that write back one book and differ elsewhere in free slots at most. -/
theorem SameBooks.of_setBook {symbol : Symbol} {book book' : OrderBook α}
    (hbooks : e.orderBooks = e'.orderBooks) (hbook : book.nextless = book'.nextless)
    (hcells : ∀ p ∈ (e'.setBook symbol book').restingSlots, e.cells p = e'.cells p)
    (hhistory : e.tradeHistory = e'.tradeHistory)
    (hfree : e.orderPool.freeIndices = e'.orderPool.freeIndices) :
    (e.setBook symbol book).SameBooks (e'.setBook symbol book') := by
  have hget : ∀ symbol', ((e.setBook symbol book).getOrderBook symbol').map OrderBook.nextless =
      ((e'.setBook symbol book').getOrderBook symbol').map OrderBook.nextless := by
    intro symbol'
    rw [getOrderBook, getOrderBook, setBook, setBook]
    by_cases hsym : symbol' = symbol
    · subst hsym
      rw [AList.lookup_insert, AList.lookup_insert, Option.map_some, Option.map_some, hbook]
    · rw [AList.lookup_insert_ne hsym, AList.lookup_insert_ne hsym, hbooks]
  have hof : ∀ (e : MatchingEngine α) symbol', (e.bookOf symbol').nextless =
      ((e.getOrderBook symbol').map OrderBook.nextless).getD (.new symbol') := by
    intro e symbol'
    rw [bookOf_eq, getOrderBook]
    cases e.orderBooks.lookup symbol' <;> rfl
  refine ⟨hget, ?_, congrArg (List.map Trade.untimed) hhistory, hfree⟩
  intro symbol'
  have hbookOf : ((e.setBook symbol book).bookOf symbol').nextless =
      ((e'.setBook symbol book').bookOf symbol').nextless := by
    rw [hof, hget, ← hof]
  rw [bookView, view_nextless hbookOf, bookView]
  exact OrderBook.view_congr fun p hp =>
    hcells p (slots_subset_restingSlots _ symbol' hp)

end SameBooks

section ImmediateOrCancel

variable {α : Type} [LinearOrder α] [Zero α] {clock : Nat → Timestamp} {own : Slot}
  {rest : List Slot} {e : MatchingEngine α} {o : Order α}

omit [Zero α] in
/-- A cancel in a book that was just written back. -/
theorem cancelOrder_setBook {symbol : Symbol} {book book' : OrderBook α} {x : Option Slot}
    {id : OrderID} (side : Int) (h : book.cancelOrder e.cells id = .ok (x, book')) :
    cancelOrder id symbol side (e.setBook symbol book) =
      .ok (x.map e.cells, (x.elim e e.deallocate).setBook symbol book') := by
  have hopen : (e.setBook symbol book).getOrCreateOrderBook symbol =
      (book, e.setBook symbol book) := by
    unfold getOrCreateOrderBook
    rw [setBook, AList.lookup_insert]
  have htwice : (e.setBook symbol book).setBook symbol book' = e.setBook symbol book' := by
    rw [setBook, setBook, setBook, AList.insert_insert]
  have hcells : (e.setBook symbol book).cells = e.cells := rfl
  rw [cancelOrder, hopen]
  dsimp only
  rw [hcells, h]
  cases x with
  | none => simp [htwice]
  | some p =>
      dsimp only
      rw [htwice]
      rfl

omit [Zero α] in
/-- The orders of the book that was matched are not the taker. -/
theorem LoopInv.id_ne (he : EngineInv e) (hfree : e.orderPool.freeIndices = own :: rest)
    (hfresh : ∀ x ∈ (e.bookView o.symbol).allOrders, x.id ≠ o.id) {s : Matching α}
    (h : LoopInv o.symbol own (accepted o own rest e) (e.bookOf o.symbol) s) :
    (s.engine.cells own).id = o.id ∧ ∀ n ∈ s.book.allNodes, (s.engine.cells n.order).id ≠ o.id := by
  obtain ⟨-, -, hview⟩ := accepted_book (o := o) he hfree o.symbol
  constructor
  · rw [h.same own, (accepted_spec o own rest e).1, Function.update_self]
  · intro n hn
    obtain ⟨n', hn', horder⟩ :=
      (OrderBook.mem_slots _).mp (h.sub ((OrderBook.mem_slots _).mpr ⟨n, hn, rfl⟩))
    have hin : (accepted o own rest e).cells n'.order ∈ (e.bookView o.symbol).allOrders := by
      rw [← hview, OrderBook.view_allOrders]
      exact List.mem_map_of_mem (f := fun n => (accepted o own rest e).cells n.order) hn'
    have hne := hfresh _ hin
    rw [h.same n.order, ← horder]
    exact hne

omit [Zero α] in
/-- What is left of an IOC order goes back to the pool, like the order itself when it is filled. -/
theorem settle_ioc {s : Matching α} (hioc : (s.engine.cells own).type = .ioc) :
    (settle own s).2 = (s.book, s.engine.deallocate own) := by
  unfold settle
  dsimp only
  rw [if_pos hioc]
  split <;> rfl

omit [Zero α] in
/-- What is left of a LIMIT order is queued. -/
theorem settle_limit {s : Matching α} (hlimit : (s.engine.cells own).type = .limit) :
    (settle own s).2 =
      if (s.engine.cells own).isFilled then (s.book, s.engine.deallocate own)
      else (s.book.addOrder s.engine.cells own, { s.engine with
        stats := { s.engine.stats with totalOrders := s.engine.stats.totalOrders + 1 } }) := by
  unfold settle
  simp only [hlimit]
  by_cases hfilled : (s.engine.cells own).isFilled = true
  · simp [hfilled]
  · simp [hfilled]

omit [Zero α] in
/-- A LIMIT order that was matched like an IOC order, settled and cancelled: the engine is the
one that settling the IOC order leaves. -/
theorem settle_cancel (he : EngineInv e) (hfree : e.orderPool.freeIndices = own :: rest)
    (hioc : o.type = .ioc) (hfresh : ∀ x ∈ (e.bookView o.symbol).allOrders, x.id ≠ o.id)
    {s : Matching α} (h : LoopInv o.symbol own (accepted o own rest e) (e.bookOf o.symbol) s)
    (side : Int) :
    ∃ x e', cancelOrder o.id o.symbol side ((settle own (s.retype .limit own)).2.2.setBook o.symbol
        (settle own (s.retype .limit own)).2.1) = .ok (x, e') ∧
      e'.SameBooks ((settle own s).2.2.setBook o.symbol (settle own s).2.1) := by
  obtain ⟨hbook, hframe⟩ := settled_frame he hfree (fun hne => absurd hioc hne) h
  obtain ⟨hown, hne⟩ := h.id_ne he hfree hfresh
  have htype : (s.engine.cells own).type = .ioc := by
    rw [h.same own, (accepted_spec o own rest e).1, Function.update_self]
    exact hioc
  have hinv : EngineInv ((settle own s).2.2.setBook o.symbol (settle own s).2.1) := by
    refine he.of_frame hframe ?_
    rw [bookOf_setBook]
    exact hbook
  have hretyped : (s.retype .limit own).engine.cells own =
      { s.engine.cells own with type := .limit } := retype_cells_self
  have hlimit : ((s.retype .limit own).engine.cells own).type = .limit := by rw [hretyped]
  have hioc' := settle_ioc htype
  have hsame : ((s.retype .limit own).engine.cells own).isFilled =
      (s.engine.cells own).isFilled := by
    rw [hretyped]
    rfl
  rw [settle_limit hlimit, hsame]
  rw [hioc'] at hinv ⊢
  -- the taker's slot is free in the end, so no book shows what is in it
  have hcells : ∀ p ∈ ((s.engine.deallocate own).setBook o.symbol s.book).restingSlots,
      (s.retype .limit own).engine.cells p = s.engine.cells p := by
    intro p hp
    refine retype_cells_of_ne ?_
    rintro rfl
    exact (hinv.free_notMem rfl).2 hp
  have hids : ∀ p, ((s.retype .limit own).engine.cells p).id = (s.engine.cells p).id := by
    intro p
    obtain ⟨type, hp⟩ := retype_cells .limit own s.engine p
    rw [Matching.retype, hp]
  by_cases hfilled : (s.engine.cells own).isFilled = true
  · -- nothing is left, and the cancel finds nothing
    have habsent : s.book.cancelOrder ((s.retype .limit own).engine.deallocate own).cells o.id =
        .ok (none, s.book) := by
      rcases h.linked.lookup_cases o.id with ⟨hnone, -⟩ | ⟨n, hn, hid, -⟩
      · rw [OrderBook.cancelOrder, hnone]
      · exact absurd hid (hne n hn)
    rw [if_pos hfilled]
    exact ⟨_, _, cancelOrder_setBook side habsent, .of_setBook rfl rfl hcells rfl rfl⟩
  · -- the remainder is queued and taken off again
    have hlinked : OrderBook.Linked (s.retype .limit own).engine.cells s.book :=
      h.linked.congr fun p _ => hids p
    have hcancel := OrderBook.cancelOrder_addOrder hlinked (OrderBook.levels_nonempty h.wf)
      (p := own) fun n hn => by
        rw [hids, hids, hown]
        exact hne n hn
    rw [hids, hown] at hcancel
    rw [if_neg hfilled]
    exact ⟨_, _, cancelOrder_setBook side hcancel, .of_setBook rfl rfl hcells rfl rfl⟩

/-- An order that is valid as a LIMIT order is valid as an IOC order. -/
theorem validateOrder_retype (hsym : o.symbol ≠ []) (hprice : 0 < o.price) (hq : 0 < o.quantity)
    (type : OrderType) : validateOrder { o with type := type } = true := by
  have hsome : o.symbol.isEmpty = false := by simpa using hsym
  have hqty : o.quantity ≠ 0 := UInt64.pos_iff_ne_zero.mp hq
  have hle : ¬ o.price ≤ 0 := fun h => Price.not_lt_of_le h hprice
  have hlt : ¬ o.price < 0 := fun h =>
    irrefl_of (· < ·) (0 : Price α) (trans_of (· < ·) hprice h)
  simp [validateOrder, hsome, hqty, hle, hlt]

/-- An IOC order, against the LIMIT order and its cancel, bound by bound. -/
theorem processOrder_ioc (clock : Nat → Timestamp) (he : EngineInv e)
    (hfree : e.orderPool.freeIndices = own :: rest)
    (hv : ∀ type, validateOrder { o with type := type } = true)
    (hfresh : ∀ x ∈ (e.bookView o.symbol).allOrders, x.id ≠ o.id) (side : Int) (fuel : Nat) :
    (∃ fault, processOrder clock fuel { o with type := .ioc } e = .error fault ∧
        processOrder clock fuel { o with type := .limit } e = .error fault) ∨
      ∃ out e₁ out' e₂ x e₃, processOrder clock fuel { o with type := .ioc } e = .ok (out, e₁) ∧
        processOrder clock fuel { o with type := .limit } e = .ok (out', e₂) ∧
        cancelOrder o.id o.symbol side e₂ = .ok (x, e₃) ∧ out'.trades = out.trades ∧
        e₃.SameBooks e₁ := by
  obtain ⟨hout, hb, -⟩ := accepted_book (o := { o with type := .ioc }) he hfree o.symbol
  have haccepted := accepted_retype { o with type := .ioc } .limit own rest e
  have htype : ((accepted { o with type := .ioc } own rest e).cells own).type ≠ .market := by
    rw [(accepted_spec _ own rest e).1, Function.update_self]
    simp
  have hlimit : OrderType.limit ≠ .market := by simp
  rw [processOrder_accepted hfree (hv .ioc), processOrder_accepted hfree (hv .limit),
    if_neg (by simp), if_neg (by simp), haccepted,
    matchAgainst_retype hb.linked hb.wf hout hlimit htype]
  rcases hs : matchAgainst clock o.side fuel own (e.bookOf o.symbol)
    (accepted { o with type := .ioc } own rest e) with fault | s
  · exact .inl ⟨fault, rfl, rfl⟩
  · obtain ⟨x, e₃, hcancel, hsame⟩ := settle_cancel (o := { o with type := .ioc }) he hfree rfl
      hfresh (matchAgainst_inv hb.linked hb.wf hout hs) side
    exact .inr ⟨_, _, _, _, x, e₃, rfl, rfl, hcancel, rfl, hsame⟩

/-- **IOC is LIMIT, then cancel**: the same trades, books and free slots, whatever side the cancel
names and whatever the clocks read. Under every bound the one fails where the other does, and
where no order was queued at a price that is not a number none does. -/
theorem ioc_eq_limit_cancel {clock₀ : Nat → Timestamp} {n : Nat}
    {G : MatchingEngine α → Call α → Prop} {tr : List (Call α × Ret α)}
    (hG : ∀ e c, G e c → e.QueuesFresh c) (h : Reaches clock₀ n G tr e)
    (hslot : e.orderPool.freeIndices ≠ []) (hsym : o.symbol ≠ []) (hprice : 0 < o.price)
    (hq : 0 < o.quantity) (hfresh : ¬ e.Rests o.symbol o.id) (clock clock' : Nat → Timestamp)
    (side : Int) :
    (∀ out e₁, Returns clock e (.processNewOrder { o with type := .ioc }) (.processed out) e₁ →
      ∃ out' e₂ x e₃,
        Returns clock' e (.processNewOrder { o with type := .limit }) (.processed out') e₂ ∧
        Returns clock' e₂ (.cancelOrder o.id o.symbol side) (.cancelled x) e₃ ∧
        out'.trades.map Trade.untimed = out.trades.map Trade.untimed ∧ e₃.SameBooks e₁) ∧
      (∀ fuel fault, call clock fuel e (.processNewOrder { o with type := .ioc }) = .error fault ↔
        call clock' fuel e (.processNewOrder { o with type := .limit }) = .error fault) ∧
      ((∀ e c, G e c → c.QueuesNumber) → ∃ out e₁,
        Returns clock e (.processNewOrder { o with type := .ioc }) (.processed out) e₁) := by
  have he := reaches_inv hG h
  obtain ⟨own, rest, hfree⟩ := List.exists_cons_of_ne_nil hslot
  have hne : ∀ x ∈ (e.bookView o.symbol).allOrders, x.id ≠ o.id := fun x hx hid =>
    hfresh ((rests_iff e _ _).mpr ⟨x, hx, hid⟩)
  have hpaths := fun fuel => processOrder_ioc clock' he hfree
    (validateOrder_retype hsym hprice hq) hne side fuel
  refine ⟨?_, ?_, ?_⟩
  · intro out e₁ hr
    -- an IOC order under one clock is that order under the other, its times aside
    obtain ⟨fuel, hr⟩ := hr
    obtain ⟨r', e₁', hcall, hr', he'⟩ := call_untimed_congr clock' (Nat.le_refl fuel) rfl hr
    obtain ⟨out', hp, rfl⟩ := call_process.mp hcall
    rcases hpaths fuel with
      ⟨fault, hfault, -⟩ | ⟨_, _, out₂, e₂, x, e₃, hioc, hlimit, hcancel, ht, hsame⟩
    · simp [hp] at hfault
    · obtain ⟨rfl, rfl⟩ := Prod.mk.inj (Except.ok.inj (hp.symm.trans hioc))
      refine ⟨out₂, e₂, x, e₃, .process hlimit, ⟨0, call_cancel.mpr ⟨x, hcancel, rfl⟩⟩, ?_,
        hsame.trans (.of_untimed he')⟩
      rw [ht]
      exact congrArg Ret.trades hr'
  · intro fuel fault
    rw [call_error_iff clock clock', call, call, FuelLoop.map_eq_error, FuelLoop.map_eq_error]
    rcases hpaths fuel with ⟨fault', hioc, hlimit⟩ | ⟨_, _, _, _, _, _, hioc, hlimit, -⟩
    · rw [hioc, hlimit]
    · simp [hioc, hlimit]
  · intro hnumbers
    obtain ⟨hex, -⟩ := reaches_exact (fun e c hg => ⟨hG e c hg, hnumbers e c hg⟩) h o.symbol
    obtain ⟨r, e₁, hr⟩ := returns_total clock he (c := .processNewOrder { o with type := .ioc }) hex
    obtain ⟨out, rfl, -⟩ := returns_process he hr
    exact ⟨out, e₁, hr⟩

end ImmediateOrCancel

/-! ### Concrete orders -/

section Concrete

/-- An engine with an offer of five at 100. -/
def fiveOffered : List (Call Int × Ret Int) × MatchingEngine Int :=
  ran (fun _ => 0) 10 100000 (fun e c => e.QueuesFresh c ∧ c.QueuesNumber)
    [.processNewOrder (orderOf 1 .sell .limit 100 5)]

/-- A purchase of ten finds five; as a LIMIT order it is cancelled as if it were a sale. -/
theorem ioc_eq_limit_cancel_fiveOfTen :
    let o := orderOf 2 .buy .gfd 100 10
    (∃ out e₁, Returns (fun _ => 0) fiveOffered.2 (.processNewOrder { o with type := .ioc })
        (.processed out) e₁) ∧
      ∀ out e₁, Returns (fun _ => 0) fiveOffered.2 (.processNewOrder { o with type := .ioc })
          (.processed out) e₁ →
        ∃ out' e₂ x e₃, Returns (fun _ => 7) fiveOffered.2
            (.processNewOrder { o with type := .limit }) (.processed out') e₂ ∧
          Returns (fun _ => 7) e₂ (.cancelOrder o.id o.symbol 1) (.cancelled x) e₃ ∧
          out'.trades.map Trade.untimed = out.trades.map Trade.untimed ∧ e₃.SameBooks e₁ := by
  have hrun : Reaches (fun _ => 0) 100000 (fun e c => e.QueuesFresh c ∧ c.QueuesNumber)
      fiveOffered.1 fiveOffered.2 := reaches_ran rfl
  have h := ioc_eq_limit_cancel (o := orderOf 2 .buy .gfd 100 10) (fun _ _ hg => hg.1) hrun
    (List.cons_ne_nil 99998 (ObjectPool.indicesBelow 99998)) (by decide) (by decide) (by decide)
    (by decide) (fun _ => 0) (fun _ => 7) 1
  exact ⟨h.2.2 fun _ _ hg => hg.2, h.1⟩

end Concrete

end MatchingEngine

end OrderMatchingEngine
