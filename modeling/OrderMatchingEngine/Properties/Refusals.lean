import Mathlib.Algebra.Order.Ring.Int
import OrderMatchingEngine.Refinement.Runs

/-!
# OrderMatchingEngine.Properties.Refusals

What a refused call leaves behind.

`process_new_order` refuses an order without a slot, an order that is not valid and a FOK order
that cannot be filled; `cancel_order` refuses an id it does not find. No refusal touches the trades
or the statistics. Two things can change all the same: `get_or_create_order_book` opens a book for
a symbol that had none (a killed FOK order, any refused cancel), and the refused order was already
stored in its slot, which shows if a book still points at that slot. `refused_unchanged` says that
there is no third.
-/

namespace OrderMatchingEngine

/-- The call was refused. -/
def Ret.Refused {α : Type} : Ret α → Prop
  | .processed out => out.exit = .exhausted ∨ out.exit = .invalid ∨ out.exit = .killed
  | .cancelled order => order = none

/-- A cancel that finds no order leaves the book alone. -/
theorem OrderBook.cancelOrder_none {α : Type} [LinearOrder α] {cells : Slot → Order α}
    {book book' : OrderBook α} {id : OrderID} (h : book.cancelOrder cells id = .ok (none, book')) :
    book' = book := by
  unfold OrderBook.cancelOrder at h
  split at h
  · exact (Prod.mk.inj (Except.ok.inj h)).2.symm
  · dsimp only at h
    split at h
    · exact (Prod.mk.inj (Except.ok.inj h)).2.symm
    · split at h <;> simp at h

namespace MatchingEngine

variable {α : Type}

/-- Nothing shows a difference: each symbol has the same book, or none as before, with the same
orders in it, and trades and statistics are the same. -/
structure Unchanged (e e' : MatchingEngine α) : Prop where
  books : ∀ symbol, e'.getOrderBook symbol = e.getOrderBook symbol
  orders : ∀ symbol, e'.bookView symbol = e.bookView symbol
  history : e'.tradeHistory = e.tradeHistory
  stats : e'.stats = e.stats

/-- The symbol has a book. -/
def HasBook (e : MatchingEngine α) (symbol : Symbol) : Prop := (e.getOrderBook symbol).isSome

/-- A call that gets as far as its book finds it there. -/
def FindsBook [LinearOrder α] [Zero α] (e : MatchingEngine α) : Call α → Prop
  | .processNewOrder o =>
    e.orderPool.freeIndices ≠ [] → validateOrder o = true → e.HasBook o.symbol
  | .cancelOrder _ symbol _ => e.HasBook symbol

/-- The slot an order would be stored in is in no book, unless it holds this very order. -/
def StoresApart (e : MatchingEngine α) : Call α → Prop
  | .processNewOrder o => ∀ own rest, e.orderPool.freeIndices = own :: rest →
    ∀ symbol, own ∈ (e.bookOf symbol).slots → e.cells own = o
  | .cancelOrder _ _ _ => True

section Opening

variable {e : MatchingEngine α} {symbol : Symbol}

/-- Opening a book shows exactly if there was none. -/
theorem getOrderBook_getOrCreateOrderBook (e : MatchingEngine α) (symbol : Symbol) :
    (∀ symbol', (e.getOrCreateOrderBook symbol).2.getOrderBook symbol' =
      e.getOrderBook symbol') ↔ e.HasBook symbol := by
  unfold getOrCreateOrderBook HasBook getOrderBook
  rcases hl : e.orderBooks.lookup symbol with _ | book
  · refine iff_of_false ?_ (by simp)
    intro hsame
    have hnew := hsame symbol
    rw [hl] at hnew
    simp [setBook] at hnew
  · exact iff_of_true (fun _ => rfl) rfl

/-- The views of two engines with the same books are the same exactly if the memory behind the
books is. -/
theorem bookView_eq_iff {e' : MatchingEngine α} (hbook : e'.bookOf symbol = e.bookOf symbol) :
    e'.bookView symbol = e.bookView symbol ↔
      ∀ p ∈ (e.bookOf symbol).slots, e'.cells p = e.cells p := by
  constructor
  · intro hview p hp
    obtain ⟨n, hn, rfl⟩ := (OrderBook.mem_slots _).mp hp
    have horders := congrArg QueueBook.allOrders hview
    rw [bookView, bookView, hbook, OrderBook.view_allOrders, OrderBook.view_allOrders] at horders
    exact List.map_inj_left.mp horders n hn
  · intro hcells
    rw [bookView, bookView, hbook]
    exact OrderBook.view_congr hcells

end Opening

section Refused

variable [LinearOrder α] [Zero α] {clock : Nat → Timestamp} {e e' : MatchingEngine α}

omit [LinearOrder α] [Zero α] in
/-- Storing an order where a book can see it shows, unless it is there already. -/
theorem orders_stored {o : Order α} {own : Slot} {rest : List Slot}
    (hfree : e.orderPool.freeIndices = own :: rest)
    (hcells : e'.cells = Function.update e.cells own o)
    (hbooks : ∀ symbol, e'.bookOf symbol = e.bookOf symbol) :
    (∀ symbol, e'.bookView symbol = e.bookView symbol) ↔
      e.StoresApart (.processNewOrder o) := by
  constructor
  · intro hview own' rest' hfree' symbol hin
    obtain ⟨rfl, rfl⟩ := List.cons.inj (hfree.symm.trans hfree')
    have hown := (bookView_eq_iff (hbooks symbol)).mp (hview symbol) own hin
    rw [hcells, Function.update_self] at hown
    exact hown.symm
  · intro happart symbol
    refine (bookView_eq_iff (hbooks symbol)).mpr ?_
    intro p hp
    by_cases hne : p = own
    · subst hne
      rw [hcells, Function.update_self]
      exact (happart p rest hfree symbol hp).symm
    · rw [hcells, Function.update_of_ne hne]

/-- Where a refused order leaves the engine. -/
theorem processOrder_refused {fuel : Nat} {o : Order α} {out : Outcome α}
    (h : processOrder clock fuel o e = .ok (out, e')) (href : (Ret.processed out).Refused) :
    (e.orderPool.freeIndices = [] ∧ e' = e) ∨
      ∃ own rest, e.orderPool.freeIndices = own :: rest ∧
        ((validateOrder o = false ∧ e' = { e with orderPool := e.orderPool.write own o }) ∨
          (validateOrder o = true ∧ e' = accepted o own rest e)) := by
  cases processOrder_cases h with
  | exhausted hfree => exact .inl ⟨hfree, rfl⟩
  | invalid hfree hv => exact .inr ⟨_, _, hfree, .inl ⟨hv, rfl⟩⟩
  | killed hfree hv => exact .inr ⟨_, _, hfree, .inr ⟨hv, rfl⟩⟩
  | settled =>
      -- an order that was matched is not refused
      refine absurd href ?_
      simp only [Ret.Refused, settle]
      split
      · split
        · simp
        · split <;> simp
      · simp

/-- A refused order, by where the refusal is. -/
theorem processOrder_unchanged {fuel : Nat} {o : Order α} {out : Outcome α}
    (h : processOrder clock fuel o e = .ok (out, e')) (href : (Ret.processed out).Refused) :
    e.Unchanged e' ↔
      e.FindsBook (.processNewOrder o) ∧ e.StoresApart (.processNewOrder o) := by
  obtain ⟨hfree, rfl⟩ | ⟨own, rest, hfree, ⟨hv, rfl⟩ | ⟨hv, rfl⟩⟩ := processOrder_refused h href
  · refine iff_of_true ⟨fun _ => rfl, fun _ => rfl, rfl, rfl⟩ ⟨fun hne => absurd hfree hne, ?_⟩
    intro own rest hfree'
    simp [hfree] at hfree'
  · have hbooks : ∀ symbol, bookOf { e with orderPool := e.orderPool.write own o } symbol =
        e.bookOf symbol := by
      intro symbol
      rw [bookOf_eq, ← bookOf_eq e]
    have hview := orders_stored hfree rfl hbooks
    constructor
    · intro hsame
      exact ⟨fun _ hv' => by simp [hv] at hv', hview.mp hsame.orders⟩
    · intro hcond
      exact ⟨fun _ => rfl, hview.mpr hcond.2, rfl, rfl⟩
  · obtain ⟨hcells, -, -, hhist, hother, hbook, -⟩ := accepted_spec o own rest e
    have hbooks : ∀ symbol, (accepted o own rest e).bookOf symbol = e.bookOf symbol := by
      intro symbol
      by_cases hsym : symbol = o.symbol
      · rw [hsym, hbook]
      · exact e.bookOf_congr symbol (hother symbol hsym)
    have hview := orders_stored hfree hcells hbooks
    have hopen := getOrderBook_getOrCreateOrderBook (stored o own rest e) o.symbol
    constructor
    · intro hsame
      exact ⟨fun _ _ => hopen.mp hsame.books, hview.mp hsame.orders⟩
    · intro hcond
      have hfree' : e.orderPool.freeIndices ≠ [] := by simp [hfree]
      exact ⟨hopen.mpr (hcond.1 hfree' hv), hview.mpr hcond.2, hhist,
        getOrCreateOrderBook_stats _ _⟩

omit [Zero α] in
/-- A refused cancel writes back the book it opened. -/
theorem cancelOrder_refused {id : OrderID} {symbol : Symbol} {side : Int}
    (h : cancelOrder id symbol side e = .ok (none, e')) :
    e' = (e.getOrCreateOrderBook symbol).2.setBook symbol (e.bookOf symbol) := by
  cases cancelOrder_cases h with
  | missed hc => rw [OrderBook.cancelOrder_none hc]

omit [Zero α] in
theorem cancelOrder_unchanged {id : OrderID} {symbol : Symbol} {side : Int}
    (h : cancelOrder id symbol side e = .ok (none, e')) : e.Unchanged e' ↔ e.HasBook symbol := by
  obtain ⟨hpool, hhist, hother, -, -⟩ := openBook e symbol
  obtain rfl := cancelOrder_refused h
  have hself : ((e.getOrCreateOrderBook symbol).2.setBook symbol (e.bookOf symbol)).getOrderBook
      symbol = some (e.bookOf symbol) := AList.lookup_insert _
  constructor
  · intro hsame
    have hbook := hsame.books symbol
    rw [hself] at hbook
    rw [HasBook, ← hbook]
    rfl
  · intro hbook
    have hbooks : ∀ symbol', ((e.getOrCreateOrderBook symbol).2.setBook symbol
        (e.bookOf symbol)).getOrderBook symbol' = e.getOrderBook symbol' := by
      intro symbol'
      by_cases hsym : symbol' = symbol
      · obtain ⟨book, hlook⟩ := Option.isSome_iff_exists.mp hbook
        rw [hsym, hself, getOrderBook_eq_some e symbol hlook, hlook]
      · rw [← hother symbol' hsym]
        exact AList.lookup_insert_ne hsym
    refine ⟨hbooks, ?_, hhist, getOrCreateOrderBook_stats e symbol⟩
    intro symbol'
    refine (bookView_eq_iff (e.bookOf_congr symbol' (hbooks symbol'))).mpr ?_
    intro p _
    show (e.getOrCreateOrderBook symbol).2.cells p = e.cells p
    exact congrArg (fun pool => pool.cells p) hpool

omit [Zero α] in
/-- Without two resting orders under one id a free slot is in no book. -/
theorem EngineInv.storesApart (he : EngineInv e) (c : Call α) : e.StoresApart c := by
  cases c with
  | cancelOrder id symbol side => trivial
  | processNewOrder o =>
      intro own rest hfree symbol hin
      exact absurd (slots_subset_restingSlots e symbol hin) (he.free_notMem hfree).2

/-- **A refused call changes nothing exactly if** it finds its book, should it get as far, and
does not store its order where a book can see it. In every state reached with fresh ids the second
condition holds. -/
theorem refused_unchanged {c : Call α} {r : Ret α} (h : Returns clock e c r e')
    (href : r.Refused) :
    (e.Unchanged e' ↔ e.FindsBook c ∧ e.StoresApart c) ∧
      ∀ n tr, Reaches clock n (fun e c => e.QueuesFresh c) tr e →
        (e.Unchanged e' ↔ e.FindsBook c) := by
  have hiff : e.Unchanged e' ↔ e.FindsBook c ∧ e.StoresApart c := by
    obtain ⟨fuel, h⟩ := h
    cases c with
    | processNewOrder o =>
        obtain ⟨out, hp, rfl⟩ := call_process.mp h
        exact processOrder_unchanged hp href
    | cancelOrder id symbol side =>
        obtain ⟨x, hc, rfl⟩ := call_cancel.mp h
        obtain rfl : x = none := href
        exact (cancelOrder_unchanged hc).trans ⟨fun hbook => ⟨hbook, trivial⟩, And.left⟩
  refine ⟨hiff, ?_⟩
  intro n tr hrun
  have he := reaches_inv (fun _ _ hg => hg) hrun
  exact hiff.trans ⟨And.left, fun hbook => ⟨hbook, he.storesApart c⟩⟩

end Refused

/-! ### Concrete calls -/

section Concrete

/-- A FOK order to buy one lot of `A` at 100. -/
def fokOne : Order Int :=
  { id := 1, symbol := [65], userId := 1, side := .buy, type := .fok, price := .num 100,
    quantity := 1, timestamp := 0 }

/-- A fresh engine. -/
def noBooks : MatchingEngine Int := init

/-- The fresh engine after a cancel for `A`. -/
def afterCancel : MatchingEngine Int :=
  ((call (fun _ => 0) 0 noBooks (.cancelOrder 1 [65] 0)).toOption.map Prod.snd).getD noBooks

/-- **A refused cancel opens a book**, and so does a killed FOK order. -/
theorem refused_opens_book :
    Reaches (fun _ => 0) 100000 (fun (_ : MatchingEngine Int) _ => True) [] noBooks ∧
      noBooks.getOrderBook [65] = none ∧
      (∃ e', Returns (fun _ => 0) noBooks (.cancelOrder 1 [65] 0) (.cancelled none) e' ∧
        (e'.getOrderBook [65]).isSome ∧ ¬ noBooks.Unchanged e') ∧
      ∃ out e', Returns (fun _ => 0) noBooks (.processNewOrder fokOne) (.processed out) e' ∧
        out.exit = .killed ∧ (e'.getOrderBook [65]).isSome ∧ ¬ noBooks.Unchanged e' := by
  refine ⟨.nil, rfl, ⟨afterCancel, ⟨0, rfl⟩, rfl, ?_⟩, _, _, ⟨0, rfl⟩, rfl, rfl, ?_⟩
  · intro hsame
    exact Bool.noConfusion (congrArg Option.isSome (hsame.books [65]))
  · intro hsame
    exact Bool.noConfusion (congrArg Option.isSome (hsame.books [65]))

/-- The refused cancel of a symbol without a book. -/
theorem refused_unchanged_cancel :
    (noBooks.Unchanged afterCancel ↔
        noBooks.FindsBook (.cancelOrder 1 [65] 0) ∧ noBooks.StoresApart (.cancelOrder 1 [65] 0)) ∧
      ∀ n tr, Reaches (fun _ => 0) n (fun e c => e.QueuesFresh c) tr noBooks →
        (noBooks.Unchanged afterCancel ↔ noBooks.FindsBook (.cancelOrder 1 [65] 0)) :=
  refused_unchanged ⟨0, rfl⟩ rfl

end Concrete

end MatchingEngine

end OrderMatchingEngine
