import Mathlib.Algebra.Order.Ring.Int
import OrderMatchingEngine.Properties.BookInvariant

/-!
# OrderMatchingEngine.Properties.LimitPrices

Do trades and levels respect the prices of orders?

A price off the wire may be NaN, and `validate_order` and the matching loops are written with
comparisons that NaN fails: such an order passes for valid, refuses no price, and is queued under
the key of another level. The comparisons of this module are the true ones (`p <= q` and `p == q`
fail on NaN), so they catch it. As long as no order with a NaN price gets to trade or to rest, every
trade honours the prices of both its orders and every order rests under its own price; the first
such order breaks this (`prices_honoured`).
-/

namespace OrderMatchingEngine

namespace Order

variable {α : Type} [LE α]

/-- A trade at `p` honours the price of the order: a purchase costs at most that much, a sale
brings at least that much. A MARKET order takes every price. -/
def Honours (o : Order α) (p : Price α) : Prop :=
  o.type ≠ .market →
    match o.side with
    | .buy => p ≤ o.price
    | .sell => o.price ≤ p

end Order

namespace QueueBook

variable {α : Type}

/-- Every order is queued under a key equal to its price. -/
def Keyed (b : QueueBook α) : Prop := ∀ sd, ∀ l ∈ b.levels sd, ∀ x ∈ l.2, l.1.equal x.price

theorem keyed_iff {b : QueueBook α} : Keyed b ↔ Exact b ∧ Numbers b := by
  constructor
  · intro hk
    constructor
    · intro sd l hl x hx
      exact (Price.equal_iff.mp (hk sd l hl x hx)).1
    · intro sd x hx
      obtain ⟨l, hl, hxl⟩ := LevelMap.mem_up.mp (mem_orders.mp hx)
      exact (Price.equal_iff.mp (hk sd l hl x hxl)).2
  · intro hb sd l hl x hx
    exact Price.equal_iff.mpr ⟨hb.1 sd l hl x hx,
      hb.2 sd x (mem_orders.mpr (LevelMap.mem_up.mpr ⟨l, hl, hx⟩))⟩

variable [LinearOrder α] {symbol : Symbol} {b b₁ b' : QueueBook α} {o : Order α}
  {out : Outcome α}

/-- The trade is one of the taker with an order of the opposite side, and honours both prices. -/
structure Honoured (b : QueueBook α) (o : Order α) (t : Trade α) : Prop where
  taker : t.orderId o.side = o.id ∧ o.Honours t.price
  maker : ∃ m ∈ b.orders o.side.opposite, t.orderId o.side.opposite = m.id
  makers : ∀ m ∈ b.orders o.side.opposite, t.orderId o.side.opposite = m.id → m.Honours t.price

/-- A taker that does not refuse a price is honoured by it, if both are numbers. -/
theorem honours_of_accepts {maker : Order α} (ho : o.price ≠ .nan) (hm : maker.price ≠ .nan)
    (h : refuses o.side o maker = false) : o.Honours maker.price := by
  intro hmarket
  rw [← Bool.not_eq_true, refuses_eq_true] at h
  have hprice : ¬ o.side.opposite.better o.price maker.price := fun hbad => h ⟨hbad, hmarket⟩
  cases hside : o.side with
  | buy =>
      rw [hside] at hprice
      exact (Price.not_lt_iff ho hm).mp hprice
  | sell =>
      rw [hside] at hprice
      exact (Price.not_lt_iff hm ho).mp hprice

/-- An order at a number is honoured by its own price. -/
theorem honours_self (ho : o.price ≠ .nan) : o.Honours o.price := by
  intro _
  have hle := Price.le_of_lt_or_eq ho (.inr rfl : o.price < o.price ∨ o.price = o.price)
  cases o.side <;> exact hle

/-- No price is honoured by an order at NaN, MARKET orders apart. -/
theorem not_honours_nan {p : Price α} (ho : o.price = .nan) (hmarket : o.type ≠ .market) :
    ¬ o.Honours p := by
  intro hh
  have hh := hh hmarket
  rw [ho] at hh
  cases hside : o.side with
  | buy =>
      rw [hside] at hh
      exact Price.not_le_nan p hh
  | sell =>
      rw [hside] at hh
      exact Price.not_nan_le p hh

/-- Matching against a book of numbers honours all prices if the taker's own, when it counts, is a
number or there is no trade. -/
theorem matched_honoured (hb : WF symbol b) (hn : Numbers b) :
    (∀ t ∈ (b.matched o).trades, Honoured b o t) ↔
      (o.type ≠ .market → o.price = .nan → (b.matched o).trades = []) := by
  constructor
  · intro hall hmarket hnan
    refine List.eq_nil_iff_forall_not_mem.mpr ?_
    intro t ht
    exact not_honours_nan hnan hmarket (hall t ht).taker.2
  · intro hcond t ht
    obtain ⟨own, maker, qty, hsame, hmaker, href, rfl⟩ := fillQueue_trade _ _ _ t ht
    have hmem : ∀ m ∈ b.orders o.side.opposite, m ∈ b.allOrders := fun m hm =>
      mem_allOrders.mpr ⟨_, hm⟩
    have hnum := hn _ maker hmaker
    have hprice := trade_price o.side own maker qty
    have htaker : (trade o.side own maker qty).orderId o.side = o.id := by
      have hid : own.id = o.id := by rw [hsame]
      rw [← hid]
      cases o.side <;> rfl
    have hother : (trade o.side own maker qty).orderId o.side.opposite = maker.id := by
      cases o.side <;> rfl
    refine ⟨⟨htaker, ?_⟩, ⟨maker, hmaker, hother⟩, ?_⟩
    · intro hmarket
      -- it trades, so it is no NaN
      have ho : o.price ≠ .nan := by
        intro hnan
        rw [hcond hmarket hnan] at ht
        simp at ht
      rw [hprice]
      exact honours_of_accepts ho hnum href hmarket
    · intro m hm hid
      obtain rfl := hb.id_inj (hmem m hm) (hmem maker hmaker) (hid.symm.trans hother)
      rw [hprice]
      exact honours_self hnum

/-- An order at NaN refuses nothing. -/
theorem refuses_nan {sd : OrderSide} {maker : Order α} (ho : o.price = .nan) :
    refuses sd o maker = false := by
  rw [← Bool.not_eq_true, refuses_eq_true, ho]
  intro hrefuses
  cases sd with
  | buy => exact Price.not_nan_lt _ hrefuses.1
  | sell => exact Price.not_lt_nan _ hrefuses.1

/-- When an order at NaN that is matched neither trades nor rests. -/
theorem Matched.idle_iff (hm : Matched symbol b o out b₁ b') (ho : o.price = .nan)
    (hmarket : o.type ≠ .market) :
    out.trades = [] ∧ out.exit ≠ .rested ↔
      (o.remainingQty = 0 ∨ b.orders o.side.opposite = []) ∧
        (o.isFilled = true ∨ o.type = .ioc) := by
  have htrades : out.trades = [] ↔ o.remainingQty = 0 ∨ b.orders o.side.opposite = [] := by
    rw [hm.trades, matched, fillQueue_trades_eq_nil]
    refine or_congr_right ?_
    cases b.orders o.side.opposite <;> simp [refuses_nan ho]
  rw [htrades]
  refine and_congr_right ?_
  intro hnone
  have horder : out.order = o := by
    rw [hm.order]
    exact fillQueue_own_of_no_trades (hm.trades.symm.trans (htrades.mpr hnone))
  rcases settle_cases hm.settled with ⟨hexit, hlive, hioc, -, -⟩ | ⟨-, hcases⟩
  · rw [horder] at hlive hioc
    refine iff_of_false (fun hne => hne hexit) ?_
    rw [Order.isFilled_eq_false.mpr hlive]
    simp [hioc]
  · rw [horder] at hcases
    rcases hcases with ⟨hexit, hfilled⟩ | ⟨hexit, -, hioc⟩ | ⟨hexit, -, hmkt⟩
    · rw [← Order.isFilled_eq_false, Bool.not_eq_false] at hfilled
      exact iff_of_true (by simp [hexit]) (.inl hfilled)
    · exact iff_of_true (by simp [hexit]) (.inr hioc)
    · exact absurd hmkt hmarket

/-- **Matching and settling respect prices exactly if** an order at NaN neither trades nor
rests. -/
theorem Matched.prices_iff (hm : Matched symbol b o out b₁ b') (hb : WF symbol b)
    (hk : Keyed b) :
    (∀ t ∈ out.trades, Honoured b o t) ∧ Keyed b' ↔
      (o.type ≠ .market → o.price = .nan →
        (o.remainingQty = 0 ∨ b.orders o.side.opposite = []) ∧
          (o.isFilled = true ∨ o.type = .ioc)) := by
  obtain ⟨hex, hn⟩ := keyed_iff.mp hk
  have hprice : out.order.price = o.price := by rw [hm.same]
  have htype : out.order.type = o.type := by rw [hm.same]
  have hside : out.order.side = o.side := by rw [hm.same]
  rw [hm.trades, matched_honoured hb hn, ← hm.trades]
  constructor
  · intro hgood hmarket hnan
    refine (hm.idle_iff hnan hmarket).mp ⟨hgood.1 hmarket hnan, ?_⟩
    intro hexit
    have hmem := hm.mem_own.mpr (.inr ⟨hexit, rfl⟩)
    exact (keyed_iff.mp hgood.2).2 _ _ hmem (hprice.trans hnan)
  · intro hcond
    refine ⟨fun hmarket hnan => ((hm.idle_iff hnan hmarket).mpr (hcond hmarket hnan)).1, ?_⟩
    rcases settle_cases hm.settled with ⟨hexit, -, -, hmarket, rfl⟩ | ⟨rfl, -⟩
    · have hnum : out.order.price ≠ .nan := by
        intro hnan
        rw [htype] at hmarket
        have hnan := hprice.symm.trans hnan
        exact ((hm.idle_iff hnan hmarket).mpr (hcond hmarket hnan)).2 hexit
      refine keyed_iff.mpr ⟨(hm.exact hex).addOrder hm.wf (hm.numbers hn) hnum, ?_⟩
      intro sd x hx
      rcases WF.mem_orders_addOrder.mp hx with ⟨rfl, -⟩ | hx
      · exact hnum
      · exact hm.numbers hn _ x hx
    · exact keyed_iff.mpr ⟨hm.exact hex, hm.numbers hn⟩

end QueueBook

theorem OrderBook.keyed_view {α : Type} (cells : Slot → Order α) (book : OrderBook α) :
    QueueBook.Keyed (book.view cells) ↔
      ∀ sd, ∀ l ∈ book.priceMap sd, ∀ n ∈ l.2, l.1.equal (cells n.order).price := by
  unfold QueueBook.Keyed
  simp only [OrderBook.view_levels, LevelMap.mapElems, List.forall_mem_map]

namespace MatchingEngine

variable {α : Type} [LinearOrder α]

/-- What the call does respects prices: every trade honours its two orders, and afterwards every
order is in the level of its price. -/
structure PricesHonoured (e : MatchingEngine α) (c : Call α) (r : Ret α) (e' : MatchingEngine α) :
    Prop where
  trades : ∀ o, c = .processNewOrder o →
    ∀ t ∈ r.trades, QueueBook.Honoured (e.bookView o.symbol) o t
  keys : ∀ symbol sd, ∀ l ∈ (e'.bookOf symbol).priceMap sd, ∀ n ∈ l.2,
    l.1.equal (e'.cells n.order).price

variable [Zero α]

/-- The order, at a NaN price, neither trades nor rests: it is refused, or there is nothing to
trade with and it may not be queued. -/
def Idle (e : MatchingEngine α) (o : Order α) : Prop :=
  e.orderPool.freeIndices = [] ∨ validateOrder o = false ∨
    (o.type = .fok ∧ canFillCompletely e.cells (e.bookOf o.symbol) o = false) ∨
    ((o.remainingQty = 0 ∨ (e.bookView o.symbol).orders o.side.opposite = []) ∧
      (o.isFilled = true ∨ o.type = .ioc))

/-- An order that is not a MARKET order and has NaN for its price is idle. -/
def NaNsIdle (e : MatchingEngine α) : Call α → Prop
  | .processNewOrder o => o.type ≠ .market → o.price = .nan → e.Idle o
  | .cancelOrder _ _ _ => True

instance (e : MatchingEngine α) (o : Order α) : Decidable (e.Idle o) :=
  inferInstanceAs (Decidable (_ ∨ _ ∨ _ ∨ _))

instance (e : MatchingEngine α) : (c : Call α) → Decidable (e.NaNsIdle c)
  | .processNewOrder o =>
    inferInstanceAs (Decidable (o.type ≠ .market → o.price = .nan → e.Idle o))
  | .cancelOrder _ _ _ => inferInstanceAs (Decidable True)

section Run

variable {clock : Nat → Timestamp} {n : Nat} {tr : List (Call α × Ret α)}
  {e e' : MatchingEngine α} {c : Call α} {r : Ret α}

omit [LinearOrder α] [Zero α] in
theorem keys_iff : (∀ symbol sd, ∀ l ∈ (e.bookOf symbol).priceMap sd, ∀ n ∈ l.2,
    l.1.equal (e.cells n.order).price) ↔ ∀ symbol, QueueBook.Keyed (e.bookView symbol) :=
  forall_congr' fun symbol => (OrderBook.keyed_view e.cells (e.bookOf symbol)).symm

omit [LinearOrder α] [Zero α] in
/-- Of the books only the call's own can lose its keys. -/
theorem keyed_of_frame {leaks : Nat} {trades : List (Trade α)}
    (hf : Frame c.symbol leaks trades e e')
    (hk : ∀ symbol, QueueBook.Keyed (e.bookView symbol)) :
    (∀ symbol, QueueBook.Keyed (e'.bookView symbol)) ↔ QueueBook.Keyed (e'.bookView c.symbol) := by
  refine ⟨fun hall => hall c.symbol, ?_⟩
  intro hown symbol
  by_cases hsym : symbol = c.symbol
  · rw [hsym]
    exact hown
  · rw [hf.bookView hsym]
    exact hk symbol

omit [Zero α] in
/-- Times do not matter. -/
theorem honoured_untimed {b : QueueBook α} {o : Order α} {ts : List (Trade α)} :
    (∀ t ∈ ts.map Trade.untimed, QueueBook.Honoured b o t) ↔
      ∀ t ∈ ts, QueueBook.Honoured b o t := by
  rw [List.forall_mem_map]
  exact forall₂_congr fun t _ => ⟨fun h => ⟨h.taker, h.maker, h.makers⟩,
    fun h => ⟨h.taker, h.maker, h.makers⟩⟩

omit [Zero α] in
/-- For an order this is about its trades, without their times, and about its own book. -/
theorem pricesHonoured_processed {leaks : Nat} {o : Order α} {out : Outcome α}
    (hf : Frame o.symbol leaks out.trades e e')
    (hk : ∀ symbol, QueueBook.Keyed (e.bookView symbol)) :
    PricesHonoured e (.processNewOrder o) (.processed out) e' ↔
      (∀ t ∈ out.untimed.trades, QueueBook.Honoured (e.bookView o.symbol) o t) ∧
        QueueBook.Keyed (e'.bookView o.symbol) := by
  have hkeys := keys_iff.trans (keyed_of_frame (c := .processNewOrder o) hf hk)
  constructor
  · intro hgood
    exact ⟨honoured_untimed.mpr (hgood.trades o rfl), hkeys.mp hgood.keys⟩
  · intro hgood
    refine ⟨?_, hkeys.mpr hgood.2⟩
    intro o' hc
    obtain rfl := Call.processNewOrder.inj hc
    exact honoured_untimed.mp hgood.1

/-- **One call** from books that are keyed. -/
theorem pricesHonoured_iff (he : EngineInv e) (hk : ∀ symbol, QueueBook.Keyed (e.bookView symbol))
    (hfresh : e.QueuesFresh c) (h : Returns clock e c r e') :
    PricesHonoured e c r e' ↔ e.NaNsIdle c := by
  obtain ⟨-, hf, hstep⟩ := returns_spec he hfresh h
  have hkeys := keys_iff.trans (keyed_of_frame hf hk)
  cases c with
  | cancelOrder id symbol side =>
      refine iff_of_true ⟨fun _ hc => by simp at hc, hkeys.mpr ?_⟩ trivial
      obtain ⟨hex, hn⟩ := QueueBook.keyed_iff.mp (hk symbol)
      refine QueueBook.keyed_iff.mpr (QueueBook.step_exact (he.wf _) hstep hex hn ?_)
      intro x hq
      obtain ⟨o, out, hc, -⟩ := hq
      simp at hc
  | processNewOrder o =>
      have hscan : (e.bookView o.symbol).canFillCompletely o =
          canFillCompletely e.cells (e.bookOf o.symbol) o := OrderBook.canFillCompletely_view ..
      obtain ⟨out, rfl, ⟨hfree, rfl, rfl⟩ | ⟨hfree, hv, rfl⟩ | ⟨hfree, hv, fuel, hs⟩⟩ :=
        returns_process he h
      · refine iff_of_true ⟨fun _ _ t ht => absurd ht (by simp [Ret.trades]), keys_iff.mpr hk⟩ ?_
        exact fun _ _ => .inl hfree
      · refine iff_of_true ⟨fun _ _ t ht => absurd ht (by simp [Ret.trades]), hkeys.mpr ?_⟩
          fun _ _ => .inr (.inl hv)
        obtain ⟨-, -, ⟨hsame, -⟩ | ⟨hv', -⟩⟩ := QueueBook.step_process (he.wf o.symbol) hstep
        · show QueueBook.Keyed (e'.bookView (Call.processNewOrder o).symbol)
          rw [hsame]
          exact hk o.symbol
        · simp [hv] at hv'
      · rw [pricesHonoured_processed hf hk]
        rcases QueueBook.submit_ok (he.wf o.symbol) hs with ⟨hout, hsame, hfok, hkill⟩ | ⟨b₁, hm⟩
        · -- killed: nothing was traded or queued
          rw [hout, hsame]
          refine iff_of_true ⟨by simp, hk o.symbol⟩ ?_
          exact fun _ _ => .inr (.inr (.inl ⟨hfok, hscan.symm.trans hkill⟩))
        · rw [hm.prices_iff (he.wf o.symbol) (hk o.symbol)]
          refine forall₂_congr fun hmarket hnan => ⟨fun hidle => .inr (.inr (.inr hidle)), ?_⟩
          intro hidle
          rcases hidle with hnone | hinvalid | ⟨hfok, hkill⟩ | hidle
          · exact absurd hnone hfree
          · simp [hv] at hinvalid
          · rw [← hscan, hm.fok hfok] at hkill
            simp at hkill
          · exact hidle

/-- The calls of a run that respects prices: ids are fresh, and orders at NaN are idle. -/
def Priceable (e : MatchingEngine α) (c : Call α) : Prop := e.FreshId c ∧ e.NaNsIdle c

instance (e : MatchingEngine α) (c : Call α) : Decidable (e.Priceable c) :=
  inferInstanceAs (Decidable (_ ∧ _))

theorem reaches_keyed (h : Reaches clock n Priceable tr e) (symbol : Symbol) :
    QueueBook.Keyed (e.bookView symbol) := by
  have hall := Trace.Run.invariant (fun _ e => ∀ symbol, QueueBook.Keyed (e.bookView symbol))
    (fun symbol => by rw [bookView_withPool]; exact QueueBook.keyed_iff.mpr ⟨.empty, .empty⟩)
    (fun tr e c r e' hrun hk hs => by
      have he := reaches_inv (fun _ _ hg => .of_freshId hg.1) hrun
      have hgood := (pricesHonoured_iff he hk (.of_freshId hs.1.1) hs.2).mpr hs.1.2
      exact keys_iff.mp hgood.keys) h
  exact hall symbol

/-- **Prices are honoured**, by the trades and by the levels, in every run in which orders at NaN
are idle (MARKET orders apart), and from there by the next call exactly if this is so of it too. -/
theorem prices_honoured (h : Reaches clock n Priceable tr e) :
    (∀ symbol sd, ∀ l ∈ (e.bookOf symbol).priceMap sd, ∀ n ∈ l.2,
        l.1.equal (e.cells n.order).price) ∧
      ∀ c r e', e.FreshId c → Returns clock e c r e' →
        (PricesHonoured e c r e' ↔ e.NaNsIdle c) := by
  have hk := reaches_keyed h
  refine ⟨keys_iff.mpr hk, ?_⟩
  intro c r e' hfresh hr
  exact pricesHonoured_iff (reaches_inv (fun _ _ hg => .of_freshId hg.1) h) hk
    (.of_freshId hfresh) hr

end Run

/-! ### Concrete runs -/

section Concrete

/-- The engine after an ask at 101. -/
def afterAsk : MatchingEngine Int :=
  ((execute (fun _ => 0) 10 (fun e c => e.Priceable c) init
    [.processNewOrder (ask 1 (.num 101))]).map Prod.snd).getD init

/-- **A bid at NaN pays any price**: `validate_order` accepts it, and it buys at 101. -/
theorem nan_pays_any_price :
    ∃ tr, Reaches (fun _ => 0) 100000 (fun (e : MatchingEngine Int) c => e.FreshId c) tr afterAsk ∧
      validateOrder (bid 2 .nan) = true ∧ afterAsk.FreshId (.processNewOrder (bid 2 .nan)) ∧
      ∃ out e', Returns (fun _ => 0) afterAsk (.processNewOrder (bid 2 .nan)) (.processed out) e' ∧
        out.trades.map Trade.price = [.num 101] ∧
        ¬ PricesHonoured afterAsk (.processNewOrder (bid 2 .nan)) (.processed out) e' := by
  refine ⟨_, reaches_of_execute (fun _ => 0) 10 100000 [.processNewOrder (ask 1 (.num 101))] rfl,
    by decide, by decide, _, _, ⟨10, rfl⟩, rfl, ?_⟩
  intro hgood
  exact QueueBook.not_honours_nan rfl (by decide)
    (hgood.trades _ rfl _ (List.mem_singleton.mpr rfl)).taker.2

/-- After an ask at 101. -/
theorem prices_honoured_ask :
    (∀ symbol sd, ∀ l ∈ (afterAsk.bookOf symbol).priceMap sd, ∀ n ∈ l.2,
        l.1.equal (afterAsk.cells n.order).price) ∧
      ∀ c r e', afterAsk.FreshId c → Returns (fun _ => 0) afterAsk c r e' →
        (PricesHonoured afterAsk c r e' ↔ afterAsk.NaNsIdle c) :=
  prices_honoured (reaches_of_execute (fun _ => 0) 10 100000
    [.processNewOrder (ask 1 (.num 101))] rfl)

end Concrete

end MatchingEngine

end OrderMatchingEngine
