import OrderMatchingEngine.Abstract.Priority

/-!
# OrderMatchingEngine.Abstract.Spectators

Books with and without some of their orders.

`withoutAll p` takes the orders out whose ids satisfy `p`. Matching does not see those among them
that it does not execute (`fillQueue_filter`), queueing and cancelling commute with taking them
out, and so a step from the larger book is a step from the smaller one (`step_withoutAll`). Only
the liquidity check of FOK orders counts every order that rests.
-/

namespace OrderMatchingEngine

namespace QueueBook

variable {α : Type}

/-- Take the orders with these ids out of the book. -/
def withoutAll (p : OrderID → Bool) (b : QueueBook α) : QueueBook α :=
  ⟨LevelMap.erase (fun o => p o.id) b.bids, LevelMap.erase (fun o => p o.id) b.asks⟩

/-- None of the trades names one of these orders. -/
def Unnamed (p : OrderID → Bool) (trades : List (Trade α)) : Prop :=
  ∀ t ∈ trades, p t.buyOrderId = false ∧ p t.sellOrderId = false

instance (p : OrderID → Bool) (trades : List (Trade α)) : Decidable (Unnamed p trades) :=
  inferInstanceAs
    (Decidable (∀ t ∈ trades, p t.buyOrderId = false ∧ p t.sellOrderId = false))

section Books

variable {p : OrderID → Bool} {b b' : QueueBook α} {symbol : Symbol}

theorem levels_withoutAll (b : QueueBook α) (sd : OrderSide) :
    (b.withoutAll p).levels sd = LevelMap.erase (fun o => p o.id) (b.levels sd) := by
  cases sd <;> rfl

theorem orders_withoutAll (b : QueueBook α) (sd : OrderSide) :
    (b.withoutAll p).orders sd = (b.orders sd).filter fun o => !p o.id := by
  cases sd
  · exact LevelMap.down_erase ..
  · exact LevelMap.up_erase ..

theorem allOrders_withoutAll (b : QueueBook α) :
    (b.withoutAll p).allOrders = b.allOrders.filter fun o => !p o.id := by
  rw [allOrders, orders_withoutAll, orders_withoutAll, ← List.filter_append, allOrders]

theorem Exact.withoutAll (he : Exact b) : Exact (b.withoutAll p) := fun sd => by
  rw [levels_withoutAll]
  exact (he sd).erase _

theorem Numbers.withoutAll (hn : Numbers b) : Numbers (b.withoutAll p) := fun sd x hx => by
  rw [orders_withoutAll] at hx
  exact hn sd x (List.mem_filter.mp hx).1

variable [LinearOrder α]

theorem WF.withoutAll (hb : WF symbol b) : WF symbol (b.withoutAll p) := by
  refine hb.of_sublist (fun sd => ?_) fun sd => ?_
  · rw [levels_withoutAll]
    exact (hb.levels sd).erase _
  · rw [orders_withoutAll]
    exact List.filter_sublist

/-- **A book is determined by its orders.** -/
theorem eq_of_orders (hb : WF symbol b) (he : Exact b) (hb' : WF symbol b') (he' : Exact b')
    (h : ∀ sd, b.orders sd = b'.orders sd) : b = b' := by
  have hbids : b.bids = b'.bids := LevelMap.Exact.ext_down (hb.levels .buy) (he .buy)
    (hb'.levels .buy) (he' .buy) (h .buy)
  have hasks : b.asks = b'.asks := LevelMap.Exact.ext (hb.levels .sell) (he .sell)
    (hb'.levels .sell) (he' .sell) (h .sell)
  cases b
  cases b'
  exact congrArg₂ QueueBook.mk hbids hasks

omit [LinearOrder α] in
/-- Looking up an order that was not taken out. -/
theorem find?_withoutAll {id : OrderID} (hid : p id = false) :
    (b.withoutAll p).find? id = b.find? id := by
  rw [find?, find?, allOrders_withoutAll, List.find?_filter]
  refine congrFun (congrArg _ (funext fun o => ?_)) _
  by_cases ho : o.id = id <;> simp [ho, hid]

end Books

/-! ### Matching -/

section Matching

variable [LinearOrder α] {p : OrderID → Bool} {sd : OrderSide}

omit [LinearOrder α] in
theorem not_named {own maker : Order α} {qty : Quantity} {ts : List (Trade α)}
    (h : Unnamed p (trade sd own maker qty :: ts)) : p maker.id = false := by
  have ht := h _ List.mem_cons_self
  cases sd
  · exact ht.2
  · exact ht.1

/-- **Orders that are not executed do not matter to matching**: without them it makes the same
trades and leaves the others as they are. -/
theorem fillQueue_filter {own : Order α} {queue : List (Order α)}
    (hsorted : queue.Pairwise fun x y => accepts sd own y = true → accepts sd own x = true)
    (hnames : Unnamed p (fillQueue sd own queue).trades) :
    fillQueue sd own (queue.filter fun x => !p x.id) =
      { fillQueue sd own queue with
        queue := (fillQueue sd own queue).queue.filter fun x => !p x.id } := by
  induction queue generalizing own with
  | nil => rfl
  | cons best rest ih =>
      obtain ⟨hfirst, hrest⟩ := List.pairwise_cons.mp hsorted
      by_cases hstop : own.remainingQty = 0 ∨ refuses sd own best = true
      · -- who refuses the best order refuses all the others
        have hall : own.remainingQty = 0 ∨ ∀ x,
            ((best :: rest).filter fun x => !p x.id).head? = some x → refuses sd own x = true := by
          refine hstop.imp_right fun href x hx => ?_
          have hmem := (List.mem_filter.mp (List.mem_of_head? hx)).1
          rcases List.mem_cons.mp hmem with rfl | hmem
          · exact href
          · by_contra haccept
            have hbest := hfirst x hmem (by simpa [accepts] using haccept)
            simp [accepts, href] at hbest
        rw [fillQueue_of_stop hall, fillQueue, if_pos hstop]
      · rw [fillQueue, if_neg hstop] at hnames ⊢
        dsimp only at hnames ⊢
        have hbest : p best.id = false := by
          split at hnames <;> exact not_named hnames
        rw [List.filter_cons_of_pos (by simp [hbest]), fillQueue, if_neg hstop]
        dsimp only
        split
        · rename_i hfilled
          rw [if_pos hfilled] at hnames
          rw [@ih (own.reduceQuantity _) hrest fun t ht => hnames t (List.mem_cons_of_mem _ ht)]
        · simp [hbest]

theorem enqueue_filter {o : Order α} (ho : p o.id = false) (l : List (Order α)) :
    enqueue sd o (l.filter fun x => !p x.id) = (enqueue sd o l).filter fun x => !p x.id := by
  simp only [enqueue, List.filter_append, List.filter_filter, List.filter_cons, ho]
  simp [Bool.and_comm]

/-- The way out of `settle` does not depend on the book. -/
theorem settle_exit (own : Order α) (b b' : QueueBook α) :
    (settle own b').1 = (settle own b).1 := by
  rw [settle, settle]
  split
  · split
    · rfl
    · split <;> rfl
  · rfl

/-- An order that is taken out again leaves a list in priority order as it was. -/
theorem enqueue_without {o : Order α} (ho : p o.id = true) {l : List (Order α)}
    (hsorted : l.Pairwise fun x y => sd.better x.price y.price ∨ x.price = y.price) :
    (enqueue sd o l).filter (fun x => !p x.id) = l.filter fun x => !p x.id := by
  have hbehind : l.Pairwise fun x y => decide (¬ sd.better o.price y.price) = true →
      decide (¬ sd.better o.price x.price) = true := by
    refine hsorted.imp fun {x y} hxy hy => ?_
    rw [decide_eq_true_iff] at hy ⊢
    intro hx
    rcases hxy with hxy | hxy
    · exact hy (OrderSide.better_trans hx hxy)
    · exact hy (hxy ▸ hx)
  obtain ⟨htake, hdrop⟩ := takeWhile_eq_filter hbehind
  have hsplit : l = l.filter (fun x => ¬ sd.better o.price x.price) ++
      l.filter fun x => sd.better o.price x.price := by
    conv_lhs => rw [← l.takeWhile_append_dropWhile, htake, hdrop]
    simp
  conv_rhs => rw [hsplit]
  rw [enqueue, List.filter_append, List.filter_cons_of_neg (by simp [ho]), ← List.filter_append]

end Matching

/-! ### Steps -/

section Steps

variable [LinearOrder α] {p : OrderID → Bool} {symbol : Symbol} {b b₁ b' m₁ m' : QueueBook α}
  {o : Order α} {out out' : Outcome α}

/-- **Matching and settling without them.** -/
theorem Matched.withoutAll (hm : Matched symbol b o out b₁ b')
    (hm' : Matched symbol (b.withoutAll p) o out' m₁ m') (hb : WF symbol b) (he : Exact b)
    (hn : Numbers b) (ho : p o.id = false) (hprice : out.exit = .rested → o.price ≠ .nan)
    (hnames : Unnamed p out.trades) :
    out' = out ∧ ∀ sd, m'.orders sd = (b'.withoutAll p).orders sd := by
  have hmatched : (b.withoutAll p).matched o =
      { b.matched o with queue := (b.matched o).queue.filter fun x => !p x.id } := by
    rw [matched, orders_withoutAll]
    exact fillQueue_filter (orders_accepts hb he o) (hm.trades ▸ hnames)
  have horder : out'.order = out.order := by rw [hm'.order, hm.order, hmatched]
  have hexit : out'.exit = out.exit := by
    calc out'.exit = (settle out'.order m₁).1 := congrArg Prod.fst hm'.settled.symm
      _ = (settle out.order b₁).1 := by rw [horder, settle_exit out.order b₁]
      _ = out.exit := congrArg Prod.fst hm.settled
  have hout : out' = out := by
    have htrades : out'.trades = out.trades := by rw [hm'.trades, hm.trades, hmatched]
    cases out
    cases out'
    congr 1
  refine ⟨hout, fun sd => ?_⟩
  rw [orders_withoutAll]
  by_cases hsd : sd = o.side
  · subst hsd
    by_cases hrested : out.exit = .rested
    · have hnum := hprice hrested
      have hid : p out.order.id = false := by rwa [hm.same]
      rw [hm'.orders_own he.withoutAll hn.withoutAll hnum, hm.orders_own he hn hnum,
        if_pos hrested, if_pos (hexit.trans hrested), horder, orders_withoutAll,
        enqueue_filter hid]
    · have hkept : b' = b₁ := by
        rcases settle_cases hm.settled with ⟨h, -⟩ | ⟨h, -⟩
        · exact absurd h hrested
        · exact h
      have hkept' : m' = m₁ := by
        rcases settle_cases hm'.settled with ⟨h, -⟩ | ⟨h, -⟩
        · exact absurd (hexit.symm.trans h) hrested
        · exact h
      rw [hkept', hm'.own, orders_withoutAll, hkept, hm.own]
  · obtain rfl := OrderSide.eq_opposite_of_ne hsd
    rw [hm'.orders_opposite, hmatched, hm.orders_opposite]

/-- **An order that is never executed**, submitted and taken out again. -/
theorem Matched.about (hm : Matched symbol b o out b₁ b') (hb : WF symbol b) (he : Exact b)
    (hn : Numbers b) (ho : p o.id = true) (hprice : out.exit = .rested → o.price ≠ .nan)
    (hnames : Unnamed p out.trades) (sd : OrderSide) :
    (b'.withoutAll p).orders sd = (b.withoutAll p).orders sd := by
  have hnone : out.trades = [] := by
    refine List.eq_nil_iff_forall_not_mem.mpr fun t ht => ?_
    rw [hm.trades] at ht
    obtain ⟨own, maker, qty, hown, -, -, rfl⟩ := fillQueue_trade _ _ _ t ht
    have hid : own.id = o.id := by rw [hown]
    have hfalse := hnames _ (hm.trades ▸ ht)
    cases hside : o.side <;> simp [hside, trade, hid, ho] at hfalse
  have hqueue : (b.matched o).queue = b.orders o.side.opposite := by
    rw [hm.trades] at hnone
    rw [matched, fillQueue_of_stop (fillQueue_trades_eq_nil.mp hnone)]
  rw [orders_withoutAll, orders_withoutAll]
  by_cases hsd : sd = o.side
  · subst hsd
    by_cases hrested : out.exit = .rested
    · have hid : p out.order.id = true := by rwa [hm.same]
      rw [hm.orders_own he hn (hprice hrested), if_pos hrested]
      exact enqueue_without hid (orders_sorted hb he _)
    · rcases settle_cases hm.settled with ⟨h, -⟩ | ⟨rfl, -⟩
      · exact absurd h hrested
      · rw [hm.own]
  · obtain rfl := OrderSide.eq_opposite_of_ne hsd
    rw [hm.orders_opposite, hqueue]

end Steps

end QueueBook

/-- The call is about one of these orders. -/
def Call.isAbout (p : OrderID → Bool) : Call α → Bool
  | .processNewOrder order => p order.id
  | .cancelOrder id _ _ => p id

/-- The call does not submit a FOK order. -/
def Call.NotFok : Call α → Prop
  | .processNewOrder order => order.type ≠ .fok
  | .cancelOrder _ _ _ => True

instance : (c : Call α) → Decidable c.NotFok
  | .processNewOrder order => inferInstanceAs (Decidable (order.type ≠ .fok))
  | .cancelOrder _ _ _ => inferInstanceAs (Decidable True)

namespace QueueBook

section Steps

variable [LinearOrder α] [Zero α] {p : OrderID → Bool} {b b' m' : QueueBook α} {c : Call α}
  {r r' : Ret α}

omit [Zero α] in
theorem Matched.price_ne_nan {symbol : Symbol} {b₁ : QueueBook α} {o : Order α} {out : Outcome α}
    (hm : Matched symbol b o out b₁ b') (hq : (Call.processNewOrder o).QueuesNumber)
    (hrested : out.exit = .rested) : o.price ≠ .nan := by
  obtain ⟨-, hioc, hmarket, -⟩ := hm.rested hrested
  exact hq hioc hmarket

/-- **A step that does not concern them is a step without them.** -/
theorem step_withoutAll (hb : WF c.symbol b) (he : Exact b) (hn : Numbers b)
    (hq : c.QueuesNumber) (hfok : c.NotFok) (hc : c.isAbout p = false)
    (hnames : Unnamed p r.trades) (h : Step b c r b') (h' : Step (b.withoutAll p) c r' m')
    (hr : r.Served) (hr' : r'.Served) :
    r' = r ∧ ∀ sd, m'.orders sd = (b'.withoutAll p).orders sd := by
  cases c with
  | cancelOrder id symbol side =>
      cases h with
      | cancel h =>
      cases h' with
      | cancel h' =>
          obtain ⟨rfl, -, horders⟩ := hb.cancelOrder_ok h
          obtain ⟨rfl, -, horders'⟩ := hb.withoutAll.cancelOrder_ok h'
          refine ⟨congrArg Ret.cancelled (find?_withoutAll hc), fun sd => ?_⟩
          rw [horders', orders_withoutAll, orders_withoutAll, horders, List.filter_comm]
  | processNewOrder o =>
      have hb : WF o.symbol b := hb
      have hfok : o.type ≠ .fok := hfok
      rcases hv : MatchingEngine.validateOrder o with _ | _
      · cases h with
        | exhausted => exact absurd rfl hr
        | submit _ hvalid => simp [hv] at hvalid
        | invalid =>
            cases h' with
            | exhausted => exact absurd rfl hr'
            | submit _ hvalid => simp [hv] at hvalid
            | invalid => exact ⟨rfl, fun _ => rfl⟩
      · obtain ⟨out, rfl, ⟨-, -, hkilled, -⟩ | ⟨b₁, hm⟩⟩ := step_submit hb h hv hr
        · exact absurd hkilled hfok
        obtain ⟨out', rfl, ⟨-, -, hkilled, -⟩ | ⟨m₁, hm'⟩⟩ := step_submit hb.withoutAll h' hv hr'
        · exact absurd hkilled hfok
        obtain ⟨rfl, horders⟩ := hm.withoutAll hm' hb he hn hc (hm.price_ne_nan hq) hnames
        exact ⟨rfl, horders⟩

/-- **A step that concerns one of them changes only them**, if it is not executed. -/
theorem step_about (hb : WF c.symbol b) (he : Exact b) (hn : Numbers b) (hq : c.QueuesNumber)
    (hc : c.isAbout p = true) (hnames : Unnamed p r.trades) (h : Step b c r b')
    (sd : OrderSide) : (b'.withoutAll p).orders sd = (b.withoutAll p).orders sd := by
  cases c with
  | cancelOrder id symbol side =>
      cases h with
      | cancel h =>
          rw [orders_withoutAll, orders_withoutAll, (hb.cancelOrder_ok h).2.2, List.filter_filter]
          refine List.filter_congr fun x _ => ?_
          by_cases hid : x.id = id
          · have hx : p x.id = true := by rwa [hid]
            simp [hx]
          · simp [hid]
  | processNewOrder o =>
      have hb : WF o.symbol b := hb
      obtain ⟨out, rfl, ⟨rfl, -⟩ | ⟨-, b₁, hm⟩⟩ := step_process hb h
      · rfl
      · exact hm.about hb he hn hc (hm.price_ne_nan hq) hnames sd

end Steps

end QueueBook

end OrderMatchingEngine
