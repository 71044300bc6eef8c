import OrderMatchingEngine.Abstract.Liquidity
import OrderMatchingEngine.Library.Ranking

/-!
# OrderMatchingEngine.Abstract.Priority

Price-time priority, and the reference matcher.

`rank id` is the time of arrival of an order, as a number; how it is read off a run is left
to the caller. A book is `Ranked` when both of its sides are listed by price first and by
arrival at equal prices. The reference matcher knows nothing of levels and queues: it sorts
the opposite orders by price and arrival, keeps those the taker accepts and fills them
greedily. On a ranked book it computes what matching computes (`matched_eq_reference`).
-/

namespace OrderMatchingEngine

namespace QueueBook

variable {α : Type} [LinearOrder α] {symbol : Symbol} {b b' : QueueBook α}

/-! ### Priority -/

/-- `x` has priority over `y`: its price is better, or the price is the same and it arrived
first. -/
def Precedes (rank : OrderID → Nat) (sd : OrderSide) (x y : Order α) : Prop :=
  sd.better x.price y.price ∨ (x.price = y.price ∧ rank x.id < rank y.id)

/-- The comparison that sorts by price and arrival. -/
def priority (rank : OrderID → Nat) (sd : OrderSide) (x y : Order α) : Bool :=
  decide (sd.better x.price y.price ∨ (x.price = y.price ∧ rank x.id ≤ rank y.id))

/-- Both sides are listed in price-time priority. -/
def Ranked (rank : OrderID → Nat) (b : QueueBook α) : Prop :=
  ∀ sd, (b.orders sd).Pairwise (Precedes rank sd)

theorem Ranked.empty (rank : OrderID → Nat) : Ranked rank (QueueBook.empty : QueueBook α) :=
  fun sd => by simp

/-- Ranks matter only for the orders of the book. -/
theorem Ranked.congr {rank rank' : OrderID → Nat} (h : Ranked rank b)
    (hr : ∀ x ∈ b.allOrders, rank' x.id = rank x.id) : Ranked rank' b := fun sd =>
  (h sd).imp_of_mem fun {x y} hx hy hxy => by
    rw [Precedes, hr x (mem_allOrders.mpr ⟨sd, hx⟩), hr y (mem_allOrders.mpr ⟨sd, hy⟩)]
    exact hxy

/-- The sorting comparison ranks a side in priority order. -/
theorem Ranked.ranks {rank : OrderID → Nat} (h : Ranked rank b) (sd : OrderSide) :
    Ranking.Ranks (priority rank sd) (b.orders sd) where
  refl x _ := by simp [priority]
  strict := (h sd).imp fun {x y} hxy => by
    simp only [priority, decide_eq_true_eq, decide_eq_false_iff_not]
    rcases hxy with hbetter | ⟨hprice, hrank⟩
    · refine ⟨.inl hbetter, ?_⟩
      intro hyx
      rcases hyx with hyx | ⟨hprice, -⟩
      · exact OrderSide.better_irrefl (OrderSide.better_trans hbetter hyx)
      · exact OrderSide.better_irrefl (hprice ▸ hbetter)
    · refine ⟨.inr ⟨hprice, Nat.le_of_lt hrank⟩, ?_⟩
      intro hyx
      rcases hyx with hyx | ⟨-, hle⟩
      · exact OrderSide.better_irrefl (hprice ▸ hyx)
      · omega

/-! ### Queueing in priority order -/

/-- Put an order behind those that are not worse, and before the others. -/
def enqueue (sd : OrderSide) (o : Order α) (l : List (Order α)) : List (Order α) :=
  l.filter (fun x => ¬ sd.better o.price x.price) ++
    o :: l.filter fun x => sd.better o.price x.price

/-- With prices that are numbers, queueing an order in its level is queueing it by price. -/
theorem orders_addOrder (hb : WF symbol b) (he : Exact b) (hn : Numbers b) {o : Order α}
    (ho : o.price ≠ .nan) :
    (b.addOrder o).orders o.side = enqueue o.side o (b.orders o.side) := by
  have hkey := he.level_eq hb hn ho o.side
  have hlevels := hb.levels o.side
  have hexact := he o.side
  rw [orders_eq, addOrder, levels_setLevels_self, orders_eq]
  rcases hside : o.side with _ | _
  · rw [hside] at hkey hlevels hexact
    exact LevelMap.Exact.down_pushBack hlevels hexact hkey
  · rw [hside] at hkey hlevels hexact
    exact LevelMap.Exact.up_pushBack hlevels hexact hkey

/-- **The taker's side after matching**: an order that is queued is queued in priority order,
and nothing else changes there. -/
theorem Matched.orders_own {o : Order α} {out : Outcome α} {b₁ : QueueBook α}
    (hm : Matched symbol b o out b₁ b') (he : Exact b) (hn : Numbers b) (ho : o.price ≠ .nan) :
    b'.orders o.side =
      if out.exit = .rested then enqueue o.side out.order (b.orders o.side)
      else b.orders o.side := by
  have hprice : out.order.price = o.price := by rw [hm.same]
  have hside : out.order.side = o.side := by rw [hm.same]
  rcases settle_cases hm.settled with ⟨hexit, -, -, -, rfl⟩ | ⟨rfl, hrest⟩
  · have hadd := orders_addOrder hm.wf (hm.exact he) (hm.numbers hn) (hprice ▸ ho)
    rw [hside, hm.own] at hadd
    rw [if_pos hexit, hadd]
  · rw [hm.own, if_neg]
    rcases hrest with ⟨h, -⟩ | ⟨h, -⟩ | ⟨h, -⟩ <;> simp [h]

/-- An order that comes in unfilled is queued if it is a LIMIT or GFD order and not filled. -/
theorem Matched.rested_iff {o : Order α} {out : Outcome α} {b₁ : QueueBook α}
    (hm : Matched symbol b o out b₁ b') (hb : WF symbol b) (he : Exact b) (hl : Live b)
    (hqf : o.quantityFilled = 0) :
    out.exit = .rested ↔ out.order.isFilled = false ∧ (o.type = .limit ∨ o.type = .gfd) := by
  have htype : out.order.type = o.type := by rw [hm.same]
  rcases settle_cases hm.settled with ⟨hexit, hlive, hioc, hmarket, -⟩ | ⟨-, hrest⟩
  · refine ⟨fun _ => ⟨Order.isFilled_eq_false.mpr hlive, ?_⟩, fun _ => hexit⟩
    rw [htype] at hioc hmarket
    cases ho : o.type with
    | limit => exact .inl rfl
    | gfd => exact .inr rfl
    | ioc => exact absurd ho hioc
    | market => exact absurd ho hmarket
    | fok => simp [hm.fok_filled hb he hl ho hqf] at hexit  -- it would have been filled
  · rw [← htype]
    refine ⟨?_, fun ⟨hfilled, hlimit⟩ => ?_⟩
    · intro hexit
      rcases hrest with ⟨h, -⟩ | ⟨h, -⟩ | ⟨h, -⟩ <;> simp [h] at hexit
    · have hlive := Order.isFilled_eq_false.mp hfilled
      rcases hrest with ⟨-, hdone⟩ | ⟨-, -, hioc⟩ | ⟨-, -, hmarket⟩
      · exact absurd hlive hdone
      · rcases hlimit with h | h <;> simp [h] at hioc
      · rcases hlimit with h | h <;> simp [h] at hmarket

/-- Queueing the latest order keeps a list in priority order. -/
theorem enqueue_pairwise {rank : OrderID → Nat} {sd : OrderSide} {o : Order α}
    {l : List (Order α)} (h : l.Pairwise (Precedes rank sd)) (ho : o.price ≠ .nan)
    (hn : ∀ x ∈ l, x.price ≠ .nan) (hlast : ∀ x ∈ l, rank x.id < rank o.id) :
    (enqueue sd o l).Pairwise (Precedes rank sd) := by
  have hbehind : ∀ x ∈ l, ¬ sd.better o.price x.price → Precedes rank sd x o := by
    intro x hx hworse
    by_cases hbetter : sd.better x.price o.price
    · exact .inl hbetter
    · refine .inr ⟨?_, hlast x hx⟩
      cases sd
      · exact Price.eq_of_not_lt (hn x hx) ho hworse hbetter
      · exact Price.eq_of_not_lt (hn x hx) ho hbetter hworse
  rw [enqueue, List.pairwise_append, List.pairwise_cons]
  refine ⟨h.filter _, ⟨?_, h.filter _⟩, ?_⟩
  · intro y hy
    exact .inl (by simpa using (List.mem_filter.mp hy).2)
  · intro x hx y hy
    obtain ⟨hxl, hxo⟩ := List.mem_filter.mp hx
    have hxo := hbehind x hxl (by simpa using hxo)
    rcases List.mem_cons.mp hy with rfl | hy
    · exact hxo
    · have hoy : sd.better o.price y.price := by simpa using (List.mem_filter.mp hy).2
      rcases hxo with hbetter | ⟨hprice, -⟩
      · exact .inl (OrderSide.better_trans hbetter hoy)
      · exact .inl (hprice ▸ hoy)

/-- Matching keeps the queue it leaves in priority order. -/
theorem fillQueue_pairwise {rank : OrderID → Nat} {sd sd' : OrderSide} {own : Order α}
    {queue : List (Order α)} (h : queue.Pairwise (Precedes rank sd')) :
    (fillQueue sd own queue).queue.Pairwise (Precedes rank sd') := by
  fun_induction fillQueue sd own queue with
  | case1 own => exact .nil
  | case2 own best rest => exact h
  | case3 own best rest _ qty _ r ih => exact ih (List.pairwise_cons.mp h).2
  | case4 own best rest _ qty =>
      obtain ⟨hbest, hrest⟩ := List.pairwise_cons.mp h
      exact List.pairwise_cons.mpr ⟨hbest, hrest⟩

/-- **Every step keeps the book in price-time priority**, if an order it processes is ranked
after those that rest. -/
theorem step_ranked [Zero α] {c : Call α} {r : Ret α} {rank : OrderID → Nat} (hb : WF symbol b)
    (h : Step b c r b') (he : Exact b) (hn : Numbers b) (hp : c.Priced)
    (hlast : ∀ o, c = .processNewOrder o → ∀ x ∈ b.allOrders, rank x.id < rank o.id)
    (hr : Ranked rank b) : Ranked rank b' := by
  intro sd
  cases c with
  | cancelOrder id symbol side =>
      cases h with
      | cancel h =>
          rw [(hb.cancelOrder_ok h).2.2 sd]
          exact (hr sd).filter _
  | processNewOrder o =>
      obtain ⟨out, rfl, ⟨rfl, -⟩ | ⟨-, b₁, hm⟩⟩ := step_process hb h
      · exact hr sd
      by_cases hsd : sd = o.side
      · subst hsd
        rw [hm.orders_own he hn hp]
        split
        · have hid : out.order.id = o.id := by rw [hm.same]
          have hprice : out.order.price = o.price := by rw [hm.same]
          refine enqueue_pairwise (hr _) (hprice ▸ hp) (hn _) ?_
          intro x hx
          rw [hid]
          exact hlast o rfl x (mem_allOrders.mpr ⟨_, hx⟩)
        · exact hr _
      · obtain rfl := OrderSide.eq_opposite_of_ne hsd
        rw [hm.orders_opposite]
        exact fillQueue_pairwise (hr _)

/-! ### The reference matcher -/

/-- **The reference matcher**: sort the resting orders by price and arrival, keep those the
taker accepts and fill them greedily; the others stay as they are. -/
def reference (rank : OrderID → Nat) (o : Order α) (resting : List (Order α)) : Filled α :=
  let queue := resting.mergeSort (priority rank o.side.opposite)
  let filled := greedyFill o.side o (queue.filter (accepts o.side o))
  ⟨filled.trades, filled.own, filled.queue ++ queue.filter fun x => !accepts o.side o x⟩

/-- **Matching is reference matching** on a ranked book, from any list of what rests. -/
theorem matched_eq_reference {rank : OrderID → Nat} (hb : WF symbol b) (he : Exact b)
    (hl : Live b) (hr : Ranked rank b) (o : Order α) {resting : List (Order α)}
    (hperm : resting.Perm (b.orders o.side.opposite)) :
    b.matched o = reference rank o resting := by
  obtain ⟨htake, hdrop⟩ := takeWhile_eq_filter (orders_accepts hb he o)
  rw [matched, fillQueue_eq _ _ (hl _), htake, hdrop, reference,
    (hr.ranks o.side.opposite).mergeSort_eq hperm]

end QueueBook

end OrderMatchingEngine
