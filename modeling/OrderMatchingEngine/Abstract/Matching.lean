import OrderMatchingEngine.Abstract.QueueBook

/-!
# OrderMatchingEngine.Abstract.Matching

The matching loop on the observable book, reduced to a recursion over one list.

`fillQueue sd own queue` walks the opposite side in priority order: it stops when the taker
needs nothing more or refuses the next price, and otherwise executes the smaller of the two
remainders. `matchAgainst_ok` says that a loop that returns has done exactly this, whatever
the prices are (NaN included); `matchAgainst_total` says that it returns where prices are
exact. Everything about fills (quantities, survivors, when the loop stops) is then an
induction over the queue.
-/

namespace OrderMatchingEngine

open FuelLoop (Iter)

/-- What a matching loop leaves: its trades, the taker and the opposite queue. -/
structure Filled (α : Type) where
  trades : List (Trade α)
  own : Order α
  queue : List (Order α)

namespace QueueBook

variable {α : Type} [LinearOrder α]

/-- The matching loop for a taker on side `sd`, over the opposite orders in priority order. -/
def fillQueue (sd : OrderSide) : Order α → List (Order α) → Filled α
  | own, [] => ⟨[], own, []⟩
  | own, best :: rest =>
    if own.remainingQty = 0 ∨ refuses sd own best = true then ⟨[], own, best :: rest⟩
    else
      let qty := min own.remainingQty best.remainingQty
      if (best.reduceQuantity qty).isFilled then
        let r := fillQueue sd (own.reduceQuantity qty) rest
        ⟨trade sd own best qty :: r.trades, r.own, r.queue⟩
      else ⟨[trade sd own best qty], own.reduceQuantity qty, best.reduceQuantity qty :: rest⟩

/-! ### One fill -/

theorem min_quantity (a b : Quantity) : min a b = a ∨ min a b = b := by
  show (if a ≤ b then a else b) = a ∨ (if a ≤ b then a else b) = b
  split
  · exact .inl rfl
  · exact .inr rfl

omit [LinearOrder α] in
/-- Executing what remains of an order leaves nothing. -/
theorem remainingQty_reduceQuantity_self (o : Order α) :
    (o.reduceQuantity o.remainingQty).remainingQty = 0 := by
  simp only [Order.remainingQty, Order.reduceQuantity_quantity, Order.reduceQuantity_quantityFilled]
  grind

omit [LinearOrder α] in
/-- Executing what remains of an order fills it. -/
theorem isFilled_reduceQuantity_self (o : Order α) :
    (o.reduceQuantity o.remainingQty).isFilled = true := by
  simp only [Order.isFilled_eq_true, Order.remainingQty, Order.reduceQuantity_quantity,
    Order.reduceQuantity_quantityFilled]
  grind

omit [LinearOrder α] in
/-- One fill completes the maker, or else the taker needs nothing more. -/
theorem fill_completes (own best : Order α) :
    (best.reduceQuantity (min own.remainingQty best.remainingQty)).isFilled = true ∨
      (own.reduceQuantity (min own.remainingQty best.remainingQty)).remainingQty = 0 := by
  rcases min_quantity own.remainingQty best.remainingQty with h | h
  · rw [h]
    exact .inr (remainingQty_reduceQuantity_self own)
  · rw [h]
    exact .inl (isFilled_reduceQuantity_self best)

/-! ### One pass of the loop -/

/-- The orders of a side after a fill of its first order. -/
theorem orders_fill_best {symbol : Symbol} {b : QueueBook α} (hb : WF symbol b) {sd : OrderSide}
    {best : Order α} {rest : List (Order α)} (h : b.orders sd = best :: rest) (qty : Quantity) :
    (b.fill best.id qty).orders sd = best.reduceQuantity qty :: rest ∧
      (b.fill best.id qty).orders sd.opposite = b.orders sd.opposite := by
  have hbest : best ∈ b.orders sd := by rw [h]; exact List.mem_cons_self ..
  have hrest : ∀ x ∈ rest, x.id ≠ best.id := fun x hx => hb.id_ne_of_tail h hx
  have hother : ∀ x ∈ b.orders sd.opposite, x.id ≠ best.id := fun x hx =>
    hb.id_ne_of_side sd.ne_opposite.symm hbest hx
  rw [fill, orders_mapOrders, orders_mapOrders, h, List.map_cons, if_pos rfl]
  constructor
  · rw [List.map_congr_left fun x hx => if_neg (hrest x hx)]
    simp
  · rw [List.map_congr_left fun x hx => if_neg (hother x hx)]
    simp

/-- The orders of the two sides after a completely filled first order was cancelled. -/
theorem orders_cancel_best {symbol : Symbol} {b b' : QueueBook α} (hb : WF symbol b)
    {sd : OrderSide} {best : Order α} {rest : List (Order α)} {r : Option (Order α)}
    (h : b.orders sd = best :: rest) (hc : b.cancelOrder best.id = .ok (r, b')) :
    WF symbol b' ∧ b'.orders sd = rest ∧ b'.orders sd.opposite = b.orders sd.opposite := by
  obtain ⟨-, hb', horders⟩ := hb.cancelOrder_ok hc
  have hbest : best ∈ b.orders sd := by rw [h]; exact List.mem_cons_self ..
  refine ⟨hb', ?_, ?_⟩
  · rw [horders, h, List.filter_cons_of_neg (by simp)]
    refine List.filter_eq_self.mpr ?_
    intro x hx
    simpa using hb.id_ne_of_tail h hx
  · rw [horders]
    refine List.filter_eq_self.mpr ?_
    intro x hx
    simpa using hb.id_ne_of_side sd.ne_opposite.symm hbest hx

/-- The pass that leaves the loop changes nothing and has a reason to leave it. -/
theorem matchBody_done {sd : OrderSide} {s s' : Matching α}
    (h : matchBody sd s = .ok (.done s')) :
    s' = s ∧ (s.own.remainingQty = 0 ∨
      ∀ best, (s.book.orders sd.opposite).head? = some best → refuses sd s.own best = true) := by
  unfold matchBody at h
  split at h
  · rename_i hrem
    simp only [Except.ok.injEq, Iter.done.injEq] at h
    exact ⟨h.symm, .inl hrem⟩
  · split at h
    · rename_i hnone
      simp only [Except.ok.injEq, Iter.done.injEq] at h
      exact ⟨h.symm, .inr (by simp [hnone])⟩
    · rename_i best hbest
      split at h
      · rename_i href
        simp only [Except.ok.injEq, Iter.done.injEq] at h
        exact ⟨h.symm, .inr fun x hx => by rw [hbest] at hx; exact Option.some.inj hx ▸ href⟩
      · dsimp only at h
        split at h
        · split at h <;> simp at h
        · simp at h

/-- A pass that goes round again has executed one fill of the best opposite order. -/
theorem matchBody_next {symbol : Symbol} {sd : OrderSide} {s s' : Matching α}
    (hb : WF symbol s.book) (h : matchBody sd s = .ok (.next s')) :
    WF symbol s'.book ∧ s'.book.orders sd = s.book.orders sd ∧
      ∃ best rest, s.book.orders sd.opposite = best :: rest ∧ s.own.remainingQty ≠ 0 ∧
        refuses sd s.own best = false ∧
        s'.own = s.own.reduceQuantity (min s.own.remainingQty best.remainingQty) ∧
        s'.trades =
          s.trades ++ [trade sd s.own best (min s.own.remainingQty best.remainingQty)] ∧
        s'.book.orders sd.opposite =
          if (best.reduceQuantity (min s.own.remainingQty best.remainingQty)).isFilled then rest
          else best.reduceQuantity (min s.own.remainingQty best.remainingQty) :: rest := by
  unfold matchBody at h
  split at h
  · simp at h
  · rename_i hrem
    split at h
    · simp at h
    · rename_i best hbest
      obtain ⟨rest, hord⟩ : ∃ rest, s.book.orders sd.opposite = best :: rest :=
        List.head?_eq_some_iff.mp hbest
      split at h
      · simp at h
      · rename_i href
        dsimp only at h
        obtain ⟨hfill, hother⟩ := orders_fill_best hb hord
          (min s.own.remainingQty best.remainingQty)
        rw [OrderSide.opposite_opposite] at hother
        -- the fill keeps `best` first, and the cancel takes it off if it is filled
        have hfb := hb.fill best.id (min s.own.remainingQty best.remainingQty)
        split at h
        · rename_i hfilled
          split at h
          · simp at h
          · rename_i r book hcancel
            simp only [Except.ok.injEq, Iter.next.injEq] at h
            subst h
            obtain ⟨hwf, hopp, hown⟩ := orders_cancel_best hfb hfill hcancel
            rw [OrderSide.opposite_opposite] at hown
            exact ⟨hwf, hown.trans hother, best, rest, hord, hrem, by simpa using href, rfl, rfl,
              by rw [if_pos hfilled]; exact hopp⟩
        · rename_i hfilled
          simp only [Except.ok.injEq, Iter.next.injEq] at h
          subst h
          exact ⟨hfb, hother, best, rest, hord, hrem, by simpa using href, rfl, rfl,
            by rw [if_neg hfilled]; exact hfill⟩

/-- A pass leaves orders that are not filled. -/
theorem matchBody_live {symbol : Symbol} {sd : OrderSide} {s s' : Matching α}
    (hb : WF symbol s.book) (hl : Live s.book) (h : matchBody sd s = .ok (.next s')) :
    Live s'.book := by
  obtain ⟨-, hsame, best, rest, hord, -, -, -, -, hopp⟩ := matchBody_next hb h
  intro sd' x hx
  by_cases hsd : sd' = sd
  · subst hsd
    exact hl _ x (hsame ▸ hx)
  · obtain rfl := OrderSide.eq_opposite_of_ne hsd
    have hrest : ∀ y ∈ rest, y.Live := fun y hy => hl _ y (hord ▸ List.mem_cons_of_mem _ hy)
    rw [hopp] at hx
    split at hx
    · exact hrest x hx
    · rename_i hfilled
      rcases List.mem_cons.mp hx with rfl | hx
      · exact Order.isFilled_eq_false.mp (by simpa using hfilled)
      · exact hrest x hx

/-! ### The whole loop -/

/-- What is still to come from a loop state, in front of what was done already. -/
def outlook (sd : OrderSide) (s : Matching α) : Filled α :=
  let r := fillQueue sd s.own (s.book.orders sd.opposite)
  ⟨s.trades ++ r.trades, r.own, r.queue⟩

theorem fillQueue_of_stop {sd : OrderSide} {own : Order α} {queue : List (Order α)}
    (h : own.remainingQty = 0 ∨ ∀ best, queue.head? = some best → refuses sd own best = true) :
    fillQueue sd own queue = ⟨[], own, queue⟩ := by
  cases queue with
  | nil => rfl
  | cons best rest =>
      rw [fillQueue, if_pos (h.imp_right fun h => h best rfl)]

/-- A pass changes where the loop stands, not where it ends. -/
theorem outlook_next {symbol : Symbol} {sd : OrderSide} {s s' : Matching α}
    (hb : WF symbol s.book) (h : matchBody sd s = .ok (.next s')) :
    outlook sd s' = outlook sd s := by
  obtain ⟨-, -, best, rest, hord, hrem, href, hown, htrades, hopp⟩ := matchBody_next hb h
  have hgo : ¬ (s.own.remainingQty = 0 ∨ refuses sd s.own best = true) := by simp [hrem, href]
  simp only [outlook, hown, htrades, hopp, hord]
  rw [fillQueue, if_neg hgo]
  by_cases hfilled :
      (best.reduceQuantity (min s.own.remainingQty best.remainingQty)).isFilled = true
  · simp only [hfilled, if_true, List.append_assoc, List.singleton_append]
  · rw [if_neg hfilled, if_neg hfilled,
      fillQueue_of_stop (.inl ((fill_completes s.own best).resolve_left hfilled))]
    simp

/-- **A matching loop that returns** has filled the opposite queue in priority order and
left the taker's side alone. -/
theorem matchAgainst_ok {symbol : Symbol} {b : QueueBook α} (hb : WF symbol b) {fuel : Nat}
    {own : Order α} {s : Matching α} (h : b.matchAgainst fuel own = .ok s) :
    WF symbol s.book ∧ s.book.orders own.side = b.orders own.side ∧
      s.trades = (fillQueue own.side own (b.orders own.side.opposite)).trades ∧
      s.own = (fillQueue own.side own (b.orders own.side.opposite)).own ∧
      s.book.orders own.side.opposite =
        (fillQueue own.side own (b.orders own.side.opposite)).queue := by
  -- invariant: the book stays well formed, and the outlook is that of the start
  let I (s : Matching α) : Prop := WF symbol s.book ∧ s.book.orders own.side = b.orders own.side ∧
    outlook own.side s = outlook own.side ⟨b, own, []⟩
  have hstart : outlook own.side ⟨b, own, []⟩ =
      fillQueue own.side own (b.orders own.side.opposite) := by simp [outlook]
  obtain ⟨s', hs, hdone⟩ := FuelLoop.run_invariant I (fun s s' hs hnext => by
    obtain ⟨hwf, hown, -⟩ := matchBody_next hs.1 hnext
    exact ⟨hwf, hown.trans hs.2.1, (outlook_next hs.1 hnext).trans hs.2.2⟩) ⟨hb, rfl, rfl⟩ h
  obtain ⟨rfl, hstop⟩ := matchBody_done hdone
  have hend : outlook own.side s = ⟨s.trades, s.own, s.book.orders own.side.opposite⟩ := by
    simp [outlook, fillQueue_of_stop hstop]
  rw [hs.2.2, hstart] at hend
  refine ⟨hs.1, hs.2.1, ?_, ?_, ?_⟩ <;> rw [hend]

omit [LinearOrder α] in
theorem Exact.fill {b : QueueBook α} (he : Exact b) (id : OrderID) (qty : Quantity) :
    Exact (b.fill id qty) := by
  intro sd
  rw [QueueBook.fill, levels_mapOrders]
  refine (he sd).mapElems ?_
  intro o _
  split <;> rfl

/-- With exact prices a pass never fails, and keeps prices exact. -/
theorem matchBody_exact {symbol : Symbol} (sd : OrderSide) {s : Matching α}
    (hb : WF symbol s.book) (he : Exact s.book) :
    (∃ s', matchBody sd s = .ok (.done s')) ∨
      ∃ s', matchBody sd s = .ok (.next s') ∧ Exact s'.book := by
  unfold matchBody
  split
  · exact .inl ⟨s, rfl⟩
  · split
    · exact .inl ⟨s, rfl⟩
    · rename_i best _
      split
      · exact .inl ⟨s, rfl⟩
      · dsimp only
        have hfill := he.fill best.id (min s.own.remainingQty best.remainingQty)
        split
        · obtain ⟨r, b', hc, hex⟩ := (hb.fill best.id _).cancelOrder_total hfill best.id
          rw [hc]
          exact .inr ⟨_, rfl, hex⟩
        · exact .inr ⟨_, rfl, hfill⟩

/-- A bound on the passes a loop still makes. -/
def passesLeft (sd : OrderSide) (s : Matching α) : Nat :=
  (s.book.orders sd.opposite).length + if s.own.remainingQty = 0 then 0 else 1

/-- Each pass completes a maker or satisfies the taker. -/
theorem passesLeft_next {symbol : Symbol} {sd : OrderSide} {s s' : Matching α}
    (hb : WF symbol s.book) (h : matchBody sd s = .ok (.next s')) :
    passesLeft sd s' < passesLeft sd s := by
  obtain ⟨-, -, best, rest, hord, hrem, -, hown, -, hopp⟩ := matchBody_next hb h
  simp only [passesLeft]
  rw [hopp, hord, if_neg hrem]
  split
  · rw [List.length_cons]
    split <;> omega
  · rename_i hfilled
    rw [hown, (fill_completes s.own best).resolve_left hfilled]
    simp

/-- **The matching loop returns** wherever prices are exact. -/
theorem matchAgainst_total {symbol : Symbol} {b : QueueBook α} (hb : WF symbol b) (he : Exact b)
    (own : Order α) {fuel : Nat} (hfuel : (b.orders own.side.opposite).length + 1 < fuel) :
    ∃ s, b.matchAgainst fuel own = .ok s := by
  refine FuelLoop.run_variant (fun s => WF symbol s.book ∧ Exact s.book) (passesLeft own.side) ?_
    ⟨hb, he⟩ ?_
  · intro s hs
    rcases matchBody_exact own.side hs.1 hs.2 with hdone | ⟨s', hnext, hex⟩
    · exact .inl hdone
    · exact .inr ⟨s', hnext, ⟨(matchBody_next hs.1 hnext).1, hex⟩, passesLeft_next hs.1 hnext⟩
  · simp only [passesLeft]
    split <;> omega

/-- Matching keeps prices exact. -/
theorem matchAgainst_exact {symbol : Symbol} {b : QueueBook α} (hb : WF symbol b) (he : Exact b)
    {fuel : Nat} {own : Order α} {s : Matching α} (h : b.matchAgainst fuel own = .ok s) :
    Exact s.book := by
  obtain ⟨s', hs, hdone⟩ := FuelLoop.run_invariant
    (fun s : Matching α => WF symbol s.book ∧ Exact s.book) (fun s s' hs hnext => by
      rcases matchBody_exact own.side hs.1 hs.2 with ⟨s'', hdone⟩ | ⟨s'', hnext', hex⟩
      · rw [hdone] at hnext
        simp at hnext
      · obtain rfl : s'' = s' := by simpa [hnext'] using hnext
        exact ⟨(matchBody_next hs.1 hnext').1, hex⟩) ⟨hb, he⟩ h
  rw [(matchBody_done hdone).1]
  exact hs.2

end QueueBook

end OrderMatchingEngine
