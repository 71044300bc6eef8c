import OrderMatchingEngine.Abstract.Matching
import OrderMatchingEngine.Library.Greedy

/-!
# OrderMatchingEngine.Abstract.Filling

What matching does to quantities.

Over a queue of live orders the recursion `fillQueue` is a greedy allocation of the taker's
unfilled quantity (`fillQueue_eq`). The consequences for trades, makers and taker follow
from the laws of `Greedy`.
-/

namespace OrderMatchingEngine

/-! ### Quantities of one order -/

namespace Order

variable {α : Type}

theorem unfilled_eq_zero {o : Order α} : o.unfilled = 0 ↔ o.remainingQty = 0 := by
  rw [unfilled, ← UInt64.toNat_inj]
  rfl

theorem Live.unfilled_eq {o : Order α} (h : o.Live) :
    o.unfilled = o.quantity.toNat - o.quantityFilled.toNat :=
  UInt64.toNat_sub_of_le _ _ (UInt64.le_of_lt h)

theorem Live.unfilled_pos {o : Order α} (h : o.Live) : 0 < o.unfilled := by
  rw [h.unfilled_eq]
  have hlt := UInt64.lt_iff_toNat_lt.mp h
  omega

@[simp] theorem reduceQuantity_zero (o : Order α) : o.reduceQuantity 0 = o := by
  simp only [reduceQuantity, UInt64.add_zero]

/-- Executing two quantities is executing their sum. -/
theorem reduceQuantity_add (o : Order α) (a b : Quantity) :
    o.reduceQuantity (a + b) = (o.reduceQuantity a).reduceQuantity b := by
  simp only [reduceQuantity, UInt64.add_assoc]

/-- Executing at most what is left takes it off what is left. -/
theorem unfilled_reduceQuantity {o : Order α} {qty : Quantity} (h : qty.toNat ≤ o.unfilled) :
    (o.reduceQuantity qty).unfilled = o.unfilled - qty.toNat := by
  have hrem : (o.reduceQuantity qty).remainingQty = o.remainingQty - qty := by
    simp only [remainingQty, reduceQuantity_quantity, reduceQuantity_quantityFilled]
    grind
  rw [unfilled, hrem, unfilled]
  exact UInt64.toNat_sub_of_le _ _ (UInt64.le_iff_toNat_le.mpr h)

/-- Executing at most what is left of a live order does not overflow. -/
theorem Live.quantityFilled_reduceQuantity {o : Order α} (hl : o.Live) {qty : Quantity}
    (h : qty.toNat ≤ o.unfilled) :
    (o.reduceQuantity qty).quantityFilled.toNat = o.quantityFilled.toNat + qty.toNat := by
  rw [hl.unfilled_eq] at h
  have hlt := UInt64.lt_iff_toNat_lt.mp hl
  have hbound := o.quantity.toNat_lt
  rw [reduceQuantity_quantityFilled, UInt64.toNat_add, Nat.mod_eq_of_lt (by omega)]

/-- A live order stays live until all that is left is executed. -/
theorem Live.reduceQuantity {o : Order α} (hl : o.Live) {qty : Quantity}
    (h : qty.toNat < o.unfilled) : (o.reduceQuantity qty).Live := by
  have hfilled := hl.quantityFilled_reduceQuantity (Nat.le_of_lt h)
  rw [hl.unfilled_eq] at h
  rw [Live, UInt64.lt_iff_toNat_lt, hfilled, reduceQuantity_quantity]
  omega

/-- Executing part of what is left completes a live order exactly if the part is all. -/
theorem Live.isFilled_reduceQuantity {o : Order α} (hl : o.Live) {n : Nat} (h : n ≤ o.unfilled) :
    (o.reduceQuantity (.ofNat n)).isFilled = true ↔ n = o.unfilled := by
  have hbound : n < 2 ^ 64 := Nat.lt_of_le_of_lt h o.remainingQty.toNat_lt
  have htoNat : (UInt64.ofNat n).toNat = n := UInt64.toNat_ofNat_of_lt hbound
  constructor
  · intro hfilled
    by_contra hne
    have hlive : (o.reduceQuantity (.ofNat n)).Live := hl.reduceQuantity (by omega)
    rw [isFilled_eq_false.mpr hlive] at hfilled
    simp at hfilled
  · intro hall
    by_contra hopen
    have hlive : (o.reduceQuantity (.ofNat n)).Live :=
      isFilled_eq_false.mp (Bool.not_eq_true _ ▸ hopen)
    have hpos := hlive.unfilled_pos
    rw [unfilled_reduceQuantity (by omega)] at hpos
    omega

end Order

namespace QueueBook

variable {α : Type} [LinearOrder α]

/-! ### The greedy form of matching -/

/-- **The reference matcher**: the makers, which the taker accepts, are filled greedily. -/
def greedyFill (sd : OrderSide) (own : Order α) (makers : List (Order α)) : Filled α :=
  let amounts := Greedy.amounts own.unfilled (makers.map Order.unfilled)
  { trades := List.zipWith (fun maker n => trade sd own maker (.ofNat n)) makers amounts
    own := own.reduceQuantity (.ofNat amounts.sum)
    queue := Greedy.leftover Order.unfilled (fun maker n => maker.reduceQuantity (.ofNat n))
      own.unfilled makers }

/-- The taker accepts the price of the maker. -/
def accepts (sd : OrderSide) (own maker : Order α) : Bool := !refuses sd own maker

omit [LinearOrder α] in
theorem greedyFill_of_zero {sd : OrderSide} {own : Order α} (h : own.unfilled = 0)
    (makers : List (Order α)) : greedyFill sd own makers = ⟨[], own, makers⟩ := by
  rw [greedyFill, h, Greedy.amounts_zero, Greedy.leftover_zero]
  simp

omit [LinearOrder α] in
theorem greedyFill_nil (sd : OrderSide) (own : Order α) : greedyFill sd own [] = ⟨[], own, []⟩ := by
  simp [greedyFill]

omit [LinearOrder α] in
/-- The first maker is used up, or it satisfies the taker. -/
theorem greedyFill_cons {sd : OrderSide} {own : Order α} (h : own.unfilled ≠ 0) (maker : Order α)
    (makers : List (Order α)) :
    greedyFill sd own (maker :: makers) =
      if maker.unfilled ≤ own.unfilled then
        let r := greedyFill sd (own.reduceQuantity maker.remainingQty) makers
        ⟨trade sd own maker maker.remainingQty :: r.trades, r.own, r.queue⟩
      else ⟨[trade sd own maker own.remainingQty], own.reduceQuantity own.remainingQty,
        maker.reduceQuantity own.remainingQty :: makers⟩ := by
  have hofNat : ∀ o : Order α, UInt64.ofNat o.unfilled = o.remainingQty := fun o =>
    UInt64.ofNat_toNat
  rw [greedyFill, List.map_cons, Greedy.amounts_cons h, Greedy.leftover_cons h]
  by_cases hle : maker.unfilled ≤ own.unfilled
  · have hrest : (own.reduceQuantity maker.remainingQty).unfilled =
        own.unfilled - maker.unfilled := Order.unfilled_reduceQuantity hle
    rw [if_pos hle, if_pos hle, greedyFill, hrest, Nat.min_eq_right hle, List.zipWith_cons_cons,
      List.sum_cons, UInt64.ofNat_add, hofNat, Order.reduceQuantity_add]
    rfl
  · rw [if_neg hle, if_neg hle, Nat.min_eq_left (by omega), Nat.sub_eq_zero_of_le (by omega),
      Greedy.amounts_zero, hofNat]
    simp [hofNat]

omit [LinearOrder α] in
theorem min_remainingQty_right {own maker : Order α} (h : maker.unfilled ≤ own.unfilled) :
    min own.remainingQty maker.remainingQty = maker.remainingQty := by
  by_cases hle : own.remainingQty ≤ maker.remainingQty
  · exact (if_pos hle).trans (UInt64.le_antisymm hle (UInt64.le_iff_toNat_le.mpr h))
  · exact if_neg hle

omit [LinearOrder α] in
theorem min_remainingQty_left {own maker : Order α} (h : own.unfilled ≤ maker.unfilled) :
    min own.remainingQty maker.remainingQty = own.remainingQty := by
  exact if_pos (UInt64.le_iff_toNat_le.mpr h)

/-- **Matching is greedy**: a queue of live orders is filled from its front, as far as the
taker accepts. -/
theorem fillQueue_eq (sd : OrderSide) (own : Order α) {queue : List (Order α)}
    (hlive : ∀ x ∈ queue, x.Live) :
    fillQueue sd own queue =
      { trades := (greedyFill sd own (queue.takeWhile (accepts sd own))).trades
        own := (greedyFill sd own (queue.takeWhile (accepts sd own))).own
        queue := (greedyFill sd own (queue.takeWhile (accepts sd own))).queue ++
          queue.dropWhile (accepts sd own) } := by
  induction queue generalizing own with
  | nil => simp [fillQueue, greedyFill_nil]
  | cons best rest ih =>
      obtain ⟨hbest, hrest⟩ := List.forall_mem_cons.mp hlive
      by_cases hzero : own.remainingQty = 0
      · rw [greedyFill_of_zero (Order.unfilled_eq_zero.mpr hzero), fillQueue, if_pos (.inl hzero),
          List.takeWhile_append_dropWhile]
      by_cases href : refuses sd own best = true
      · have hacc : accepts sd own best = false := by simp [accepts, href]
        rw [fillQueue, if_pos (.inr href), List.takeWhile_cons_of_neg (by simp [hacc]),
          List.dropWhile_cons_of_neg (by simp [hacc]), greedyFill_nil]
        rfl
      have hacc : accepts sd own best = true := by simp [accepts, href]
      have hneed : own.unfilled ≠ 0 := fun h => hzero (Order.unfilled_eq_zero.mp h)
      rw [fillQueue, if_neg (by simp [hzero, href]), List.takeWhile_cons_of_pos hacc,
        List.dropWhile_cons_of_pos hacc, greedyFill_cons hneed]
      by_cases hle : best.unfilled ≤ own.unfilled
      · rw [if_pos hle, min_remainingQty_right hle,
          if_pos (isFilled_reduceQuantity_self best), ih _ hrest]
        rfl
      · have hlive' : (best.reduceQuantity own.remainingQty).isFilled = false :=
          Order.isFilled_eq_false.mpr (hbest.reduceQuantity (by rw [← Order.unfilled]; omega))
        rw [if_neg hle, min_remainingQty_left (by omega), if_neg (by simp [hlive'])]
        simp

/-! ### What matching leaves -/

omit [LinearOrder α] in
theorem trade_price (sd : OrderSide) (own maker : Order α) (qty : Quantity) :
    (trade sd own maker qty).price = maker.price := by cases sd <;> rfl

omit [LinearOrder α] in
theorem trade_quantity (sd : OrderSide) (own maker : Order α) (qty : Quantity) :
    (trade sd own maker qty).quantity = qty := by cases sd <;> rfl

/-- Matching changes nothing of the taker but its executed quantity. -/
theorem fillQueue_own (sd : OrderSide) (own : Order α) (queue : List (Order α)) :
    own.SameOrder (fillQueue sd own queue).own := by
  fun_induction fillQueue sd own queue with
  | case1 own => exact .refl own
  | case2 own best rest => exact .refl own
  | case3 own best rest _ qty _ r ih =>
      exact (Order.sameOrder_reduceQuantity own qty).trans ih
  | case4 own best rest _ qty => exact Order.sameOrder_reduceQuantity own qty

/-- Without a trade the taker is as it was. -/
theorem fillQueue_own_of_no_trades {sd : OrderSide} {own : Order α} {queue : List (Order α)}
    (h : (fillQueue sd own queue).trades = []) : (fillQueue sd own queue).own = own := by
  cases queue with
  | nil => rfl
  | cons best rest =>
      unfold fillQueue at h ⊢
      split at h
      · rename_i hstop
        rw [if_pos hstop]
      · dsimp only at h
        split at h <;> simp at h

/-- The taker is executed by what the trades say. -/
theorem fillQueue_own_sum (sd : OrderSide) (own : Order α) (queue : List (Order α)) :
    (fillQueue sd own queue).own =
      own.reduceQuantity ((fillQueue sd own queue).trades.map Trade.quantity).sum := by
  fun_induction fillQueue sd own queue with
  | case1 own => simp
  | case2 own best rest => simp
  | case3 own best rest _ qty _ r ih =>
      rw [List.map_cons, List.sum_cons, trade_quantity, Order.reduceQuantity_add]
      exact ih
  | case4 own best rest _ qty => simp [trade_quantity]

/-- Every trade is one of the taker, as it was then, with an order of the queue that it does not
refuse. -/
theorem fillQueue_trade (sd : OrderSide) (own : Order α) (queue : List (Order α)) :
    ∀ t ∈ (fillQueue sd own queue).trades, ∃ own' maker qty, own.SameOrder own' ∧
      maker ∈ queue ∧ refuses sd own maker = false ∧ t = trade sd own' maker qty := by
  fun_induction fillQueue sd own queue with
  | case1 own => simp
  | case2 own best rest => simp
  | case3 own best rest hgo qty _ r ih =>
      rw [not_or, Bool.not_eq_true] at hgo
      refine List.forall_mem_cons.mpr ⟨⟨own, best, qty, .refl own, by simp, hgo.2, rfl⟩, ?_⟩
      intro t ht
      obtain ⟨own', maker, qty', hsame, hmaker, href, rfl⟩ := ih t ht
      exact ⟨own', maker, qty', (Order.sameOrder_reduceQuantity own qty).trans hsame,
        List.mem_cons_of_mem _ hmaker, href, rfl⟩
  | case4 own best rest hgo qty =>
      rw [not_or, Bool.not_eq_true] at hgo
      exact List.forall_mem_singleton.mpr ⟨own, best, qty, .refl own, by simp, hgo.2, rfl⟩

/-- There is no trade exactly if the taker needs nothing or refuses the best order. -/
theorem fillQueue_trades_eq_nil {sd : OrderSide} {own : Order α} {queue : List (Order α)} :
    (fillQueue sd own queue).trades = [] ↔
      own.remainingQty = 0 ∨ ∀ best, queue.head? = some best → refuses sd own best = true := by
  cases queue with
  | nil => simp [fillQueue]
  | cons best rest =>
      rw [fillQueue]
      split
      · rename_i hstop
        simpa using hstop
      · rename_i hgo
        refine iff_of_false ?_ (by simpa using hgo)
        dsimp only
        split <;> simp

/-- Every order that is left is one of the queue. -/
theorem fillQueue_queue {sd : OrderSide} {own : Order α} {queue : List (Order α)} :
    ∀ x ∈ (fillQueue sd own queue).queue, ∃ y ∈ queue, y.SameOrder x := by
  fun_induction fillQueue sd own queue with
  | case1 own => simp
  | case2 own best rest => exact fun x hx => ⟨x, hx, .refl x⟩
  | case3 own best rest _ qty _ r ih =>
      intro x hx
      obtain ⟨y, hy, hxy⟩ := ih x hx
      exact ⟨y, List.mem_cons_of_mem _ hy, hxy⟩
  | case4 own best rest _ qty =>
      intro x hx
      rcases List.mem_cons.mp hx with rfl | hx
      · exact ⟨best, List.mem_cons_self .., Order.sameOrder_reduceQuantity best qty⟩
      · exact ⟨x, List.mem_cons_of_mem _ hx, .refl x⟩

/-- No order that is left is completely filled. -/
theorem fillQueue_live {sd : OrderSide} {own : Order α} {queue : List (Order α)}
    (hlive : ∀ x ∈ queue, x.Live) : ∀ x ∈ (fillQueue sd own queue).queue, x.Live := by
  fun_induction fillQueue sd own queue with
  | case1 own => simp
  | case2 own best rest => exact hlive
  | case3 own best rest _ qty _ r ih => exact ih (List.forall_mem_cons.mp hlive).2
  | case4 own best rest _ qty hfilled =>
      refine List.forall_mem_cons.mpr ⟨?_, (List.forall_mem_cons.mp hlive).2⟩
      exact Order.isFilled_eq_false.mp (by simpa using hfilled)

/-- There is at most one trade for each order of the queue. -/
theorem fillQueue_length_le (sd : OrderSide) (own : Order α) (queue : List (Order α)) :
    (fillQueue sd own queue).trades.length ≤ queue.length := by
  fun_induction fillQueue sd own queue with
  | case1 own => simp
  | case2 own best rest => simp
  | case3 own best rest _ qty _ r ih => exact Nat.succ_le_succ ih
  | case4 own best rest => simp

/-- Matching stops because the taker is satisfied or refuses the best order left. -/
theorem fillQueue_stop (sd : OrderSide) (own : Order α) (queue : List (Order α)) :
    (fillQueue sd own queue).own.remainingQty = 0 ∨
      ∀ best, (fillQueue sd own queue).queue.head? = some best → refuses sd own best = true := by
  fun_induction fillQueue sd own queue with
  | case1 own => exact .inr (by simp)
  | case2 own best rest hstop =>
      exact hstop.imp_right fun href x hx => by
        obtain rfl : best = x := by simpa using hx
        exact href
  | case3 own best rest _ qty _ r ih => exact ih
  | case4 own best rest _ qty hfilled => exact .inl ((fill_completes own best).resolve_left hfilled)

/-- Trades with live orders have positive quantities. -/
theorem fillQueue_pos {sd : OrderSide} {own : Order α} {queue : List (Order α)}
    (hlive : ∀ x ∈ queue, x.Live) : ∀ t ∈ (fillQueue sd own queue).trades, 0 < t.quantity := by
  have hqty : ∀ own best : Order α, own.remainingQty ≠ 0 → best.Live →
      0 < min own.remainingQty best.remainingQty := by
    intro own best hown hbest
    rcases min_quantity own.remainingQty best.remainingQty with h | h
    · rw [h]
      exact UInt64.pos_iff_ne_zero.mpr hown
    · rw [h, UInt64.lt_iff_toNat_lt]
      exact hbest.unfilled_pos
  fun_induction fillQueue sd own queue with
  | case1 own => simp
  | case2 own best rest => simp
  | case3 own best rest hgo qty _ r ih =>
      obtain ⟨hbest, hrest⟩ := List.forall_mem_cons.mp hlive
      refine List.forall_mem_cons.mpr ⟨?_, ih hrest⟩
      rw [trade_quantity]
      exact hqty own best (fun h => hgo (.inl h)) hbest
  | case4 own best rest hgo qty =>
      refine List.forall_mem_singleton.mpr ?_
      rw [trade_quantity]
      exact hqty own best (fun h => hgo (.inl h)) (List.forall_mem_cons.mp hlive).1

omit [LinearOrder α] in
/-- A fill that completes a live maker executes all it had left. -/
theorem min_of_isFilled {own maker : Order α} (hl : maker.Live)
    (h : (maker.reduceQuantity (min own.remainingQty maker.remainingQty)).isFilled = true) :
    min own.remainingQty maker.remainingQty = maker.remainingQty := by
  by_cases hle : maker.unfilled ≤ own.unfilled
  · exact min_remainingQty_right hle
  · rw [min_remainingQty_left (by omega)] at h
    have hlive : (maker.reduceQuantity own.remainingQty).Live :=
      hl.reduceQuantity (by rw [← Order.unfilled]; omega)
    rw [Order.isFilled_eq_false.mpr hlive] at h
    simp at h

/-- An order of the queue is still there, or one trade executed all it had left. -/
theorem fillQueue_kept (sd : OrderSide) (own : Order α) {queue : List (Order α)}
    (hlive : ∀ x ∈ queue, x.Live) : ∀ y ∈ queue,
      (∃ x ∈ (fillQueue sd own queue).queue, y.SameOrder x) ∨
        trade sd own y y.remainingQty ∈ (fillQueue sd own queue).trades := by
  fun_induction fillQueue sd own queue with
  | case1 own => simp
  | case2 own best rest => exact fun y hy => .inl ⟨y, hy, .refl y⟩
  | case3 own best rest _ qty hfilled r ih =>
      obtain ⟨hbest, hrest⟩ := List.forall_mem_cons.mp hlive
      refine List.forall_mem_cons.mpr ⟨.inr ?_, fun y hy => (ih hrest y hy).imp_right ?_⟩
      · rw [← min_of_isFilled hbest hfilled]
        exact List.mem_cons_self ..
      · intro ht
        exact List.mem_cons_of_mem _ ht
  | case4 own best rest _ qty =>
      refine List.forall_mem_cons.mpr ⟨.inl ?_, fun y hy => .inl ?_⟩
      · exact ⟨_, List.mem_cons_self .., Order.sameOrder_reduceQuantity best qty⟩
      · exact ⟨y, List.mem_cons_of_mem _ hy, .refl y⟩

end QueueBook

end OrderMatchingEngine
