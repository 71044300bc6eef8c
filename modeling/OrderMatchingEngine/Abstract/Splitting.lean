import OrderMatchingEngine.Abstract.Liquidity

/-!
# OrderMatchingEngine.Abstract.Splitting

Takers against one queue: several instead of one, and a more eager one.

What a taker leaves of the queue says what it took from each order (`fillQueue_taken`). Two takers
with the same limit leave what one taker of their joint quantity leaves (`fillQueue_split`), and a
taker that wants more, or accepts more prices, takes no less of any order (`fillQueue_mono`).
-/

namespace OrderMatchingEngine

variable {α : Type}

/-- The order that a taker on side `sd` met in the trade. -/
def Trade.makerId (sd : OrderSide) (t : Trade α) : OrderID :=
  match sd with
  | .buy => t.sellOrderId
  | .sell => t.buyOrderId

namespace Price

variable [LinearOrder α] {p q r : Price α}

theorem lt_of_le_of_lt (h : p ≤ q) (h' : q < r) : p < r := by
  cases r with
  | nan => exact absurd h' (not_lt_nan q)
  | num c =>
      cases q with
      | nan => exact absurd h (not_le_nan p)
      | num b =>
          cases p with
          | nan => exact absurd h (not_nan_le _)
          | num a => exact (num_le_num.mp h).trans_lt (num_lt_num.mp h')

theorem lt_of_lt_of_le (h : p < q) (h' : q ≤ r) : p < r := by
  cases r with
  | nan => exact absurd h' (not_le_nan q)
  | num c =>
      cases q with
      | nan => exact absurd h (not_lt_nan p)
      | num b =>
          cases p with
          | nan => exact absurd h (not_nan_lt _)
          | num a => exact (num_lt_num.mp h).trans_le (num_le_num.mp h')

end Price

/-- The second order wants no less than the first one, at prices no worse for its counterparties. -/
structure Order.Eager [LE α] (o o' : Order α) : Prop where
  symbol : o'.symbol = o.symbol
  side : o'.side = o.side
  quantity : o.unfilled ≤ o'.unfilled
  price : o'.type = .market ∨ o.type ≠ .market ∧
    match o.side with
    | .buy => o.price ≤ o'.price
    | .sell => o'.price ≤ o.price

namespace QueueBook

/-- What the trades of takers on side `sd` took of the orders with these ids. -/
def taken (sd : OrderSide) (p : OrderID → Bool) (trades : List (Trade α)) : Nat :=
  ((trades.filter fun t => p (t.makerId sd)).map fun t => t.quantity.toNat).sum

/-- What the orders with these ids have left. -/
def unfilledOf (p : OrderID → Bool) (queue : List (Order α)) : Nat :=
  ((queue.filter fun o => p o.id).map Order.unfilled).sum

section Sums

variable {sd : OrderSide} {p : OrderID → Bool}

@[simp] theorem taken_nil : taken sd p ([] : List (Trade α)) = 0 := rfl

theorem taken_trade (own maker : Order α) (qty : Quantity) (ts : List (Trade α)) :
    taken sd p (trade sd own maker qty :: ts) =
      (if p maker.id then qty.toNat else 0) + taken sd p ts := by
  have hmaker : (trade sd own maker qty).makerId sd = maker.id := by cases sd <;> rfl
  rw [taken, taken, List.filter_cons, hmaker]
  split
  · rw [List.map_cons, List.sum_cons, trade_quantity]
  · rw [Nat.zero_add]

theorem taken_append (ts ts' : List (Trade α)) :
    taken sd p (ts ++ ts') = taken sd p ts + taken sd p ts' := by
  rw [taken, List.filter_append, List.map_append, List.sum_append, taken, taken]

theorem taken_untimed (ts : List (Trade α)) :
    taken sd p (ts.map Trade.untimed) = taken sd p ts := by
  have hid : ∀ t : Trade α, t.untimed.makerId sd = t.makerId sd := fun t => by cases sd <;> rfl
  simp only [taken, List.filter_map, List.map_map, Function.comp_def, hid]
  rfl

theorem unfilledOf_cons (o : Order α) (queue : List (Order α)) :
    unfilledOf p (o :: queue) = (if p o.id then o.unfilled else 0) + unfilledOf p queue := by
  rw [unfilledOf, unfilledOf, List.filter_cons]
  split
  · rw [List.map_cons, List.sum_cons]
  · rw [Nat.zero_add]

end Sums

variable [LinearOrder α] {sd : OrderSide} {p : OrderID → Bool}

/-- **What is gone of the queue is what the trades took.** -/
theorem fillQueue_taken (sd : OrderSide) (p : OrderID → Bool) (own : Order α)
    {queue : List (Order α)} (hlive : ∀ x ∈ queue, x.Live) :
    taken sd p (fillQueue sd own queue).trades + unfilledOf p (fillQueue sd own queue).queue =
      unfilledOf p queue := by
  fun_induction fillQueue sd own queue with
  | case1 own => rfl
  | case2 own best rest => simp
  | case3 own best rest _ qty hfilled r ih =>
      obtain ⟨hbest, hrest⟩ := List.forall_mem_cons.mp hlive
      have hqty : qty.toNat = best.unfilled := congrArg UInt64.toNat (min_of_isFilled hbest hfilled)
      rw [taken_trade, unfilledOf_cons, hqty, Nat.add_assoc, ih hrest]
  | case4 own best rest _ qty =>
      have hqty : qty.toNat ≤ best.unfilled := by
        by_cases hle : best.unfilled ≤ own.unfilled
        · exact Nat.le_of_eq (congrArg UInt64.toNat (min_remainingQty_right hle))
        · refine Nat.le_trans (Nat.le_of_eq ?_) (Nat.le_of_not_le hle)
          exact congrArg UInt64.toNat (min_remainingQty_left (Nat.le_of_not_le hle))
      have hid : (best.reduceQuantity qty).id = best.id := rfl
      rw [taken_trade, taken_nil, unfilledOf_cons, unfilledOf_cons, hid,
        Order.unfilled_reduceQuantity hqty]
      split <;> omega

omit [LinearOrder α] in
theorem toNat_ofNat {n : Nat} {o : Order α} (h : n ≤ o.unfilled) : (UInt64.ofNat n).toNat = n :=
  UInt64.toNat_ofNat_of_lt (Nat.lt_of_le_of_lt h o.remainingQty.toNat_lt)

omit [LinearOrder α] in
/-- Two greedy takers leave what one of their joint quantity leaves. -/
theorem greedyFill_add {own own₁ own₂ : Order α} (h : own.unfilled = own₁.unfilled + own₂.unfilled)
    (makers : List (Order α)) :
    (greedyFill sd own₂ (greedyFill sd own₁ makers).queue).queue =
      (greedyFill sd own makers).queue := by
  simp only [greedyFill, h]
  refine Greedy.leftover_add (fun x n hn => ?_) (fun x m n => ?_) _ _ _
  · have hle : (UInt64.ofNat n).toNat ≤ x.unfilled := by rwa [toNat_ofNat hn]
    rw [Order.unfilled_reduceQuantity hle, toNat_ofNat hn]
  · rw [← Order.reduceQuantity_add, UInt64.ofNat_add]

/-- **Two takers with the same limit** leave what one taker of their joint quantity leaves. -/
theorem fillQueue_split {own own₁ own₂ : Order α} {queue : List (Order α)}
    (hlive : ∀ x ∈ queue, x.Live) (h₁ : accepts sd own₁ = accepts sd own)
    (h₂ : accepts sd own₂ = accepts sd own) (h : own.unfilled = own₁.unfilled + own₂.unfilled) :
    (fillQueue sd own₂ (fillQueue sd own₁ queue).queue).queue =
      (fillQueue sd own queue).queue := by
  have hlive₁ : ∀ x ∈ (fillQueue sd own₁ queue).queue, x.Live := fillQueue_live hlive
  have hrest : (queue.dropWhile (accepts sd own)).takeWhile (accepts sd own) = [] :=
    List.takeWhile_eq_nil_iff.mpr (List.dropWhile_get_zero_not _ _)
  have hmakers : ∀ x ∈ (greedyFill sd own₁ (queue.takeWhile (accepts sd own))).queue,
      accepts sd own x = true := by
    intro x hx
    rcases Greedy.mem_leftover hx with hx | ⟨y, hy, n, rfl⟩
    · exact List.mem_takeWhile_imp hx
    · have haccepts : accepts sd own y = true := List.mem_takeWhile_imp hy
      exact haccepts
  rw [fillQueue_eq sd own₂ hlive₁, fillQueue_eq sd own hlive, h₂]
  dsimp only
  rw [fillQueue_eq sd own₁ hlive, h₁, List.takeWhile_append_of_pos hmakers,
    List.dropWhile_append_of_pos hmakers, hrest, List.append_nil, greedyFill_add h]
  refine congrArg _ ?_
  conv_rhs => rw [← List.takeWhile_append_dropWhile (p := accepts sd own)
    (l := queue.dropWhile (accepts sd own)), hrest, List.nil_append]

/-- The first trade alone takes this much. -/
theorem le_taken_cons {own best : Order α} {rest : List (Order α)}
    (h : ¬ (own.remainingQty = 0 ∨ refuses sd own best = true)) (p : OrderID → Bool) :
    (if p best.id then (min own.remainingQty best.remainingQty).toNat else 0) ≤
      taken sd p (fillQueue sd own (best :: rest)).trades := by
  rw [fillQueue, if_neg h]
  dsimp only
  by_cases hfilled :
      (best.reduceQuantity (min own.remainingQty best.remainingQty)).isFilled = true
  · rw [if_pos hfilled, taken_trade]
    exact Nat.le_add_right ..
  · rw [if_neg hfilled, taken_trade]
    exact Nat.le_add_right ..

/-- A taker that wants no less and accepts no fewer prices takes no less of any order. -/
theorem fillQueue_mono {own own' : Order α} {queue : List (Order α)} (hlive : ∀ x ∈ queue, x.Live)
    (hprice : ∀ x ∈ queue, accepts sd own x = true → accepts sd own' x = true)
    (hqty : own.unfilled ≤ own'.unfilled) (p : OrderID → Bool) :
    taken sd p (fillQueue sd own queue).trades ≤ taken sd p (fillQueue sd own' queue).trades := by
  induction queue generalizing own own' with
  | nil => simp [fillQueue]
  | cons best rest ih =>
      obtain ⟨hbest, hrest⟩ := List.forall_mem_cons.mp hlive
      by_cases hstop : own.remainingQty = 0 ∨ refuses sd own best = true
      · rw [fillQueue, if_pos hstop]
        exact Nat.zero_le _
      rw [not_or] at hstop
      have hneed : own.unfilled ≠ 0 := fun h => hstop.1 (Order.unfilled_eq_zero.mp h)
      have hneed' : own'.remainingQty ≠ 0 := fun h => by
        have hzero := Order.unfilled_eq_zero.mpr h
        omega
      have haccepts := hprice best List.mem_cons_self (by simp [accepts, hstop.2])
      have hgo : ¬ (own.remainingQty = 0 ∨ refuses sd own best = true) := not_or.mpr hstop
      have hgo' : ¬ (own'.remainingQty = 0 ∨ refuses sd own' best = true) := by
        simpa [accepts, hneed'] using haccepts
      by_cases hle : best.unfilled ≤ own.unfilled
      · -- both execute all of the best order and go on
        rw [fillQueue, if_neg hgo, fillQueue, if_neg hgo']
        dsimp only
        have hrec := @ih (own.reduceQuantity best.remainingQty)
          (own'.reduceQuantity best.remainingQty) hrest
          (fun x hx => hprice x (List.mem_cons_of_mem best hx)) (by
            rw [Order.unfilled_reduceQuantity hle, Order.unfilled_reduceQuantity (hle.trans hqty)]
            exact Nat.sub_le_sub_right hqty _)
        rw [min_remainingQty_right hle, min_remainingQty_right (hle.trans hqty),
          if_pos (isFilled_reduceQuantity_self best), if_pos (isFilled_reduceQuantity_self best)]
        dsimp only
        rw [taken_trade, taken_trade]
        exact Nat.add_le_add_left hrec _
      · -- the less eager one is satisfied
        have hless : own.unfilled < best.unfilled := Nat.lt_of_not_le hle
        have hlive' : (best.reduceQuantity own.remainingQty).isFilled = false :=
          Order.isFilled_eq_false.mpr (hbest.reduceQuantity hless)
        have hmin : own.unfilled ≤ (min own'.remainingQty best.remainingQty).toNat := by
          rcases min_quantity own'.remainingQty best.remainingQty with h | h
          · rw [h]
            exact hqty
          · rw [h]
            exact Nat.le_of_lt hless
        refine Nat.le_trans ?_ (le_taken_cons hgo' p)
        rw [fillQueue, if_neg hgo]
        dsimp only
        rw [min_remainingQty_left (Nat.le_of_lt hless), if_neg (by simp [hlive']), taken_trade,
          taken_nil, Nat.add_zero]
        split
        · exact hmin
        · exact Nat.le_refl 0

theorem length_fillQueue_le (sd : OrderSide) (own : Order α) (queue : List (Order α)) :
    (fillQueue sd own queue).queue.length ≤ queue.length := by
  fun_induction fillQueue sd own queue with
  | case1 own => exact Nat.le_refl _
  | case2 own best rest => exact Nat.le_refl _
  | case3 own best rest _ qty _ r ih => exact Nat.le_succ_of_le ih
  | case4 own best rest => exact Nat.le_refl _

/-! ### Orders that are never queued -/

section Matched

variable {symbol : Symbol} {b b₁ b₂ b₃ m m₁ m₂ : QueueBook α} {o o₁ o₂ : Order α}
  {out out₁ out₂ : Outcome α}

/-- An IOC or MARKET order leaves its own side alone. -/
theorem Matched.orders_unqueued (hm : Matched symbol b o out m b₁)
    (ho : o.type = .ioc ∨ o.type = .market) : b₁.orders o.side = b.orders o.side := by
  rcases settle_cases hm.settled with ⟨hexit, -⟩ | ⟨rfl, -⟩
  · obtain ⟨-, hioc, hmarket, -⟩ := hm.rested hexit
    exact absurd ho (not_or.mpr ⟨hioc, hmarket⟩)
  · exact hm.own

/-- What is gone of the opposite side is what the trades took. -/
theorem Matched.taken (hm : Matched symbol b o out m b₁) (hl : Live b) (p : OrderID → Bool) :
    taken o.side p out.trades + unfilledOf p (b₁.orders o.side.opposite) =
      unfilledOf p (b.orders o.side.opposite) := by
  rw [hm.trades, hm.orders_opposite]
  exact fillQueue_taken o.side p o (hl _)

/-- **Two orders instead of one** leave the same book and take the same of each order. -/
theorem Matched.split (hm : Matched symbol b o out m b₁) (hm₁ : Matched symbol b o₁ out₁ m₁ b₂)
    (hm₂ : Matched symbol b₂ o₂ out₂ m₂ b₃) (hl : Live b) (hl₂ : Live b₂)
    (ho : o.type = .ioc ∨ o.type = .market)
    (h₁ : o₁.side = o.side ∧ o₁.type = o.type ∧ o₁.price = o.price)
    (h₂ : o₂.side = o.side ∧ o₂.type = o.type ∧ o₂.price = o.price)
    (h : o.unfilled = o₁.unfilled + o₂.unfilled) :
    (∀ sd, b₃.orders sd = b₁.orders sd) ∧
      ∀ p, QueueBook.taken o.side p out.trades =
        QueueBook.taken o.side p (out₁.trades ++ out₂.trades) := by
  have haccepts : ∀ o' : Order α, o'.side = o.side ∧ o'.type = o.type ∧ o'.price = o.price →
      accepts o.side o' = accepts o.side o := by
    rintro o' ⟨-, htype, hprice⟩
    funext x
    simp only [accepts, refuses, htype, hprice]
  have hopposite : b₃.orders o.side.opposite = b₁.orders o.side.opposite := by
    have hsplit := fillQueue_split (hl o.side.opposite) (haccepts o₁ h₁) (haccepts o₂ h₂) h
    rw [hm.orders_opposite, matched, ← hsplit]
    have hfirst := hm₁.orders_opposite
    have hsecond := hm₂.orders_opposite
    rw [matched, h₁.1] at hfirst
    rwa [matched, h₂.1, hfirst] at hsecond
  constructor
  · intro sd
    by_cases hsd : sd = o.side
    · subst hsd
      have hfirst := hm₁.orders_unqueued (h₁.2.1.symm ▸ ho)
      have hsecond := hm₂.orders_unqueued (h₂.2.1.symm ▸ ho)
      rw [h₁.1] at hfirst
      rw [h₂.1] at hsecond
      rw [hsecond, hfirst, hm.orders_unqueued ho]
    · rw [OrderSide.eq_opposite_of_ne hsd, hopposite]
  · intro p
    have hone := hm.taken hl p
    have hfirst := hm₁.taken hl p
    have hsecond := hm₂.taken hl₂ p
    rw [h₁.1] at hfirst
    rw [h₂.1, hopposite] at hsecond
    rw [taken_append]
    omega

theorem accepts_of_eager (h : o.Eager o₁) {x : Order α} (hx : accepts o.side o x = true) :
    accepts o.side o₁ x = true := by
  simp only [accepts, Bool.not_eq_true', ← Bool.not_eq_true] at hx ⊢
  rw [refuses_eq_true] at hx ⊢
  rintro ⟨hbetter, hmarket⟩
  rcases h.price with hany | ⟨hlimit, hprice⟩
  · exact hmarket hany
  · refine hx ⟨?_, hlimit⟩
    cases hside : o.side with
    | buy =>
        rw [hside] at hprice hbetter
        exact Price.lt_of_le_of_lt hprice hbetter
    | sell =>
        rw [hside] at hprice hbetter
        exact Price.lt_of_lt_of_le hbetter hprice

/-- **A more eager order** takes no less of any order. -/
theorem Matched.eager (hm : Matched symbol b o out m b₁) (hm' : Matched symbol b o₁ out₁ m₁ b₂)
    (hl : Live b) (h : o.Eager o₁) (p : OrderID → Bool) :
    QueueBook.taken o.side p out.trades ≤ QueueBook.taken o.side p out₁.trades := by
  rw [hm.trades, hm'.trades, matched, matched, h.side]
  exact fillQueue_mono (hl _) (fun x _ => accepts_of_eager h) h.quantity p

end Matched

end QueueBook

end OrderMatchingEngine
