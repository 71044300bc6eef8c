import OrderMatchingEngine.Abstract.Steps

/-!
# OrderMatchingEngine.Abstract.Accounting

What the trades of a matching loop add up to, order by order.

`executed ts id` is the exact sum of the quantities of the trades that name the order `id`
as buyer or seller. Matching records every fill three times: at the taker, at the maker and
in the trade. `Executes` says that the three agree, in numbers and without wrapping.
-/

namespace OrderMatchingEngine

variable {α : Type}

/-- The trade names the order as buyer or as seller. -/
def Trade.names (t : Trade α) (id : OrderID) : Bool := t.buyOrderId == id || t.sellOrderId == id

/-- The exact quantity that the trades execute of an order. -/
def executed (trades : List (Trade α)) (id : OrderID) : Nat :=
  ((trades.filter (·.names id)).map fun t => t.quantity.toNat).sum

@[simp] theorem executed_nil (id : OrderID) : executed ([] : List (Trade α)) id = 0 := rfl

theorem executed_cons (t : Trade α) (ts : List (Trade α)) (id : OrderID) :
    executed (t :: ts) id = (if t.names id then t.quantity.toNat else 0) + executed ts id := by
  rw [executed, executed, List.filter_cons]
  split
  · rw [List.map_cons, List.sum_cons]
  · rw [Nat.zero_add]

theorem executed_append (ts ts' : List (Trade α)) (id : OrderID) :
    executed (ts ++ ts') id = executed ts id + executed ts' id := by
  rw [executed, List.filter_append, List.map_append, List.sum_append, executed, executed]

/-- Times do not matter. -/
theorem executed_untimed (ts : List (Trade α)) (id : OrderID) :
    executed (ts.map Trade.untimed) id = executed ts id := by
  induction ts with
  | nil => rfl
  | cons t ts ih =>
      rw [List.map_cons, executed_cons, executed_cons, ih]
      rfl

namespace QueueBook

theorem trade_names (sd : OrderSide) (own maker : Order α) (qty : Quantity) (id : OrderID) :
    (trade sd own maker qty).names id = true ↔ own.id = id ∨ maker.id = id := by
  cases sd <;> simp [trade, Trade.names, or_comm]

section TradeCons

variable {sd : OrderSide} {own maker : Order α} {qty : Quantity} {ts : List (Trade α)}

theorem executed_trade_own :
    executed (trade sd own maker qty :: ts) own.id = qty.toNat + executed ts own.id := by
  rw [executed_cons, if_pos ((trade_names ..).mpr (.inl rfl)), trade_quantity]

theorem executed_trade_maker :
    executed (trade sd own maker qty :: ts) maker.id = qty.toNat + executed ts maker.id := by
  rw [executed_cons, if_pos ((trade_names ..).mpr (.inr rfl)), trade_quantity]

theorem executed_trade_of_ne {id : OrderID} (hown : own.id ≠ id) (hmaker : maker.id ≠ id) :
    executed (trade sd own maker qty :: ts) id = executed ts id := by
  rw [executed_cons, if_neg (by rw [trade_names]; exact fun h => h.elim hown hmaker), Nat.zero_add]

/-- A trade of the taker with the first of the queue names none of the others. -/
theorem executed_trade_rest {rest : List (Order α)}
    (hids : (own.id :: (maker :: rest).map Order.id).Nodup) {y : Order α} (hy : y ∈ rest) :
    executed (trade sd own maker qty :: ts) y.id = executed ts y.id := by
  rw [List.map_cons, List.nodup_cons, List.mem_cons, not_or, List.nodup_cons] at hids
  obtain ⟨⟨-, hown⟩, hmaker, -⟩ := hids
  exact executed_trade_of_ne (fun h => hown (h ▸ List.mem_map_of_mem hy))
    (fun h => hmaker (h ▸ List.mem_map_of_mem hy))

end TradeCons

/-- The trades account exactly for what was executed of the taker and of each order of the
queue, and name no other order. -/
structure Executes (own : Order α) (queue : List (Order α)) (r : Filled α) : Prop where
  taker : r.own.quantityFilled.toNat = own.quantityFilled.toNat + executed r.trades own.id
  taker_le : r.own.quantityFilled.toNat ≤ own.quantity.toNat
  left : ∀ x ∈ r.queue, ∃ y ∈ queue, y.SameOrder x ∧
    x.quantityFilled.toNat = y.quantityFilled.toNat + executed r.trades y.id
  gone : ∀ y ∈ queue, (∃ x ∈ r.queue, y.SameOrder x) ∨ executed r.trades y.id = y.unfilled
  le : ∀ y ∈ queue, executed r.trades y.id ≤ y.unfilled
  others : ∀ id, id ≠ own.id → (∀ y ∈ queue, y.id ≠ id) → executed r.trades id = 0

/-- An order of which no more than all is executed can execute what it has left. -/
theorem quantityFilled_reduceQuantity {o : Order α} (h : o.quantityFilled ≤ o.quantity)
    {qty : Quantity} (hq : qty.toNat ≤ o.unfilled) :
    (o.reduceQuantity qty).quantityFilled.toNat = o.quantityFilled.toNat + qty.toNat ∧
      (o.reduceQuantity qty).quantityFilled.toNat ≤ o.quantity.toNat := by
  have hunfilled : o.unfilled = o.quantity.toNat - o.quantityFilled.toNat :=
    UInt64.toNat_sub_of_le _ _ h
  have hle := UInt64.le_iff_toNat_le.mp h
  have hbound := o.quantity.toNat_lt
  rw [hunfilled] at hq
  rw [Order.reduceQuantity_quantityFilled, UInt64.toNat_add, Nat.mod_eq_of_lt (by omega)]
  omega

theorem min_toNat_le (a b : Quantity) : (min a b).toNat ≤ a.toNat ∧ (min a b).toNat ≤ b.toNat := by
  by_cases h : a ≤ b
  · have hmin : min a b = a := if_pos h
    rw [hmin]
    exact ⟨Nat.le_refl _, UInt64.le_iff_toNat_le.mp h⟩
  · have hmin : min a b = b := if_neg h
    rw [hmin]
    exact ⟨Nat.le_of_lt (UInt64.lt_iff_toNat_lt.mp (UInt64.not_le.mp h)), Nat.le_refl _⟩

variable [LinearOrder α]

/-- **Every fill is booked three times with one quantity.** -/
theorem fillQueue_executes (sd : OrderSide) {own : Order α} {queue : List (Order α)}
    (hown : own.quantityFilled ≤ own.quantity) (hlive : ∀ y ∈ queue, y.Live)
    (hids : (own.id :: queue.map Order.id).Nodup) :
    Executes own queue (fillQueue sd own queue) := by
  fun_induction fillQueue sd own queue with
  | case1 own =>
      exact ⟨by simp, UInt64.le_iff_toNat_le.mp hown, by simp, by simp, by simp, by simp⟩
  | case2 own best rest hstop =>
      exact ⟨by simp, UInt64.le_iff_toNat_le.mp hown, fun x hx => ⟨x, hx, .refl x, by simp⟩,
        fun y hy => .inl ⟨y, hy, .refl y⟩, by simp, by simp⟩
  | case3 own best rest hgo qty hfilled r ih =>
      -- `best` is filled by this trade, and later trades are with others
      obtain ⟨hbest, hrest⟩ := List.forall_mem_cons.mp hlive
      have hskip : ∀ y ∈ rest, executed (trade sd own best qty :: r.trades) y.id =
          executed r.trades y.id := fun y hy => executed_trade_rest hids hy
      rw [List.map_cons, List.nodup_cons, List.mem_cons, not_or, List.nodup_cons] at hids
      obtain ⟨⟨hne, hown_rest⟩, hbest_rest, hnodup⟩ := hids
      have hqty : qty = best.remainingQty := min_of_isFilled hbest hfilled
      have hown_le : qty.toNat ≤ own.unfilled := (min_toNat_le _ _).1
      obtain ⟨hqf, hqf_le⟩ := quantityFilled_reduceQuantity hown hown_le
      have hr : Executes (own.reduceQuantity qty) rest r :=
        ih (UInt64.le_iff_toNat_le.mpr hqf_le) hrest (List.nodup_cons.mpr ⟨hown_rest, hnodup⟩)
      have hbest_eq : executed (trade sd own best qty :: r.trades) best.id = best.unfilled := by
        rw [executed_trade_maker, hr.others best.id (Ne.symm hne)
          (fun y hy h => hbest_rest (h ▸ List.mem_map_of_mem hy)), hqty]
        rfl
      constructor
      · rw [executed_trade_own, hr.taker, hqf, Order.reduceQuantity_id]
        omega
      · exact hr.taker_le
      · intro x hx
        obtain ⟨y, hy, hyx, hxq⟩ := hr.left x hx
        exact ⟨y, List.mem_cons_of_mem _ hy, hyx, by rw [hskip y hy]; exact hxq⟩
      · refine List.forall_mem_cons.mpr ⟨.inr hbest_eq, ?_⟩
        intro y hy
        rw [hskip y hy]
        exact hr.gone y hy
      · refine List.forall_mem_cons.mpr ⟨Nat.le_of_eq hbest_eq, ?_⟩
        intro y hy
        rw [hskip y hy]
        exact hr.le y hy
      · intro id hid hqueue
        obtain ⟨hbest_id, hrest_id⟩ := List.forall_mem_cons.mp hqueue
        rw [executed_trade_of_ne (Ne.symm hid) hbest_id]
        exact hr.others id hid hrest_id
  | case4 own best rest hgo qty hfilled =>
      -- `best` outlasts the taker, so this is the last trade
      obtain ⟨hbest, hrest⟩ := List.forall_mem_cons.mp hlive
      have hskip : ∀ y ∈ rest, executed [trade sd own best qty] y.id = 0 :=
        fun y hy => executed_trade_rest hids hy
      have hown_le : qty.toNat ≤ own.unfilled := (min_toNat_le _ _).1
      have hbest_le : qty.toNat ≤ best.unfilled := (min_toNat_le _ _).2
      obtain ⟨hqf, hqf_le⟩ := quantityFilled_reduceQuantity hown hown_le
      have hbest_eq : executed [trade sd own best qty] best.id = qty.toNat := executed_trade_maker
      constructor
      · rw [executed_trade_own, hqf]
        rfl
      · exact hqf_le
      · refine List.forall_mem_cons.mpr ⟨⟨best, List.mem_cons_self ..,
          Order.sameOrder_reduceQuantity best qty, ?_⟩, fun y hy =>
            ⟨y, List.mem_cons_of_mem _ hy, .refl y, by rw [hskip y hy]; rfl⟩⟩
        rw [hbest_eq]
        exact hbest.quantityFilled_reduceQuantity hbest_le
      · refine List.forall_mem_cons.mpr ⟨.inl ⟨_, List.mem_cons_self ..,
          Order.sameOrder_reduceQuantity best qty⟩, ?_⟩
        intro y hy
        exact .inl ⟨y, List.mem_cons_of_mem _ hy, .refl y⟩
      · refine List.forall_mem_cons.mpr ⟨by rw [hbest_eq]; exact hbest_le, ?_⟩
        intro y hy
        rw [hskip y hy]
        exact Nat.zero_le _
      · intro id hid hqueue
        exact executed_trade_of_ne (Ne.symm hid) (List.forall_mem_cons.mp hqueue).1

/-! ### Steps -/

/-- What the trades of a step account for: the executed quantities of the orders that rest
before and after it, and of the order it processes. -/
structure Accounts (b : QueueBook α) (c : Call α) (r : Ret α) (b' : QueueBook α) : Prop where
  resting : ∀ sd, ∀ x ∈ b'.orders sd,
    (∃ y ∈ b.orders sd, y.SameOrder x ∧
      x.quantityFilled.toNat = y.quantityFilled.toNat + executed r.trades x.id) ∨
    ∃ o, c = .processNewOrder o ∧ o.SameOrder x ∧ x.quantityFilled.toNat = executed r.trades x.id
  gone : ∀ sd, ∀ y ∈ b.orders sd, (∃ x ∈ b'.orders sd, y.SameOrder x) ∨
    executed r.trades y.id = y.unfilled ∨
    ∃ symbol side, c = .cancelOrder y.id symbol side ∧ r = .cancelled (some y)
  le : ∀ sd, ∀ y ∈ b.orders sd, executed r.trades y.id ≤ y.unfilled
  taker : ∀ o, c = .processNewOrder o → executed r.trades o.id ≤ o.quantity.toNat ∧
    ∀ out, r = .processed out → out.exit = .filled → executed r.trades o.id = o.quantity.toNat
  others : ∀ id, (∀ o, c = .processNewOrder o → o.id ≠ id) →
    (∀ sd, ∀ y ∈ b.orders sd, y.id ≠ id) → executed r.trades id = 0

omit [LinearOrder α] in
/-- A step that trades nothing accounts for everything. -/
theorem Accounts.of_no_trades {b b' : QueueBook α} {c : Call α} {r : Ret α} (ht : r.trades = [])
    (hkeep : ∀ sd, ∀ x ∈ b'.orders sd, x ∈ b.orders sd)
    (hgone : ∀ sd, ∀ y ∈ b.orders sd, y ∈ b'.orders sd ∨
      ∃ symbol side, c = .cancelOrder y.id symbol side ∧ r = .cancelled (some y))
    (hfilled : ∀ out, r = .processed out → out.exit ≠ .filled) : Accounts b c r b' where
  resting sd x hx := .inl ⟨x, hkeep sd x hx, .refl x, by rw [ht]; rfl⟩
  gone sd y hy := (hgone sd y hy).imp (fun h => ⟨y, h, .refl y⟩) .inr
  le sd y hy := by rw [ht]; exact Nat.zero_le _
  taker o ho := ⟨by rw [ht]; exact Nat.zero_le _, fun out hout h => absurd h (hfilled out hout)⟩
  others id _ _ := by rw [ht]; rfl

variable [Zero α] {symbol : Symbol} {b b' : QueueBook α} {c : Call α} {r : Ret α}

omit [Zero α] in
/-- An order with a fresh id, submitted unfilled, is matched with exact books. -/
theorem matched_executes {o : Order α} (hb : WF symbol b) (hl : Live b)
    (hqf : o.quantityFilled = 0) (hfresh : ∀ x ∈ b.allOrders, x.id ≠ o.id) :
    Executes o (b.orders o.side.opposite) (b.matched o) := by
  refine fillQueue_executes o.side (hqf ▸ UInt64.zero_le) (hl _) ?_
  refine List.nodup_cons.mpr ⟨?_, hb.orders_ids _⟩
  intro h
  obtain ⟨x, hx, hid⟩ := List.mem_map.mp h
  exact hfresh x (mem_allOrders.mpr ⟨_, hx⟩) hid

omit [Zero α] in
/-- What matching an order accounts for. -/
theorem Matched.accounts {o : Order α} {out : Outcome α} {b₁ : QueueBook α} (hb : WF symbol b)
    (hm : Matched symbol b o out b₁ b') (hl : Live b) (hqf : o.quantityFilled = 0)
    (hfresh : ∀ x ∈ b.allOrders, x.id ≠ o.id) :
    Accounts b (.processNewOrder o) (.processed out) b' := by
  have hex := matched_executes hb hl hqf hfresh
  have htrades : (Ret.processed out).trades = (b.matched o).trades := hm.trades
  have hid : out.order.id = o.id := by rw [hm.same]
  have htaker : out.order.quantityFilled.toNat = executed (b.matched o).trades o.id := by
    rw [hm.order, hex.taker, hqf]
    exact Nat.zero_add _
  -- the orders of the taker's own side are in no trade
  have hown : ∀ y ∈ b.orders o.side, executed (b.matched o).trades y.id = 0 := by
    intro y hy
    refine hex.others y.id (hfresh y (mem_allOrders.mpr ⟨_, hy⟩)) ?_
    intro x hx hxy
    obtain rfl := hb.id_inj (mem_allOrders.mpr ⟨_, hx⟩) (mem_allOrders.mpr ⟨_, hy⟩) hxy
    exact o.side.ne_opposite ((hb.sides _ _ hy).symm.trans (hb.sides _ _ hx))
  constructor
  · intro sd x hx
    rw [htrades]
    rcases hm.mem_orders hx with ⟨rfl, hx⟩ | ⟨-, -, rfl⟩ | ⟨rfl, hleft⟩
    · exact .inl ⟨x, hx, .refl x, by rw [hown x hx, Nat.add_zero]⟩
    · exact .inr ⟨o, rfl, hm.same, by rw [hid]; exact htaker⟩
    · obtain ⟨y, hy, hyx, hq⟩ := hex.left x hleft
      have hxid : x.id = y.id := by rw [hyx]
      exact .inl ⟨y, hy, hyx, by rw [hxid]; exact hq⟩
  · intro sd y hy
    by_cases hsd : sd = o.side
    · subst hsd
      exact .inl ⟨y, hm.mem_own.mpr (.inl hy), .refl y⟩
    · obtain rfl := OrderSide.eq_opposite_of_ne hsd
      rw [hm.orders_opposite, htrades]
      exact (hex.gone y hy).imp_right .inl
  · intro sd y hy
    rw [htrades]
    by_cases hsd : sd = o.side
    · subst hsd
      rw [hown y hy]
      exact Nat.zero_le _
    · obtain rfl := OrderSide.eq_opposite_of_ne hsd
      exact hex.le y hy
  · intro o' ho
    obtain rfl := Call.processNewOrder.inj ho
    have hle : executed (b.matched o).trades o.id ≤ o.quantity.toNat := by
      rw [← htaker, hm.order]
      exact hex.taker_le
    rw [htrades]
    refine ⟨hle, ?_⟩
    intro out' hout hexit
    obtain rfl := Ret.processed.inj hout
    rcases settle_cases hm.settled with ⟨h, -⟩ | ⟨-, ⟨-, hfilled⟩ | ⟨h, -⟩ | ⟨h, -⟩⟩
    · simp [h] at hexit
    · -- a filled order has executed no less than its quantity
      have hquantity : out.order.quantity = o.quantity := by rw [hm.same]
      rw [Order.Live, UInt64.not_lt, UInt64.le_iff_toNat_le, hquantity, htaker] at hfilled
      exact Nat.le_antisymm hle hfilled
    · simp [h] at hexit
    · simp [h] at hexit
  · intro id hid hothers
    rw [htrades]
    exact hex.others id (hid o rfl).symm fun y hy => hothers _ y hy

/-- **Every step accounts for what it executes**, when ids are fresh and orders come in
unfilled. -/
theorem step_accounts (hb : WF symbol b) (h : Step b c r b') (hl : Live b) (hc : c.Unfilled)
    (hfresh : ∀ o, c = .processNewOrder o → ∀ x ∈ b.allOrders, x.id ≠ o.id) :
    Accounts b c r b' := by
  cases c with
  | cancelOrder id symbol side =>
      cases h with
      | cancel h =>
          obtain ⟨rfl, -, horders⟩ := hb.cancelOrder_ok h
          refine .of_no_trades rfl ?_ ?_ (by simp)
          · intro sd x hx
            rw [horders] at hx
            exact (List.mem_filter.mp hx).1
          · intro sd y hy
            by_cases hid : y.id = id
            · subst hid
              refine .inr ⟨symbol, side, rfl, ?_⟩
              rw [hb.find?_eq_some.mpr ⟨mem_allOrders.mpr ⟨sd, hy⟩, rfl⟩]
            · rw [horders]
              exact .inl (List.mem_filter.mpr ⟨hy, by simpa using hid⟩)
  | processNewOrder o =>
      obtain ⟨out, rfl, ⟨rfl, -, htrades, hexit⟩ | ⟨-, b₁, hm⟩⟩ := step_process hb h
      · refine .of_no_trades htrades (fun _ _ hx => hx) (fun _ _ hy => .inl hy) ?_
        intro out' hout
        obtain rfl := Ret.processed.inj hout
        rcases hexit with h | ⟨h, -⟩ | ⟨h, -⟩ <;> simp [h]
      · exact hm.accounts hb hl hc (hfresh o rfl)

end QueueBook

end OrderMatchingEngine
