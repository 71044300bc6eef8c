import OrderMatchingEngine.Abstract.FillOrKill
import OrderMatchingEngine.Abstract.Ladder

/-!
# OrderMatchingEngine.Abstract.Depth

What a MARKET order for the first levels of a ladder trades.

`top k sd` are the orders of the first `k` levels of a side. A MARKET order for all they have left
trades with each of them and with no other (`fills_market`). Its trades come to the entries of the
ladder, price by price, exactly if these orders rest at the price of their level
(`submit_market_iff`).
-/

namespace OrderMatchingEngine

namespace QueueBook

variable {α : Type}

/-- The orders of the first levels of a side. -/
def top (k : Nat) (b : QueueBook α) (sd : OrderSide) : List (Order α) :=
  ((b.ranked sd).take k).flatMap Prod.snd

/-- What trades add up to at each price, prices in the order in which they were traded. -/
def perPrice [DecidableEq α] (trades : List (Trade α)) : List (Price α × Nat) :=
  LevelMap.totals (trades.map fun t => (t.price, t.quantity.toNat))

theorem orders_top (k : Nat) (b : QueueBook α) (sd : OrderSide) :
    b.orders sd = b.top k sd ++ ((b.ranked sd).drop k).flatMap Prod.snd := by
  rw [top, ← List.flatMap_append, List.take_append_drop, orders_ranked]

theorem mem_orders_of_top {k : Nat} {b : QueueBook α} {sd : OrderSide} {x : Order α}
    (h : x ∈ b.top k sd) : x ∈ b.orders sd := by
  rw [orders_top k]
  exact List.mem_append_left _ h

/-- The first entries of a ladder are a shorter ladder. -/
theorem take_ladder {k depth : Nat} (h : k ≤ depth) (b : QueueBook α) (sd : OrderSide) :
    (b.ladder depth sd).take k = b.ladder k sd := by
  rw [ladder, ladder, ← List.map_take, List.take_take, Nat.min_eq_left h]

/-- If the total of the first levels is small enough, the quantities of the ladder add up to it. -/
theorem sum_ladder {k : Nat} {b : QueueBook α} {sd : OrderSide}
    (h : ((b.top k sd).map Order.unfilled).sum < 2 ^ 64) :
    ((b.ladder k sd).map Prod.snd).sum.toNat = ((b.top k sd).map Order.unfilled).sum := by
  have hsum : ((b.ladder k sd).map Prod.snd).sum = ((b.top k sd).map Order.remainingQty).sum := by
    rw [ladder, top, List.map_map, List.map_flatMap, List.flatMap, List.sum_flatten, List.map_map]
    rfl
  rw [hsum, toNat_sum, List.map_map]
  exact Nat.mod_eq_of_lt h

variable [LinearOrder α] {symbol : Symbol} {b : QueueBook α} {o : Order α} {k : Nat}

/-- If the orders of the first levels have the keys of such levels for their prices, then each has
the key of its own. -/
theorem exact_top (hb : WF symbol b) {sd : OrderSide}
    (h : ∀ x ∈ b.top k sd, x.price ∈ ((b.ranked sd).take k).map Prod.fst) :
    LevelMap.Exact Order.price ((b.ranked sd).take k) := by
  intro l hl x hx
  obtain ⟨l', hl', hprice⟩ := List.mem_map.mp (h x (List.mem_flatMap.mpr ⟨l, hl, hx⟩))
  have hmem := mem_ranked.mp (List.mem_of_mem_take hl)
  obtain ⟨hbelow, habove⟩ := (hb.levels sd).keyed l hmem x hx
  rw [← hprice] at hbelow habove
  rw [← hprice, LevelMap.eq_of_not_lt (hb.levels sd).sorted hmem
    (mem_ranked.mp (List.mem_of_mem_take hl')) hbelow habove]

/-- A level whose key is not a number is the only one. -/
theorem lowest_of_nan {m : List (Price α × List (Order α))}
    (hm : LevelMap.WF Order.price m) {l : Price α × List (Order α)} (hl : l ∈ m)
    (hnan : l.1 = .nan) : lowest m = l.2 := by
  obtain ⟨l', m', rfl⟩ := List.exists_cons_of_ne_nil (List.ne_nil_of_mem hl)
  rw [LevelMap.eq_of_not_lt hm.sorted hl List.mem_cons_self (hnan ▸ Price.not_nan_lt l'.1)
    (hnan ▸ Price.not_lt_nan l'.1)]
  rfl

/-- **A MARKET order for all that the first levels have** trades it, order by order. -/
theorem fills_market (hl : Live b) (ho : o.type = .market)
    (hq : o.unfilled = ((b.top k o.side.opposite).map Order.unfilled).sum) :
    b.fills o = (b.top k o.side.opposite).map fun x => (x, x.unfilled) := by
  have hpos : ∀ n ∈ (b.top k o.side.opposite).map Order.unfilled, 0 < n := by
    intro n hn
    obtain ⟨x, hx, rfl⟩ := List.mem_map.mp hn
    exact (hl _ x (mem_orders_of_top hx)).unfilled_pos
  rw [fills, accepted_market b ho, orders_top k, List.map_append, hq,
    Greedy.amounts_sum_append hpos, ← List.append_nil (List.map Order.unfilled _),
    List.zip_append (by rw [List.length_map]), List.zip_nil_right, List.append_nil,
    List.map_prod_left_eq_zip]

/-- Its trades, price by price. -/
theorem perPrice_market (hl : Live b) (ho : o.type = .market)
    (hq : o.unfilled = ((b.top k o.side.opposite).map Order.unfilled).sum) :
    perPrice (b.matched o).trades =
      LevelMap.totals ((b.top k o.side.opposite).map fun x => (x.price, x.unfilled)) := by
  have htrades : (b.matched o).trades.map (fun t => (t.price, t.quantity.toNat)) =
      (b.top k o.side.opposite).map fun x => (x.price, x.unfilled) := by
    rw [matched_trades hl, fills_market hl ho hq, List.map_map, List.map_map]
    refine List.map_congr_left fun x _ => ?_
    rw [Function.comp_apply, Function.comp_apply, trade_quantity, trade_price, Order.unfilled,
      UInt64.ofNat_toNat]
  rw [perPrice, htrades]

/-- The ladder adds up, price by price, what the orders of its levels have left, exactly if these
rest at the price of their level. -/
theorem totals_top_iff (hb : WF symbol b) {sd : OrderSide}
    (h : ((b.top k sd).map Order.unfilled).sum < 2 ^ 64) :
    LevelMap.totals ((b.top k sd).map fun x => (x.price, x.unfilled)) =
        (b.ladder k sd).map (fun x => (x.1, x.2.toNat)) ↔
      LevelMap.Exact Order.price ((b.ranked sd).take k) := by
  have hladder : (b.ladder k sd).map (fun x => (x.1, x.2.toNat)) =
      ((b.ranked sd).take k).map fun l => (l.1, (l.2.map Order.unfilled).sum) := by
    rw [ladder, List.map_map]
    refine List.map_congr_left fun l hl => ?_
    have hle : (l.2.map Order.unfilled).sum ≤ ((b.top k sd).map Order.unfilled).sum :=
      ((List.sublist_flatten_of_mem (List.mem_map_of_mem hl)).map _).sum_le_sum (by simp)
    exact congrArg (Prod.mk l.1) (quoteLevel_toNat (Nat.lt_of_le_of_lt hle h))
  rw [hladder]
  constructor
  · intro htotals
    refine exact_top hb fun x hx => ?_
    have hfst := congrArg (List.map Prod.fst) htotals
    rw [List.map_map] at hfst
    show x.price ∈ ((b.ranked sd).take k).map Prod.fst
    have hx' : x.price ∈ (LevelMap.totals ((b.top k sd).map fun x => (x.price, x.unfilled))).map
        Prod.fst := by
      rw [LevelMap.fst_mem_totals, List.map_map]
      exact List.mem_map_of_mem hx
    rwa [hfst] at hx'
  · intro hexact
    have hsub := List.take_sublist k (b.ranked sd)
    exact hexact.totals ((ranked_keys hb sd).sublist hsub)
      (fun l hl => (hb.levels sd).nonempty l (mem_ranked.mp (hsub.mem hl))) Order.unfilled

/-- Nothing blocks a MARKET order for levels whose orders rest at their price. -/
theorem not_blocked_market (hb : WF symbol b) (hl : Live b) (ho : o.type = .market)
    (hq : o.unfilled = ((b.top k o.side.opposite).map Order.unfilled).sum)
    (hexact : LevelMap.Exact Order.price ((b.ranked o.side.opposite).take k)) :
    ¬ Blocked b o := by
  intro hblocked
  obtain ⟨hside, fill, hfill, -, hnan, hlow⟩ := hblocked
  rw [fills_market hl ho hq] at hfill
  obtain ⟨x, hx, rfl⟩ := List.mem_map.mp hfill
  rw [hside] at hx hexact
  obtain ⟨l, hl, hxl⟩ := List.mem_flatMap.mp hx
  have hmem : l ∈ b.levels .buy := mem_ranked.mp (List.mem_of_mem_take hl)
  refine hlow ?_
  show x ∈ lowest (b.levels .buy)
  rw [lowest_of_nan (hb.levels .buy) hmem ((hexact l hl x hxl).trans hnan)]
  exact hxl

/-- **A MARKET order for the quantities of a ladder trades the ladder exactly if** the orders of
its levels rest at the price of their level. -/
theorem submit_market_iff (hb : WF symbol b) (hl : Live b) (ho : o.type = .market)
    (hqf : o.quantityFilled = 0)
    (htotal : ((b.top k o.side.opposite).map Order.unfilled).sum < 2 ^ 64)
    (hq : o.quantity = ((b.ladder k o.side.opposite).map Prod.snd).sum) :
    (∃ fuel out b', b.submit fuel o = .ok (out, b') ∧ out.exit = .filled ∧
        volume out.trades = o.quantity.toNat ∧
        perPrice out.trades = (b.ladder k o.side.opposite).map fun x => (x.1, x.2.toNat)) ↔
      LevelMap.Exact Order.price ((b.ranked o.side.opposite).take k) := by
  have hunfilled : o.unfilled = o.quantity.toNat := by
    rw [Order.unfilled, Order.remainingQty, hqf, UInt64.sub_zero]
  have hsum : o.unfilled = ((b.top k o.side.opposite).map Order.unfilled).sum := by
    rw [hunfilled, hq, sum_ladder htotal]
  rw [← totals_top_iff hb htotal, ← perPrice_market hl ho hsum]
  have hnotFok : o.type ≠ .fok := by simp [ho]
  constructor
  · intro h
    obtain ⟨fuel, out, b', hs, -, -, hprices⟩ := h
    obtain ⟨b₁, hm⟩ := (submit_ok hb hs).resolve_left fun h => hnotFok h.2.2.1
    rwa [hm.trades] at hprices
  · intro hprices
    have hexact := (totals_top_iff hb htotal).mp ((perPrice_market hl ho hsum).symm.trans hprices)
    obtain ⟨fuel, out, b₁, b', hs, hm⟩ := submit_of_not_blocked hb hl
      (fun hfok => absurd hfok hnotFok) (not_blocked_market hb hl ho hsum hexact)
    -- there is at least what the first levels have
    have henough : o.unfilled ≤ b.liquidity o := by
      rw [hsum, liquidity_market b ho, orders_top k b, List.map_append, List.sum_append]
      exact Nat.le_add_right ..
    refine ⟨fuel, out, b', hs, ?_, ?_, ?_⟩
    · rw [hm.exit_filled, hm.order]
      intro hlive
      have hpos := hlive.unfilled_pos
      rw [matched_unfilled hl] at hpos
      omega
    · rw [hm.trades, volume_matched hl, Nat.min_eq_left henough, hunfilled]
    · rw [hm.trades]
      exact hprices

end QueueBook

end OrderMatchingEngine
