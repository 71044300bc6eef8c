import OrderMatchingEngine.Abstract.Liquidity

/-!
# OrderMatchingEngine.Abstract.FillOrKill

When is a FOK order filled?

The scan of `can_fill_completely` subtracts what it reads from an unsigned counter and asks
whether the counter is at or below zero. It therefore succeeds exactly when it lands on zero
(`canFillCompletely_iff`), not when it passes it. A matching loop that is then entered gives
the order all it wants if there is enough in front of the first order it refuses
(`submit_fills_iff`), and it returns unless it has to take an order off the book that the
look-up by price does not find (`matchAgainst_returns_iff`).
-/

namespace OrderMatchingEngine

open FuelLoop (Iter)
open MatchingEngine (scanLevel scanLevels)

/-- The price satisfies the limit of an order on this side, as doubles are compared. -/
def OrderSide.within {α : Type} [LE α] : OrderSide → Price α → Price α → Prop
  | .buy, limit, p => p ≤ limit
  | .sell, limit, p => limit ≤ p

instance {α : Type} [LE α] [DecidableLE α] :
    (sd : OrderSide) → (limit p : Price α) → Decidable (sd.within limit p)
  | .buy, limit, p => inferInstanceAs (Decidable (p ≤ limit))
  | .sell, limit, p => inferInstanceAs (Decidable (limit ≤ p))

namespace QueueBook

variable {α : Type} [LinearOrder α] {symbol : Symbol} {b : QueueBook α} {o : Order α}

/-- What the opposite orders whose price satisfies the limit have left, as a number. -/
def liquidityWithin (b : QueueBook α) (o : Order α) : Nat :=
  (((b.orders o.side.opposite).filter fun x => o.side.within o.price x.price).map
    Order.unfilled).sum

/-- The orders that the scan may read, in its order: levels from the lowest price up, until one
is beyond the limit. -/
def scanned (b : QueueBook α) (o : Order α) : List (Order α) :=
  LevelMap.up ((b.levels o.side.opposite).takeWhile fun l =>
    !decide (o.side.opposite.better o.price l.1))

/-- Some of the orders read first have exactly the quantity, in unsigned arithmetic. -/
def ScanHits (b : QueueBook α) (o : Order α) : Prop :=
  ∃ k ≤ (b.scanned o).length, (((b.scanned o).take k).map Order.remainingQty).sum = o.quantity

instance (b : QueueBook α) (o : Order α) : Decidable (ScanHits b o) :=
  inferInstanceAs (Decidable (∃ k ≤ _, _ = _))

/-- The first level of a map. -/
def lowest {β : Type} (m : List (Price α × List β)) : List β := (m.head?.map Prod.snd).getD []

/-- A sale that would use up a bid whose price is not a number and which rests above the lowest
level, so that the look-up by its price goes to another level. -/
def Blocked (b : QueueBook α) (o : Order α) : Prop :=
  o.side = .sell ∧ ∃ fill ∈ b.fills o,
    fill.2 = fill.1.unfilled ∧ fill.1.price = .nan ∧ fill.1 ∉ lowest b.bids

instance (b : QueueBook α) (o : Order α) [DecidableEq α] : Decidable (Blocked b o) :=
  inferInstanceAs (Decidable (_ ∧ ∃ fill ∈ _, _))

/-! ### The scan lands on zero -/

section Scan

variable {β : Type} {remaining : β → Quantity}

/-- A level with a front part of the needed quantity completes the scan. -/
theorem scanLevel_eq_none {needed : Quantity} {l pre : List β} (hpre : pre <+: l)
    (hne : pre ≠ []) (hsum : (pre.map remaining).sum = needed) :
    scanLevel remaining needed l = none := by
  induction l generalizing needed pre with
  | nil => exact absurd (List.prefix_nil.mp hpre) hne
  | cons x l ih =>
      obtain ⟨y, pre, rfl⟩ := List.exists_cons_of_ne_nil hne
      obtain ⟨rfl, hrest⟩ := List.cons_prefix_cons.mp hpre
      rw [List.map_cons, List.sum_cons] at hsum
      rw [scanLevel]
      split
      · rfl
      · rename_i hmore
        refine ih hrest ?_ (by rw [← hsum]; grind)
        rintro rfl
        refine hmore (UInt64.le_zero_iff.mpr ?_)
        rw [← hsum]
        simp

omit [LinearOrder α] in
/-- Front orders with exactly the needed quantity make the scan succeed. -/
theorem scanLevels_eq_true {tooFar : Price α → Bool} {needed : Quantity}
    {m : List (Price α × List β)} {pre : List β}
    (hpre : pre <+: LevelMap.up (m.takeWhile fun l => !tooFar l.1)) (hne : pre ≠ [])
    (hsum : (pre.map remaining).sum = needed) : scanLevels remaining tooFar needed m = true := by
  induction m generalizing needed pre with
  | nil => exact absurd (List.prefix_nil.mp hpre) hne
  | cons l m ih =>
      obtain ⟨k, q⟩ := l
      unfold scanLevels
      by_cases hfar : tooFar k = true
      · rw [List.takeWhile_cons_of_neg (by simpa using hfar)] at hpre
        exact absurd (List.prefix_nil.mp hpre) hne
      rw [if_neg hfar]
      rw [List.takeWhile_cons_of_pos (by simpa using hfar), LevelMap.up_cons] at hpre
      rcases hscan : scanLevel remaining needed q with _ | needed'
      · rfl
      -- a level that leaves the scan short holds no front part of the needed quantity
      · have hshort : ∀ front, front <+: q → front ≠ [] → (front.map remaining).sum ≠ needed := by
          intro front hfront hne' hsum'
          rw [scanLevel_eq_none hfront hne' hsum'] at hscan
          simp at hscan
        rcases List.prefix_or_prefix_of_prefix hpre (List.prefix_append q _) with
          hfront | ⟨rest, rfl⟩
        · exact absurd hsum (hshort pre hfront hne)
        · refine ih ((List.prefix_append_right_inj q).mp hpre) ?_ ?_
          · rintro rfl
            rw [List.append_nil] at hne hsum
            exact hshort q List.prefix_rfl hne hsum
          · have hleft := scanLevel_some hscan
            rw [List.map_append, List.sum_append] at hsum
            rw [hleft] at hsum
            exact add_left_cancel hsum

end Scan

/-- **The scan succeeds exactly when it hits the quantity.** -/
theorem canFillCompletely_iff (hq : o.quantity ≠ 0) :
    b.canFillCompletely o = true ↔ ScanHits b o := by
  rw [canFillCompletely_eq]
  constructor
  · intro h
    obtain ⟨pre, post, hread, -, hsum⟩ := scanLevels_true h
    have hlist : b.scanned o = pre ++ post := hread
    refine ⟨pre.length, by simp [hlist], ?_⟩
    rw [hlist, List.take_left', hsum]
    rfl
  · intro h
    obtain ⟨k, -, hsum⟩ := h
    refine scanLevels_eq_true (List.take_prefix k (b.scanned o)) ?_ hsum
    intro hnil
    rw [hnil] at hsum
    exact hq hsum.symm

/-! ### Taking the best order off the book -/

/-- An order whose price is a number rests in the level that its price selects. -/
theorem mem_of_find? {m : List (Price α × List (Order α))} (hm : LevelMap.WF Order.price m)
    {x : Order α} (hx : x ∈ LevelMap.up m) (hnum : x.price ≠ .nan) {q : List (Order α)}
    (h : LevelMap.find? x.price m = some q) : x ∈ q := by
  obtain ⟨lo, k, hi, rfl, hlo, hk, hk', -⟩ := LevelMap.find?_split h
  obtain ⟨l, hl, hxl⟩ := LevelMap.mem_up.mp hx
  have hkeyed := hm.keyed l hl x hxl
  rcases List.mem_append.mp hl with hl | hl
  · exact absurd (hlo l hl) hkeyed.1
  rcases List.mem_cons.mp hl with rfl | hl
  · exact hxl
  -- a later level would have the same number for its key
  · have hsorted := (List.pairwise_cons.mp (List.pairwise_append.mp hm.sorted).2.1).1 l hl
    have hfirst : k ≠ .nan := fun hnan => Price.not_nan_lt l.1 (hnan ▸ hsorted)
    have hlast : l.1 ≠ .nan := fun hnan => Price.not_lt_nan k (hnan ▸ hsorted)
    rw [Price.eq_of_not_lt hfirst hnum hk hk',
      Price.eq_of_not_lt hlast hnum hkeyed.1 hkeyed.2] at hsorted
    exact absurd hsorted (irrefl_of (· < ·) x.price)

/-- The cancel of an order fails if its price selects another level. -/
theorem cancelOrder_of_find? (hb : WF symbol b) {sd : OrderSide} {x : Order α}
    (hx : x ∈ b.orders sd) {q : List (Order α)}
    (hq : LevelMap.find? x.price (b.levels sd) = some q) :
    (x ∈ q → ∃ r, b.cancelOrder x.id = .ok r) ∧
      (x ∉ q → b.cancelOrder x.id = .error .invalidIterator) := by
  have hany := hb.any_id_iff hx hq
  rw [hb.cancelOrder_resting hx hq]
  constructor
  · intro h
    rw [if_pos (hany.mpr h)]
    exact ⟨_, rfl⟩
  · intro h
    rw [if_neg fun hin => h (hany.mp hin)]

/-- The best ask is in the level its price selects: there is none below it. -/
theorem cancelOrder_bestAsk (hb : WF symbol b) {best : Order α} {rest : List (Order α)}
    (h : b.orders .sell = best :: rest) : ∃ r, b.cancelOrder best.id = .ok r := by
  have hbest : best ∈ b.orders .sell := by rw [h]; exact List.mem_cons_self ..
  have hup : LevelMap.up b.asks = best :: rest := h
  have hwf := hb.levels .sell
  rcases hm : b.asks with _ | ⟨l, m⟩
  · simp [hm] at hup
  · have hlevels : b.levels .sell = l :: m := hm
    rw [hlevels] at hwf
    obtain ⟨x, q, hl⟩ := List.exists_cons_of_ne_nil (hwf.nonempty l (by simp))
    rw [hm, LevelMap.up_cons, hl, List.cons_append] at hup
    obtain rfl := (List.cons.inj hup).1
    have hkeyed := hwf.keyed l (by simp) x (by simp [hl])
    refine (cancelOrder_of_find? hb hbest (q := l.2) ?_).1 (by simp [hl])
    rw [hlevels, LevelMap.find?, if_neg hkeyed.1, if_neg hkeyed.2]

/-- The best bid can be taken off unless its price is not a number and another level is
below. -/
theorem cancelOrder_bestBid (hb : WF symbol b) {best : Order α} {rest : List (Order α)}
    (h : b.orders .buy = best :: rest) :
    (∃ r, b.cancelOrder best.id = .ok r) ↔ ¬ (best.price = .nan ∧ best ∉ lowest b.bids) := by
  have hbest : best ∈ b.orders .buy := by rw [h]; exact List.mem_cons_self ..
  have hwf := hb.levels .buy
  obtain ⟨q, hq⟩ := hwf.find?_isSome (mem_orders.mp hbest)
  obtain ⟨hok, herror⟩ := cancelOrder_of_find? hb hbest hq
  have hiff : (∃ r, b.cancelOrder best.id = .ok r) ↔ best ∈ q := by
    refine ⟨fun hr => ?_, hok⟩
    by_contra hnot
    obtain ⟨r, hr⟩ := hr
    simp [herror hnot] at hr
  rw [hiff]
  by_cases hnan : best.price = .nan
  · -- such a price selects the lowest level
    have hlowest : q = lowest b.bids := by
      have hlevels : b.levels .buy = b.bids := rfl
      rw [hnan, hlevels] at hq
      rcases hm : b.bids with _ | ⟨l, m⟩
      · simp [hm, LevelMap.find?] at hq
      · rw [hm, LevelMap.find?, if_neg (Price.not_lt_nan _), if_neg (Price.not_nan_lt _)] at hq
        exact (Option.some.inj hq).symm
    rw [hlowest]
    simp [hnan]
  · exact iff_of_true (mem_of_find? hwf (mem_orders.mp hbest) hnan hq) fun hbad => hnan hbad.1

omit [LinearOrder α] in
theorem mem_up_of_lowest {β : Type} {m : List (Price α × List β)} {x : β} (h : x ∈ lowest m) :
    x ∈ LevelMap.up m := by
  cases m with
  | nil => exact h
  | cons l m => exact List.mem_append_left _ h

/-- What is taken out of a higher level is not seen in the lowest one. -/
theorem lowest_remove_of_lt {β : Type} {l : Price α × List β} {k : Price α} (h : l.1 < k)
    (p : β → Bool) (m : List (Price α × List β)) :
    lowest (LevelMap.remove k p (l :: m)) = lowest (l :: m) := by
  rw [LevelMap.remove, if_pos h]
  rfl

/-- What is taken out of the only level leaves the others there. -/
theorem mem_lowest_remove {β : Type} {l : Price α × List β} {k : Price α} (h : ¬ l.1 < k)
    (h' : ¬ k < l.1) {p : β → Bool} {x : β} (hx : x ∈ l.2) (hp : p x = false) :
    x ∈ lowest (LevelMap.remove k p [l]) := by
  have hkept : x ∈ l.2.filter fun y => !p y := List.mem_filter.mpr ⟨hx, by simpa using hp⟩
  have hne : ¬ (l.2.filter fun y => !p y).isEmpty = true := by
    rw [List.isEmpty_iff]
    exact List.ne_nil_of_mem hkept
  rw [LevelMap.remove, if_neg h, if_neg h', LevelMap.consLevel, if_neg hne]
  exact hkept

/-- Where a best bid that can be taken off is not alone, its price is above the lowest level. -/
theorem lowest_lt_best (hb : WF symbol b) {best : Order α} {rest : List (Order α)}
    (h : b.orders .buy = best :: rest) {l last : Price α × List (Order α)}
    {m : List (Price α × List (Order α))} (hm : b.bids = l :: (m ++ [last]))
    (hplace : ¬ (best.price = .nan ∧ best ∉ l.2)) : l.1 < best.price := by
  have hlevels : b.levels .buy = l :: (m ++ [last]) := hm
  have hwf := hb.levels .buy
  rw [hlevels] at hwf
  -- the best bid is in the last level, which is not the lowest
  have hlast : best ∈ last.2 := by
    obtain ⟨y, q, hq⟩ := List.exists_cons_of_ne_nil (hwf.nonempty last (by simp))
    have hdown : LevelMap.down b.bids = best :: rest := h
    rw [hm, LevelMap.down_cons, LevelMap.down_append] at hdown
    simp only [LevelMap.down_cons, LevelMap.down_nil, List.nil_append, hq,
      List.cons_append] at hdown
    rw [hq, (List.cons.inj hdown).1]
    exact List.mem_cons_self ..
  have hsorted := (List.pairwise_cons.mp hwf.sorted).1 last (by simp)
  have hkeyed := hwf.keyed last (by simp) best hlast
  have hnum : best.price ≠ .nan := by
    intro hnan
    refine hplace ⟨hnan, fun hlow => ?_⟩
    have hup := (b.orders_perm .buy).symm.nodup_iff.mpr (List.Nodup.of_map _ (hb.orders_ids .buy))
    rw [hlevels, LevelMap.up_cons, LevelMap.up_append] at hup
    exact (List.nodup_append.mp hup).2.2 best hlow best (by simp [hlast]) rfl
  have hkey : last.1 ≠ .nan := fun hnan => Price.not_lt_nan l.1 (hnan ▸ hsorted)
  exact Price.eq_of_not_lt hkey hnum hkeyed.1 hkeyed.2 ▸ hsorted

/-- Taking the best bid off leaves the others in the lowest level, or above it. -/
theorem mem_lowest_cancelOrder (hb : WF symbol b) {best : Order α} {rest : List (Order α)}
    (h : b.orders .buy = best :: rest) {r : Option (Order α)} {b' : QueueBook α}
    (hc : b.cancelOrder best.id = .ok (r, b')) {x : Order α} (hx : x ∈ rest) :
    x ∈ lowest b'.bids ↔ x ∈ lowest b.bids := by
  have hbest : best ∈ b.orders .buy := by rw [h]; exact List.mem_cons_self ..
  have hbids : b'.bids = LevelMap.remove best.price (·.id == best.id) b.bids :=
    hb.levels_of_cancelOrder hbest hc
  have hplace := (cancelOrder_bestBid hb h).mp ⟨_, hc⟩
  have hin : x ∈ LevelMap.up b.bids := mem_orders.mp (h ▸ List.mem_cons_of_mem _ hx)
  rw [hbids]
  rcases hm : b.bids with _ | ⟨l, m⟩
  · simp [hm] at hin
  rw [hm] at hplace
  rcases List.eq_nil_or_concat m with rfl | ⟨m, last, rfl⟩
  · -- one level: everything that stays is in it
    have hwf := hb.levels .buy
    have hlevels : b.levels .buy = [l] := hm
    have hbin : best ∈ LevelMap.up (b.levels .buy) := mem_orders.mp hbest
    rw [hlevels] at hwf hbin
    have hxl : x ∈ l.2 := by simpa [hm] using hin
    have hkeyed := hwf.keyed l (by simp) best (by simpa using hbin)
    have hp : (x.id == best.id) = false := by simpa using hb.id_ne_of_tail h hx
    exact iff_of_true (mem_lowest_remove hkeyed.1 hkeyed.2 hxl hp) hxl
  · rw [List.concat_eq_append] at hm ⊢
    rw [lowest_remove_of_lt (lowest_lt_best hb h hm hplace)]

/-- An execution moves no order to another level. -/
theorem mem_lowest_fill (hb : WF symbol b) {x : Order α} (hx : x ∈ b.orders .buy) (id : OrderID)
    (qty : Quantity) :
    (if x.id = id then x.reduceQuantity qty else x) ∈ lowest (b.fill id qty).bids ↔
      x ∈ lowest b.bids := by
  have hmap : lowest (b.fill id qty).bids =
      (lowest b.bids).map fun y => if y.id = id then y.reduceQuantity qty else y := by
    rcases hm : b.bids with _ | ⟨l, m⟩ <;> simp [lowest, fill, mapOrders, hm, LevelMap.mapElems]
  have hid : ∀ y : Order α, (if y.id = id then y.reduceQuantity qty else y).id = y.id := by
    intro y
    split <;> rfl
  rw [hmap, List.mem_map]
  constructor
  · intro hy
    obtain ⟨y, hy, heq⟩ := hy
    have hyin : y ∈ b.orders .buy := mem_orders.mpr (mem_up_of_lowest hy)
    have hxy : y.id = x.id := by rw [← hid y, heq, hid]
    rwa [← hb.id_inj (mem_allOrders.mpr ⟨_, hyin⟩) (mem_allOrders.mpr ⟨_, hx⟩) hxy]
  · exact fun hin => ⟨x, hin, rfl⟩

/-! ### Loops that are blocked -/

/-- A taker that needs nothing, or refuses the best order, gets nothing. -/
theorem fills_eq_nil (h : o.remainingQty = 0 ∨ ∀ best,
    (b.orders o.side.opposite).head? = some best → refuses o.side o best = true) :
    b.fills o = [] := by
  rcases h with hzero | hrefuses
  · rw [fills, Order.unfilled_eq_zero.mpr hzero, Greedy.amounts_zero, List.zip_nil_right]
  · rcases hord : b.orders o.side.opposite with _ | ⟨best, rest⟩
    · simp [fills, accepted, hord]
    · have hbest := hrefuses best (by rw [hord]; rfl)
      rw [fills, accepted, hord, List.takeWhile_cons_of_neg (by simp [accepts, hbest])]
      rfl

/-- What a taker gets starts with the best order. -/
theorem fills_cons {best : Order α} {rest : List (Order α)}
    (h : b.orders o.side.opposite = best :: rest) (hneed : o.remainingQty ≠ 0)
    (hrefuses : refuses o.side o best = false) :
    b.fills o = (best, min o.unfilled best.unfilled) ::
      (rest.takeWhile (accepts o.side o)).zip (Greedy.amounts (o.unfilled - best.unfilled)
        ((rest.takeWhile (accepts o.side o)).map Order.unfilled)) := by
  have hne : o.unfilled ≠ 0 := fun h => hneed (Order.unfilled_eq_zero.mp h)
  rw [fills, accepted, h, List.takeWhile_cons_of_pos (by simp [accepts, hrefuses]), List.map_cons,
    Greedy.amounts_cons hne, List.zip_cons_cons]

theorem not_blocked_of_fills_nil (h : b.fills o = []) : ¬ Blocked b o := by
  intro hblocked
  obtain ⟨-, fill, hfill, -⟩ := hblocked
  simp [h] at hfill

/-- A pass that takes the best order off passes the question on to the rest. -/
theorem blocked_cancel (hb : WF symbol b) {best : Order α} {rest : List (Order α)}
    (h : b.orders o.side.opposite = best :: rest) (hneed : o.remainingQty ≠ 0)
    (hrefuses : refuses o.side o best = false) (hle : best.unfilled ≤ o.unfilled)
    {r : Option (Order α)} {b' : QueueBook α}
    (hc : (b.fill best.id best.remainingQty).cancelOrder best.id = .ok (r, b')) :
    Blocked b' (o.reduceQuantity best.remainingQty) ↔ Blocked b o := by
  obtain ⟨hfill, -⟩ := orders_fill_best hb h best.remainingQty
  have hfilled := hb.fill best.id best.remainingQty
  obtain ⟨-, horders, -⟩ := orders_cancel_best hfilled hfill hc
  have hunfilled : (o.reduceQuantity best.remainingQty).unfilled = o.unfilled - best.unfilled :=
    Order.unfilled_reduceQuantity hle
  have hfills' : b'.fills (o.reduceQuantity best.remainingQty) =
      (rest.takeWhile (accepts o.side o)).zip (Greedy.amounts (o.unfilled - best.unfilled)
        ((rest.takeWhile (accepts o.side o)).map Order.unfilled)) := by
    rw [fills, accepted, hunfilled]
    show (List.takeWhile _ (b'.orders o.side.opposite)).zip
      (Greedy.amounts _ (List.map _ (List.takeWhile _ (b'.orders o.side.opposite)))) = _
    rw [horders]
    rfl
  unfold Blocked
  rw [fills_cons h hneed hrefuses, hfills', Nat.min_eq_right hle]
  refine and_congr_right fun hside => ?_
  have hside : o.side = .sell := hside
  rw [hside] at h hfill
  have hord : b.orders .buy = best :: rest := h
  have hfillBids : ∀ x ∈ rest,
      (x ∈ lowest (b.fill best.id best.remainingQty).bids ↔ x ∈ lowest b.bids) := by
    intro x hx
    have hmem := mem_lowest_fill hb (h ▸ List.mem_cons_of_mem _ hx) best.id best.remainingQty
    rwa [if_neg (hb.id_ne_of_tail hord hx)] at hmem
  have hfront : ¬ (best.price = .nan ∧ best ∉ lowest b.bids) := by
    have hmem := mem_lowest_fill hb (h ▸ List.mem_cons_self ..) best.id best.remainingQty
    rw [if_pos rfl] at hmem
    rw [← hmem]
    exact (cancelOrder_bestBid hfilled hfill).mp ⟨_, hc⟩
  constructor
  · intro hex
    obtain ⟨fill, hin, hall, hnan, hout⟩ := hex
    have hrest : fill.1 ∈ rest := (List.takeWhile_sublist _).mem (List.of_mem_zip hin).1
    refine ⟨fill, List.mem_cons_of_mem _ hin, hall, hnan, fun hlow => hout ?_⟩
    exact (mem_lowest_cancelOrder hfilled hfill hc hrest).mpr ((hfillBids _ hrest).mpr hlow)
  · intro hex
    obtain ⟨fill, hin, hall, hnan, hout⟩ := hex
    rcases List.mem_cons.mp hin with rfl | hin
    · exact absurd ⟨hnan, hout⟩ hfront
    · have hrest : fill.1 ∈ rest := (List.takeWhile_sublist _).mem (List.of_mem_zip hin).1
      refine ⟨fill, hin, hall, hnan, fun hlow => hout ?_⟩
      exact (hfillBids _ hrest).mp ((mem_lowest_cancelOrder hfilled hfill hc hrest).mp hlow)

/-- A best order that the pass uses up and cannot take off is a bid that blocks it. -/
theorem blocked_of_error (hb : WF symbol b) {best : Order α} {rest : List (Order α)}
    (h : b.orders o.side.opposite = best :: rest) (hneed : o.remainingQty ≠ 0)
    (hrefuses : refuses o.side o best = false) (hle : best.unfilled ≤ o.unfilled) {fault : Fault}
    (hc : (b.fill best.id best.remainingQty).cancelOrder best.id = .error fault) :
    Blocked b o := by
  have hfills := fills_cons h hneed hrefuses
  have hfilled := hb.fill best.id best.remainingQty
  obtain ⟨hfill, -⟩ := orders_fill_best hb h best.remainingQty
  rcases hside : o.side with _ | _
  · rw [hside] at hfill
    obtain ⟨r, hr⟩ := cancelOrder_bestAsk hfilled hfill
    rw [Order.reduceQuantity_id, hc] at hr
    simp at hr
  · rw [hside] at h hfill
    have hbad : best.price = .nan ∧
        best.reduceQuantity best.remainingQty ∉
          lowest (b.fill best.id best.remainingQty).bids := by
      by_contra hgood
      obtain ⟨r, hr⟩ := (cancelOrder_bestBid hfilled hfill).mpr hgood
      rw [Order.reduceQuantity_id, hc] at hr
      simp at hr
    have hmem := mem_lowest_fill hb (h ▸ List.mem_cons_self ..) best.id best.remainingQty
    rw [if_pos rfl] at hmem
    refine ⟨hside, _, hfills ▸ List.mem_cons_self .., Nat.min_eq_right hle, hbad.1, ?_⟩
    exact fun hlow => hbad.2 (hmem.mpr hlow)

/-- **One pass** leaves the loop where nothing blocks it, goes on with the question unchanged, or
fails where the loop is blocked. -/
theorem matchBody_blocked {s : Matching α} (hb : WF symbol s.book) (hl : Live s.book) :
    (∃ s', matchBody s.own.side s = .ok (.done s') ∧ ¬ Blocked s.book s.own) ∨
      (∃ s', matchBody s.own.side s = .ok (.next s') ∧
        (Blocked s'.book s'.own ↔ Blocked s.book s.own)) ∨
      ∃ fault, matchBody s.own.side s = .error fault ∧ Blocked s.book s.own := by
  unfold matchBody
  by_cases hneed : s.own.remainingQty = 0
  · rw [if_pos hneed]
    exact .inl ⟨s, rfl, not_blocked_of_fills_nil (fills_eq_nil (.inl hneed))⟩
  rw [if_neg hneed]
  rcases hord : s.book.orders s.own.side.opposite with _ | ⟨best, rest⟩
  · exact .inl ⟨s, rfl, not_blocked_of_fills_nil (fills_eq_nil (.inr (by simp [hord])))⟩
  dsimp only [List.head?_cons]
  by_cases hrefuses : refuses s.own.side s.own best = true
  · rw [if_pos hrefuses]
    refine .inl ⟨s, rfl, not_blocked_of_fills_nil (fills_eq_nil (.inr ?_))⟩
    intro x hx
    rw [hord] at hx
    exact Option.some.inj hx ▸ hrefuses
  rw [if_neg hrefuses]
  have haccepts : refuses s.own.side s.own best = false := by simpa using hrefuses
  have hbest : best.Live := hl _ best (hord ▸ List.mem_cons_self ..)
  by_cases hle : best.unfilled ≤ s.own.unfilled
  · -- the best order is used up
    rw [min_remainingQty_right hle, if_pos (isFilled_reduceQuantity_self best)]
    rcases hcancel : (s.book.fill best.id best.remainingQty).cancelOrder best.id with
      fault | ⟨r, b'⟩
    · exact .inr (.inr ⟨fault, rfl, blocked_of_error hb hord hneed haccepts hle hcancel⟩)
    · exact .inr (.inl ⟨_, rfl, blocked_cancel hb hord hneed haccepts hle hcancel⟩)
  · -- the taker is satisfied
    rw [min_remainingQty_left (by omega), if_neg (by
      rw [Order.isFilled_eq_false.mpr (hbest.reduceQuantity (by rw [← Order.unfilled]; omega))]
      simp)]
    refine .inr (.inl ⟨_, rfl, iff_of_false ?_ ?_⟩)
    · exact not_blocked_of_fills_nil (fills_eq_nil (.inl (remainingQty_reduceQuantity_self _)))
    · intro hblocked
      obtain ⟨-, fill, hfill, hall, -⟩ := hblocked
      rw [fills_cons hord hneed haccepts, Nat.sub_eq_zero_of_le (by omega), Greedy.amounts_zero,
        List.zip_nil_right, List.mem_singleton] at hfill
      subst hfill
      have hmin : min s.own.unfilled best.unfilled = best.unfilled := hall
      omega

/-- **The matching loop returns exactly where nothing blocks it.** -/
theorem matchAgainst_returns_iff (hb : WF symbol b) (hl : Live b) (o : Order α) :
    (∃ fuel s, b.matchAgainst fuel o = .ok s) ↔ ¬ Blocked b o := by
  -- kept by the passes: the taker's side, live orders, and the answer to the question
  let I (s : Matching α) : Prop := WF symbol s.book ∧ Live s.book ∧ s.own.side = o.side ∧
    (Blocked s.book s.own ↔ Blocked b o)
  have hstart : I ⟨b, o, []⟩ := ⟨hb, hl, rfl, Iff.rfl⟩
  have hstep : ∀ s s', I s → matchBody o.side s = .ok (.next s') → I s' := by
    intro s s' hs hnext
    obtain ⟨hwf, hlive, hside, hiff⟩ := hs
    obtain ⟨hwf', -, _, _, -, -, -, hown, -⟩ := matchBody_next hwf hnext
    refine ⟨hwf', matchBody_live hwf hlive hnext, by rw [hown]; exact hside, ?_⟩
    rcases matchBody_blocked hwf hlive with ⟨s₁, h, -⟩ | ⟨s₁, h, hblocked⟩ | ⟨fault, h, -⟩
    · simp [← hside, h] at hnext
    · rw [← hside, h] at hnext
      obtain rfl := Iter.next.inj (Except.ok.inj hnext)
      exact hblocked.trans hiff
    · simp [← hside, h] at hnext
  constructor
  · intro hreturns
    obtain ⟨fuel, s, hs⟩ := hreturns
    obtain ⟨s', ⟨hwf, hlive, hside, hiff⟩, hdone⟩ := FuelLoop.run_invariant I hstep hstart hs
    rw [← hiff]
    rcases matchBody_blocked hwf hlive with ⟨s₁, -, hopen⟩ | ⟨s₁, h, -⟩ | ⟨fault, h, -⟩
    · exact hopen
    · simp [← hside, h] at hdone
    · simp [← hside, h] at hdone
  · intro hopen
    refine ⟨_, FuelLoop.run_variant I (passesLeft o.side) ?_ hstart (Nat.lt_succ_self _)⟩
    intro s hs
    have hkeep := hstep s
    obtain ⟨hwf, hlive, hside, hiff⟩ := id hs
    rcases matchBody_blocked hwf hlive with ⟨s₁, h, -⟩ | ⟨s₁, h, -⟩ | ⟨fault, -, hblocked⟩
    · exact .inl ⟨s₁, hside ▸ h⟩
    · rw [hside] at h
      exact .inr ⟨s₁, h, hkeep s₁ hs h, passesLeft_next hwf h⟩
    · exact absurd (hiff.mp hblocked) hopen

/-! ### FOK orders -/

/-- What trades add up to. -/
def volume (trades : List (Trade α)) : Nat := (trades.map fun t => t.quantity.toNat).sum

/-- The trades of a matched order come to what it wants, or to all there is. -/
theorem volume_matched (hl : Live b) (o : Order α) :
    volume (b.matched o).trades = min o.unfilled (b.liquidity o) := by
  have hamounts : (b.fills o).map Prod.snd =
      Greedy.amounts o.unfilled ((b.accepted o).map Order.unfilled) := by
    refine List.map_snd_zip ?_
    simpa using Greedy.amounts_length_le o.unfilled ((b.accepted o).map Order.unfilled)
  have hsum : ((b.fills o).map Prod.snd).sum = min o.unfilled (b.liquidity o) := by
    rw [hamounts, Greedy.amounts_sum, liquidity]
  rw [volume, matched_trades hl, List.map_map, ← hsum]
  refine congrArg List.sum (List.map_congr_left fun fill hfill => ?_)
  -- no trade is larger than what the taker wants, so none is wrapped
  have hle : fill.2 ≤ min o.unfilled (b.liquidity o) :=
    hsum ▸ List.single_le_sum (by simp) _ (List.mem_map_of_mem hfill)
  have hbound : fill.2 < 2 ^ 64 :=
    Nat.lt_of_le_of_lt (hle.trans (Nat.min_le_left _ _)) o.remainingQty.toNat_lt
  rw [Function.comp_apply, trade_quantity]
  exact UInt64.toNat_ofNat_of_lt hbound

/-- An order that was matched is one that nothing blocks. -/
theorem not_blocked_of_submit (hb : WF symbol b) (hl : Live b)
    (hkeep : o.type = .fok → b.canFillCompletely o = true) {fuel : Nat} {out : Outcome α}
    {b' : QueueBook α} (h : b.submit fuel o = .ok (out, b')) : ¬ Blocked b o := by
  refine (matchAgainst_returns_iff hb hl o).mp ⟨fuel, ?_⟩
  unfold submit at h
  split at h
  · rename_i hkill
    simp only [Bool.and_eq_true, decide_eq_true_eq, Bool.not_eq_true'] at hkill
    simp [hkeep hkill.1] at hkill
  · split at h
    · simp at h
    · rename_i s hloop
      exact ⟨s, hloop⟩

/-- An order that the gate does not stop and nothing blocks is matched. -/
theorem submit_of_not_blocked (hb : WF symbol b) (hl : Live b)
    (hkeep : o.type = .fok → b.canFillCompletely o = true) (hopen : ¬ Blocked b o) :
    ∃ fuel out b₁ b', b.submit fuel o = .ok (out, b') ∧ Matched symbol b o out b₁ b' := by
  obtain ⟨fuel, s, hs⟩ := (matchAgainst_returns_iff hb hl o).mpr hopen
  have hsubmit : ∃ r, b.submit fuel o = .ok r := by
    rw [submit, hs]
    split
    · exact ⟨_, rfl⟩
    · exact ⟨_, rfl⟩
  obtain ⟨⟨out, b'⟩, hr⟩ := hsubmit
  rcases submit_ok hb hr with ⟨-, -, hfok, hkill⟩ | ⟨b₁, hm⟩
  · simp [hkeep hfok] at hkill
  · exact ⟨fuel, out, b₁, b', hr, hm⟩

/-- **A FOK order is filled exactly if** the scan hits its quantity, there is as much in front of
the first order it refuses, and nothing blocks the loop. -/
theorem submit_fills_iff (hb : WF symbol b) (hl : Live b) (hfok : o.type = .fok)
    (hqf : o.quantityFilled = 0) (hq : o.quantity ≠ 0) :
    (∃ fuel out b', b.submit fuel o = .ok (out, b') ∧
        volume out.trades = o.quantity.toNat) ↔
      ScanHits b o ∧ o.quantity.toNat ≤ b.liquidity o ∧ ¬ Blocked b o := by
  have hunfilled : o.unfilled = o.quantity.toNat := by
    rw [Order.unfilled, Order.remainingQty, hqf, UInt64.sub_zero]
  have hpos : 0 < o.quantity.toNat := Nat.pos_of_ne_zero fun h => hq (UInt64.toNat_inj.mp h)
  rw [← canFillCompletely_iff hq]
  constructor
  · intro h
    obtain ⟨fuel, out, b', hs, hsum⟩ := h
    rcases submit_ok hb hs with ⟨rfl, -⟩ | ⟨b₁, hm⟩
    · simp only [volume, List.map_nil, List.sum_nil] at hsum
      omega
    · rw [hm.trades, volume_matched hl, hunfilled] at hsum
      exact ⟨hm.fok hfok, by omega, not_blocked_of_submit hb hl hm.fok hs⟩
  · intro h
    obtain ⟨hscan, hliq, hopen⟩ := h
    obtain ⟨fuel, out, b₁, b', hs, hm⟩ := submit_of_not_blocked hb hl (fun _ => hscan) hopen
    refine ⟨fuel, out, b', hs, ?_⟩
    rw [hm.trades, volume_matched hl, hunfilled]
    omega

/-- **Where prices are numbers** what satisfies the limit of a FOK order can be had, and nothing
blocks the loop. -/
theorem liquidityWithin_le (hb : WF symbol b) (he : Exact b) (hn : Numbers b)
    (o : Order α) : b.liquidityWithin o ≤ b.liquidity o ∧ ¬ Blocked b o := by
  constructor
  · have hacc := (takeWhile_eq_filter (orders_accepts hb he o)).1
    rw [liquidityWithin, liquidity, accepted, hacc]
    refine (List.Sublist.map _ ?_).sum_le_sum (by simp)
    refine List.monotone_filter_right _ fun x hx => ?_
    rw [decide_eq_true_eq] at hx
    simp only [accepts, Bool.not_eq_true', ← Bool.not_eq_true, refuses_eq_true]
    intro hrefuses
    cases hside : o.side with
    | buy =>
        rw [hside] at hx hrefuses
        exact absurd hrefuses.1 (Price.not_lt_of_le hx)
    | sell =>
        rw [hside] at hx hrefuses
        exact absurd hrefuses.1 (Price.not_lt_of_le hx)
  · intro hblocked
    obtain ⟨-, fill, hfill, -, hnan, -⟩ := hblocked
    exact hn _ fill.1 (mem_fills hfill) hnan

end QueueBook

end OrderMatchingEngine
