import Mathlib.Algebra.Order.Ring.Int
import OrderMatchingEngine.Abstract.Accounting
import OrderMatchingEngine.Refinement.Runs

/-!
# OrderMatchingEngine.Properties.Conservation

What is traded is what was ordered.

In a run whose orders all have different ids, the trades of the history that name an order
add up to what the order has executed: at most its quantity, exactly its executed quantity
while it rests, and all of it when the order is finished by being filled. The loops compute
this on unsigned integers without ever wrapping.
-/

namespace OrderMatchingEngine

section Submitted

variable {α : Type}

/-- The order a call submits. -/
def Call.order? : Call α → Option (Order α)
  | .processNewOrder order => some order
  | .cancelOrder _ _ _ => none

/-- The orders that were submitted, oldest first. -/
def submitted (tr : List (Call α × Ret α)) : List (Order α) := tr.filterMap fun x => x.1.order?

/-- All submitted orders have different ids. -/
def DistinctIds (tr : List (Call α × Ret α)) : Prop := ((submitted tr).map Order.id).Nodup

instance (tr : List (Call α × Ret α)) : Decidable (DistinctIds tr) :=
  inferInstanceAs (Decidable (List.Nodup _))

variable {tr : List (Call α × Ret α)} {c : Call α} {r : Ret α}

theorem submitted_snoc : submitted (tr ++ [(c, r)]) = submitted tr ++ c.order?.toList := by
  rw [submitted, List.filterMap_append, submitted]
  cases c <;> rfl

theorem submitted_subset : submitted tr ⊆ submitted (tr ++ [(c, r)]) := by
  rw [submitted_snoc]
  exact List.subset_append_left _ _

theorem mem_submitted_last {o : Order α} (h : c = .processNewOrder o) :
    o ∈ submitted (tr ++ [(c, r)]) := by
  subst h
  rw [submitted_snoc]
  exact List.mem_append_right _ (List.mem_singleton.mpr rfl)

theorem DistinctIds.of_snoc (h : DistinctIds (tr ++ [(c, r)])) : DistinctIds tr := by
  rw [DistinctIds, submitted_snoc, List.map_append] at h
  exact h.of_append_left

/-- The order of the last call has an id of its own. -/
theorem DistinctIds.last_ne (h : DistinctIds (tr ++ [(c, r)])) {o o' : Order α}
    (hc : c = .processNewOrder o) (ho' : o' ∈ submitted tr) : o'.id ≠ o.id := by
  subst hc
  rw [DistinctIds, submitted_snoc, List.map_append] at h
  exact List.disjoint_left.mp (List.disjoint_of_nodup_append h) (List.mem_map_of_mem ho') ∘
    fun hid => hid ▸ List.mem_singleton.mpr rfl

/-- Two submitted orders with one id are the same order. -/
theorem DistinctIds.inj (h : DistinctIds tr) {o o' : Order α} (ho : o ∈ submitted tr)
    (ho' : o' ∈ submitted tr) (hid : o.id = o'.id) : o = o' :=
  List.inj_on_of_nodup_map h ho ho' hid

theorem Ret.trades_untimed (r : Ret α) : r.untimed.trades = r.trades.map Trade.untimed := by
  cases r <;> rfl

theorem executed_ret_untimed (r : Ret α) (id : OrderID) :
    executed r.untimed.trades id = executed r.trades id := by
  rw [Ret.trades_untimed, executed_untimed]

end Submitted

namespace MatchingEngine

variable {α : Type} [LinearOrder α] [Zero α] {clock : Nat → Timestamp} {n : Nat}
  {tr : List (Call α × Ret α)} {e e' : MatchingEngine α} {c : Call α} {r : Ret α}

/-! ### Runs with distinct ids -/

/-- Every resting order is a submitted one. -/
def Submitted (tr : List (Call α × Ret α)) (e : MatchingEngine α) : Prop :=
  ∀ symbol sd, ∀ x ∈ (e.bookView symbol).orders sd, ∃ o ∈ submitted tr, o.SameOrder x

omit [LinearOrder α] [Zero α] in
theorem Submitted.freshId (h : Submitted tr e) (hids : DistinctIds (tr ++ [(c, r)])) :
    e.FreshId c := by
  cases c with
  | cancelOrder id symbol side => trivial
  | processNewOrder o =>
      intro hrests
      obtain ⟨x, hx, hid⟩ := (rests_iff e _ _).mp hrests
      obtain ⟨sd, hx⟩ := QueueBook.mem_allOrders.mp hx
      obtain ⟨o', ho', hsame⟩ := h _ sd x hx
      rw [hsame] at hid
      exact hids.last_ne rfl ho' hid

omit [Zero α] in
/-- An order of one symbol is not queued in the book of another. -/
theorem Submitted.not_elsewhere (h : Submitted tr e) (he : EngineInv e) (hids : DistinctIds tr)
    {symbol symbol' : Symbol} {sd sd' : OrderSide} {x y : Order α} (hne : symbol ≠ symbol')
    (hx : x ∈ (e.bookView symbol).orders sd) (hy : y ∈ (e.bookView symbol').orders sd') :
    y.id ≠ x.id := by
  intro hid
  obtain ⟨o, ho, hox⟩ := h symbol sd x hx
  obtain ⟨o', ho', hoy⟩ := h symbol' sd' y hy
  obtain rfl : o' = o := hids.inj ho' ho (by rw [hox, hoy] at hid; exact hid)
  have hx_symbol := (he.wf symbol).symbols sd x hx
  have hy_symbol := (he.wf symbol').symbols sd' y hy
  rw [hox] at hx_symbol
  rw [hoy] at hy_symbol
  exact hne (hx_symbol.symm.trans hy_symbol)

/-- A run with distinct ids only submits ids that are fresh. -/
theorem reaches_submitted (h : Reaches clock n (fun _ c => c.Unfilled) tr e) :
    DistinctIds tr →
      Reaches clock n (fun e c => e.FreshId c ∧ c.Unfilled) tr e ∧ Submitted tr e := by
  refine Trace.Run.invariant (fun tr e => DistinctIds tr →
    Reaches clock n (fun e c => e.FreshId c ∧ c.Unfilled) tr e ∧ Submitted tr e) ?_ ?_ h
  · intro _
    refine ⟨.nil, ?_⟩
    intro symbol sd x hx
    simp [bookView_withPool] at hx
  · intro tr e c r e' _ ih hs hids
    obtain ⟨hrun, hsub⟩ := ih hids.of_snoc
    have hfresh := hsub.freshId hids
    refine ⟨hrun.snoc ⟨⟨hfresh, hs.1⟩, hs.2⟩, ?_⟩
    intro symbol sd x hx
    have he := reaches_inv (fun _ _ hg => .of_freshId hg.1) hrun
    obtain ⟨-, hf, hstep⟩ := returns_spec he (.of_freshId hfresh) hs.2
    by_cases hsym : symbol = c.symbol
    · subst hsym
      rcases QueueBook.step_origin (he.wf _) hstep hx with ⟨y, hy, hyx⟩ | ⟨hq, -⟩
      · obtain ⟨o, ho, hoy⟩ := hsub _ sd y hy
        exact ⟨o, submitted_subset ho, hoy.trans hyx⟩
      · obtain ⟨o, out, rfl, -, -, -, hsame, -⟩ := hq
        exact ⟨o, mem_submitted_last rfl, hsame⟩
    · rw [hf.bookView hsym] at hx
      obtain ⟨o, ho, hox⟩ := hsub symbol sd x hx
      exact ⟨o, submitted_subset ho, hox⟩

/-- What one call executes, in the terms of its book. -/
theorem returns_accounts (he : EngineInv e) (hl : QueueBook.Live (e.bookView c.symbol))
    (hfresh : e.FreshId c) (hc : c.Unfilled) (h : Returns clock e c r e') :
    Frame c.symbol r.leaks r.trades e e' ∧
      QueueBook.Accounts (e.bookView c.symbol) c r.untimed (e'.bookView c.symbol) := by
  obtain ⟨-, hf, hstep⟩ := returns_spec he (.of_freshId hfresh) h
  refine ⟨hf, QueueBook.step_accounts (he.wf _) hstep hl hc ?_⟩
  rintro o rfl x hx hid
  exact hfresh ((rests_iff e _ _).mpr ⟨x, hx, hid⟩)

/-! ### The ledger -/

/-- The history agrees with the submitted and with the resting orders. -/
structure Balanced (tr : List (Call α × Ret α)) (e : MatchingEngine α) : Prop where
  /-- No trade names an order that was not submitted. -/
  unknown : ∀ id, (∀ o ∈ submitted tr, o.id ≠ id) → executed e.tradeHistory id = 0
  /-- No more of an order is traded than was ordered. -/
  le : ∀ o ∈ submitted tr, executed e.tradeHistory o.id ≤ o.quantity.toNat
  /-- A resting order has executed what the history says. -/
  resting : ∀ symbol sd, ∀ x ∈ (e.bookView symbol).orders sd,
    x.quantityFilled.toNat = executed e.tradeHistory x.id

omit [LinearOrder α] [Zero α] in
theorem Frame.executed {symbol : Symbol} {leaks : Nat} (hf : Frame symbol leaks r.trades e e')
    (id : OrderID) : executed e'.tradeHistory id =
      executed e.tradeHistory id + executed r.untimed.trades id := by
  rw [hf.history, executed_append, executed_ret_untimed]

omit [LinearOrder α] [Zero α] in
/-- What a queued order has left is what its quantity allows beyond the history. -/
theorem Balanced.within (hbal : Balanced tr e) {symbol : Symbol} {sd : OrderSide} {y : Order α}
    {k : Nat} (hl : QueueBook.Live (e.bookView symbol)) (hy : y ∈ (e.bookView symbol).orders sd)
    (hk : k ≤ y.unfilled) : executed e.tradeHistory y.id + k ≤ y.quantity.toNat := by
  have hlt := UInt64.lt_iff_toNat_lt.mp (hl sd y hy)
  rw [(hl sd y hy).unfilled_eq, hbal.resting _ sd y hy] at hk
  rw [hbal.resting _ sd y hy] at hlt
  omega

/-- **One call keeps the ledger balanced.** -/
theorem Balanced.step (hbal : Balanced tr e) (he : EngineInv e) (hsub : Submitted tr e)
    (hl : QueueBook.Live (e.bookView c.symbol)) (hids : DistinctIds (tr ++ [(c, r)]))
    (hc : c.Unfilled) (h : Returns clock e c r e') : Balanced (tr ++ [(c, r)]) e' := by
  obtain ⟨hf, hacc⟩ := returns_accounts he hl (hsub.freshId hids) hc h
  have hnew : ∀ o, c = .processNewOrder o → executed e.tradeHistory o.id = 0 := fun o ho =>
    hbal.unknown o.id fun o' ho' => hids.last_ne ho ho'
  -- an order that the call's book does not hold has no part in its trades
  have hother : ∀ o ∈ submitted tr, (∀ sd, ∀ y ∈ (e.bookView c.symbol).orders sd, y.id ≠ o.id) →
      executed r.untimed.trades o.id = 0 := fun o ho hbook =>
    hacc.others o.id (fun o' ho' => (hids.last_ne ho' ho).symm) hbook
  constructor
  · intro id hid
    rw [hf.executed, hbal.unknown id fun o ho => hid o (submitted_subset ho), Nat.zero_add]
    refine hacc.others id (fun o ho => hid o (mem_submitted_last ho)) ?_
    intro sd y hy
    obtain ⟨o, ho, hoy⟩ := hsub _ sd y hy
    rw [hoy]
    exact hid o (submitted_subset ho)
  · intro o ho
    rw [hf.executed]
    rw [submitted_snoc, List.mem_append, Option.mem_toList] at ho
    rcases ho with ho | ho
    · by_cases hrests : ∃ sd, ∃ y ∈ (e.bookView c.symbol).orders sd, y.id = o.id
      · obtain ⟨sd, y, hy, hid⟩ := hrests
        obtain ⟨o', ho', hoy⟩ := hsub _ sd y hy
        obtain rfl : o' = o := hids.of_snoc.inj ho' ho (by rw [← hid, hoy])
        have hquantity : y.quantity = o'.quantity := by rw [hoy]
        rw [← hquantity, ← hid]
        exact hbal.within hl hy (hacc.le sd y hy)
      · rw [hother o ho fun sd y hy hid => hrests ⟨sd, y, hy, hid⟩, Nat.add_zero]
        exact hbal.le o ho
    · have ho : c = .processNewOrder o := by
        cases c with
        | processNewOrder o' => rw [Option.some.inj ho]
        | cancelOrder id symbol side => simp [Call.order?] at ho
      rw [hnew o ho, Nat.zero_add]
      exact (hacc.taker o ho).1
  · intro symbol sd x hx
    rw [hf.executed]
    by_cases hsym : symbol = c.symbol
    · subst hsym
      rcases hacc.resting sd x hx with ⟨y, hy, hyx, hq⟩ | ⟨o, ho, hox, hq⟩
      · have hid : x.id = y.id := by rw [hyx]
        rw [hq, hbal.resting _ sd y hy, hid]
      · have hid : x.id = o.id := by rw [hox]
        rw [hid, hnew o ho, Nat.zero_add, hq, hid]
    · rw [hf.bookView hsym] at hx
      obtain ⟨o, ho, hox⟩ := hsub symbol sd x hx
      have hid : x.id = o.id := by rw [hox]
      rw [hbal.resting symbol sd x hx, hid, hother o ho, Nat.add_zero]
      intro sd' y hy
      rw [← hid]
      exact hsub.not_elsewhere he hids.of_snoc hsym hx hy

/-- **The ledger is balanced** in every state of a run with distinct ids. -/
theorem reaches_balanced (h : Reaches clock n (fun _ c => c.Unfilled) tr e) :
    DistinctIds tr → Balanced tr e := by
  refine Trace.Run.invariant (fun tr e => DistinctIds tr → Balanced tr e) ?_ ?_ h
  · intro _
    refine ⟨fun _ _ => rfl, fun o ho => by simp [submitted] at ho, fun symbol sd x hx => ?_⟩
    simp [bookView_withPool] at hx
  · intro tr e c r e' hrun ih hs hids
    obtain ⟨hfresh, hsub⟩ := reaches_submitted hrun hids.of_snoc
    have hG : ∀ (e : MatchingEngine α) c, e.FreshId c ∧ c.Unfilled → e.QueuesFresh c :=
      fun _ _ hg => .of_freshId hg.1
    exact (ih hids.of_snoc).step (reaches_inv hG hfresh) hsub (reaches_live hG hfresh _) hids hs.1
      hs.2

/-! ### Arithmetic in the loops -/

/-- Nothing wraps at a loop state: no order has executed more than its quantity, and the
next trade stays within the quantities of both its orders. -/
structure NoWrap (sd : OrderSide) (own : Slot) (s : Matching α) : Prop where
  taker : (s.engine.cells own).quantityFilled ≤ (s.engine.cells own).quantity
  makers : ∀ p ∈ s.book.slots, (s.engine.cells p).quantityFilled < (s.engine.cells p).quantity
  trade : ∀ best, OrderBook.bestOf sd.opposite s.book = some best →
    let qty := min (s.engine.cells own).remainingQty (s.engine.cells best).remainingQty
    (s.engine.cells own).quantityFilled.toNat + qty.toNat ≤ (s.engine.cells own).quantity.toNat ∧
      (s.engine.cells best).quantityFilled.toNat + qty.toNat ≤
        (s.engine.cells best).quantity.toNat

omit [Zero α] in
/-- A pass of the observable loop keeps quantities in their bounds. -/
theorem matchBody_bounds {symbol : Symbol} {sd : OrderSide} {s s' : QueueBook.Matching α}
    (hb : QueueBook.WF symbol s.book) (hown : s.own.quantityFilled ≤ s.own.quantity)
    (hl : s.book.Live) (h : QueueBook.matchBody sd s = .ok (.next s')) :
    s'.own.quantityFilled ≤ s'.own.quantity ∧ s'.book.Live := by
  obtain ⟨-, -, _, _, -, -, -, hown', -⟩ := QueueBook.matchBody_next hb h
  refine ⟨?_, QueueBook.matchBody_live hb hl h⟩
  rw [hown', UInt64.le_iff_toNat_le]
  exact (QueueBook.quantityFilled_reduceQuantity hown (QueueBook.min_toNat_le _ _).1).2

omit [Zero α] in
/-- **No arithmetic of the loops wraps.** -/
theorem noWrap (he : EngineInv e) {o : Order α} (hqf : o.quantityFilled = 0)
    (hl : QueueBook.Live (e.bookView o.symbol)) {own : Slot} {rest : List Slot}
    (hfree : e.orderPool.freeIndices = own :: rest) {s : Matching α}
    (hs : FuelLoop.Passes (matchBodyOf clock o.side own)
      ⟨accepted o own rest e, e.bookOf o.symbol, []⟩ s) : NoWrap o.side own s := by
  obtain ⟨hout, hb, hview⟩ := accepted_book (o := o) he hfree o.symbol
  have hstored : (accepted o own rest e).cells own = o := by
    rw [(accepted_spec o own rest e).1, Function.update_self]
  -- before the first pass nothing of the taker is executed, and the book is as it was
  have hstart : let s := Matching.view own ⟨accepted o own rest e, e.bookOf o.symbol, []⟩
      s.own.quantityFilled ≤ s.own.quantity ∧ s.book.Live := by
    have hle : o.quantityFilled ≤ o.quantity := hqf ▸ UInt64.zero_le
    rw [Matching.view, hstored, hview]
    exact ⟨hle, hl⟩
  obtain ⟨hinv, hown, hlive⟩ := hs.invariant
    (fun s => LoopInv o.symbol own (accepted o own rest e) (e.bookOf o.symbol) s ∧
      (s.view own).own.quantityFilled ≤ (s.view own).own.quantity ∧ (s.view own).book.Live)
    (fun s s' hI hnext => by
      have hpass : QueueBook.matchBody o.side (s.view own) = .ok (.next (s'.view own)) := by
        rw [matchBodyOf_view hI.1, hnext]
        rfl
      exact ⟨hI.1.next hnext, matchBody_bounds hI.1.wf hI.2.1 hI.2.2 hpass⟩)
    ⟨.start hb.linked hb.wf hout, hstart⟩
  have hmakers : ∀ p ∈ s.book.slots, (s.engine.cells p).Live := by
    intro p hp
    have hmem : s.engine.cells p ∈ (s.book.view s.engine.cells).allOrders := by
      obtain ⟨node, hnode, rfl⟩ := (OrderBook.mem_slots _).mp hp
      rw [OrderBook.view_allOrders]
      exact List.mem_map_of_mem (f := fun n => s.engine.cells n.order) hnode
    obtain ⟨sd, hsd⟩ := QueueBook.mem_allOrders.mp hmem
    exact hlive sd _ hsd
  refine ⟨hown, hmakers, ?_⟩
  intro best hbest
  have hmaker := hmakers best (OrderBook.bestOf_mem_slots hinv.wf hbest)
  obtain ⟨hle_own, hle_best⟩ := QueueBook.min_toNat_le (s.engine.cells own).remainingQty
    (s.engine.cells best).remainingQty
  have htaker := QueueBook.quantityFilled_reduceQuantity hown hle_own
  have hbest' := QueueBook.quantityFilled_reduceQuantity (UInt64.le_of_lt hmaker) hle_best
  exact ⟨htaker.1 ▸ htaker.2, hbest'.1 ▸ hbest'.2⟩

/-! ### Conservation -/

/-- **Conservation of quantity.** In a run whose orders have different ids: no more of an
order is traded than was ordered; a resting order has executed what the history says of it,
and less than its quantity; an order that leaves its book in a match, or is finished by
being filled, was traded completely; the copy that a cancel returns has executed what the
history says; and the loops of the next call never wrap. -/
theorem quantity_conserved (h : Reaches clock n (fun _ c => c.Unfilled) tr e)
    (hids : DistinctIds tr) :
    (∀ o ∈ submitted tr, executed e.tradeHistory o.id ≤ o.quantity.toNat) ∧
    (∀ symbol sd, ∀ x ∈ (e.bookView symbol).orders sd, (∃ o ∈ submitted tr, o.SameOrder x) ∧
      x.quantityFilled < x.quantity ∧ x.quantityFilled.toNat = executed e.tradeHistory x.id) ∧
    (∀ c r e', c.Unfilled → DistinctIds (tr ++ [(c, r)]) → Returns clock e c r e' →
      (∀ o out, c = .processNewOrder o → r = .processed out → out.exit = .filled →
        executed e'.tradeHistory o.id = o.quantity.toNat) ∧
      (∀ id symbol side x, c = .cancelOrder id symbol side → r = .cancelled (some x) →
        x.id = id ∧ x.quantityFilled.toNat = executed e'.tradeHistory id) ∧
      ∀ symbol sd, ∀ x ∈ (e.bookView symbol).orders sd,
        (∃ y ∈ (e'.bookView symbol).orders sd, x.SameOrder y) ∨
          executed e'.tradeHistory x.id = x.quantity.toNat ∨
          ∃ side, c = .cancelOrder x.id symbol side ∧ r = .cancelled (some x)) ∧
    ∀ (o : Order α) own rest, o.quantityFilled = 0 → e.orderPool.freeIndices = own :: rest →
      ∀ s, FuelLoop.Passes (matchBodyOf clock o.side own)
        ⟨accepted o own rest e, e.bookOf o.symbol, []⟩ s → NoWrap o.side own s := by
  obtain ⟨hfresh, hsub⟩ := reaches_submitted h hids
  have hG : ∀ (e : MatchingEngine α) c, e.FreshId c ∧ c.Unfilled → e.QueuesFresh c :=
    fun _ _ hg => .of_freshId hg.1
  have he := reaches_inv hG hfresh
  have hl := reaches_live hG hfresh
  have hbal := reaches_balanced h hids
  refine ⟨hbal.le, fun symbol sd x hx => ⟨hsub symbol sd x hx, hl symbol sd x hx,
    hbal.resting symbol sd x hx⟩, ?_, fun o own rest hqf hfree s hs =>
    noWrap he hqf (hl _) hfree hs⟩
  intro c r e' hc hids' hr
  have hfreshId := hsub.freshId hids'
  obtain ⟨hf, hacc⟩ := returns_accounts he (hl _) hfreshId hc hr
  refine ⟨?_, ?_, ?_⟩
  · rintro o out rfl rfl hexit
    -- the order is new, so all trades with it are those of this call
    rw [hf.executed, hbal.unknown o.id fun o' ho' => hids'.last_ne rfl ho', Nat.zero_add]
    exact (hacc.taker o rfl).2 _ rfl hexit
  · rintro id symbol side x rfl rfl
    obtain ⟨-, -, hstep⟩ := returns_spec he (.of_freshId hfreshId) hr
    cases hstep with
    | cancel hcancel =>
        obtain ⟨hx, -⟩ := (he.wf symbol).cancelOrder_ok hcancel
        obtain ⟨hmem, rfl⟩ := (he.wf symbol).find?_eq_some.mp hx.symm
        obtain ⟨sd, hmem⟩ := QueueBook.mem_allOrders.mp hmem
        refine ⟨rfl, ?_⟩
        rw [hf.executed, hbal.resting symbol sd x hmem]
        rfl
  · intro symbol sd x hx
    by_cases hsym : symbol = c.symbol
    · subst hsym
      rcases hacc.gone sd x hx with hkept | hdone | ⟨symbol, side, rfl, hout⟩
      · exact .inl hkept
      · have hlive := hl _ sd x hx
        have hlt := UInt64.lt_iff_toNat_lt.mp hlive
        refine .inr (.inl ?_)
        rw [hf.executed, ← hbal.resting _ sd x hx, hdone, hlive.unfilled_eq]
        omega
      · refine .inr (.inr ⟨side, rfl, ?_⟩)
        cases r with
        | processed out => simp [Ret.untimed] at hout
        | cancelled x' => exact hout
    · rw [hf.bookView hsym]
      exact .inl ⟨x, hx, .refl x⟩

section Concrete

/-- A limit order for some lots at 100. -/
def lots (id : OrderID) (side : OrderSide) (quantity : Quantity) : Order Int :=
  { id := id, symbol := [65], userId := 1, side := side, type := .limit, price := .num 100,
    quantity := quantity, timestamp := 0 }

/-- Five lots are offered and three of them bought. -/
def fiveForThree : Option (List (Call Int × Ret Int) × MatchingEngine Int) :=
  execute (fun _ => 0) 10 (fun _ c => c.Unfilled) init
    [.processNewOrder (lots 1 .sell 5), .processNewOrder (lots 2 .buy 3)]

theorem quantity_conserved_fiveForThree : ∃ tr e, fiveForThree = some (tr, e) ∧
    (∀ o ∈ submitted tr, executed e.tradeHistory o.id ≤ o.quantity.toNat) ∧
    executed e.tradeHistory 1 = 3 ∧ executed e.tradeHistory 2 = 3 := by
  refine ⟨_, _, rfl, ?_, by decide, by decide⟩
  exact (quantity_conserved (reaches_of_execute (fun _ => 0) 10 100000
    [.processNewOrder (lots 1 .sell 5), .processNewOrder (lots 2 .buy 3)] rfl) (by decide)).1

end Concrete

end MatchingEngine

end OrderMatchingEngine
