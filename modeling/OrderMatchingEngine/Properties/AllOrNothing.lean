import OrderMatchingEngine.Properties.FokCompleteness

/-!
# OrderMatchingEngine.Properties.AllOrNothing

Is a FOK order filled completely or not at all?

The gate of `process_new_order` and its matching loop read the book in two ways. Where all
prices are numbers the gate lets nothing pass that the loop cannot fill, although its counter
wraps. A price that is not a number is in no order with the others: the gate skips over it, the
loop stops at an order behind it, and what the loop could not fill is queued.
-/

namespace OrderMatchingEngine

namespace QueueBook

/-- An order that was matched and not queued leaves only orders that rested before. -/
theorem Matched.rested_before {α : Type} [LinearOrder α] {symbol : Symbol} {b b₁ b' : QueueBook α}
    {o : Order α} {out : Outcome α} (hm : Matched symbol b o out b₁ b')
    (hexit : out.exit ≠ .rested) {x : Order α} (hx : x ∈ b'.allOrders) :
    ∃ y ∈ b.allOrders, y.id = x.id := by
  obtain ⟨sd, hx⟩ := mem_allOrders.mp hx
  rcases hm.mem_orders hx with ⟨-, hown⟩ | ⟨-, hrested, -⟩ | ⟨rfl, hleft⟩
  · exact ⟨x, mem_allOrders.mpr ⟨sd, hown⟩, rfl⟩
  · exact absurd hrested hexit
  · obtain ⟨y, hy, hsame⟩ := fillQueue_queue x hleft
    exact ⟨y, mem_allOrders.mpr ⟨_, hy⟩, by rw [hsame]⟩

end QueueBook

namespace MatchingEngine

section AllOrNothing

variable {α : Type} [LinearOrder α] [Zero α] {clock : Nat → Timestamp} {n : Nat}
  {G : MatchingEngine α → Call α → Prop} {tr : List (Call α × Ret α)} {e e' : MatchingEngine α}
  {o : Order α}

/-- Processing the order returns; it trades nothing and leaves every book as it was, or its
trades add up to its quantity; and it is not queued. -/
def AllOrNothing (clock : Nat → Timestamp) (e : MatchingEngine α) (o : Order α) : Prop :=
  ∃ out e', Returns clock e (.processNewOrder o) (.processed out) e' ∧
    ((out.trades = [] ∧ ∀ symbol, e'.bookView symbol = e.bookView symbol) ∨
      QueueBook.volume out.trades = o.quantity.toNat) ∧
    out.exit ≠ .rested ∧ ∀ symbol id, e'.Rests symbol id → e.Rests symbol id

/-- An order that is refused is none of it executed. -/
theorem allOrNothing_of_refused {out : Outcome α}
    (h : Returns clock e (.processNewOrder o) (.processed out) e') (ht : out.trades = [])
    (hexit : out.exit ≠ .rested) (hbooks : ∀ symbol, e'.bookView symbol = e.bookView symbol) :
    AllOrNothing clock e o := by
  refine ⟨out, e', h, .inl ⟨ht, hbooks⟩, hexit, ?_⟩
  intro symbol id hrests
  rw [rests_iff, hbooks, ← rests_iff] at hrests
  exact hrests

/-- An order without a slot, or one that is not valid, is refused. -/
theorem allOrNothing_of_invalid (clock : Nat → Timestamp) (he : EngineInv e)
    (h : e.orderPool.freeIndices = [] ∨ validateOrder o = false) : AllOrNothing clock e o := by
  rcases hfree : e.orderPool.freeIndices with _ | ⟨own, rest⟩
  · exact allOrNothing_of_refused (.process (processOrder_exhausted hfree 0)) rfl (by simp)
      fun _ => rfl
  · have hv : validateOrder o = false := h.resolve_left (by simp [hfree])
    exact allOrNothing_of_refused (.process (processOrder_invalid hfree hv 0)) rfl (by simp)
      (bookView_write he hfree)

/-- A FOK order that the gate refuses is killed. -/
theorem allOrNothing_of_killed (clock : Nat → Timestamp) (he : EngineInv e)
    (hslot : e.orderPool.freeIndices ≠ []) (hv : validateOrder o = true) (hfok : o.type = .fok)
    (hgate : (e.bookView o.symbol).canFillCompletely o = false) : AllOrNothing clock e o := by
  have hsubmit : (e.bookView o.symbol).submit 0 o =
      .ok (⟨.killed, o, []⟩, e.bookView o.symbol) := by
    rw [QueueBook.submit, hfok, hgate]
    rfl
  obtain ⟨r, e', hr, huntimed, hbook⟩ := returns_of_step clock he (c := .processNewOrder o) hslot
    (.submit 0 hv hsubmit) (by simp [Ret.Served])
  obtain ⟨out, rfl, hout⟩ := Ret.untimed_eq_processed huntimed
  refine allOrNothing_of_refused hr ?_ ?_ ?_
  · exact List.map_eq_nil_iff.mp (congrArg Outcome.trades hout)
  · rw [show out.exit = .killed from congrArg Outcome.exit hout]
    simp
  · intro symbol
    by_cases hsym : symbol = o.symbol
    · rw [hsym]
      exact hbook
    · obtain ⟨fuel, hr⟩ := hr
      obtain ⟨out', hp, -⟩ := call_process.mp hr
      exact processOrder_others he hp hsym

/-- A FOK order that passes the gate is all executed exactly if the loop can fill it. -/
theorem allOrNothing_iff_of_passed (he : EngineInv e)
    (hl : QueueBook.Live (e.bookView o.symbol)) (hslot : e.orderPool.freeIndices ≠ [])
    (hv : validateOrder o = true) (hfok : o.type = .fok) (hqf : o.quantityFilled = 0)
    (hscan : QueueBook.ScanHits (e.bookView o.symbol) o) :
    AllOrNothing clock e o ↔ o.quantity.toNat ≤ (e.bookView o.symbol).liquidity o ∧
      ¬ QueueBook.Blocked (e.bookView o.symbol) o := by
  have hq : o.quantity ≠ 0 := by
    intro hzero
    simp [validateOrder, hzero] at hv
  have hunfilled : o.unfilled = o.quantity.toNat := by
    rw [Order.unfilled, Order.remainingQty, hqf, UInt64.sub_zero]
  have hlive : o.Live := by
    rw [Order.Live, hqf]
    exact UInt64.pos_iff_ne_zero.mpr hq
  have hgate := (QueueBook.canFillCompletely_iff hq).mpr hscan
  -- what a call that returns has done: matched the order, and queued what is left of it
  have hmatched : ∀ out e', Returns clock e (.processNewOrder o) (.processed out) e' →
      ¬ QueueBook.Blocked (e.bookView o.symbol) o ∧ ∃ b₁, QueueBook.Matched o.symbol
        (e.bookView o.symbol) o out.untimed b₁ (e'.bookView o.symbol) := by
    intro out e' hr
    obtain ⟨fuel, hs⟩ := hr.submit he hslot hv
    refine ⟨QueueBook.not_blocked_of_submit (he.wf o.symbol) hl (fun _ => hgate) hs, ?_⟩
    rcases QueueBook.submit_ok (he.wf o.symbol) hs with ⟨-, -, -, hkill⟩ | hm
    · simp [hgate] at hkill
    · exact hm
  have hrests : ∀ out b₁ b', QueueBook.Matched o.symbol (e.bookView o.symbol) o out b₁ b' →
      (out.exit = .rested ↔ (e.bookView o.symbol).liquidity o < o.quantity.toNat) := by
    intro out b₁ b' hm
    rw [hm.exit_rested hl hlive, hunfilled]
    simp [hfok]
  constructor
  · intro h
    obtain ⟨out, e', hr, -, hexit, -⟩ := h
    obtain ⟨hopen, b₁, hm⟩ := hmatched out e' hr
    exact ⟨Nat.le_of_not_lt fun hless => hexit ((hrests _ _ _ hm).mpr hless), hopen⟩
  · intro hcond
    obtain ⟨out, e', hr, hvolume⟩ := (fillsCompletely_iff he hslot hv).mpr
      ((QueueBook.submit_fills_iff (he.wf o.symbol) hl hfok hqf hq).mpr ⟨hscan, hcond⟩)
    obtain ⟨-, b₁, hm⟩ := hmatched out e' hr
    have hexit : out.exit ≠ .rested := fun hexit =>
      Nat.not_lt_of_le hcond.1 ((hrests _ _ _ hm).mp hexit)
    refine ⟨out, e', hr, .inr hvolume, hexit, ?_⟩
    intro symbol id hrest
    rw [rests_iff] at hrest ⊢
    by_cases hsym : symbol = o.symbol
    · subst hsym
      obtain ⟨x, hx, rfl⟩ := hrest
      exact hm.rested_before hexit hx
    · obtain ⟨fuel, hr⟩ := hr
      obtain ⟨out', hp, -⟩ := call_process.mp hr
      rwa [processOrder_others he hp hsym] at hrest

/-- **A FOK order is all or nothing exactly if** it is refused, or what the gate let pass is in
front of the first order that the loop refuses, and nothing blocks the loop. Where no order was
queued at a price that is not a number it always is. -/
theorem fok_all_or_nothing (hG : ∀ e c, G e c → e.QueuesFresh c) (h : Reaches clock n G tr e)
    (hfok : o.type = .fok) (hqf : o.quantityFilled = 0) :
    (AllOrNothing clock e o ↔ e.orderPool.freeIndices = [] ∨ validateOrder o = false ∨
        ¬ QueueBook.ScanHits (e.bookView o.symbol) o ∨
        (o.quantity.toNat ≤ (e.bookView o.symbol).liquidity o ∧
          ¬ QueueBook.Blocked (e.bookView o.symbol) o)) ∧
      ((∀ e c, G e c → c.QueuesNumber) → AllOrNothing clock e o) := by
  have he := reaches_inv hG h
  have hl := reaches_live hG h o.symbol
  have hiff : AllOrNothing clock e o ↔ e.orderPool.freeIndices = [] ∨ validateOrder o = false ∨
      ¬ QueueBook.ScanHits (e.bookView o.symbol) o ∨
      (o.quantity.toNat ≤ (e.bookView o.symbol).liquidity o ∧
        ¬ QueueBook.Blocked (e.bookView o.symbol) o) := by
    by_cases hslot : e.orderPool.freeIndices = []
    · exact iff_of_true (allOrNothing_of_invalid clock he (.inl hslot)) (.inl hslot)
    rcases hv : validateOrder o with _ | _
    · exact iff_of_true (allOrNothing_of_invalid clock he (.inr hv)) (.inr (.inl rfl))
    have hq : o.quantity ≠ 0 := by
      intro hzero
      simp [validateOrder, hzero] at hv
    by_cases hscan : QueueBook.ScanHits (e.bookView o.symbol) o
    · rw [allOrNothing_iff_of_passed he hl hslot hv hfok hqf hscan]
      simp [hslot, hscan]
    · refine iff_of_true (allOrNothing_of_killed clock he hslot hv hfok ?_)
        (.inr (.inr (.inl hscan)))
      rwa [← Bool.not_eq_true, QueueBook.canFillCompletely_iff hq]
  refine ⟨hiff, ?_⟩
  intro hnumbers
  obtain ⟨hex, hn⟩ := reaches_exact (fun e c hg => ⟨hG e c hg, hnumbers e c hg⟩) h o.symbol
  rw [hiff]
  by_cases hscan : QueueBook.ScanHits (e.bookView o.symbol) o
  · by_cases hq : o.quantity = 0
    · exact .inr (.inl (by simp [validateOrder, hq]))
    · exact .inr (.inr (.inr ⟨QueueBook.liquidity_of_canFillCompletely (he.wf o.symbol) hex
        ((QueueBook.canFillCompletely_iff hq).mpr hscan),
        (QueueBook.liquidityWithin_le (he.wf o.symbol) hex hn o).2⟩))
  · exact .inr (.inr (.inl hscan))

end AllOrNothing

/-! ### Concrete orders -/

section Concrete

/-- Two offers of five: one whose price is not a number, and one at 150. -/
def nanOffers : List (Call Int × Ret Int) × MatchingEngine Int :=
  ran (fun _ => 0) 10 100000 QueuesFresh
    [.processNewOrder { orderOf 1 .sell .limit 0 5 with price := .nan },
      .processNewOrder (orderOf 2 .sell .limit 150 5)]

theorem reaches_nanOffers :
    Reaches (fun _ => 0) 100000 QueuesFresh nanOffers.1 nanOffers.2 := reaches_ran rfl

/-- **A purchase of ten at 100** takes five at no price, stops at 150 and is queued. -/
theorem fok_rests :
    let o := orderOf 3 .buy .fok 100 10
    Reaches (fun _ => 0) 100000 QueuesFresh nanOffers.1 nanOffers.2 ∧ o.type = .fok ∧
      o.quantityFilled = 0 ∧ ¬ nanOffers.2.Rests o.symbol o.id ∧
      ¬ AllOrNothing (fun _ => 0) nanOffers.2 o := by
  refine ⟨reaches_nanOffers, rfl, rfl, by decide, ?_⟩
  rw [(fok_all_or_nothing (fun _ _ hg => hg) reaches_nanOffers rfl rfl).1]
  decide

/-- The same purchase where ten are for sale at 100. -/
theorem fok_all_or_nothing_tenOfTen :
    AllOrNothing (fun _ => 0) (ran (fun _ => 0) 10 100000
        (fun e c => e.QueuesFresh c ∧ c.QueuesNumber)
        [.processNewOrder (orderOf 1 .sell .limit 100 10)]).2
      (orderOf 3 .buy .fok 100 10) :=
  (fok_all_or_nothing (fun _ _ hg => hg.1) (reaches_ran rfl) rfl rfl).2 fun _ _ hg => hg.2

end Concrete

end MatchingEngine

end OrderMatchingEngine
