import Mathlib.Algebra.Order.Ring.Int
import OrderMatchingEngine.Refinement.Slots

/-!
# OrderMatchingEngine.Properties.Pool

Where do the pool's slots go?

Every slot is free, holds a resting order, or was leaked. Of the seven returns of
`process_new_order` five settle the slot they took; a FOK order that is killed and a MARKET
order with a remainder return without giving theirs back. `Settles` says of a call, from
the state before it, that it takes neither of these two returns.
-/

namespace OrderMatchingEngine

namespace MatchingEngine

variable {α : Type}

/-- Every slot of the pool is free or holds a resting order. -/
def Accounted (e : MatchingEngine α) : Prop :=
  e.orderPool.available + e.restingCount = e.orderPool.capacity

/-- The call does not leak its slot: a FOK order that gets a slot passes
`can_fill_completely`, and a MARKET order that gets one is filled by executing what it
needs of what rests on the opposite side. -/
def Settles [LinearOrder α] [Zero α] (e : MatchingEngine α) : Call α → Prop
  | .processNewOrder o =>
    e.orderPool.freeIndices ≠ [] → validateOrder o = true →
      (o.type = .fok → canFillCompletely e.cells (e.bookOf o.symbol) o = true) ∧
        (o.type = .market → (o.reduceQuantity (.ofNat (min o.unfilled
          (((e.bookView o.symbol).orders o.side.opposite).map Order.unfilled).sum))).isFilled = true)
  | .cancelOrder _ _ _ => True

instance [LinearOrder α] [Zero α] (e : MatchingEngine α) : (c : Call α) → Decidable (e.Settles c)
  | .processNewOrder o => inferInstanceAs (Decidable (e.orderPool.freeIndices ≠ [] →
      validateOrder o = true →
      (o.type = .fok → canFillCompletely e.cells (e.bookOf o.symbol) o = true) ∧
        (o.type = .market → (o.reduceQuantity (.ofNat (min o.unfilled
          (((e.bookView o.symbol).orders o.side.opposite).map Order.unfilled).sum))).isFilled
            = true)))
  | .cancelOrder _ _ _ => inferInstanceAs (Decidable True)

section Accounting

variable [LinearOrder α] [Zero α] {clock : Nat → Timestamp} {n : Nat}
  {tr : List (Call α × Ret α)} {e e' : MatchingEngine α} {c : Call α} {r : Ret α}

/-- The two returns that leak are those `Settles` excludes. -/
theorem leaks_eq_zero_iff (he : EngineInv e) (hl : QueueBook.Live (e.bookView c.symbol))
    (h : Returns clock e c r e') : r.leaks = 0 ↔ e.Settles c := by
  cases c with
  | cancelOrder id symbol side =>
      obtain ⟨fuel, h⟩ := h
      obtain ⟨x, -, rfl⟩ := call_cancel.mp h
      exact ⟨fun _ => trivial, fun _ => rfl⟩
  | processNewOrder o =>
      obtain ⟨out, rfl, ⟨hfree, rfl, -⟩ | ⟨-, hv, rfl⟩ | ⟨hfree, hv, fuel, hs⟩⟩ :=
        returns_process he h
      · exact ⟨fun _ h => absurd hfree h, fun _ => rfl⟩
      · exact ⟨fun _ _ hv' => by simp [hv] at hv', fun _ => rfl⟩
      · have hl : QueueBook.Live (e.bookView o.symbol) := hl
        have hexit : (Ret.processed out).leaks = out.untimed.exit.leaks := rfl
        rw [hexit]
        generalize out.untimed = out' at hs
        have hscan : (e.bookView o.symbol).canFillCompletely o =
            canFillCompletely e.cells (e.bookOf o.symbol) o := OrderBook.canFillCompletely_view ..
        rcases QueueBook.submit_ok (he.wf o.symbol) hs with ⟨rfl, -, hfok, hkill⟩ | ⟨b₁, hm⟩
        · -- killed: the slot is lost
          refine ⟨fun h => by simp [Exit.leaks] at h, fun h => ?_⟩
          have hfill := (h hfree hv).1 hfok
          rw [← hscan, hkill] at hfill
          simp at hfill
        · have hown : out'.order = o.reduceQuantity (.ofNat
              (min o.unfilled ((e.bookView o.symbol).liquidity o))) := by
            rw [hm.order, QueueBook.matched_own hl]
          -- matched: the slot is lost if the order is a MARKET order with a remainder
          have htype : out'.order.type = o.type := by rw [hm.same]
          constructor
          · intro hleaks _ _
            refine ⟨fun hfok => hscan ▸ hm.fok hfok, ?_⟩
            intro hmarket
            rw [← QueueBook.liquidity_market _ hmarket, ← hown]
            rcases QueueBook.settle_cases hm.settled with
              ⟨-, -, -, h, -⟩ | ⟨-, ⟨-, h⟩ | ⟨-, -, h⟩ | ⟨h, -⟩⟩
            · exact absurd (htype.trans hmarket) h
            · rwa [← Order.isFilled_eq_false, Bool.not_eq_false] at h
            · simp [htype.symm.trans h] at hmarket
            · simp [h, Exit.leaks] at hleaks
          · intro hsettles
            rcases QueueBook.settle_cases hm.settled with
              ⟨h, -⟩ | ⟨-, ⟨h, -⟩ | ⟨h, -⟩ | ⟨-, hlive, h⟩⟩
            · simp [h, Exit.leaks]
            · simp [h, Exit.leaks]
            · simp [h, Exit.leaks]
            · have hmarket : o.type = .market := htype ▸ h
              have hfilled := (hsettles hfree hv).2 hmarket
              rw [← QueueBook.liquidity_market _ hmarket, ← hown,
                Order.isFilled_eq_false.mpr hlive] at hfilled
              simp at hfilled

omit [LinearOrder α] [Zero α] in
/-- The pool accounts for its slots after a call exactly when the call leaks none. -/
theorem accounted_iff {symbol : Symbol} {leaks : Nat} {trades : List (Trade α)}
    (hf : Frame symbol leaks trades e e') (h : e.Accounted) : e'.Accounted ↔ leaks = 0 := by
  have havailable := hf.available
  unfold Accounted at h ⊢
  rw [hf.capacity]
  omega

omit [LinearOrder α] in
theorem accounted_withPool (n : Nat) :
    (withPool n : MatchingEngine α).orderPool.capacity = n ∧
      (withPool n : MatchingEngine α).Accounted := by
  have hempty : (withPool n : MatchingEngine α).restingCount = 0 := rfl
  rw [Accounted, hempty]
  exact ⟨rfl, length_indicesBelow n⟩

/-- **Every slot is free, resting or leaked.** The pool accounts for all its slots in every
state reached by calls that settle theirs; and from there the next call keeps it so exactly
when it settles its slot too. -/
theorem no_pool_leak (h : Reaches clock n (fun e c => e.FreshId c ∧ e.Settles c) tr e) :
    e.orderPool.capacity = n ∧ e.Accounted ∧
      (e.restingCount < e.orderPool.capacity → ∀ (o : Order α) out e',
        Returns clock e (.processNewOrder o) (.processed out) e' → out.exit ≠ .exhausted) ∧
      ∀ (c : Call α) r e', e.FreshId c → Returns clock e c r e' → (e'.Accounted ↔ e.Settles c) := by
  have hG : ∀ (e : MatchingEngine α) c, e.FreshId c ∧ e.Settles c → e.QueuesFresh c :=
    fun _ _ hg => .of_freshId hg.1
  obtain ⟨hcap, hacc⟩ := Trace.Run.invariant
    (fun _ e => e.orderPool.capacity = n ∧ e.Accounted) (accounted_withPool n)
    (fun tr e c r e' hrun hI hs => by
      have he := reaches_inv hG hrun
      obtain ⟨-, hf, -⟩ := returns_spec he (hG _ _ hs.1) hs.2
      refine ⟨hf.capacity.trans hI.1, (accounted_iff hf hI.2).mpr ?_⟩
      exact (leaks_eq_zero_iff he (reaches_live hG hrun _) hs.2).mpr hs.1.2) h
  have he := reaches_inv hG h
  refine ⟨hcap, hacc, ?_, ?_⟩
  · intro hlt o out e' hr hexit
    have hfree := (exhausted_iff he hr).mp hexit
    rw [Accounted, ObjectPool.available, hfree] at hacc
    simp at hacc
    omega
  · intro c r e' hfresh hr
    obtain ⟨-, hf, -⟩ := returns_spec he (.of_freshId hfresh) hr
    rw [accounted_iff hf hacc, leaks_eq_zero_iff he (reaches_live hG h _) hr]

end Accounting

/-! ### Concrete runs -/

section Concrete

/-- An order to buy one lot at 100. -/
def buyOne (type : OrderType) : Order Int :=
  { id := 1, symbol := [65], userId := 1, side := .buy, type := type, price := .num 100,
    quantity := 1, timestamp := 0 }

/-- The engine after a FOK order was killed and a MARKET order found nothing to buy. -/
def afterLeaks : MatchingEngine Int :=
  ((execute (fun _ => 0) 10 (fun e c => e.FreshId c) init
    [.processNewOrder (buyOne .fok), .processNewOrder (buyOne .market)]).map Prod.snd).getD init

/-- **A killed FOK order and an unfilled MARKET order** each lose a slot: with no order
resting anywhere the pool is two slots short. -/
theorem pool_leaks :
    ∃ tr, Reaches (fun _ => 0) 100000 (fun (e : MatchingEngine Int) c => e.FreshId c) tr
        afterLeaks ∧
      afterLeaks.restingCount = 0 ∧ afterLeaks.orderPool.available = 99998 ∧
      afterLeaks.orderPool.capacity = 100000 ∧ ¬ afterLeaks.Accounted := by
  have hfree : afterLeaks.orderPool.freeIndices = ObjectPool.indicesBelow 99998 := rfl
  have havailable : afterLeaks.orderPool.available = 99998 := by
    rw [ObjectPool.available, hfree]
    exact length_indicesBelow 99998
  have hresting : afterLeaks.restingCount = 0 := rfl
  have hcapacity : afterLeaks.orderPool.capacity = 100000 := rfl
  refine ⟨_, reaches_of_execute (fun _ => 0) 10 100000
    [.processNewOrder (buyOne .fok), .processNewOrder (buyOne .market)] rfl, hresting, havailable,
    hcapacity, ?_⟩
  rw [Accounted, havailable, hresting, hcapacity]
  decide

/-- Two bids for one lot, a FOK order and a MARKET order that sell it, and two orders that find
nothing: an IOC order, which is discarded, and a bid, which rests. -/
def settledCalls : List (Call Int) :=
  [.processNewOrder (buyOne .limit), .processNewOrder { buyOne .limit with id := 2 },
    .processNewOrder { buyOne .fok with id := 3, side := .sell },
    .processNewOrder { buyOne .market with id := 4, side := .sell },
    .processNewOrder { buyOne .ioc with id := 5 }, .processNewOrder { buyOne .limit with id := 6 }]

/-- The engine after them. -/
def afterSettled : MatchingEngine Int :=
  ((execute (fun _ => 0) 10 (fun e c => e.FreshId c ∧ e.Settles c) init settledCalls).map
    Prod.snd).getD init

theorem no_pool_leak_settledCalls :
    afterSettled.restingCount = 1 ∧ afterSettled.orderPool.capacity = 100000 ∧
      afterSettled.Accounted ∧
      (afterSettled.restingCount < afterSettled.orderPool.capacity → ∀ (o : Order Int) out e',
        Returns (fun _ => 0) afterSettled (.processNewOrder o) (.processed out) e' →
          out.exit ≠ .exhausted) ∧
      ∀ (c : Call Int) r e', afterSettled.FreshId c → Returns (fun _ => 0) afterSettled c r e' →
        (e'.Accounted ↔ afterSettled.Settles c) :=
  ⟨rfl, no_pool_leak (reaches_of_execute (fun _ => 0) 10 100000 settledCalls rfl)⟩

end Concrete

end MatchingEngine

end OrderMatchingEngine
