import Mathlib.Algebra.Order.Ring.Int
import OrderMatchingEngine.Abstract.FillOrKill
import OrderMatchingEngine.Refinement.Lifting

/-!
# OrderMatchingEngine.Properties.FokCompleteness

Is a FOK order filled whenever there is enough for it?

Only where the scan of `can_fill_completely` hits its quantity exactly. The scan subtracts
from an unsigned counter, so reading more than is needed wraps it round instead of ending the
scan; and for a sale it starts at the lowest bid, so that it gives up at once when that one is
below the limit.
-/

namespace OrderMatchingEngine

namespace MatchingEngine

section Completeness

variable {α : Type} [LinearOrder α] [Zero α] {clock : Nat → Timestamp} {n : Nat}
  {G : MatchingEngine α → Call α → Prop} {tr : List (Call α × Ret α)} {e : MatchingEngine α}
  {o : Order α}

/-- Processing the order returns, with trades that add up to its quantity. -/
def FillsCompletely (clock : Nat → Timestamp) (e : MatchingEngine α) (o : Order α) : Prop :=
  ∃ out e', Returns clock e (.processNewOrder o) (.processed out) e' ∧
    QueueBook.volume out.trades = o.quantity.toNat

omit [LinearOrder α] [Zero α] in
theorem volume_untimed (out : Outcome α) :
    QueueBook.volume out.untimed.trades = QueueBook.volume out.trades := by
  show (List.map _ (out.trades.map Trade.untimed)).sum = _
  rw [List.map_map]
  rfl

/-- A valid order with a slot is filled completely if submitting it to its book does so. -/
theorem fillsCompletely_iff (he : EngineInv e) (hslot : e.orderPool.freeIndices ≠ [])
    (hv : validateOrder o = true) :
    FillsCompletely clock e o ↔ ∃ fuel out b', (e.bookView o.symbol).submit fuel o = .ok (out, b') ∧
      QueueBook.volume out.trades = o.quantity.toNat := by
  rw [← exists_returns_iff clock he hslot hv fun out =>
    QueueBook.volume out.trades = o.quantity.toNat]
  simp only [volume_untimed, FillsCompletely]

/-- **FOK completeness**, exactly where it holds: if there is not enough within the limit anyway,
or if some of the orders the scan reads first have exactly the quantity and the loop can take as
much, which it always can in books whose prices are numbers. -/
theorem fok_completeness (hG : ∀ e c, G e c → e.FreshId c) (h : Reaches clock n G tr e)
    (hslot : e.orderPool.freeIndices ≠ []) (hfok : o.type = .fok) (hv : validateOrder o = true)
    (hqf : o.quantityFilled = 0) :
    ((o.quantity.toNat ≤ (e.bookView o.symbol).liquidityWithin o → FillsCompletely clock e o) ↔
      ((e.bookView o.symbol).liquidityWithin o < o.quantity.toNat ∨
        QueueBook.ScanHits (e.bookView o.symbol) o ∧
          o.quantity.toNat ≤ (e.bookView o.symbol).liquidity o ∧
          ¬ QueueBook.Blocked (e.bookView o.symbol) o)) ∧
      ((∀ e c, G e c → c.QueuesNumber) →
        ((o.quantity.toNat ≤ (e.bookView o.symbol).liquidityWithin o → FillsCompletely clock e o) ↔
          ((e.bookView o.symbol).liquidityWithin o < o.quantity.toNat ∨
            QueueBook.ScanHits (e.bookView o.symbol) o))) := by
  have hqueues : ∀ e c, G e c → e.QueuesFresh c := fun e c hg => .of_freshId (hG e c hg)
  have he := reaches_inv hqueues h
  have hq : o.quantity ≠ 0 := by
    intro hzero
    simp [validateOrder, hzero] at hv
  have hfills : FillsCompletely clock e o ↔ _ := (fillsCompletely_iff he hslot hv).trans
    (QueueBook.submit_fills_iff (he.wf o.symbol) (reaches_live hqueues h o.symbol) hfok hqf hq)
  have hiff : (o.quantity.toNat ≤ (e.bookView o.symbol).liquidityWithin o →
      FillsCompletely clock e o) ↔
        ((e.bookView o.symbol).liquidityWithin o < o.quantity.toNat ∨
          QueueBook.ScanHits (e.bookView o.symbol) o ∧
            o.quantity.toNat ≤ (e.bookView o.symbol).liquidity o ∧
            ¬ QueueBook.Blocked (e.bookView o.symbol) o) := by
    rw [hfills, ← Nat.not_le]
    exact imp_iff_not_or
  refine ⟨hiff, fun hnumbers => hiff.trans ?_⟩
  obtain ⟨hex, hn⟩ := reaches_exact (fun e c hg => ⟨hqueues e c hg, hnumbers e c hg⟩) h o.symbol
  obtain ⟨hle, hopen⟩ := QueueBook.liquidityWithin_le (he.wf o.symbol) hex hn o
  constructor
  · exact fun hcond => hcond.imp_right And.left
  · intro hcond
    by_cases hless : (e.bookView o.symbol).liquidityWithin o < o.quantity.toNat
    · exact .inl hless
    · exact .inr ⟨hcond.resolve_left hless, by omega, hopen⟩

end Completeness

/-! ### Concrete orders -/

section Concrete

/-- An order of symbol `A`. -/
def orderOf (id : OrderID) (side : OrderSide) (type : OrderType) (price : Int)
    (quantity : Quantity) : Order Int :=
  { id := id, symbol := [65], userId := 1, side := side, type := type, price := .num price,
    quantity := quantity, timestamp := 0 }

/-- The engine after one call. -/
def afterOrder (o : Order Int) : List (Call Int × Ret Int) × MatchingEngine Int :=
  (execute (fun _ => 0) 10 FreshId init [.processNewOrder o]).getD ([], init)

theorem reaches_afterOrder (o : Order Int) (h : (execute (fun _ => 0) 10 FreshId init
    [.processNewOrder o]).isSome = true) :
    Reaches (fun _ => 0) 100000 FreshId (afterOrder o).1 (afterOrder o).2 :=
  reaches_ran h

/-- An order that was killed is not filled. -/
theorem not_fillsCompletely {e e' : MatchingEngine Int} {o : Order Int}
    (h : Returns (fun _ => 0) e (.processNewOrder o) (.processed ⟨.killed, o, []⟩) e')
    (hq : o.quantity ≠ 0) : ¬ FillsCompletely (fun _ => 0) e o := by
  intro hfills
  obtain ⟨out, e'', hr, hvolume⟩ := hfills
  obtain rfl := Ret.processed.inj (hr.deterministic h).1
  exact hq (UInt64.toNat_inj.mp hvolume.symm)

/-- **A purchase of five is killed** where seven are for sale within its limit. -/
theorem fok_overshoots :
    ∃ (tr : List (Call Int × Ret Int)) (e : MatchingEngine Int) (o : Order Int),
      Reaches (fun _ => 0) 100000 FreshId tr e ∧ e.orderPool.freeIndices ≠ [] ∧ o.type = .fok ∧
        validateOrder o = true ∧ ¬ e.Rests o.symbol o.id ∧ o.quantityFilled = 0 ∧
        o.quantity.toNat ≤ (e.bookView o.symbol).liquidityWithin o ∧
        ¬ FillsCompletely (fun _ => 0) e o := by
  refine ⟨_, (afterOrder (orderOf 1 .sell .limit 100 7)).2, orderOf 2 .buy .fok 100 5,
    reaches_afterOrder _ rfl, ?_, rfl, by decide, by decide, rfl, by decide, ?_⟩
  · exact List.cons_ne_nil 99998 (ObjectPool.indicesBelow 99998)
  · exact not_fillsCompletely ⟨10, rfl⟩ (by decide)

/-- The same purchase where exactly five are for sale. -/
theorem fok_completeness_fiveOfFive :
    let e := (afterOrder (orderOf 1 .sell .limit 100 5)).2
    let o := orderOf 2 .buy .fok 100 5
    ((o.quantity.toNat ≤ (e.bookView o.symbol).liquidityWithin o →
        FillsCompletely (fun _ => 0) e o) ↔
      ((e.bookView o.symbol).liquidityWithin o < o.quantity.toNat ∨
        QueueBook.ScanHits (e.bookView o.symbol) o ∧
          o.quantity.toNat ≤ (e.bookView o.symbol).liquidity o ∧
          ¬ QueueBook.Blocked (e.bookView o.symbol) o)) ∧
      QueueBook.ScanHits (e.bookView o.symbol) o :=
  ⟨(fok_completeness (fun _ _ hg => hg) (reaches_afterOrder (orderOf 1 .sell .limit 100 5) rfl)
    (List.cons_ne_nil 99998 (ObjectPool.indicesBelow 99998)) rfl (by decide) rfl).1, by decide⟩

end Concrete

end MatchingEngine

end OrderMatchingEngine
