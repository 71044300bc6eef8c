import OrderMatchingEngine.Properties.FokCompleteness
import OrderMatchingEngine.Refinement.Quotes

/-!
# OrderMatchingEngine.Properties.TopQuote

Do the level-1 and the level-2 quote agree?

One shows the first order of the best level, the other the total of the level. They agree about
which sides are empty. About a side that is not, they agree exactly if one order is all that is
left at the best price.
-/

namespace OrderMatchingEngine

namespace QueueBook

variable {α : Type} [LinearOrder α] [Zero α] {symbol : Symbol} {b : QueueBook α}

/-- The first entry of a side with prices above zero tells whether there is one. -/
theorem firstEntry_eq_zero_iff (hl : Live b) {sd : OrderSide}
    (hprice : ∀ x ∈ b.orders sd, 0 < x.price) :
    ((b.firstEntry sd).1 = 0 ↔ b.orders sd = []) ∧
      ((b.firstEntry sd).2 = 0 ↔ b.orders sd = []) := by
  rcases horders : b.orders sd with _ | ⟨x, xs⟩
  · simp [firstEntry, horders]
  · have hx : x ∈ b.orders sd := horders ▸ List.mem_cons_self
    have hentry : b.firstEntry sd = (x.price, x.remainingQty) := by
      rw [firstEntry, horders]
      rfl
    rw [hentry]
    refine ⟨iff_of_false ?_ (by simp), iff_of_false ?_ (by simp)⟩
    · intro hzero
      have hpos := hprice x hx
      rw [show x.price = 0 from hzero] at hpos
      exact irrefl_of (· < ·) 0 hpos
    · intro hzero
      have hpos := (hl sd x hx).unfilled_pos
      rw [Order.unfilled, show x.remainingQty = 0 from hzero] at hpos
      exact absurd hpos (by decide)

end QueueBook

namespace MatchingEngine

section Top

variable {α : Type} [LinearOrder α] [Zero α] {clock : Nat → Timestamp} {n : Nat}
  {G : MatchingEngine α → Call α → Prop} {tr : List (Call α × Ret α)} {e : MatchingEngine α}

/-- **The quotes agree exactly if** each side is empty or has one order at its best level, which has
the price of the level. They always agree about which sides are empty. -/
theorem quotes_agree (hG : ∀ e c, G e c → e.QueuesFresh c) (h : Reaches clock n G tr e)
    {symbol : Symbol} {book : OrderBook α} (hbook : e.getOrderBook symbol = some book)
    (hprice : ∀ sd, ∀ x ∈ (e.bookView symbol).orders sd, 0 < x.price)
    (htotal : ∀ sd, ∀ l ∈ (e.bookView symbol).levels sd, (l.2.map Order.unfilled).sum < 2 ^ 64) :
    ((∀ depth ≥ 1, ∀ sd entry, ((book.getL2Quote e.cells depth).entries sd).head? = some entry →
        (book.getL1Quote e.cells).entry sd = entry) ↔
      ∀ sd l, ((e.bookView symbol).ranked sd).head? = some l →
        ∃ o, l.2 = [o] ∧ o.price = l.1) ∧
    ∀ depth ≥ 1, ∀ sd,
      (((book.getL1Quote e.cells).entry sd).1 = 0 ↔
        (book.getL2Quote e.cells depth).entries sd = []) ∧
      (((book.getL1Quote e.cells).entry sd).2 = 0 ↔
        (book.getL2Quote e.cells depth).entries sd = []) := by
  have hwf := (reaches_inv hG h).wf symbol
  have hl := reaches_live hG h symbol
  have hview := e.bookView_eq symbol hbook
  have hl1 : ∀ sd, (book.getL1Quote e.cells).entry sd = (e.bookView symbol).firstEntry sd := by
    intro sd
    rw [hview] at hwf ⊢
    exact getL1Quote_entry e.cells hwf sd
  have hl2 : ∀ depth sd, (book.getL2Quote e.cells depth).entries sd =
      (e.bookView symbol).ladder depth sd := by
    intro depth sd
    rw [hview]
    exact getL2Quote_entries e.cells depth book sd
  simp only [hl1, hl2]
  constructor
  · have hside : ∀ sd depth, depth ≥ 1 → _ := fun sd depth hd =>
      QueueBook.firstEntry_eq_head_iff hwf hl hd (htotal sd)
    exact ⟨fun hall sd => (hside sd 1 le_rfl).mp (hall 1 le_rfl sd),
      fun hall depth hd sd => (hside sd depth hd).mpr (hall sd)⟩
  · intro depth hdepth sd
    have hempty : (e.bookView symbol).ladder depth sd = [] ↔
        (e.bookView symbol).orders sd = [] := by
      rw [QueueBook.orders_eq_nil_iff hwf, QueueBook.ladder, List.map_eq_nil_iff,
        List.take_eq_nil_iff]
      exact or_iff_right (Nat.ne_of_gt hdepth)
    rw [hempty]
    exact QueueBook.firstEntry_eq_zero_iff hl (hprice sd)

end Top

/-! ### Concrete orders -/

section Concrete

/-- Two bids at 100, of five and of seven. -/
def twoBids : List (Call Int × Ret Int) × MatchingEngine Int :=
  ran (fun _ => 0) 10 100000 QueuesFresh
    [.processNewOrder (orderOf 1 .buy .limit 100 5),
      .processNewOrder (orderOf 2 .buy .limit 100 7)]

/-- **The one quote shows five bid at 100**, the other twelve. -/
theorem quotes_disagree :
    let e := twoBids.2
    let book := e.bookOf [65]
    Reaches (fun _ => 0) 100000 QueuesFresh twoBids.1 e ∧ e.getOrderBook [65] = some book ∧
      (∀ sd, ∀ x ∈ (e.bookView [65]).orders sd, 0 < x.price) ∧
      (∀ sd, ∀ l ∈ (e.bookView [65]).levels sd, (l.2.map Order.unfilled).sum < 2 ^ 64) ∧
      (book.getL1Quote e.cells).entry .buy = (.num 100, 5) ∧
      (book.getL2Quote e.cells 1).bids = [(.num 100, 12)] ∧
      ¬ ∀ depth ≥ 1, ∀ sd entry,
        ((book.getL2Quote e.cells depth).entries sd).head? = some entry →
        (book.getL1Quote e.cells).entry sd = entry := by
  refine ⟨reaches_ran rfl, rfl, ?_, ?_, rfl, rfl, ?_⟩
  · intro sd
    cases sd <;> decide
  · intro sd
    cases sd <;> decide
  · intro hall
    exact absurd (hall 1 le_rfl .buy (.num 100, 12) rfl) (by decide)

/-- One bid at 100 and one at 99. -/
theorem quotes_agree_oneBid :
    let e := (ran (fun _ => 0) 10 100000 QueuesFresh
      [.processNewOrder (orderOf 1 .buy .limit 100 5),
        .processNewOrder (orderOf 2 .buy .limit 99 7)]).2
    ∀ depth ≥ 1, ∀ sd entry,
      (((e.bookOf [65]).getL2Quote e.cells depth).entries sd).head? = some entry →
      ((e.bookOf [65]).getL1Quote e.cells).entry sd = entry := by
  intro e
  have hbook : e.getOrderBook [65] = some (e.bookOf [65]) := rfl
  refine (quotes_agree (fun _ _ hg => hg) (reaches_ran rfl) hbook ?_ ?_).1.mpr ?_
  · intro sd
    cases sd <;> decide
  · intro sd
    cases sd <;> decide
  · intro sd l hl
    cases sd with
    | buy => exact ⟨orderOf 1 .buy .limit 100 5, by
        obtain rfl := Option.some.inj hl
        exact ⟨rfl, rfl⟩⟩
    | sell =>
        rw [show (e.bookView [65]).ranked .sell = [] from rfl] at hl
        simp at hl

end Concrete

end MatchingEngine

end OrderMatchingEngine
