import OrderMatchingEngine.Abstract.Splitting
import OrderMatchingEngine.Abstract.Spectators
import OrderMatchingEngine.Properties.FokCompleteness

/-!
# OrderMatchingEngine.Properties.Splitting

Takers compared: one order cut in two, and a more eager order.

After calls that have queued orders under fresh ids and at numbers only (`Queueing`), an IOC or
MARKET order of which nothing is filled can be cut in two, if the pool has two free slots: the two
pieces, one right after the other, take the same of each resting order and leave the same books
(`order_split`). After such calls an order with a better limit or a larger quantity takes no less of
any resting order (`eager_takes_more`).
-/

namespace OrderMatchingEngine

namespace MatchingEngine

open QueueBook (taken)

variable {α : Type} [LinearOrder α] [Zero α] {clock₀ : Nat → Timestamp} {n : Nat}
  {G : MatchingEngine α → Call α → Prop} {tr : List (Call α × Ret α)} {e e' : MatchingEngine α}
  {o : Order α}

/-- Calls that queue orders under fresh ids and at numbers only. -/
def Queueing (e : MatchingEngine α) (c : Call α) : Prop := e.QueuesFresh c ∧ c.QueuesNumber

instance (e : MatchingEngine α) (c : Call α) : Decidable (e.Queueing c) :=
  inferInstanceAs (Decidable (_ ∧ _))

omit [LinearOrder α] [Zero α] in
theorem queueing_unqueued (e : MatchingEngine α) (ho : o.type = .ioc ∨ o.type = .market) :
    e.Queueing (.processNewOrder o) :=
  ⟨fun hioc hmarket => absurd ho (not_or.mpr ⟨hioc, hmarket⟩), fun hioc hmarket =>
    absurd ho (not_or.mpr ⟨hioc, hmarket⟩)⟩

/-- What every state has that such calls reach, whatever the clocks read. -/
structure Orderly (e : MatchingEngine α) : Prop where
  inv : EngineInv e
  exact : ∀ symbol, QueueBook.Exact (e.bookView symbol)
  numbers : ∀ symbol, QueueBook.Numbers (e.bookView symbol)
  live : ∀ symbol, QueueBook.Live (e.bookView symbol)

theorem reaches_orderly (hG : ∀ e c, G e c → e.Queueing c) (h : Reaches clock₀ n G tr e) :
    e.Orderly where
  inv := reaches_inv (fun e c hg => (hG e c hg).1) h
  exact symbol := (reaches_exact hG h symbol).1
  numbers symbol := (reaches_exact hG h symbol).2
  live := reaches_live (fun e c hg => (hG e c hg).1) h

theorem Orderly.step {clock : Nat → Timestamp} {c : Call α} {r : Ret α} (he : e.Orderly)
    (hc : e.Queueing c) (hr : Returns clock e c r e') : e'.Orderly := by
  obtain ⟨he', hf, hstep⟩ := returns_spec he.inv hc.1 hr
  obtain ⟨hexact, hnumbers⟩ := QueueBook.step_exact (he.inv.wf _) hstep (he.exact _)
    (he.numbers _) fun _ hq => hq.price_ne_nan hc.2
  have hlive := QueueBook.step_live (he.inv.wf _) hstep (he.live _)
  refine ⟨he', fun symbol => ?_, fun symbol => ?_, fun symbol => ?_⟩
  all_goals by_cases hsym : symbol = c.symbol
  · exact hsym ▸ hexact
  · exact (hf.bookView hsym).symm ▸ he.exact symbol
  · exact hsym ▸ hnumbers
  · exact (hf.bookView hsym).symm ▸ he.numbers symbol
  · exact hsym ▸ hlive
  · exact (hf.bookView hsym).symm ▸ he.live symbol

/-- A valid order with a slot that is not a FOK order is matched. -/
theorem Orderly.exists_matched (clock : Nat → Timestamp) (he : e.Orderly)
    (hslot : e.orderPool.freeIndices ≠ []) (hv : validateOrder o = true) (hfok : o.type ≠ .fok) :
    ∃ out e' b₁, Returns clock e (.processNewOrder o) (.processed out) e' ∧
      QueueBook.Matched o.symbol (e.bookView o.symbol) o out.untimed b₁
        (e'.bookView o.symbol) := by
  obtain ⟨r, e', hr⟩ := returns_total clock he.inv (c := .processNewOrder o) (he.exact o.symbol)
  obtain ⟨out, rfl, -⟩ := returns_process he.inv hr
  obtain ⟨fuel, hs⟩ := hr.submit he.inv hslot hv
  rcases QueueBook.submit_ok (he.inv.wf o.symbol) hs with ⟨-, -, hkilled, -⟩ | ⟨b₁, hm⟩
  · exact absurd hkilled hfok
  · exact ⟨out, e', b₁, hr, hm⟩

/-- An IOC or MARKET order costs one slot at most. -/
theorem available_unqueued {clock : Nat → Timestamp} (he : EngineInv e)
    (ho : o.type = .ioc ∨ o.type = .market) {out : Outcome α} {b₁ : QueueBook α}
    (hr : Returns clock e (.processNewOrder o) (.processed out) e')
    (hm : QueueBook.Matched o.symbol (e.bookView o.symbol) o out.untimed b₁
      (e'.bookView o.symbol)) :
    e.orderPool.available ≤ e'.orderPool.available + 1 := by
  obtain ⟨-, hf, -⟩ := returns_spec he (queueing_unqueued e ho).1 hr
  have havailable := hf.available_view
  have hleaks : out.exit.leaks ≤ 1 := by cases out.exit <;> decide
  have hlen : (e'.bookView o.symbol).allOrders.length ≤
      (e.bookView o.symbol).allOrders.length := by
    have hsides : ∀ b : QueueBook α, b.allOrders.length =
        (b.orders o.side).length + (b.orders o.side.opposite).length := by
      intro b
      rw [QueueBook.allOrders, List.length_append]
      cases o.side
      · rfl
      · exact Nat.add_comm ..
    rw [hsides, hsides, hm.orders_unqueued ho, hm.orders_opposite]
    exact Nat.add_le_add_left (QueueBook.length_fillQueue_le ..) _
  have hle : out.exit.leaks + (e'.orderPool.available + (e'.bookView o.symbol).allOrders.length) =
      e.orderPool.available + (e.bookView o.symbol).allOrders.length := havailable
  omega

/-- A piece of a valid order is valid. -/
theorem validateOrder_piece (hv : validateOrder o = true) {qty : Quantity} (hq : 0 < qty)
    (id : OrderID) : validateOrder { o with id := id, quantity := qty } = true := by
  have hqty : qty ≠ 0 := UInt64.pos_iff_ne_zero.mp hq
  unfold validateOrder at hv ⊢
  split at hv
  · simp at hv
  · rw [if_neg hqty]
    exact hv

/-- **An IOC or MARKET order can be cut in two**, if nothing of it is filled yet, only `Queueing`
calls were made before, and two slots are free: the pieces leave the books that the order leaves,
and take as much of each resting order. -/
theorem order_split (hG : ∀ e c, G e c → e.Queueing c) (h : Reaches clock₀ n G tr e)
    (hslots : 2 ≤ e.orderPool.available) (ho : o.type = .ioc ∨ o.type = .market)
    (hv : validateOrder o = true) (hunfilled : o.quantityFilled = 0) {first second : Quantity}
    (hfirst : 0 < first) (hsecond : 0 < second)
    (hsum : o.quantity.toNat = first.toNat + second.toNat) (id : OrderID)
    (clock clock' : Nat → Timestamp) :
    ∃ out e₁ out₁ e₂ out₂ e₃,
      Returns clock e (.processNewOrder o) (.processed out) e₁ ∧
      Returns clock' e (.processNewOrder { o with quantity := first }) (.processed out₁) e₂ ∧
      Returns clock' e₂ (.processNewOrder { o with id := id, quantity := second })
        (.processed out₂) e₃ ∧
      (∀ symbol, e₃.bookView symbol = e₁.bookView symbol) ∧
      ∀ p, taken o.side p out.trades = taken o.side p (out₁.trades ++ out₂.trades) := by
  have hfok : o.type ≠ .fok := fun hfok => by rcases ho with h | h <;> simp [hfok] at h
  have hslot : ∀ {e : MatchingEngine α}, 0 < e.orderPool.available → e.orderPool.freeIndices ≠ [] :=
    List.length_pos_iff.mp
  have he := reaches_orderly hG h
  obtain ⟨out, e₁, b₁, hr, hm⟩ := he.exists_matched clock (hslot (by omega)) hv hfok
  obtain ⟨out₁, e₂, m₁, hr₁, hm₁⟩ := he.exists_matched (o := { o with quantity := first }) clock'
    (hslot (by omega)) (validateOrder_piece hv hfirst o.id) hfok
  have he₁ := he.step (queueing_unqueued e ho) hr
  have he₂ := he.step (queueing_unqueued (o := { o with quantity := first }) e ho) hr₁
  have havailable := available_unqueued (o := { o with quantity := first }) he.inv ho hr₁ hm₁
  obtain ⟨out₂, e₃, m₂, hr₂, hm₂⟩ :=
    he₂.exists_matched (o := { o with id := id, quantity := second }) clock' (hslot (by omega))
      (validateOrder_piece hv hsecond id) hfok
  have hpiece := queueing_unqueued (o := { o with id := id, quantity := second }) e₂ ho
  have he₃ := he₂.step hpiece hr₂
  have hunfilledOf : ∀ qty : Quantity,
      ({ o with quantity := qty } : Order α).unfilled = qty.toNat := fun qty => by
    rw [Order.unfilled, Order.remainingQty, hunfilled, UInt64.sub_zero]
  obtain ⟨horders, htaken⟩ := hm.split hm₁ hm₂ (he.live _) (he₂.live _) ho ⟨rfl, rfl, rfl⟩
    ⟨rfl, rfl, rfl⟩ (by
      have hall := hunfilledOf o.quantity
      have hone := hunfilledOf first
      have htwo := hunfilledOf second
      calc o.unfilled = o.quantity.toNat := hall
        _ = first.toNat + second.toNat := hsum
        _ = _ := by rw [← hone, ← htwo]; rfl)
  refine ⟨out, e₁, out₁, e₂, out₂, e₃, hr, hr₁, hr₂, fun symbol => ?_, fun p => ?_⟩
  · by_cases hsym : symbol = o.symbol
    · subst hsym
      exact QueueBook.eq_of_orders (he₃.inv.wf _) (he₃.exact _) (he₁.inv.wf _) (he₁.exact _) horders
    · obtain ⟨-, hf, -⟩ := returns_spec he.inv (queueing_unqueued e ho).1 hr
      obtain ⟨-, hf₁, -⟩ :=
        returns_spec he.inv (queueing_unqueued (o := { o with quantity := first }) e ho).1 hr₁
      obtain ⟨-, hf₂, -⟩ := returns_spec he₂.inv hpiece.1 hr₂
      rw [hf₂.bookView hsym, hf₁.bookView hsym, hf.bookView hsym]
  · have hp := htaken p
    rw [Outcome.untimed, Outcome.untimed, Outcome.untimed, QueueBook.taken_untimed] at hp
    rw [hp, ← List.map_append, QueueBook.taken_untimed]

/-- **A more eager order takes more**, after `Queueing` calls: valid, and not a FOK order, it
executes no less of any resting order than the other one would. -/
theorem eager_takes_more (hG : ∀ e c, G e c → e.Queueing c) (h : Reaches clock₀ n G tr e)
    {o' : Order α} (heager : o.Eager o') (hfok : o'.type ≠ .fok) (hv : validateOrder o' = true)
    {clock clock' : Nat → Timestamp} {out out' : Outcome α} {e₁ e₂ : MatchingEngine α}
    (hr : Returns clock e (.processNewOrder o) (.processed out) e₁)
    (hr' : Returns clock' e (.processNewOrder o') (.processed out') e₂) (p : OrderID → Bool) :
    taken o.side p out.trades ≤ taken o.side p out'.trades := by
  have he := reaches_orderly hG h
  obtain ⟨fuel, hcall⟩ := hr
  obtain ⟨out₀, hp, hout⟩ := call_process.mp hcall
  obtain rfl := Ret.processed.inj hout
  rcases process_cases he.inv hp with ⟨hnone, -⟩ | ⟨hslot, -, b₁, hm⟩
  · rw [hnone]
    exact Nat.zero_le _
  · obtain ⟨fuel', hs⟩ := hr'.submit he.inv hslot hv
    rcases QueueBook.submit_ok (he.inv.wf o'.symbol) hs with ⟨-, -, hkilled, -⟩ | ⟨b₂, hm'⟩
    · exact absurd hkilled hfok
    · rw [heager.symbol] at hm'
      have hle := hm.eager hm' (he.live _) heager p
      rwa [Outcome.untimed, Outcome.untimed, QueueBook.taken_untimed,
        QueueBook.taken_untimed] at hle

/-! ### Concrete orders -/

section Concrete

/-- Offers of five at 100 and of five at 101. -/
def adjacentOffers : List (Call Int × Ret Int) × MatchingEngine Int :=
  ran (fun _ => 0) 10 100000 Queueing [.processNewOrder (orderOf 1 .sell .limit 100 5),
    .processNewOrder (orderOf 2 .sell .limit 101 5)]

/-- A purchase of eight as one of three and one of five. -/
theorem order_split_threeAndFive :
    let o := orderOf 3 .buy .ioc 101 8
    ∃ out e₁ out₁ e₂ out₂ e₃,
      Returns (fun _ => 0) adjacentOffers.2 (.processNewOrder o) (.processed out) e₁ ∧
      Returns (fun _ => 7) adjacentOffers.2 (.processNewOrder { o with quantity := 3 })
        (.processed out₁) e₂ ∧
      Returns (fun _ => 7) e₂ (.processNewOrder { o with id := 4, quantity := 5 })
        (.processed out₂) e₃ ∧
      (∀ symbol, e₃.bookView symbol = e₁.bookView symbol) ∧
      ∀ p, taken .buy p out.trades = taken .buy p (out₁.trades ++ out₂.trades) := by
  have hrun : Reaches (fun _ => 0) 100000 Queueing adjacentOffers.1 adjacentOffers.2 :=
    reaches_ran rfl
  have hslots : 2 ≤ adjacentOffers.2.orderPool.available :=
    Nat.le_trans (by decide : 2 ≤ 99998) (Nat.le_of_eq (length_indicesBelow 99998).symm)
  exact order_split (o := orderOf 3 .buy .ioc 101 8) (fun _ _ hg => hg) hrun hslots (.inl rfl)
    (by decide) rfl (by decide) (by decide) (by decide) 4 (fun _ => 0) fun _ => 7

/-- A purchase of eight at 101 takes no less than one of seven at 100. -/
theorem eager_takes_more_eight : ∃ out e₁ out' e₂,
    Returns (fun _ => 0) adjacentOffers.2 (.processNewOrder (orderOf 3 .buy .limit 100 7))
      (.processed out) e₁ ∧
      Returns (fun _ => 0) adjacentOffers.2 (.processNewOrder (orderOf 3 .buy .limit 101 8))
        (.processed out') e₂ ∧ ∀ p, taken .buy p out.trades ≤ taken .buy p out'.trades := by
  have hrun : Reaches (fun _ => 0) 100000 Queueing adjacentOffers.1 adjacentOffers.2 :=
    reaches_ran rfl
  have he := reaches_orderly (fun _ _ hg => hg) hrun
  have hslot : adjacentOffers.2.orderPool.freeIndices ≠ [] :=
    List.cons_ne_nil 99997 (ObjectPool.indicesBelow 99997)
  have heager : (orderOf 3 .buy .limit 100 7).Eager (orderOf 3 .buy .limit 101 8) :=
    ⟨rfl, rfl, by decide, .inr ⟨by decide, Price.num_le_num.mpr (by decide)⟩⟩
  obtain ⟨out, e₁, -, hr, -⟩ := he.exists_matched (o := orderOf 3 .buy .limit 100 7) (fun _ => 0)
    hslot (by decide) (by decide)
  obtain ⟨out', e₂, -, hr', -⟩ := he.exists_matched (o := orderOf 3 .buy .limit 101 8) (fun _ => 0)
    hslot (by decide) (by decide)
  exact ⟨out, e₁, out', e₂, hr, hr', eager_takes_more (fun _ _ hg => hg) hrun heager (by decide)
    (by decide) hr hr'⟩

end Concrete

end MatchingEngine

end OrderMatchingEngine
