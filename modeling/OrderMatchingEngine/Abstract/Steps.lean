import OrderMatchingEngine.Abstract.Filling

/-!
# OrderMatchingEngine.Abstract.Steps

What a call does to the observable book, and the invariants it keeps.

`submit_ok` reduces `submit` to the flat queue: the opposite side is matched by `fillQueue`
and the remainder is settled. Each invariant of the book is then shown to be kept by a
`Step`; the engine's runs inherit it through the refinement.
-/

namespace OrderMatchingEngine

namespace QueueBook

variable {α : Type} [LinearOrder α]

/-! ### Submitting an order -/

/-- Matching an incoming order against the opposite side. -/
def matched (b : QueueBook α) (o : Order α) : Filled α :=
  fillQueue o.side o (b.orders o.side.opposite)

/-- An order that was matched: `b₁` is the book between matching and settling. -/
structure Matched (symbol : Symbol) (b : QueueBook α) (o : Order α) (out : Outcome α)
    (b₁ b' : QueueBook α) : Prop where
  fok : o.type = .fok → b.canFillCompletely o = true
  wf : WF symbol b₁
  own : b₁.orders o.side = b.orders o.side
  opposite : b₁.orders o.side.opposite = (b.matched o).queue
  exact : Exact b → Exact b₁
  trades : out.trades = (b.matched o).trades
  order : out.order = (b.matched o).own
  settled : settle out.order b₁ = (out.exit, b')

/-- **What `submit` does**: it kills the order, or matches and settles it. -/
theorem submit_ok {symbol : Symbol} {b b' : QueueBook α} (hb : WF symbol b) {fuel : Nat}
    {o : Order α} {out : Outcome α} (h : b.submit fuel o = .ok (out, b')) :
    (out = ⟨.killed, o, []⟩ ∧ b' = b ∧ o.type = .fok ∧ b.canFillCompletely o = false) ∨
      ∃ b₁, Matched symbol b o out b₁ b' := by
  unfold submit at h
  split at h
  · rename_i hkill
    simp only [Except.ok.injEq, Prod.mk.injEq] at h
    exact .inl ⟨h.1.symm, h.2.symm, by simpa using hkill⟩
  · rename_i hkeep
    split at h
    · simp at h
    · rename_i s hs
      simp only [Except.ok.injEq, Prod.mk.injEq] at h
      obtain ⟨rfl, rfl⟩ := h
      obtain ⟨hwf, hown, htrades, hfinal, hopp⟩ := matchAgainst_ok hb hs
      exact .inr ⟨s.book, fun hfok => by simpa [hfok] using hkeep, hwf, hown, hopp,
        fun he => matchAgainst_exact hb he hs, htrades, hfinal, rfl⟩

/-- Where prices are exact an order can always be submitted. -/
theorem submit_total {symbol : Symbol} {b : QueueBook α} (hb : WF symbol b) (he : Exact b)
    (o : Order α) : ∃ fuel r, b.submit fuel o = .ok r := by
  obtain ⟨s, hs⟩ := matchAgainst_total hb he o (Nat.lt_succ_self _)
  refine ⟨(b.orders o.side.opposite).length + 2, ?_⟩
  rw [submit, hs]
  split
  · exact ⟨_, rfl⟩
  · exact ⟨_, rfl⟩

/-- How an order leaves matching. -/
theorem settle_cases {own : Order α} {b b' : QueueBook α} {exit : Exit}
    (h : settle own b = (exit, b')) :
    (exit = .rested ∧ own.Live ∧ own.type ≠ .ioc ∧ own.type ≠ .market ∧ b' = b.addOrder own) ∨
      (b' = b ∧ ((exit = .filled ∧ ¬ own.Live) ∨
        (exit = .iocRemainder ∧ own.Live ∧ own.type = .ioc) ∨
        (exit = .marketRemainder ∧ own.Live ∧ own.type = .market))) := by
  unfold settle at h
  split at h
  · rename_i hfilled
    have hlive : own.Live := Order.isFilled_eq_false.mp (by simpa using hfilled)
    split at h
    · rename_i hioc
      obtain ⟨rfl, rfl⟩ := Prod.mk.inj h
      exact .inr ⟨rfl, .inr (.inl ⟨rfl, hlive, hioc⟩)⟩
    · rename_i hioc
      split at h
      · rename_i hmarket
        obtain ⟨rfl, rfl⟩ := Prod.mk.inj h
        exact .inl ⟨rfl, hlive, hioc, hmarket, rfl⟩
      · rename_i hmarket
        obtain ⟨rfl, rfl⟩ := Prod.mk.inj h
        exact .inr ⟨rfl, .inr (.inr ⟨rfl, hlive, by simpa using hmarket⟩)⟩
  · rename_i hfilled
    obtain ⟨rfl, rfl⟩ := Prod.mk.inj h
    refine .inr ⟨rfl, .inl ⟨rfl, fun hlive => hfilled ?_⟩⟩
    simp [Order.isFilled_eq_false.mpr hlive]

namespace Matched

variable {symbol : Symbol} {b b₁ b' : QueueBook α} {o : Order α} {out : Outcome α}

/-- The order as it left matching is the submitted one, with more of it executed. -/
theorem same (h : Matched symbol b o out b₁ b') : o.SameOrder out.order := by
  rw [h.order]
  exact fillQueue_own _ _ _

/-- The orders of the taker's side. -/
theorem mem_own (h : Matched symbol b o out b₁ b') {x : Order α} :
    x ∈ b'.orders o.side ↔ x ∈ b.orders o.side ∨ (out.exit = .rested ∧ x = out.order) := by
  have hside : out.order.side = o.side := by rw [h.same]
  rcases settle_cases h.settled with ⟨hexit, -, -, -, rfl⟩ | ⟨rfl, hcases⟩
  · rw [WF.mem_orders_addOrder, h.own, hside]
    simp [hexit, or_comm]
  · rw [h.own]
    rcases hcases with ⟨hexit, -⟩ | ⟨hexit, -⟩ | ⟨hexit, -⟩ <;> simp [hexit]

/-- The orders of the opposite side. -/
theorem orders_opposite (h : Matched symbol b o out b₁ b') :
    b'.orders o.side.opposite = (b.matched o).queue := by
  have hside : out.order.side = o.side := by rw [h.same]
  rw [← h.opposite]
  rcases settle_cases h.settled with ⟨-, -, -, -, rfl⟩ | ⟨rfl, -⟩
  · exact WF.orders_addOrder_of_ne _ (hside ▸ (o.side.ne_opposite).symm)
  · rfl

/-- An order that rests after the call rested before it, was queued by it, or is left of the
opposite side. -/
theorem mem_orders (h : Matched symbol b o out b₁ b') {sd : OrderSide} {x : Order α}
    (hx : x ∈ b'.orders sd) :
    (sd = o.side ∧ x ∈ b.orders sd) ∨ (sd = o.side ∧ out.exit = .rested ∧ x = out.order) ∨
      (sd = o.side.opposite ∧ x ∈ (b.matched o).queue) := by
  by_cases hsd : sd = o.side
  · subst hsd
    exact (h.mem_own.mp hx).imp (fun hx => ⟨rfl, hx⟩) fun hrest => .inl ⟨rfl, hrest⟩
  · obtain rfl := OrderSide.eq_opposite_of_ne hsd
    exact .inr (.inr ⟨rfl, h.orders_opposite ▸ hx⟩)

/-- Matching brings no new prices into the book. -/
theorem numbers (h : Matched symbol b o out b₁ b') (hn : Numbers b) : Numbers b₁ := by
  intro sd x hx
  by_cases hsd : sd = o.side
  · subst hsd
    exact hn _ x (h.own ▸ hx)
  · rw [OrderSide.eq_opposite_of_ne hsd, h.opposite] at hx
    obtain ⟨y, hy, hyx⟩ := fillQueue_queue x hx
    rw [hyx]
    exact hn _ y hy

/-- An order that was queued is live and of a type that may be queued. -/
theorem rested (h : Matched symbol b o out b₁ b') (hexit : out.exit = .rested) :
    out.order.Live ∧ o.type ≠ .ioc ∧ o.type ≠ .market ∧ b' = b₁.addOrder out.order := by
  have htype : out.order.type = o.type := by rw [h.same]
  rcases settle_cases h.settled with ⟨-, hlive, hioc, hmarket, hb'⟩ | ⟨-, hcases⟩
  · exact ⟨hlive, htype ▸ hioc, htype ▸ hmarket, hb'⟩
  · rcases hcases with ⟨hexit', -⟩ | ⟨hexit', -⟩ | ⟨hexit', -⟩ <;> simp [hexit'] at hexit

/-- The trades of an order are trades of its symbol. -/
theorem trade_symbol (h : Matched o.symbol b o out b₁ b') (hb : WF o.symbol b) {t : Trade α}
    (ht : t ∈ out.trades) : t.symbol = o.symbol := by
  rw [h.trades] at ht
  obtain ⟨own, maker, qty, hown, hmaker, -, rfl⟩ := fillQueue_trade _ _ _ t ht
  unfold trade
  cases o.side with
  | buy => exact (congrArg Order.symbol hown).trans rfl
  | sell => exact hb.symbols _ maker hmaker

end Matched

/-! ### Submitting as a step -/

/-- What processing an order is for the observable book: nothing, or matching and settling. -/
theorem step_process [Zero α] {symbol : Symbol} {b b' : QueueBook α} {o : Order α} {r : Ret α}
    (hb : WF symbol b) (h : Step b (.processNewOrder o) r b') :
    ∃ out, r = .processed out ∧
      ((b' = b ∧ out.order = o ∧ out.trades = [] ∧ (out.exit = .exhausted ∨
          (out.exit = .invalid ∧ MatchingEngine.validateOrder o = false) ∨
          (out.exit = .killed ∧ o.type = .fok ∧ b.canFillCompletely o = false))) ∨
        (MatchingEngine.validateOrder o = true ∧ ∃ b₁, Matched symbol b o out b₁ b')) := by
  cases h with
  | exhausted => exact ⟨_, rfl, .inl ⟨rfl, rfl, rfl, .inl rfl⟩⟩
  | invalid hv => exact ⟨_, rfl, .inl ⟨rfl, rfl, rfl, .inr (.inl ⟨rfl, hv⟩)⟩⟩
  | @submit _ out _ fuel hv h =>
      rcases submit_ok hb h with ⟨rfl, rfl, hfok, hfill⟩ | hm
      · exact ⟨_, rfl, .inl ⟨rfl, rfl, rfl, .inr (.inr ⟨rfl, hfok, hfill⟩)⟩⟩
      · exact ⟨out, rfl, .inr ⟨hv, hm⟩⟩

/-- A valid order that gets a slot is killed, or matched and settled. -/
theorem step_submit [Zero α] {symbol : Symbol} {b b' : QueueBook α} {o : Order α} {r : Ret α}
    (hb : WF symbol b) (h : Step b (.processNewOrder o) r b')
    (hv : MatchingEngine.validateOrder o = true) (hr : r.Served) :
    ∃ out, r = .processed out ∧
      ((out = ⟨.killed, o, []⟩ ∧ b' = b ∧ o.type = .fok ∧ b.canFillCompletely o = false) ∨
        ∃ b₁, Matched symbol b o out b₁ b') := by
  cases h with
  | exhausted => exact absurd rfl hr
  | invalid hinvalid => simp [hv] at hinvalid
  | @submit _ out _ fuel _ h => exact ⟨out, rfl, submit_ok hb h⟩

/-! ### Where resting orders come from -/

section Zero

variable [Zero α] {symbol : Symbol} {b b' : QueueBook α} {c : Call α} {r : Ret α}

/-- The call queued the order. -/
def Queued (c : Call α) (r : Ret α) (x : Order α) : Prop :=
  ∃ o out, c = .processNewOrder o ∧ r = .processed out ∧ out.exit = .rested ∧ out.order = x ∧
    o.SameOrder x ∧ x.Live ∧ o.type ≠ .ioc ∧ o.type ≠ .market

omit [LinearOrder α] [Zero α] in
theorem Queued.price_ne_nan {x : Order α} (h : Queued c r x) (hc : c.QueuesNumber) :
    x.price ≠ .nan := by
  obtain ⟨o, out, rfl, -, -, -, hsame, -, hioc, hmarket⟩ := h
  rw [hsame]
  exact hc hioc hmarket

/-- **Origin.** An order that rests after a call rested before it, or was queued by it. -/
theorem step_origin (hb : WF symbol b) (h : Step b c r b') {sd : OrderSide} {x : Order α}
    (hx : x ∈ b'.orders sd) :
    (∃ y ∈ b.orders sd, y.SameOrder x) ∨ (Queued c r x ∧ x.side = sd) := by
  cases c with
  | cancelOrder id symbol side =>
      cases h with
      | cancel h =>
          rw [(hb.cancelOrder_ok h).2.2 sd] at hx
          exact .inl ⟨x, (List.mem_filter.mp hx).1, .refl x⟩
  | processNewOrder o =>
      obtain ⟨out, rfl, ⟨rfl, -⟩ | ⟨-, b₁, hm⟩⟩ := step_process hb h
      · exact .inl ⟨x, hx, .refl x⟩
      · rcases hm.mem_orders hx with ⟨-, hx⟩ | ⟨rfl, hexit, rfl⟩ | ⟨rfl, hleft⟩
        · exact .inl ⟨x, hx, .refl x⟩
        · obtain ⟨hlive, hioc, hmarket, -⟩ := hm.rested hexit
          exact .inr ⟨⟨o, out, rfl, rfl, hexit, rfl, hm.same, hlive, hioc, hmarket⟩,
            by rw [hm.same]⟩
        · exact .inl (fillQueue_queue x hleft)

/-- **Departure.** An order that rested before a call still rests after it, unless a trade
executed all it had left or a cancel returned it. -/
theorem step_kept (hb : WF symbol b) (h : Step b c r b') (hl : Live b) {sd : OrderSide}
    {x : Order α} (hx : x ∈ b.orders sd) :
    (∃ y ∈ b'.orders sd, x.SameOrder y) ∨
      (∃ o out, c = .processNewOrder o ∧ r = .processed out ∧ sd = o.side.opposite ∧
        trade o.side o x x.remainingQty ∈ out.trades) ∨
      ∃ symbol side, c = .cancelOrder x.id symbol side ∧ r = .cancelled (some x) := by
  cases c with
  | cancelOrder id symbol side =>
      cases h with
      | cancel h =>
          obtain ⟨rfl, -, horders⟩ := hb.cancelOrder_ok h
          by_cases hid : x.id = id
          · subst hid
            refine .inr (.inr ⟨symbol, side, rfl, ?_⟩)
            rw [hb.find?_eq_some.mpr ⟨mem_allOrders.mpr ⟨sd, hx⟩, rfl⟩]
          · refine .inl ⟨x, ?_, .refl x⟩
            rw [horders]
            exact List.mem_filter.mpr ⟨hx, by simpa using hid⟩
  | processNewOrder o =>
      obtain ⟨out, rfl, ⟨rfl, -⟩ | ⟨-, b₁, hm⟩⟩ := step_process hb h
      · exact .inl ⟨x, hx, .refl x⟩
      · by_cases hsd : sd = o.side
        · subst hsd
          exact .inl ⟨x, hm.mem_own.mpr (.inl hx), .refl x⟩
        · obtain rfl := OrderSide.eq_opposite_of_ne hsd
          rw [hm.orders_opposite]
          rcases fillQueue_kept o.side o (hl _) x hx with hkept | ht
          · exact .inl hkept
          · exact .inr (.inl ⟨o, out, rfl, rfl, rfl, hm.trades ▸ ht⟩)

/-! ### Invariants of a step -/

/-- A property of orders that does not depend on the executed quantity is kept when the
calls queue only orders that have it. -/
theorem step_forall (hb : WF symbol b) (h : Step b c r b') {P : Order α → Prop}
    (hsame : ∀ x y : Order α, x.SameOrder y → P x → P y) (hq : ∀ x, Queued c r x → P x)
    (hP : ∀ sd, ∀ x ∈ b.orders sd, P x) : ∀ sd, ∀ x ∈ b'.orders sd, P x := by
  intro sd x hx
  rcases step_origin hb h hx with ⟨y, hy, hyx⟩ | ⟨hqueued, -⟩
  · exact hsame y x hyx (hP sd y hy)
  · exact hq x hqueued

/-- No call leaves a completely filled order in the book. -/
theorem step_live (hb : WF symbol b) (h : Step b c r b') (hl : Live b) : Live b' := by
  intro sd x hx
  cases c with
  | cancelOrder id symbol side =>
      cases h with
      | cancel h =>
          rw [(hb.cancelOrder_ok h).2.2 sd] at hx
          exact hl sd x (List.mem_filter.mp hx).1
  | processNewOrder o =>
      obtain ⟨out, -, ⟨rfl, -⟩ | ⟨-, b₁, hm⟩⟩ := step_process hb h
      · exact hl sd x hx
      · rcases hm.mem_orders hx with ⟨-, hx⟩ | ⟨-, hexit, rfl⟩ | ⟨-, hx⟩
        · exact hl _ x hx
        · exact (hm.rested hexit).1
        · exact fillQueue_live (hl _) x hx

omit [Zero α] in
/-- A number is above, below or equal to the price of every level. -/
theorem Exact.level_eq (hb : WF symbol b) (he : Exact b) (hn : Numbers b) {p : Price α}
    (hp : p ≠ .nan) (sd : OrderSide) : ∀ l ∈ b.levels sd, ¬ l.1 < p → ¬ p < l.1 → l.1 = p := by
  intro l hl h₁ h₂
  -- a level has the price of its first order, which is a number
  obtain ⟨x, hx⟩ := List.exists_mem_of_ne_nil _ ((hb.levels sd).nonempty l hl)
  have hprice := he sd l hl x hx
  have hnum := hn sd x (mem_orders.mpr (LevelMap.mem_up.mpr ⟨l, hl, hx⟩))
  exact Price.eq_of_not_lt (hprice ▸ hnum) hp h₁ h₂

omit [Zero α] in
/-- Queueing an order at a price that is a number keeps prices exact. -/
theorem Exact.addOrder (hb : WF symbol b) (he : Exact b) (hn : Numbers b) {o : Order α}
    (ho : o.price ≠ .nan) : Exact (b.addOrder o) := by
  intro sd
  unfold QueueBook.addOrder
  by_cases hsd : sd = o.side
  · subst hsd
    rw [levels_setLevels_self]
    exact (he o.side).pushBack (he.level_eq hb hn ho o.side)
  · rw [levels_setLevels_of_ne _ _ hsd]
    exact he sd

/-- Prices stay exact as long as every order that is queued has a number for its price. -/
theorem step_exact (hb : WF symbol b) (h : Step b c r b') (he : Exact b) (hn : Numbers b)
    (hq : ∀ x, Queued c r x → x.price ≠ .nan) : Exact b' ∧ Numbers b' := by
  refine ⟨?_, step_forall hb h (fun x y hxy hx => by rwa [hxy]) hq hn⟩
  cases c with
  | cancelOrder id symbol side =>
      cases h with
      | cancel h =>
          obtain ⟨r', b'', h', he'⟩ := hb.cancelOrder_total he id
          obtain ⟨rfl, rfl⟩ := Prod.mk.inj (Except.ok.inj (h.symm.trans h'))
          exact he'
  | processNewOrder o =>
      obtain ⟨out, rfl, ⟨rfl, -⟩ | ⟨-, b₁, hm⟩⟩ := step_process hb h
      · exact he
      · have he₁ := hm.exact he
        rcases settle_cases hm.settled with ⟨hexit, hlive, hioc, hmarket, rfl⟩ | ⟨rfl, -⟩
        · have htype : out.order.type = o.type := by rw [hm.same]
          exact he₁.addOrder hm.wf (hm.numbers hn)
            (hq _ ⟨o, out, rfl, rfl, hexit, rfl, hm.same, hlive, htype ▸ hioc, htype ▸ hmarket⟩)
        · exact he₁

end Zero

end QueueBook

end OrderMatchingEngine
