import OrderMatchingEngine.Refinement.Engine

/-!
# OrderMatchingEngine.Refinement.Retyping

What the type of an order is for.

The matching loops ask only whether the taker is a MARKET order. Two takers that are none and
differ in nothing but their types are therefore matched alike, pass by pass and slot by slot
(`matchAgainst_retype`); the type matters before the loop (`validate_order`, the gate of FOK
orders) and after it (`settle`).
-/

namespace OrderMatchingEngine

open FuelLoop (Iter)

namespace MatchingEngine

variable {α : Type}

/-- The pool with another type for the order in a slot. -/
def retypePool (type : OrderType) (own : Slot) (pool : ObjectPool (Order α)) :
    ObjectPool (Order α) :=
  pool.write own { pool.cells own with type := type }

/-- The engine with another type for the order in a slot. -/
def retype (type : OrderType) (own : Slot) (e : MatchingEngine α) : MatchingEngine α :=
  { e with orderPool := retypePool type own e.orderPool }

/-- The state of a matching loop with another type for the order in a slot. -/
def Matching.retype (type : OrderType) (own : Slot) (s : Matching α) : Matching α :=
  ⟨s.engine.retype type own, s.book, s.trades⟩

section Cells

variable {type : OrderType} {own : Slot} {e : MatchingEngine α}

@[simp] theorem retype_cells_self :
    (e.retype type own).cells own = { e.cells own with type := type } :=
  Function.update_self ..

theorem retype_cells_of_ne {p : Slot} (h : p ≠ own) : (e.retype type own).cells p = e.cells p :=
  Function.update_of_ne h ..

variable (type own e) in
/-- Nothing but a type is changed. -/
theorem retype_cells (p : Slot) :
    ∃ type', (e.retype type own).cells p = { e.cells p with type := type' } := by
  by_cases h : p = own
  · subst h
    exact ⟨type, retype_cells_self⟩
  · exact ⟨(e.cells p).type, retype_cells_of_ne h⟩

end Cells

/-- Storing the order under another type is storing it and changing the type. -/
theorem accepted_retype (o : Order α) (type : OrderType) (own : Slot) (rest : List Slot)
    (e : MatchingEngine α) :
    accepted { o with type := type } own rest e = (accepted o own rest e).retype type own := by
  have hstored : stored { o with type := type } own rest e =
      (stored o own rest e).retype type own := by
    simp [stored, retype, retypePool, ObjectPool.write]
  have hbooks : ((stored o own rest e).retype type own).orderBooks =
      (stored o own rest e).orderBooks := rfl
  rw [accepted, accepted, hstored, getOrCreateOrderBook, getOrCreateOrderBook, hbooks]
  cases (stored o own rest e).orderBooks.lookup o.symbol <;> rfl

variable [LinearOrder α] {clock : Nat → Timestamp} {sd : OrderSide} {own : Slot}
  {type : OrderType}

omit [LinearOrder α] in
/-- The memory after a trade, under another type of the taker. -/
theorem modify_retypePool {best : Slot} (hne : best ≠ own) (qty : Quantity)
    (pool : ObjectPool (Order α)) :
    ((retypePool type own pool).modify own (·.reduceQuantity qty)).modify best
        (·.reduceQuantity qty) =
      retypePool type own ((pool.modify own (·.reduceQuantity qty)).modify best
        (·.reduceQuantity qty)) := by
  have hcomm : ∀ (cells : Slot → Order α) x y,
      Function.update (Function.update cells own x) best y =
        Function.update (Function.update cells best y) own x := fun cells x y =>
    Function.update_comm hne.symm x y cells
  simp only [retypePool, ObjectPool.modify, ObjectPool.write, Function.update_self,
    Function.update_of_ne hne, Function.update_idem, hcomm]
  rfl

omit [LinearOrder α] in
/-- A trade does not read the types of its orders. -/
theorem afterTrade_retype {best : Slot} (hne : best ≠ own) (qty : Quantity) (s : Matching α) :
    afterTrade clock sd own best qty (s.retype type own) =
      (afterTrade clock sd own best qty s).retype type own := by
  have hown : (s.retype type own).engine.cells own =
      { s.engine.cells own with type := type } := retype_cells_self
  have hbest : (s.retype type own).engine.cells best = s.engine.cells best :=
    retype_cells_of_ne hne
  have htrade : createTrade clock
      (partiesOf sd (s.engine.cells best) { s.engine.cells own with type := type }).1
      (partiesOf sd (s.engine.cells best) { s.engine.cells own with type := type }).2 qty
      (s.engine.cells best).price (s.retype type own).engine =
        ((createTrade clock (partiesOf sd (s.engine.cells best) (s.engine.cells own)).1
            (partiesOf sd (s.engine.cells best) (s.engine.cells own)).2 qty
            (s.engine.cells best).price s.engine).1,
          (createTrade clock (partiesOf sd (s.engine.cells best) (s.engine.cells own)).1
            (partiesOf sd (s.engine.cells best) (s.engine.cells own)).2 qty
            (s.engine.cells best).price s.engine).2.retype type own) := by
    cases sd <;> rfl
  unfold afterTrade
  dsimp only
  rw [hown, hbest, htrade]
  simp only [retype, modify_retypePool hne]
  rfl

/-- One pass for a taker that is no MARKET order. -/
theorem matchBodyOf_retype {symbol : Symbol} {e₀ : MatchingEngine α} {b₀ : OrderBook α}
    {s : Matching α} (h : LoopInv symbol own e₀ b₀ s) (htype : type ≠ .market)
    (hown : (s.engine.cells own).type ≠ .market) :
    matchBodyOf clock sd own (s.retype type own) =
      (matchBodyOf clock sd own s).map (Iter.map (Matching.retype type own)) := by
  have hcells : (s.retype type own).engine.cells own =
      { s.engine.cells own with type := type } := retype_cells_self
  have hbook : (s.retype type own).book = s.book := rfl
  rw [matchBodyOf_eq, matchBodyOf_eq, hcells, hbook]
  have hrem : ({ s.engine.cells own with type := type } : Order α).remainingQty =
      (s.engine.cells own).remainingQty := rfl
  rw [hrem]
  split
  · rfl
  · split
    · rfl
    · rename_i best hbest
      have hne := h.ne_own (OrderBook.bestOf_mem_slots h.wf hbest)
      have hbestCell : (s.retype type own).engine.cells best = s.engine.cells best :=
        retype_cells_of_ne hne
      -- both takers have a limit, and it is the same
      have hrefuses : QueueBook.refuses sd { s.engine.cells own with type := type }
          (s.engine.cells best) =
            QueueBook.refuses sd (s.engine.cells own) (s.engine.cells best) := by
        simp [QueueBook.refuses, htype, hown]
      rw [hbestCell, hrefuses, afterTrade_retype hne]
      split
      · rfl
      · generalize afterTrade clock sd own best _ s = s'
        have hcell : (s'.retype type own).engine.cells best = s'.engine.cells best :=
          retype_cells_of_ne hne
        have hlevel : ∀ p,
            ((s'.retype type own).engine.cells p).side = (s'.engine.cells p).side ∧
              ((s'.retype type own).engine.cells p).price = (s'.engine.cells p).price := by
          intro p
          obtain ⟨type', hp⟩ := retype_cells type own s'.engine p
          exact ⟨by rw [Matching.retype, hp], by rw [Matching.retype, hp]⟩
        have hbook' : (s'.retype type own).book = s'.book := rfl
        dsimp only
        rw [hcell, hbook', OrderBook.cancelOrder_congr hlevel]
        split
        · split <;> rfl
        · rfl

/-- **The loop does not tell limited takers apart.** -/
theorem matchAgainst_retype {symbol : Symbol} {e : MatchingEngine α} {b : OrderBook α}
    (hl : OrderBook.Linked e.cells b) (hwf : QueueBook.WF symbol (b.view e.cells))
    (hout : own ∉ b.slots) (htype : type ≠ .market) (hown : (e.cells own).type ≠ .market)
    (fuel : Nat) : matchAgainst clock sd fuel own b (e.retype type own) =
      (matchAgainst clock sd fuel own b e).map (Matching.retype type own) := by
  have hstart : (⟨e.retype type own, b, []⟩ : Matching α) =
      Matching.retype type own ⟨e, b, []⟩ := rfl
  unfold matchAgainst
  rw [hstart]
  refine FuelLoop.run_map (Matching.retype type own) (LoopInv symbol own e b) ?_
    (fun _ _ h hnext => h.next hnext) fuel (.start hl hwf hout)
  intro s h
  refine matchBodyOf_retype h htype ?_
  rw [h.same own]
  exact hown

end MatchingEngine

end OrderMatchingEngine
