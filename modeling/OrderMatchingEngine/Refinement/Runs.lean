import OrderMatchingEngine.Abstract.Liquidity
import OrderMatchingEngine.Refinement.Engine

/-!
# OrderMatchingEngine.Refinement.Runs

Runs of the engine, seen through the observable books.

`returns_spec` says once what a call that returns has done. `reaches_inv` and
`reaches_bookView` turn the step lemmas for observable books into facts about every state
that the engine reaches.
-/

namespace OrderMatchingEngine

namespace MatchingEngine

variable {α : Type} [LinearOrder α] [Zero α] {clock : Nat → Timestamp} {n : Nat}
  {G : MatchingEngine α → Call α → Prop} {tr : List (Call α × Ret α)} {e e' : MatchingEngine α}
  {c : Call α} {r : Ret α}

/-- **One call.** It keeps the representation invariant, is a step of the observable book
of its own symbol, and leaves the rest alone. -/
theorem returns_spec (he : EngineInv e) (hfresh : e.QueuesFresh c) (h : Returns clock e c r e') :
    EngineInv e' ∧ Frame c.symbol r.leaks r.trades e e' ∧
      QueueBook.Step (e.bookView c.symbol) c r.untimed (e'.bookView c.symbol) := by
  obtain ⟨fuel, h⟩ := h
  obtain ⟨he', hf⟩ := call_ok he hfresh h
  exact ⟨he', hf, call_step he h⟩

/-- **Every reached state satisfies the representation invariant.** -/
theorem reaches_inv (hG : ∀ e c, G e c → e.QueuesFresh c) (h : Reaches clock n G tr e) :
    EngineInv e :=
  Trace.Run.invariant (fun _ e => EngineInv e) (.withPool n)
    (fun _ e c _ _ _ he hstep => (returns_spec he (hG e c hstep.1) hstep.2).1) h

omit [LinearOrder α] in
theorem bookView_withPool (n : Nat) (symbol : Symbol) :
    (withPool n : MatchingEngine α).bookView symbol = .empty := rfl

/-- **Invariants of observable books.** What holds of an empty book and is kept by every
step holds of every book of every reached state. -/
theorem reaches_bookView (hG : ∀ e c, G e c → e.QueuesFresh c) (I : Symbol → QueueBook α → Prop)
    (hinit : ∀ symbol, I symbol .empty)
    (hstep : ∀ (e : MatchingEngine α) (c : Call α) (r : Ret α) (b' : QueueBook α), G e c →
      QueueBook.WF c.symbol (e.bookView c.symbol) → I c.symbol (e.bookView c.symbol) →
      QueueBook.Step (e.bookView c.symbol) c r b' → I c.symbol b')
    (h : Reaches clock n G tr e) (symbol : Symbol) : I symbol (e.bookView symbol) := by
  have hall := Trace.Run.invariant (fun _ e => ∀ symbol, I symbol (e.bookView symbol))
    (fun symbol => by rw [bookView_withPool]; exact hinit symbol)
    (fun tr e c r e' hrun hI hs symbol => by
      have he := reaches_inv hG hrun
      obtain ⟨-, hf, hbook⟩ := returns_spec he (hG e c hs.1) hs.2
      by_cases hsym : symbol = c.symbol
      · subst hsym
        exact hstep e c _ _ hs.1 (he.wf _) (hI _) hbook
      · rw [hf.bookView hsym]
        exact hI symbol) h
  exact hall symbol

/-- No book of a reached state holds a completely filled order. -/
theorem reaches_live (hG : ∀ e c, G e c → e.QueuesFresh c) (h : Reaches clock n G tr e)
    (symbol : Symbol) : QueueBook.Live (e.bookView symbol) :=
  reaches_bookView hG (fun _ b => QueueBook.Live b) (fun _ => .empty)
    (fun _ _ _ _ _ hwf hl hs => QueueBook.step_live hwf hs hl) h symbol

/-- Prices are exact in every state reached without queueing an order at a price that is
not a number. -/
theorem reaches_exact (hG : ∀ e c, G e c → e.QueuesFresh c ∧ c.QueuesNumber)
    (h : Reaches clock n G tr e) (symbol : Symbol) :
    QueueBook.Exact (e.bookView symbol) ∧ QueueBook.Numbers (e.bookView symbol) :=
  reaches_bookView (fun e c hg => (hG e c hg).1)
    (fun _ b => QueueBook.Exact b ∧ QueueBook.Numbers b) (fun _ => ⟨.empty, .empty⟩)
    (fun e c _ _ hg hwf hI hs => QueueBook.step_exact hwf hs hI.1 hI.2
      fun _ hq => hq.price_ne_nan (hG e c hg).2) h symbol

theorem Returns.process {fuel : Nat} {o : Order α} {out : Outcome α}
    (h : processOrder clock fuel o e = .ok (out, e')) :
    Returns clock e (.processNewOrder o) (.processed out) e' :=
  ⟨fuel, call_process.mpr ⟨out, h, rfl⟩⟩

/-- The three ways in which processing an order returns: without a slot, with an invalid
order, or by submitting the order to its observable book. -/
theorem returns_process (he : EngineInv e) {o : Order α}
    (h : Returns clock e (.processNewOrder o) r e') :
    ∃ out, r = .processed out ∧
      ((e.orderPool.freeIndices = [] ∧ out = ⟨.exhausted, o, []⟩ ∧ e' = e) ∨
        (e.orderPool.freeIndices ≠ [] ∧ validateOrder o = false ∧ out = ⟨.invalid, o, []⟩) ∨
        (e.orderPool.freeIndices ≠ [] ∧ validateOrder o = true ∧
          ∃ fuel, (e.bookView o.symbol).submit fuel o =
            .ok (out.untimed, e'.bookView o.symbol))) := by
  obtain ⟨fuel, h⟩ := h
  obtain ⟨out, hp, rfl⟩ := call_process.mp h
  refine ⟨out, rfl, ?_⟩
  rcases hfree : e.orderPool.freeIndices with _ | ⟨own, rest⟩
  · rw [processOrder_exhausted hfree, Except.ok.injEq, Prod.mk.injEq] at hp
    exact .inl ⟨rfl, hp.1.symm, hp.2.symm⟩
  · rcases hv : validateOrder o with _ | _
    · rw [processOrder_invalid hfree hv, Except.ok.injEq, Prod.mk.injEq] at hp
      exact .inr (.inl ⟨by simp, rfl, hp.1.symm⟩)
    · refine .inr (.inr ⟨by simp, rfl, fuel, ?_⟩)
      rw [processOrder_view clock he hfree hv, hp]
      rfl

/-- A valid order that gets a slot is submitted to its book. -/
theorem Returns.submit (he : EngineInv e) {o : Order α} (hslot : e.orderPool.freeIndices ≠ [])
    (hv : validateOrder o = true) {out : Outcome α}
    (h : Returns clock e (.processNewOrder o) (.processed out) e') :
    ∃ fuel, (e.bookView o.symbol).submit fuel o = .ok (out.untimed, e'.bookView o.symbol) := by
  obtain ⟨out', hout, ⟨hfree, -⟩ | ⟨-, hinvalid, -⟩ | ⟨-, -, hs⟩⟩ := returns_process he h
  · exact absurd hfree hslot
  · simp [hv] at hinvalid
  · obtain rfl := Ret.processed.inj hout
    exact hs

/-- Processing an order: it is refused and leaves its book as it was, or it is matched with it. -/
theorem process_cases (he : EngineInv e) {fuel : Nat} {o : Order α} {out : Outcome α}
    (h : processOrder clock fuel o e = .ok (out, e')) :
    (out.trades = [] ∧ e'.bookView o.symbol = e.bookView o.symbol ∧
        (e.orderPool.freeIndices = [] ∨ validateOrder o = false ∨ o.type = .fok)) ∨
      (e.orderPool.freeIndices ≠ [] ∧ validateOrder o = true ∧ ∃ b₁,
        QueueBook.Matched o.symbol (e.bookView o.symbol) o out.untimed b₁
          (e'.bookView o.symbol)) := by
  rcases hfree : e.orderPool.freeIndices with _ | ⟨own, rest⟩
  · rw [processOrder_exhausted hfree, Except.ok.injEq, Prod.mk.injEq] at h
    obtain ⟨rfl, rfl⟩ := h
    exact .inl ⟨rfl, rfl, .inl rfl⟩
  · rcases hv : validateOrder o with _ | _
    · rw [processOrder_invalid hfree hv, Except.ok.injEq, Prod.mk.injEq] at h
      obtain ⟨rfl, rfl⟩ := h
      exact .inl ⟨rfl, bookView_write he hfree _, .inr (.inl rfl)⟩
    · have hview := processOrder_view clock he hfree hv fuel
      rw [h] at hview
      rcases QueueBook.submit_ok (he.wf o.symbol) hview with ⟨hout, hbook, hfok, -⟩ | hmatched
      · have htrades := congrArg Outcome.trades hout
        exact .inl ⟨List.map_eq_nil_iff.mp htrades, hbook, .inr (.inr hfok)⟩
      · exact .inr ⟨by simp, rfl, hmatched⟩

/-- The trades of a call are trades of its order's symbol. -/
theorem process_trade_symbol (he : EngineInv e) {fuel : Nat} {o : Order α} {out : Outcome α}
    (h : processOrder clock fuel o e = .ok (out, e')) {t : Trade α} (ht : t ∈ out.trades) :
    t.symbol = o.symbol := by
  rcases process_cases he h with ⟨hnone, -⟩ | ⟨-, -, b₁, hm⟩
  · simp [hnone] at ht
  · have huntimed : t.untimed ∈ out.untimed.trades := List.mem_map.mpr ⟨t, ht, rfl⟩
    have hsymbol : t.untimed.symbol = o.symbol := hm.trade_symbol (he.wf o.symbol) huntimed
    exact hsymbol

omit [LinearOrder α] [Zero α] in
/-- Orders rest in a book that is there. -/
theorem getOrderBook_of_mem {symbol : Symbol} {sd : OrderSide} {x : Order α}
    (h : x ∈ (e.bookView symbol).orders sd) :
    ∃ book, e.getOrderBook symbol = some book := by
  obtain ⟨book, hbook, -⟩ := (rests_iff e symbol x.id).mpr
    ⟨x, QueueBook.mem_allOrders.mpr ⟨sd, h⟩, rfl⟩
  exact ⟨book, hbook⟩

/-- A valid order that gets a slot leaves its symbol with a book. -/
theorem processOrder_opens {fuel : Nat} {o : Order α} {out : Outcome α}
    (hfree : e.orderPool.freeIndices ≠ []) (hv : validateOrder o = true)
    (h : processOrder clock fuel o e = .ok (out, e')) :
    ∃ book, e'.getOrderBook o.symbol = some book := by
  cases processOrder_cases h with
  | exhausted hnone => exact absurd hnone hfree
  | invalid _ hinvalid => exact Bool.noConfusion (hinvalid.symm.trans hv)
  | killed =>
      unfold accepted getOrCreateOrderBook getOrderBook
      split
      · rename_i book hlook
        exact ⟨book, hlook⟩
      · exact ⟨_, AList.lookup_insert _⟩
  | settled => exact ⟨_, AList.lookup_insert _⟩

/-- **Where prices are exact every call returns.** -/
theorem returns_total (clock : Nat → Timestamp) (he : EngineInv e)
    (hex : QueueBook.Exact (e.bookView c.symbol)) : ∃ r e', Returns clock e c r e' := by
  cases c with
  | processNewOrder o =>
      rcases hfree : e.orderPool.freeIndices with _ | ⟨own, rest⟩
      · exact ⟨_, _, .process (processOrder_exhausted hfree 0)⟩
      rcases hv : validateOrder o with _ | _
      · exact ⟨_, _, .process (processOrder_invalid hfree hv 0)⟩
      · obtain ⟨fuel, r, hs⟩ := QueueBook.submit_total (he.book o.symbol).wf hex o
        have hview := processOrder_view clock he hfree hv fuel
        rw [bookView, hs] at hview
        obtain ⟨⟨out, e'⟩, hp, -⟩ := FuelLoop.map_eq_ok.mp hview.symm
        exact ⟨_, _, .process hp⟩
  | cancelOrder id symbol side =>
      obtain ⟨x, b', hc, -⟩ := (he.book symbol).wf.cancelOrder_total hex id
      have hview := cancelOrder_view he id symbol side
      rw [bookView, hc] at hview
      obtain ⟨⟨x', e'⟩, hp, -⟩ := FuelLoop.map_eq_ok.mp hview.symm
      exact ⟨.cancelled x', e', 0, call_cancel.mpr ⟨x', hp, rfl⟩⟩

end MatchingEngine

end OrderMatchingEngine
