import Mathlib.Algebra.BigOperators.Group.Finset.Basic
import Mathlib.Algebra.Order.BigOperators.Group.Finset
import OrderMatchingEngine.Abstract.Spectators
import OrderMatchingEngine.Refinement.Lifting

/-!
# OrderMatchingEngine.Properties.Spectators

Orders that never trade have no influence.

Whoever places and cancels orders that are never executed changes nothing for the others: without
these calls, all other calls answer the same and leave the same books, these orders aside. This is
about `Plain` calls, whose orders have fresh ids, find a slot and have numbers for prices if they
may be queued. None of them is a FOK order, because the liquidity check counts every order that
rests.
-/

namespace OrderMatchingEngine

section Calls

variable {α : Type} {p : Symbol → OrderID → Bool} {tr : List (Call α × Ret α)} {c : Call α}
  {r : Ret α}

/-- The call places or cancels one of these orders of a symbol. -/
def Call.concerns (p : Symbol → OrderID → Bool) (c : Call α) : Bool := c.isAbout (p c.symbol)

/-- The calls of a run that are about other orders, and their answers. -/
def aboutOthers (p : Symbol → OrderID → Bool) (tr : List (Call α × Ret α)) :
    List (Call α × Ret α) :=
  tr.filter fun x => !x.1.concerns p

/-- These orders are not executed. -/
def Spectating (p : Symbol → OrderID → Bool) (tr : List (Call α × Ret α)) : Prop :=
  ∀ x ∈ tr, QueueBook.Unnamed (p x.1.symbol) x.2.trades

instance (p : Symbol → OrderID → Bool) (tr : List (Call α × Ret α)) :
    Decidable (Spectating p tr) :=
  inferInstanceAs (Decidable (∀ x ∈ tr, QueueBook.Unnamed (p x.1.symbol) x.2.trades))

theorem spectating_snoc : Spectating p (tr ++ [(c, r)]) ↔
    Spectating p tr ∧ QueueBook.Unnamed (p c.symbol) r.trades := by
  rw [Spectating, List.forall_mem_append, List.forall_mem_singleton]
  rfl

theorem Ret.unnamed_untimed {q : OrderID → Bool} (h : QueueBook.Unnamed q r.trades) :
    QueueBook.Unnamed q r.untimed.trades := by
  cases r with
  | processed out => exact List.forall_mem_map.mpr h
  | cancelled x => exact h

theorem leaked_aboutOthers_le (p : Symbol → OrderID → Bool) (tr : List (Call α × Ret α)) :
    leaked (aboutOthers p tr) ≤ leaked tr :=
  (List.filter_sublist.map _).sum_le_sum fun _ _ => Nat.zero_le _

end Calls

namespace MatchingEngine

variable {α : Type}

/-! ### Counting the orders that rest -/

/-- The orders that rest are those of any set of books that has all books of the engine. -/
theorem restingCount_eq_sum (e : MatchingEngine α) {symbols : Finset Symbol}
    (h : e.orderBooks.keys.toFinset ⊆ symbols) :
    e.restingCount = ∑ symbol ∈ symbols, (e.bookView symbol).allOrders.length := by
  have hcount : ∀ entry ∈ e.orderBooks.entries, entry.2.getBuyOrders + entry.2.getSellOrders =
      (e.bookView entry.1).allOrders.length := by
    intro entry hentry
    have hbook := getOrderBook_eq_some e entry.1 (AList.mem_lookup_iff.mpr hentry)
    rw [bookView, hbook, OrderBook.view_allOrders, List.length_map, OrderBook.getBuyOrders_eq,
      OrderBook.getSellOrders_eq, OrderBook.allNodes, List.length_append]
  have hnone : ∀ symbol ∈ symbols, symbol ∉ e.orderBooks.keys.toFinset →
      (e.bookView symbol).allOrders.length = 0 := by
    intro symbol _ hsymbol
    rw [List.mem_toFinset] at hsymbol
    rw [bookView, bookOf_eq, AList.lookup_eq_none.mpr hsymbol]
    rfl
  have hkeys : e.orderBooks.keys.Nodup := e.orderBooks.nodupKeys
  rw [← Finset.sum_subset h hnone, List.sum_toFinset _ hkeys, restingCount,
    List.map_congr_left hcount, AList.keys, List.keys, List.map_map]
  rfl

/-- Fewer orders in each book are fewer orders. -/
theorem restingCount_le {e e' : MatchingEngine α}
    (h : ∀ symbol, (e'.bookView symbol).allOrders.length ≤ (e.bookView symbol).allOrders.length) :
    e'.restingCount ≤ e.restingCount := by
  let symbols := e.orderBooks.keys.toFinset ∪ e'.orderBooks.keys.toFinset
  calc e'.restingCount = ∑ symbol ∈ symbols, (e'.bookView symbol).allOrders.length :=
        e'.restingCount_eq_sum Finset.subset_union_right
    _ ≤ ∑ symbol ∈ symbols, (e.bookView symbol).allOrders.length :=
        Finset.sum_le_sum fun symbol _ => h symbol
    _ = e.restingCount := (e.restingCount_eq_sum Finset.subset_union_left).symm

/-! ### The run without them -/

variable [LinearOrder α] [Zero α] {clock clock' : Nat → Timestamp} {n : Nat}
  {p : Symbol → OrderID → Bool} {tr tr' : List (Call α × Ret α)} {e e' : MatchingEngine α}

/-- The calls: ids are fresh, orders that may be queued have numbers for prices and find a slot,
and none of them is a FOK order. -/
def Plain (e : MatchingEngine α) (c : Call α) : Prop :=
  e.FreshId c ∧ c.QueuesNumber ∧ c.NotFok ∧ e.HasSlot c

instance (e : MatchingEngine α) (c : Call α) : Decidable (e.Plain c) :=
  inferInstanceAs (Decidable (_ ∧ _ ∧ _ ∧ _))

omit [LinearOrder α] [Zero α] in
theorem Plain.queuesFresh {c : Call α} (h : e.Plain c) : e.QueuesFresh c := .of_freshId h.1

/-- `e'` is the engine after the other calls. -/
structure Unwatched (p : Symbol → OrderID → Bool) (tr : List (Call α × Ret α))
    (e : MatchingEngine α) (tr' : List (Call α × Ret α)) (e' : MatchingEngine α) : Prop where
  answers : untimed tr' = untimed (aboutOthers p tr)
  books : ∀ symbol, e'.bookView symbol = (e.bookView symbol).withoutAll (p symbol)

/-- The smaller engine has a slot whenever the larger one has. -/
theorem Unwatched.available_le (hu : Unwatched p tr e tr' e') (h : Reaches clock n Plain tr e)
    (h' : Reaches clock' n Plain tr' e') : e.orderPool.available ≤ e'.orderPool.available := by
  have hall := reaches_available (fun _ _ hg => Plain.queuesFresh hg) h
  have hfew := reaches_available (fun _ _ hg => Plain.queuesFresh hg) h'
  have hleaked := leaked_aboutOthers_le p tr
  rw [← leaked_untimed, ← hu.answers, leaked_untimed] at hleaked
  have hresting : e'.restingCount ≤ e.restingCount := restingCount_le fun symbol => by
    rw [hu.books, QueueBook.allOrders_withoutAll]
    exact List.length_filter_le _ _
  omega

omit [LinearOrder α] [Zero α] in
/-- Ids that are fresh are fresh without them. -/
theorem Unwatched.freshId (hu : Unwatched p tr e tr' e') {c : Call α} (hc : e.FreshId c) :
    e'.FreshId c := by
  cases c with
  | cancelOrder id symbol side => trivial
  | processNewOrder o =>
      intro hrests
      obtain ⟨x, hx, hid⟩ := (rests_iff e' _ _).mp hrests
      rw [hu.books, QueueBook.allOrders_withoutAll] at hx
      exact hc ((rests_iff e _ _).mpr ⟨x, (List.mem_filter.mp hx).1, hid⟩)

/-- **One call** is repeated, unless it is about them. -/
theorem Unwatched.step (hu : Unwatched p tr e tr' e') (h : Reaches clock n Plain tr e)
    (h' : Reaches clock' n Plain tr' e') {c : Call α} {r : Ret α} {e₁ : MatchingEngine α}
    (hc : e.Plain c) (hr : Returns clock e c r e₁)
    (hnames : QueueBook.Unnamed (p c.symbol) r.trades) :
    ∃ tr'' e'', Reaches clock' n Plain tr'' e'' ∧
      Unwatched p (tr ++ [(c, r)]) e₁ tr'' e'' := by
  have hG : ∀ (e : MatchingEngine α) c, e.Plain c → e.QueuesFresh c := fun _ _ => Plain.queuesFresh
  have hnum : ∀ (e : MatchingEngine α) c, e.Plain c → e.QueuesFresh c ∧ c.QueuesNumber :=
    fun _ _ hg => ⟨hg.queuesFresh, hg.2.1⟩
  have he := reaches_inv hG h
  obtain ⟨hexact, hnumbers⟩ := reaches_exact hnum h c.symbol
  have h₁ : Reaches clock n Plain (tr ++ [(c, r)]) e₁ := h.snoc ⟨hc, hr⟩
  have he₁ := reaches_inv hG h₁
  obtain ⟨-, hf, hstep⟩ := returns_spec he hc.queuesFresh hr
  have hnames := Ret.unnamed_untimed hnames
  have hwf := (he₁.wf c.symbol).withoutAll (p := p c.symbol)
  have hexact₁ := (reaches_exact hnum h₁ c.symbol).1.withoutAll (p := p c.symbol)
  rcases hconcerns : c.concerns p with _ | _
  · have hslot : e'.HasSlot c := by
      cases c with
      | cancelOrder id symbol side => trivial
      | processNewOrder o =>
          have hpos := List.length_pos_iff.mpr hc.2.2.2
          exact List.length_pos_iff.mp (Nat.lt_of_lt_of_le hpos (hu.available_le h h'))
    have he' := reaches_inv hG h'
    have hplain : e'.Plain c := ⟨hu.freshId hc.1, hc.2.1, hc.2.2.1, hslot⟩
    obtain ⟨r', e'', hr'⟩ := returns_total clock' he' (reaches_exact hnum h' c.symbol).1
    have h'' : Reaches clock' n Plain (tr' ++ [(c, r')]) e'' := h'.snoc ⟨hplain, hr'⟩
    obtain ⟨-, hf', hstep'⟩ := returns_spec he' hplain.queuesFresh hr'
    rw [hu.books] at hstep'
    obtain ⟨hanswer, horders⟩ := QueueBook.step_withoutAll (he.wf _) hexact hnumbers hc.2.1
      hc.2.2.1 hconcerns hnames hstep hstep' (r.served_untimed.mpr (hr.served he hc.2.2.2))
      (r'.served_untimed.mpr (hr'.served he' hslot))
    refine ⟨_, _, h'', ?_, fun symbol => ?_⟩
    · rw [aboutOthers, List.filter_append, List.filter_cons_of_pos (by simp [hconcerns]), untimed,
        List.map_append, List.map_singleton, hanswer, untimed, List.map_append]
      exact congrArg (· ++ _) hu.answers
    · by_cases hsym : symbol = c.symbol
      · subst hsym
        exact QueueBook.eq_of_orders ((reaches_inv hG h'').wf _) (reaches_exact hnum h'' _).1 hwf
          hexact₁ horders
      · rw [hf'.bookView hsym, hf.bookView hsym]
        exact hu.books symbol
  -- a call that is about them is left out
  · refine ⟨tr', e', h', ?_, fun symbol => ?_⟩
    · rw [aboutOthers, List.filter_append, List.filter_cons_of_neg (by simp [hconcerns]),
        List.filter_nil, List.append_nil]
      exact hu.answers
    · by_cases hsym : symbol = c.symbol
      · subst hsym
        rw [hu.books]
        exact (QueueBook.eq_of_orders hwf hexact₁ (he.wf _).withoutAll hexact.withoutAll
          (QueueBook.step_about (he.wf _) hexact hnumbers hc.2.1 hconcerns hnames hstep)).symm
      · rw [hf.bookView hsym]
        exact hu.books symbol

/-- **The run without them can be made.** -/
theorem reaches_unwatched (h : Reaches clock n Plain tr e) (hp : Spectating p tr)
    (clock' : Nat → Timestamp) :
    ∃ tr' e', Reaches clock' n Plain tr' e' ∧ Unwatched p tr e tr' e' := by
  have hrun : ∃ tr' e', Reaches clock' n Plain tr' e' ∧
      (Spectating p tr → Unwatched p tr e tr' e') := by
    refine Trace.Run.simulate (fun tr e tr' e' => Spectating p tr → Unwatched p tr e tr' e')
      (fun _ => ⟨rfl, fun _ => rfl⟩) ?_ h
    intro tr e c r e₁ tr' e' hrun hrun' hu hs
    by_cases hspect : Spectating p (tr ++ [(c, r)])
    · obtain ⟨hbefore, hnames⟩ := spectating_snoc.mp hspect
      obtain ⟨tr'', e'', hrun'', hu''⟩ := (hu hbefore).step hrun hrun' hs.1 hs.2 hnames
      exact ⟨tr'', e'', hrun'', fun _ => hu''⟩
    · exact ⟨tr', e', hrun', fun h => absurd h hspect⟩
  obtain ⟨tr', e', h', hu⟩ := hrun
  exact ⟨tr', e', h', hu hp⟩

omit [LinearOrder α] [Zero α] in
theorem map_fst_aboutOthers (p : Symbol → OrderID → Bool) (tr : List (Call α × Ret α)) :
    (aboutOthers p tr).map Prod.fst = (tr.map Prod.fst).filter fun c => !c.concerns p := by
  rw [aboutOthers, List.filter_map]
  rfl

/-- **Orders that never trade have no influence.** If a run of `Plain` calls executes none of the
given orders, the calls that are not about them can be made alone, and every such run that makes
these calls answers them alike and leaves the same books, without these orders. -/
theorem spectators_invisible (h : Reaches clock n Plain tr e) (hp : Spectating p tr)
    (clock' : Nat → Timestamp) :
    (∃ tr' e', Reaches clock' n Plain tr' e' ∧
      tr'.map Prod.fst = (tr.map Prod.fst).filter fun c => !c.concerns p) ∧
      ∀ tr' e', Reaches clock' n Plain tr' e' →
        (tr'.map Prod.fst = (tr.map Prod.fst).filter fun c => !c.concerns p) →
        untimed tr' = untimed (aboutOthers p tr) ∧
          ∀ symbol, e'.bookView symbol = (e.bookView symbol).withoutAll (p symbol) := by
  obtain ⟨tr₁, e₁, h₁, hu⟩ := reaches_unwatched h hp clock'
  have hcalls : tr₁.map Prod.fst = (tr.map Prod.fst).filter fun c => !c.concerns p := by
    rw [← map_fst_untimed, hu.answers, map_fst_untimed, map_fst_aboutOthers]
  refine ⟨⟨tr₁, e₁, h₁, hcalls⟩, fun tr' e' h' hcalls' => ?_⟩
  obtain ⟨rfl, rfl⟩ := h'.deterministic h₁ (hcalls'.trans hcalls.symm)
  exact ⟨hu.answers, hu.books⟩

/-! ### A concrete run -/

section Concrete

/-- An order for one lot. -/
def oneAt (id : OrderID) (side : OrderSide) (price : Int) : Order Int :=
  { id := id, symbol := [65], userId := 1, side := side, type := .limit, price := .num price,
    quantity := 1, timestamp := 0 }

/-- Order 2 is queued behind order 1 and cancelled when order 1 has been executed. -/
def withSpectator : List (Call Int) :=
  [.processNewOrder (oneAt 1 .sell 100), .processNewOrder (oneAt 2 .sell 101),
    .processNewOrder (oneAt 3 .buy 100), .cancelOrder 2 [65] 0]

/-- The run that makes these calls. -/
def spectatorRun : List (Call Int × Ret Int) × MatchingEngine Int :=
  ran (fun _ => 0) 10 100000 Plain withSpectator

/-- Without order 2 the same trade is made. -/
theorem spectators_invisible_second :
    ∃ tr' e', Reaches (fun _ => 7) 100000 Plain tr' e' ∧
      tr'.map Prod.fst = [.processNewOrder (oneAt 1 .sell 100),
        .processNewOrder (oneAt 3 .buy 100)] ∧
      untimed tr' = untimed (aboutOthers (fun _ id => id == 2) spectatorRun.1) := by
  have hrun : Reaches (fun _ => 0) 100000 Plain spectatorRun.1 spectatorRun.2 := reaches_ran rfl
  have hp : Spectating (fun _ id => id == 2) spectatorRun.1 := by
    decide
  have h := spectators_invisible hrun hp fun _ => 7
  obtain ⟨tr', e', h', hcalls⟩ := h.1
  exact ⟨tr', e', h', hcalls, (h.2 tr' e' h' hcalls).1⟩

end Concrete

end MatchingEngine

end OrderMatchingEngine
