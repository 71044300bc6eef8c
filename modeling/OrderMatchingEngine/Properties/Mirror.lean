import Mathlib.Algebra.Order.Ring.Int
import OrderMatchingEngine.Abstract.Mirror
import OrderMatchingEngine.Refinement.Lifting

/-!
# OrderMatchingEngine.Properties.Mirror

Is the engine symmetric in buyers and sellers?

Swap the sides of all orders, turn the prices over and run the calls on a fresh engine. The
answers and books are the mirror images as long as no FOK order comes in for which the scan
of `can_fill_completely` depends on its direction: for a sale the source starts at the
lowest bid, the worst one.
-/

namespace OrderMatchingEngine

namespace MatchingEngine

section Mirrored

variable {α : Type} [LinearOrder α] [AddCommGroup α] [IsOrderedAddMonoid α] {C : α}
  {clock clock' : Nat → Timestamp} {n : Nat} {tr tr' : List (Call α × Ret α)}
  {e e' : MatchingEngine α}

/-- The calls of mirror symmetry: ids are fresh, orders find a slot, are valid and have
prices below the axis. -/
def Mirrorable (C : α) (e : MatchingEngine α) (c : Call α) : Prop :=
  e.FreshId c ∧ e.HasSlot c ∧ c.Below C

/-- The calls that lead to mirror images: the scans of FOK orders agree as well. -/
def MirrorableScan (C : α) (e : MatchingEngine α) (c : Call α) : Prop :=
  e.Mirrorable C c ∧ QueueBook.ScansAgree (e.bookView c.symbol) c

/-- The calls of the mirrored run. -/
def Mirroring (e : MatchingEngine α) (c : Call α) : Prop := e.FreshId c ∧ c.Priced ∧ e.HasSlot c

omit [IsOrderedAddMonoid α] in
theorem reaches_priced {G : MatchingEngine α → Call α → Prop}
    (hG : ∀ e c, G e c → e.FreshId c ∧ c.Priced) (h : Reaches clock n G tr e) (symbol : Symbol) :
    QueueBook.Exact (e.bookView symbol) ∧ QueueBook.Numbers (e.bookView symbol) :=
  reaches_exact (fun e c hg => ⟨.of_freshId (hG e c hg).1, (hG e c hg).2.queuesNumber⟩) h symbol

omit [LinearOrder α] [IsOrderedAddMonoid α] in
theorem freshId_mirror {c : Call α}
    (h : e'.bookView c.symbol = (e.bookView c.symbol).mirror C) :
    e'.FreshId (c.mirror C) ↔ e.FreshId c := by
  cases c with
  | cancelOrder id symbol side => exact Iff.rfl
  | processNewOrder o =>
      have hbook : e'.bookView o.symbol = (e.bookView o.symbol).mirror C := h
      refine not_congr ?_
      have hrests := rests_iff e' o.symbol o.id
      rw [hbook, QueueBook.exists_mem_allOrders_mirror] at hrests
      exact hrests.trans (rests_iff e o.symbol o.id).symm

/-- `e'` is the engine after the mirrored calls. -/
structure Mirrors (C : α) (tr : List (Call α × Ret α)) (e : MatchingEngine α)
    (tr' : List (Call α × Ret α)) (e' : MatchingEngine α) : Prop where
  answers : untimed tr' = (untimed tr).map fun x => (x.1.mirror C, x.2.mirror C)
  books : ∀ symbol, e'.bookView symbol = (e.bookView symbol).mirror C
  available : e'.orderPool.available = e.orderPool.available

instance (e : MatchingEngine α) (c : Call α) : Decidable (e.Mirrorable C c) :=
  inferInstanceAs (Decidable (_ ∧ _ ∧ _))

instance (e : MatchingEngine α) (c : Call α) : Decidable (e.MirrorableScan C c) :=
  inferInstanceAs (Decidable (_ ∧ _))

omit [IsOrderedAddMonoid α] in
theorem MirrorableScan.fresh_priced {c : Call α} (h : e.MirrorableScan C c) :
    e.FreshId c ∧ c.Priced := ⟨h.1.1, Call.Below.priced h.1.2.2⟩

omit [LinearOrder α] [AddCommGroup α] [IsOrderedAddMonoid α] in
theorem Mirroring.fresh_priced {c : Call α} (h : e.Mirroring c) : e.FreshId c ∧ c.Priced :=
  ⟨h.1, h.2.1⟩

section OneCall

variable {c : Call α} {r r' : Ret α} {e₁ e₁' : MatchingEngine α}

omit [IsOrderedAddMonoid α] in
/-- The mirrored call may be made. -/
theorem Mirrors.mirroring (hm : Mirrors C tr e tr' e') (hc : e.Mirrorable C c) :
    e'.Mirroring (c.mirror C) := by
  obtain ⟨hfresh, hslot, hbelow⟩ := hc
  refine ⟨(freshId_mirror (hm.books c.symbol)).mpr hfresh, ?_, ?_⟩
  · cases c with
    | cancelOrder id symbol side => trivial
    | processNewOrder o => exact Price.mirror_ne_nan (Call.Below.priced hbelow)
  · cases c with
    | cancelOrder id symbol side => trivial
    | processNewOrder o =>
        refine List.length_pos_iff.mp (Nat.lt_of_lt_of_eq ?_ hm.available.symm)
        exact List.length_pos_iff.mpr hslot

omit [IsOrderedAddMonoid α] in
/-- The two calls are steps of books that mirror each other, and both are served. -/
theorem Mirrors.steps (hm : Mirrors C tr e tr' e') (he : EngineInv e) (he' : EngineInv e')
    (hc : e.Mirrorable C c) (hr : Returns clock e c r e₁)
    (hr' : Returns clock' e' (c.mirror C) r' e₁') :
    QueueBook.Step (e.bookView c.symbol) c r.untimed (e₁.bookView c.symbol) ∧
      QueueBook.Step ((e.bookView c.symbol).mirror C) (c.mirror C) r'.untimed
        (e₁'.bookView c.symbol) ∧ r.untimed.Served ∧ r'.untimed.Served := by
  have hc' := hm.mirroring hc
  obtain ⟨-, -, hstep⟩ := returns_spec he (.of_freshId hc.1) hr
  obtain ⟨-, -, hstep'⟩ := returns_spec he' (.of_freshId hc'.1) hr'
  rw [c.mirror_symbol, hm.books] at hstep'
  exact ⟨hstep, hstep', r.served_untimed.mpr (hr.served he hc.2.1),
    r'.served_untimed.mpr (hr'.served he' hc'.2.2)⟩

/-- **One call and its mirror image.** -/
theorem Mirrors.answer (hm : Mirrors C tr e tr' e') (h : Reaches clock n (MirrorableScan C) tr e)
    (h' : Reaches clock' n Mirroring tr' e') (hc : e.MirrorableScan C c)
    (hr : Returns clock e c r e₁) (hr' : Returns clock' e' (c.mirror C) r' e₁') :
    r'.untimed = r.untimed.mirror C ∧
      Mirrors C (tr ++ [(c, r)]) e₁ (tr' ++ [(c.mirror C, r')]) e₁' := by
  have hG : ∀ (e : MatchingEngine α) c, e.MirrorableScan C c → e.QueuesFresh c :=
    fun _ _ hg => .of_freshId hg.1.1
  have hG' : ∀ (e : MatchingEngine α) c, e.Mirroring c → e.QueuesFresh c :=
    fun _ _ hg => .of_freshId hg.1
  have he := reaches_inv hG h
  have he' := reaches_inv hG' h'
  have hc' := hm.mirroring hc.1
  have hrun := h.snoc ⟨hc, hr⟩
  have hrun' := h'.snoc ⟨hc', hr'⟩
  obtain ⟨hex, hn⟩ := reaches_priced (fun _ _ hg => hg.fresh_priced) h c.symbol
  obtain ⟨hstep, hstep', hserved, hserved'⟩ := hm.steps he he' hc.1 hr hr'
  obtain ⟨hanswer, horders⟩ := QueueBook.step_mirror (he.wf _) hex hn hc.1.2.2 hc.2 hstep hstep'
    hserved hserved'
  -- the mirrored books have the same orders, and prices tell the levels
  have hview : e₁'.bookView c.symbol = (e₁.bookView c.symbol).mirror C :=
    QueueBook.ext_orders ((reaches_inv hG' hrun').wf c.symbol)
      (reaches_priced (fun _ _ hg => hg.fresh_priced) hrun' c.symbol).1
      ((reaches_inv hG hrun).wf c.symbol).mirror
      (reaches_priced (fun _ _ hg => hg.fresh_priced) hrun c.symbol).1.mirror horders
  obtain ⟨-, hf, -⟩ := returns_spec he (hG _ _ hc) hr
  obtain ⟨-, hf', -⟩ := returns_spec he' (hG' _ _ hc') hr'
  rw [c.mirror_symbol] at hf'
  refine ⟨hanswer, ?_, ?_, ?_⟩
  · rw [untimed, List.map_append, ← untimed, hm.answers, untimed, untimed, List.map_append,
      List.map_append]
    exact congrArg _ (congrArg (fun r => [(c.mirror C, r)]) hanswer)
  · intro symbol
    by_cases hsym : symbol = c.symbol
    · rw [hsym]
      exact hview
    · rw [hf'.bookView hsym, hm.books, hf.bookView hsym]
  · -- the calls leak alike, and their books grow alike
    have hleaks : r'.leaks = r.leaks := by
      rw [← r'.leaks_untimed, hanswer, ← r.leaks_untimed]
      cases r <;> rfl
    have havailable := hf.available_view
    have havailable' := hf'.available_view
    rw [hm.books, hview, QueueBook.length_allOrders_mirror, QueueBook.length_allOrders_mirror,
      hleaks, hm.available] at havailable'
    omega

omit [IsOrderedAddMonoid α] in
/-- The mirrored call returns. -/
theorem Mirrors.returns (hm : Mirrors C tr e tr' e') (h : Reaches clock n (MirrorableScan C) tr e)
    (h' : Reaches clock' n Mirroring tr' e') (c : Call α) :
    ∃ r' e₁', Returns clock' e' (c.mirror C) r' e₁' := by
  refine returns_total clock' (reaches_inv (fun _ _ hg => .of_freshId hg.1) h') ?_
  rw [c.mirror_symbol, hm.books]
  exact (reaches_priced (fun _ _ hg => hg.fresh_priced) h c.symbol).1.mirror

/-- **A further call** with an unfilled order gives mirrored trades exactly when the scan of a
FOK order agrees with the scan from the other end. -/
theorem Mirrors.trades_iff (hm : Mirrors C tr e tr' e')
    (h : Reaches clock n (MirrorableScan C) tr e) (h' : Reaches clock' n Mirroring tr' e')
    (hc : e.Mirrorable C c) (hqf : c.Unfilled) (hr : Returns clock e c r e₁)
    (hr' : Returns clock' e' (c.mirror C) r' e₁') :
    r'.untimed.trades = r.untimed.trades.map (Trade.mirror C) ↔
      QueueBook.ScansAgree (e.bookView c.symbol) c := by
  constructor
  · intro htrades
    have hG : ∀ (e : MatchingEngine α) c, e.MirrorableScan C c → e.QueuesFresh c :=
      fun _ _ hg => .of_freshId hg.1.1
    have he := reaches_inv hG h
    have he' := reaches_inv (fun e c hg => .of_freshId hg.1) h'
    obtain ⟨hstep, hstep', hserved, hserved'⟩ := hm.steps he he' hc hr hr'
    exact QueueBook.scansAgree_of_mirror (he.wf _)
      (reaches_priced (fun _ _ hg => hg.fresh_priced) h _).1 (reaches_live hG h _) hc.2.2 hqf hstep
      hstep' hserved hserved' htrades
  · intro hscan
    rw [(hm.answer h h' ⟨hc, hscan⟩ hr hr').1]
    cases r <;> rfl

end OneCall

/-- The mirrored calls can be made on a fresh engine. -/
theorem reaches_mirror (h : Reaches clock n (MirrorableScan C) tr e)
    (clock' : Nat → Timestamp) :
    ∃ tr' e', Reaches clock' n Mirroring tr' e' ∧ Mirrors C tr e tr' e' := by
  refine Trace.Run.simulate (Mirrors C) ⟨rfl, fun _ => rfl, rfl⟩ ?_ h
  intro tr e c r e₁ tr' e' hrun hrun' hm hs
  obtain ⟨r', e₁', hr'⟩ := hm.returns hrun hrun' c
  exact ⟨_, e₁', hrun'.snoc ⟨hm.mirroring hs.1.1, hr'⟩, (hm.answer hrun hrun' hs.1 hs.2 hr').2⟩

/-- **Mirror symmetry.** After calls that submit no FOK order whose scan depends on its
direction, the mirrored calls can be made on a fresh engine, and they give the mirrored
answers, trades among them, and the mirrored books. A further call with an unfilled order
gives mirrored trades exactly when the scan does not depend on its direction. -/
theorem mirror_symmetric (h : Reaches clock n (MirrorableScan C) tr e)
    (clock' : Nat → Timestamp) :
    (∃ tr' e', Reaches clock' n Mirroring tr' e' ∧
      tr'.map Prod.fst = tr.map fun x => x.1.mirror C) ∧
      ∀ G tr' e', Reaches clock' n G tr' e' → (tr'.map Prod.fst = tr.map fun x => x.1.mirror C) →
        (untimed tr' = ((untimed tr).map fun x => (x.1.mirror C, x.2.mirror C)) ∧
          ∀ symbol, e'.bookView symbol = (e.bookView symbol).mirror C) ∧
        ∀ c r e₁ r' e₁', e.Mirrorable C c → c.Unfilled → Returns clock e c r e₁ →
          Returns clock' e' (c.mirror C) r' e₁' →
          (r'.untimed.trades = r.untimed.trades.map (Trade.mirror C) ↔
            QueueBook.ScansAgree (e.bookView c.symbol) c) := by
  obtain ⟨tr₁, e₁, h₁, hm⟩ := reaches_mirror h clock'
  have hcalls : tr₁.map Prod.fst = tr.map fun x => x.1.mirror C := by
    rw [← map_fst_untimed, hm.answers, untimed, List.map_map, List.map_map]
    rfl
  refine ⟨⟨tr₁, e₁, h₁, hcalls⟩, ?_⟩
  intro G tr' e' h' hcalls'
  obtain ⟨rfl, rfl⟩ := Reaches.deterministic h' h₁ (hcalls'.trans hcalls.symm)
  exact ⟨⟨hm.answers, hm.books⟩, fun c r e₁ r' e₁' hc hqf hr hr' =>
    hm.trades_iff h h₁ hc hqf hr hr'⟩

end Mirrored

section Concrete

/-- An order for five lots. -/
def fiveLots (id : OrderID) (side : OrderSide) (type : OrderType) (price : Int) : Order Int :=
  { id := id, symbol := [65], userId := 1, side := side, type := type, price := .num price,
    quantity := 5, timestamp := 0 }

/-- Bids at 100 and 90, and a FOK order to sell at 95. -/
def fokSale : List (Call Int) :=
  [.processNewOrder (fiveLots 1 .buy .limit 100), .processNewOrder (fiveLots 2 .buy .limit 90),
    .processNewOrder (fiveLots 3 .sell .fok 95)]

/-- **The scan starts at the wrong end for a sale**: with bids at 100 and 90 a FOK order to
sell at 95 is killed, while its mirror image, with axis 200, buys. -/
theorem mirror_broken :
    ∃ tr e tr' e', Reaches (fun _ => 0) 100000 (Mirrorable (200 : Int)) tr e ∧
      Reaches (fun _ => 0) 100000 (Mirrorable (200 : Int)) tr' e' ∧
      tr.map Prod.fst = fokSale ∧ tr'.map Prod.fst = fokSale.map (Call.mirror 200) ∧
      (tr.map fun x => x.2.trades.length) = [0, 0, 0] ∧
      (tr'.map fun x => x.2.trades.length) = [0, 0, 1] :=
  ⟨_, _, _, _, reaches_of_execute (fun _ => 0) 10 100000 fokSale rfl,
    reaches_of_execute (fun _ => 0) 10 100000 (fokSale.map (Call.mirror 200)) rfl,
    rfl, rfl, rfl, rfl⟩

/-- Bids at 100 and 90, a sale of three lots, a FOK order that takes the other seven, and a bid. -/
def fokPasses : List (Call Int) :=
  [.processNewOrder (fiveLots 1 .buy .limit 100), .processNewOrder (fiveLots 2 .buy .limit 90),
    .processNewOrder { fiveLots 3 .sell .limit 100 with quantity := 3 },
    .processNewOrder { fiveLots 4 .sell .fok 85 with quantity := 7 },
    .processNewOrder (fiveLots 5 .buy .limit 70)]

/-- What comes of them. -/
def afterFok : List (Call Int × Ret Int) × MatchingEngine Int :=
  (execute (fun _ => 0) 10 (MirrorableScan 200) init fokPasses).getD ([], init)

theorem mirror_symmetric_fokPasses :
    (afterFok.1.map fun x => x.2.trades.length) = [0, 0, 1, 2, 0] ∧
    (∃ tr' e', Reaches (fun _ => 0) 100000 Mirroring tr' e' ∧
      tr'.map Prod.fst = afterFok.1.map fun x => x.1.mirror 200) ∧
      ∀ G tr' e', Reaches (fun _ => 0) 100000 G tr' e' →
        (tr'.map Prod.fst = afterFok.1.map fun x => x.1.mirror 200) →
        (untimed tr' = ((untimed afterFok.1).map fun x => (x.1.mirror 200, x.2.mirror 200)) ∧
          ∀ symbol, e'.bookView symbol = (afterFok.2.bookView symbol).mirror 200) ∧
        ∀ c r e₁ r' e₁', afterFok.2.Mirrorable 200 c → c.Unfilled →
          Returns (fun _ => 0) afterFok.2 c r e₁ →
          Returns (fun _ => 0) e' (c.mirror 200) r' e₁' →
          (r'.untimed.trades = r.untimed.trades.map (Trade.mirror 200) ↔
            QueueBook.ScansAgree (afterFok.2.bookView c.symbol) c) :=
  ⟨rfl, mirror_symmetric (reaches_of_execute (fun _ => 0) 10 100000 fokPasses rfl) fun _ => 0⟩

end Concrete

end MatchingEngine

end OrderMatchingEngine
