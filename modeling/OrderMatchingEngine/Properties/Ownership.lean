import OrderMatchingEngine.Refinement.Handlers

/-!
# OrderMatchingEngine.Properties.Ownership

Who can take an order out of its book.

`handleOrderCancel` does not look at the user id of a cancel, so anyone who knows the id and the
symbol of an order can cancel it. Everything else keeps an order in its book until it is filled
(`only_owner_cancels`): as long as a cancel that finds an order carries the user id of the order,
an order leaves only by being filled or cancelled by its owner.
-/

namespace OrderMatchingEngine

namespace ClientGateway

open MatchingEngine

/-- A cancel that finds an order carries the user id of the order. -/
def OwnCancel (g : ClientGateway) : Request → Prop
  | .newOrder _ _ _ => True
  | .orderCancel fd req => g.LoggedIn fd →
    ∀ x ∈ (g.engine.bookView (cleanSymbol req.symbol)).allOrders,
      x.id = req.clientOrderId → x.userId = req.userId

/-- A trade between the two states executed all that the order had left. -/
def FilledIn (x : Order Int) (g g' : ClientGateway) : Prop :=
  ∃ t ∈ newTrades g g', t.orderId x.side = x.id ∧ t.quantity = x.remainingQty

/-- The request cancels the order and carries the user id of the order. -/
def CancelledByOwner (x : Order Int) : Request → Prop
  | .newOrder _ _ _ => False
  | .orderCancel _ req =>
    req.clientOrderId = x.id ∧ cleanSymbol req.symbol = x.symbol ∧ req.userId = x.userId

/-- The order, up to its executed quantity, is in the book of its symbol. -/
def StillRests (x : Order Int) (g : ClientGateway) : Prop :=
  ∃ y ∈ (g.engine.bookView x.symbol).allOrders, x.SameOrder y

/-- What the step does to resting orders is up to their owners: they stay, are filled or are
cancelled by their owner, and a cancel with the user id of another changes no book. -/
structure RespectsOwners (g : ClientGateway) (i : Request) (g' : ClientGateway) : Prop where
  leaves : ∀ symbol, ∀ x ∈ (g.engine.bookView symbol).allOrders,
    StillRests x g' ∨ FilledIn x g g' ∨ CancelledByOwner x i
  foreign : ∀ fd req, i = .orderCancel fd req →
    (∀ x ∈ (g.engine.bookView (cleanSymbol req.symbol)).allOrders,
      x.id = req.clientOrderId → x.userId ≠ req.userId) →
    ∀ symbol, g'.engine.bookView symbol = g.engine.bookView symbol

section Steps

variable {clock : Nat → Timestamp} {n : Nat} {g g' : ClientGateway} {i : Request} {r : Reporting}
  {calls : List (Call Int × Ret Int)}

/-- What a request does to a resting order. -/
theorem handles_kept (hrun : Reaches clock n (fun e c => e.QueuesFresh c) calls g.engine)
    (hfresh : g.FreshRequest i) (h : Handles clock g i r g') {symbol : Symbol} {x : Order Int}
    (hx : x ∈ (g.engine.bookView symbol).allOrders) :
    StillRests x g' ∨ FilledIn x g g' ∨
      ∃ fd req, i = .orderCancel fd req ∧ g.LoggedIn fd ∧ req.clientOrderId = x.id ∧
        cleanSymbol req.symbol = x.symbol := by
  have he := reaches_inv (fun _ _ hg => hg) hrun
  obtain ⟨sd, hsd⟩ := QueueBook.mem_allOrders.mp hx
  obtain rfl : x.symbol = symbol := (he.wf symbol).symbols sd x hsd
  rcases handles_call h with ⟨-, hsame⟩ | ⟨hin, ret, hret⟩
  · exact .inl ⟨x, by rwa [hsame], .refl x⟩
  obtain ⟨-, hf, hstep⟩ := returns_spec he (hfresh hin) hret
  by_cases hsym : x.symbol = i.call.symbol
  · rw [← hsym] at hstep
    rcases QueueBook.step_kept (he.wf _) hstep (reaches_live (fun _ _ hg => hg) hrun _) hsd with
      ⟨y, hy, hsame⟩ | ⟨o, out, -, hout, rfl, htrade⟩ | ⟨symbol, side, hcall, -⟩
    · exact .inl ⟨y, QueueBook.mem_allOrders.mpr ⟨sd, hy⟩, hsame⟩
    · refine .inr (.inl ?_)
      obtain ⟨out', rfl, hut⟩ := Ret.untimed_eq_processed hout
      rw [← hut] at htrade
      obtain ⟨t, ht, htx⟩ := List.mem_map.mp htrade
      have hside := (he.wf _).sides _ x hsd
      refine ⟨t, ?_, ?_, ?_⟩
      · rw [newTrades, hf.history, List.drop_left]
        exact ht
      · have hid : t.untimed.orderId x.side = x.id := by
          rw [htx, hside]
          cases o.side <;> rfl
        rw [← hid]
        cases x.side <;> rfl
      · exact (congrArg Trade.quantity htx).trans (QueueBook.trade_quantity ..)
    · cases i with
      | newOrder fd req behind => simp [Request.call] at hcall
      | orderCancel fd req =>
          obtain ⟨hid, -, -⟩ := Call.cancelOrder.inj hcall
          exact .inr (.inr ⟨fd, req, rfl, hin, hid, hsym.symm⟩)
  · -- the request is about another symbol
    exact .inl ⟨x, by rwa [hf.bookView hsym], .refl x⟩

/-- A cancel of a logged-in client is a cancel on the observable book of its symbol. -/
theorem cancel_books (he : EngineInv g.engine) {fd : Int} {req : OrderCancelRequest}
    (hin : g.LoggedIn fd) (h : Handles clock g (.orderCancel fd req) r g') :
    (∃ x, (g.engine.bookView (cleanSymbol req.symbol)).cancelOrder req.clientOrderId =
        .ok (x, g'.engine.bookView (cleanSymbol req.symbol))) ∧
      ∀ symbol ≠ cleanSymbol req.symbol,
        g'.engine.bookView symbol = g.engine.bookView symbol := by
  obtain ⟨now, fuel, h⟩ := h
  obtain ⟨x, engine, hc, rfl, -⟩ := handleOrderCancel_ok hin h
  obtain ⟨-, hf⟩ := cancelOrder_ok he hc
  refine ⟨⟨x, ?_⟩, fun symbol hsym => hf.bookView hsym⟩
  rw [cancelOrder_view he req.clientOrderId (cleanSymbol req.symbol) req.side.toNat, hc]
  rfl

/-- **One request respects the owners exactly if** it is not a cancel of another's order. -/
theorem respectsOwners_iff (hrun : Reaches clock n (fun e c => e.QueuesFresh c) calls g.engine)
    (hfresh : g.FreshRequest i) (h : Handles clock g i r g') :
    RespectsOwners g i g' ↔ g.OwnCancel i := by
  have he := reaches_inv (fun _ _ hg => hg) hrun
  cases i with
  | newOrder fd req behind =>
      refine iff_of_true ⟨?_, fun _ _ hi => by simp at hi⟩ trivial
      intro symbol x hx
      rcases handles_kept hrun hfresh h hx with hrests | hfilled | ⟨_, _, hi, -⟩
      · exact .inl hrests
      · exact .inr (.inl hfilled)
      · simp at hi
  | orderCancel fd req =>
      constructor
      · -- A cancel that finds an order takes it out, so it has to be its owner's.
        intro hrespects hin x hx hid
        by_contra huser
        have hsame := hrespects.foreign fd req rfl (fun y hy hyid => by
          rwa [(he.wf _).id_inj hy hx (hyid.trans hid.symm)]) (cleanSymbol req.symbol)
        obtain ⟨⟨y, hc⟩, -⟩ := cancel_books he hin h
        rw [hsame] at hc
        obtain ⟨sd, hsd⟩ := QueueBook.mem_allOrders.mp hx
        rw [((he.wf _).cancelOrder_ok hc).2.2 sd, List.mem_filter] at hsd
        simp [hid] at hsd
      · intro hown
        refine ⟨?_, ?_⟩
        · intro symbol x hx
          rcases handles_kept hrun hfresh h hx with hrests | hfilled | ⟨_, _, hi, hin, hid, hsym⟩
          · exact .inl hrests
          · exact .inr (.inl hfilled)
          · obtain ⟨rfl, rfl⟩ := Request.orderCancel.inj hi
            obtain ⟨sd, hsd⟩ := QueueBook.mem_allOrders.mp hx
            obtain rfl := (he.wf symbol).symbols sd x hsd
            exact .inr (.inr ⟨hid, hsym, (hown hin x (hsym ▸ hx) hid.symm).symm⟩)
        · rintro _ _ hi hforeign symbol
          obtain ⟨rfl, rfl⟩ := Request.orderCancel.inj hi
          rcases handles_call h with ⟨-, hsame⟩ | ⟨hin, -⟩
          · rw [hsame]
          · -- The cancel finds no order: one that it found would be another's.
            obtain ⟨⟨y, hc⟩, hothers⟩ := cancel_books he hin h
            rw [QueueBook.cancelOrder_absent fun x hx hid =>
              hforeign x hx hid (hown hin x hx hid)] at hc
            by_cases hsym : symbol = cleanSymbol req.symbol
            · rw [hsym]
              exact (Prod.mk.inj (Except.ok.inj hc)).2.symm
            · exact hothers symbol hsym

end Steps

section Runs

variable {clock : Nat → Timestamp} {n : Nat} {g₀ g g' : ClientGateway}
  {tr tr' : List (Request × Reporting)}

/-- New orders have fresh ids, and cancels that find an order are its owner's. -/
def Rightful (g : ClientGateway) (i : Request) : Prop := g.FreshRequest i ∧ g.OwnCancel i

/-- Somewhere in the run the order was filled, or cancelled by its owner. -/
def LeftIn (clock : Nat → Timestamp) (g : ClientGateway) (tr : List (Request × Reporting))
    (x : Order Int) : Prop :=
  ∃ tr₁ i r tr₂ g₁ g₂ y, tr = tr₁ ++ (i, r) :: tr₂ ∧
    Trace.Run (Trace.guarded Rightful (Handles clock)) g tr₁ g₁ ∧ Handles clock g₁ i r g₂ ∧
    y ∈ (g₁.engine.bookView x.symbol).allOrders ∧ x.SameOrder y ∧
    (FilledIn y g₁ g₂ ∨ CancelledByOwner y i)

theorem LeftIn.snoc {x : Order Int} {i : Request} {r : Reporting} (h : LeftIn clock g tr x) :
    LeftIn clock g (tr ++ [(i, r)]) x := by
  obtain ⟨tr₁, i', r', tr₂, g₁, g₂, y, rfl, hrest⟩ := h
  exact ⟨tr₁, i', r', tr₂ ++ [(i, r)], g₁, g₂, y, by simp, hrest⟩

/-- Along a run of rightful requests an order stays until it is filled or its owner cancels it. -/
theorem rests_until_left (hg : g.EngineReached clock n) {x : Order Int}
    (hx : x ∈ (g.engine.bookView x.symbol).allOrders)
    (h : Trace.Run (Trace.guarded Rightful (Handles clock)) g tr g') :
    StillRests x g' ∨ LeftIn clock g tr x := by
  suffices h : g'.EngineReached clock n ∧ (StillRests x g' ∨ LeftIn clock g tr x) from h.2
  refine Trace.Run.invariant (fun tr g' => g'.EngineReached clock n ∧
    (StillRests x g' ∨ LeftIn clock g tr x)) ⟨hg, .inl ⟨x, hx, .refl x⟩⟩ ?_ h
  intro tr g₁ i r g₂ hrun hI hs
  obtain ⟨hreached, hI⟩ := hI
  refine ⟨hreached.handles hs.1.1 hs.2, ?_⟩
  rcases hI with ⟨y, hy, hsame⟩ | hleft
  · have hsym : y.symbol = x.symbol := by rw [hsame]
    obtain ⟨calls, hcalls⟩ := hreached
    have hrespects := (respectsOwners_iff hcalls hs.1.1 hs.2).mpr hs.1.2
    rcases hrespects.leaves _ y hy with ⟨z, hz, hyz⟩ | hgone
    · exact .inl ⟨z, hsym ▸ hz, hsame.trans hyz⟩
    · exact .inr ⟨tr, i, r, [], g₁, g₂, y, rfl, hrun, hs.2, hy, hsame, hgone⟩
  · exact .inr hleft.snoc

/-- **Only its owner can cancel an order exactly if** the cancels that find an order are its
owner's: each single request respects the owners exactly then, and along every run of such requests
an order leaves its book only by being filled or by a cancel of its owner. -/
theorem only_owner_cancels (h₀ : g₀.engine = withPool n)
    (h : Trace.Run (Trace.guarded FreshRequest (Handles clock)) g₀ tr g) :
    (∀ i r g', g.FreshRequest i → Handles clock g i r g' →
        (RespectsOwners g i g' ↔ g.OwnCancel i)) ∧
      ∀ tr' g', Trace.Run (Trace.guarded Rightful (Handles clock)) g tr' g' →
        ∀ symbol, ∀ x ∈ (g.engine.bookView symbol).allOrders,
          StillRests x g' ∨ LeftIn clock g tr' x := by
  have hg : g.EngineReached clock n := engineReached_of_run ⟨[], h₀ ▸ .nil⟩ h
  obtain ⟨calls, hrun⟩ := hg
  refine ⟨fun i r g' hfresh hs => respectsOwners_iff hrun hfresh hs, ?_⟩
  intro tr' g' hrun' symbol x hx
  obtain ⟨sd, hsd⟩ := QueueBook.mem_allOrders.mp hx
  obtain rfl := ((reaches_inv (fun _ _ hg => hg) hrun).wf symbol).symbols sd x hsd
  exact rests_until_left ⟨calls, hrun⟩ hx hrun'

end Runs

/-! ### Concrete requests -/

section Concrete

/-- A request to buy five lots of `A`, as order 1 of user 7. -/
def buyOfSeven : NewOrderRequest := smallRequest 1 7 65 0 0 1 5

/-- A request of user 8 to cancel that order. -/
def cancelOfEight : OrderCancelRequest :=
  ⟨[0, 0, 67, 32, 0] ++ [1, 0, 0, 0, 0, 0, 0, 0] ++ [8, 0, 0, 0, 0, 0, 0, 0] ++
    [65, 0, 0, 0, 0, 0, 0, 0, 0, 0] ++ [0], rfl⟩

/-- The gateway after the order. -/
def afterSeven : ClientGateway := (after oneClient (.newOrder 4 buyOfSeven)).2

/-- The gateway after the cancel. -/
def afterEight : ClientGateway := (after afterSeven (.orderCancel 4 cancelOfEight)).2

theorem run_afterSeven : Trace.Run (Trace.guarded FreshRequest (Handles fun _ => 0)) oneClient
    [(.newOrder 4 buyOfSeven, (after oneClient (.newOrder 4 buyOfSeven)).1)] afterSeven := by
  have hfresh : oneClient.FreshRequest (.newOrder 4 buyOfSeven) := by
    intro _
    decide
  exact Trace.Run.nil.snoc ⟨hfresh, fun _ => 0, 10, rfl⟩

/-- **A stranger cancels an order**: the order of user 7 is gone after the cancel of user 8. -/
theorem stranger_cancels :
    (∃ tr, Trace.Run (Trace.guarded FreshRequest (Handles fun _ => 0)) oneClient tr afterSeven) ∧
      Handles (fun _ => 0) afterSeven (.orderCancel 4 cancelOfEight)
        (after afterSeven (.orderCancel 4 cancelOfEight)).1 afterEight ∧
      (afterSeven.engine.bookView [65]).allOrders = [buyOfSeven.order] ∧
      buyOfSeven.order.userId = 7 ∧ cancelOfEight.userId = 8 ∧
      (afterEight.engine.bookView [65]).allOrders = [] ∧ newTrades afterSeven afterEight = [] ∧
      ¬ RespectsOwners afterSeven (.orderCancel 4 cancelOfEight) afterEight := by
  have hbefore : (afterSeven.engine.bookView [65]).allOrders = [buyOfSeven.order] := rfl
  have hafter : (afterEight.engine.bookView [65]).allOrders = [] := rfl
  have htrades : newTrades afterSeven afterEight = [] := rfl
  refine ⟨⟨_, run_afterSeven⟩, ⟨fun _ => 0, 10, rfl⟩, hbefore, rfl, rfl, hafter, htrades, ?_⟩
  intro hrespects
  rcases hrespects.leaves [65] buyOfSeven.order (hbefore ▸ List.mem_singleton_self _) with
    ⟨y, hy, -⟩ | ⟨t, ht, -⟩ | ⟨-, -, huser⟩
  · have hin : y ∈ (afterEight.engine.bookView [65]).allOrders := hy
    rw [hafter] at hin
    simp at hin
  · rw [htrades] at ht
    simp at ht
  · exact absurd huser (by decide)

/-- After that order its owner can cancel it, and nobody else should. -/
theorem only_owner_cancels_afterSeven :
    (∀ i r g', afterSeven.FreshRequest i → Handles (fun _ => 0) afterSeven i r g' →
        (RespectsOwners afterSeven i g' ↔ afterSeven.OwnCancel i)) ∧
      ∀ tr' g', Trace.Run (Trace.guarded Rightful (Handles fun _ => 0)) afterSeven tr' g' →
        ∀ symbol, ∀ x ∈ (afterSeven.engine.bookView symbol).allOrders,
          StillRests x g' ∨ LeftIn (fun _ => 0) afterSeven tr' x := by
  have h₀ : oneClient.engine = withPool 100000 := rfl
  exact only_owner_cancels h₀ run_afterSeven

end Concrete

end ClientGateway

end OrderMatchingEngine
