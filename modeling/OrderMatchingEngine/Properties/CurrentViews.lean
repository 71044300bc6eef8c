import Mathlib.Data.List.Infix
import OrderMatchingEngine.Properties.Subscribers

/-!
# OrderMatchingEngine.Properties.CurrentViews

What subscribers see is current.

Every happening that may change a book is followed by a broadcast of it (`happens_told`), and the
books of other symbols stay as they are. So the last snapshot that a subscriber was sent shows the
book as it is, and the trade updates it was sent are the trades executed (`views_current`). That
books of other symbols stay is what an order under the id of a resting one breaks: its slot may be
given to an order of another symbol while a level still refers to it (`view_stale`).
-/

namespace OrderMatchingEngine

namespace ClientGateway

open Trace (Run guarded)

/-- A run in which no order that may be queued comes under the id of one resting in its book. -/
abbrev FreshRun (clock : Nat → Timestamp) : ClientGateway → List (Happening × Reporting) →
    ClientGateway → Prop := Run (guarded FreshHappening (Happens clock))

/-- The snapshots of a symbol that a client is sent when this happens. -/
def snapshotsFor (fd : Int) (symbol : Symbol) (x : Happening × Reporting) :
    List MarketDataSnapshot :=
  if x.1.symbol? = some symbol then snapshots (messagesTo fd x.2.sent) else []

/-- The trade updates for a symbol that a client is sent when this happens. -/
def updatesFor (fd : Int) (symbol : Symbol) (x : Happening × Reporting) : List TradeUpdate :=
  if x.1.symbol? = some symbol then tradeUpdates (messagesTo fd x.2.sent) else []

/-- The client stays logged in and subscribed to the symbol in the second part of a run. -/
def Stays (fd : Int) (symbol : Symbol) (tr₁ tr₂ : List (Happening × Reporting)) : Prop :=
  ∀ front ∈ tr₂.inits, Wants fd symbol ((tr₁ ++ front).map Prod.fst)

instance (fd : Int) (symbol : Symbol) (tr₁ tr₂ : List (Happening × Reporting)) :
    Decidable (Stays fd symbol tr₁ tr₂) :=
  inferInstanceAs (Decidable (∀ front ∈ tr₂.inits, _))

section Views

variable {clock : Nat → Timestamp} {n : Nat} {g₀ g₁ g g' : ClientGateway} {i : Happening}
  {r : Reporting} {x : Happening × Reporting} {tr tr₁ tr₂ : List (Happening × Reporting)} {fd : Int}
  {symbol symbol' : Symbol} {trades : List (Trade Int)} {snapshot : MarketDataSnapshot}

theorem Stays.now (h : Stays fd symbol tr₁ tr₂) : Wants fd symbol ((tr₁ ++ tr₂).map Prod.fst) :=
  h tr₂ ((List.mem_inits _ _).mpr List.prefix_rfl)

theorem Stays.before (h : Stays fd symbol tr₁ (tr₂ ++ [x])) : Stays fd symbol tr₁ tr₂ :=
  fun front hfront => h front ((List.mem_inits _ _).mpr
    (((List.mem_inits _ _).mp hfront).trans (List.prefix_append tr₂ [x])))

/-- **The maps and the engine stay sound** in a run that nothing aborts. -/
theorem sound_of_run (h₀ : Idle g₀) (hengine : g₀.EngineReached clock n)
    (hrun : FreshRun clock g₀ tr g) (horder : InOrder (tr.map Prod.fst))
    (halive : ∀ x ∈ tr, x.2.fault = none) :
    Kept (tr.map Prod.fst) g ∧ MatchingEngine.EngineInv g.engine := by
  refine Run.invariant (fun tr g => InOrder (tr.map Prod.fst) → (∀ x ∈ tr, x.2.fault = none) →
    Kept (tr.map Prod.fst) g ∧ MatchingEngine.EngineInv g.engine) (fun _ _ => ⟨h₀.kept, ?_⟩) ?_ hrun
    horder halive
  · obtain ⟨calls, hreach⟩ := hengine
    exact MatchingEngine.reaches_inv (fun _ _ hg => hg) hreach
  · intro tr g i r g' _ ih hstep horder halive
    obtain ⟨hfresh, h⟩ := hstep
    rw [List.map_append, List.map_singleton] at horder ⊢
    obtain ⟨hkept, he⟩ := ih horder.front fun x hx => halive x (List.mem_append_left _ hx)
    have hkept' := hkept.happens horder.last h
    exact ⟨hkept', (happens_told he hkept'.nodup hfresh h (halive (i, r) (by simp))).1⟩

/-! ### Snapshots -/

/-- A snapshot that is sent shows the book behind the happening. -/
theorem snapshot?_of_sent (htold : Silent g i r g' ∨ ∃ symbol trades, Told symbol trades g i r g')
    (h : (snapshotsFor fd symbol (i, r)).getLast? = some snapshot) :
    g'.snapshot? symbol = some snapshot := by
  have hmem : snapshot ∈ snapshotsFor fd symbol (i, r) := List.mem_of_getLast? h
  unfold snapshotsFor at hmem
  split at hmem
  · rename_i hsymbol
    rcases htold with hsilent | ⟨symbol', trades, htold⟩
    · exact hsilent.snapshots fd symbol hsymbol snapshot hmem
    · obtain rfl : symbol = symbol' := Option.some.inj (hsymbol.symm.trans htold.about)
      dsimp only at hmem
      rw [htold.snapshots] at hmem
      split at hmem
      · simpa using hmem
      · simp at hmem
  · simp at hmem

/-- **A subscriber who is not sent a new snapshot still has the book as it is.** -/
theorem snapshot?_unsent (htold : Silent g i r g' ∨ ∃ symbol trades, Told symbol trades g i r g')
    (hreceives : fd ∈ g'.receivers symbol) (hnone : snapshotsFor fd symbol (i, r) = [])
    (h : g.snapshot? symbol = some snapshot) : g'.snapshot? symbol = some snapshot := by
  rcases htold with hsilent | ⟨symbol', trades, htold⟩
  · unfold snapshot? at h ⊢
    rwa [hsilent.engine]
  · by_cases hsymbol : symbol = symbol'
    · subst hsymbol
      -- the book is there, so it would have been shown
      obtain ⟨book, hbook, -⟩ := shown_of_snapshot? h
      obtain ⟨book', hbook'⟩ := htold.keeps book hbook
      rw [snapshotsFor, if_pos htold.about] at hnone
      dsimp only at hnone
      rw [htold.snapshots, if_pos hreceives, snapshot?, hbook'] at hnone
      simp at hnone
    · obtain ⟨leaks, hframe⟩ := htold.frame
      rwa [snapshot?_frame hframe hsymbol]

/-! ### Trade updates -/

/-- **A subscriber is sent the trades in its symbol**, one update each. -/
theorem updates_told (htold : Silent g i r g' ∨ ∃ symbol trades, Told symbol trades g i r g')
    (hreceives : fd ∈ g'.receivers symbol) :
    ∃ trades, g'.engine.tradeHistory = g.engine.tradeHistory ++ trades ∧
      (updatesFor fd symbol (i, r)).map (·.content) =
        (trades.filter fun t => t.symbol = symbol).map (·.content) := by
  rcases htold with hsilent | ⟨symbol', trades, htold⟩
  · refine ⟨[], by rw [hsilent.engine, List.append_nil], ?_⟩
    rw [updatesFor]
    dsimp only
    rw [hsilent.updates, ite_self]
    rfl
  · obtain ⟨leaks, hframe⟩ := htold.frame
    refine ⟨trades, hframe.history, ?_⟩
    rw [updatesFor]
    by_cases hsymbol : symbol = symbol'
    · subst hsymbol
      rw [if_pos htold.about]
      dsimp only
      rw [htold.updates]
      refine congrArg (List.map _) (List.filter_congr fun t ht => ?_)
      simp [htold.symbols t ht, hreceives]
    · have hother : ¬ i.symbol? = some symbol := fun h =>
        hsymbol (Option.some.inj (h.symm.trans htold.about))
      have hnone : trades.filter (fun t => t.symbol = symbol) = [] := by
        refine List.filter_eq_nil_iff.mpr fun t ht => ?_
        rw [htold.symbols t ht, decide_eq_true_iff]
        exact Ne.symm hsymbol
      rw [if_neg hother, hnone]
      rfl

/-! ### Runs -/

/-- What a further step of a run says, while a client stays subscribed. -/
theorem told_of_run (h₀ : Idle g₀) (hengine : g₀.EngineReached clock n)
    (hrun : FreshRun clock g₀ tr g) (hstep : guarded FreshHappening (Happens clock) g i r g')
    (horder : InOrder ((tr ++ [(i, r)]).map Prod.fst))
    (halive : ∀ x ∈ tr ++ [(i, r)], x.2.fault = none) :
    (Silent g i r g' ∨ ∃ symbol trades, Told symbol trades g i r g') ∧
      Kept ((tr ++ [(i, r)]).map Prod.fst) g' := by
  have hsound := sound_of_run h₀ hengine (hrun.snoc hstep) horder halive
  rw [List.map_append] at horder
  have hbefore := sound_of_run h₀ hengine hrun horder.front fun x hx =>
    halive x (List.mem_append_left _ hx)
  have htold := happens_told hbefore.2 hsound.1.nodup hstep.1 hstep.2 (halive (i, r) (by simp))
  exact ⟨htold.2, hsound.1⟩

/-- While a client stays subscribed, a snapshot that was current stays so until the next one is
sent, and all trades in the symbol are told. -/
theorem stays_informed (h₀ : Idle g₀) (hengine : g₀.EngineReached clock n)
    (h₁ : FreshRun clock g₀ tr₁ g₁) (h₂ : FreshRun clock g₁ tr₂ g)
    (horder : InOrder ((tr₁ ++ tr₂).map Prod.fst)) (halive : ∀ x ∈ tr₁ ++ tr₂, x.2.fault = none)
    (hstays : Stays fd symbol tr₁ tr₂) :
    (∀ snapshot, g₁.snapshot? symbol = some snapshot →
      (∀ y ∈ tr₂, snapshotsFor fd symbol y = []) → g.snapshot? symbol = some snapshot) ∧
    ∃ trades, g.engine.tradeHistory = g₁.engine.tradeHistory ++ trades ∧
      (tr₂.flatMap (updatesFor fd symbol)).map (·.content) =
        (trades.filter fun t => t.symbol = symbol).map (·.content) := by
  refine Run.invariant (fun tr₂ g => InOrder ((tr₁ ++ tr₂).map Prod.fst) →
    (∀ x ∈ tr₁ ++ tr₂, x.2.fault = none) → Stays fd symbol tr₁ tr₂ →
    (∀ snapshot, g₁.snapshot? symbol = some snapshot →
      (∀ y ∈ tr₂, snapshotsFor fd symbol y = []) → g.snapshot? symbol = some snapshot) ∧
    ∃ trades, g.engine.tradeHistory = g₁.engine.tradeHistory ++ trades ∧
      (tr₂.flatMap (updatesFor fd symbol)).map (·.content) =
        (trades.filter fun t => t.symbol = symbol).map (·.content)) ?_ ?_ h₂ horder halive hstays
  · intro _ _ _
    exact ⟨fun _ h _ => h, [], by rw [List.append_nil], rfl⟩
  · intro tr g i r g' hrun ih hstep horder halive hstays
    rw [← List.append_assoc] at horder halive
    obtain ⟨htold, hkept⟩ := told_of_run h₀ hengine (h₁.append hrun) hstep horder halive
    rw [List.map_append] at horder
    obtain ⟨hsnapshot, trades, hhistory, hupdates⟩ :=
      ih horder.front (fun x hx => halive x (List.mem_append_left _ hx)) hstays.before
    have hreceives : fd ∈ g'.receivers symbol := by
      rw [hkept.mem_receivers, List.append_assoc]
      exact hstays.now
    refine ⟨fun snapshot hstart hnone => ?_, ?_⟩
    · have hstill := hsnapshot snapshot hstart fun y hy => hnone y (List.mem_append_left _ hy)
      exact snapshot?_unsent htold hreceives (hnone (i, r) (by simp)) hstill
    · obtain ⟨trades', hhistory', hupdates'⟩ := updates_told htold hreceives
      refine ⟨trades ++ trades', ?_, ?_⟩
      · rw [hhistory', hhistory, List.append_assoc]
      · rw [List.flatMap_append, List.map_append, hupdates, List.flatMap_singleton, hupdates',
          List.filter_append, List.map_append]

/-- **Subscribers' views are current**, in runs in which no order that may be queued comes under the
id of one resting in its book: while a client stays logged in and subscribed to a symbol, the last
snapshot it was sent shows the book as it is, and the trade updates it was sent are the trades that
were executed, in order. -/
theorem views_current (h₀ : Idle g₀) (hengine : g₀.EngineReached clock n)
    (h₁ : FreshRun clock g₀ tr₁ g₁) (h₂ : FreshRun clock g₁ tr₂ g)
    (horder : InOrder ((tr₁ ++ tr₂).map Prod.fst)) (halive : ∀ x ∈ tr₁ ++ tr₂, x.2.fault = none)
    (hstays : Stays fd symbol tr₁ tr₂) :
    (∀ front x snapshot, tr₁ = front ++ [x] →
      (snapshotsFor fd symbol x).getLast? = some snapshot →
      (∀ y ∈ tr₂, snapshotsFor fd symbol y = []) → g.Shows symbol snapshot) ∧
    (tr₂.flatMap (updatesFor fd symbol)).map (·.content) =
      ((g.engine.tradeHistory.drop g₁.engine.tradeHistory.length).filter
        fun t => t.symbol = symbol).map (·.content) := by
  obtain ⟨hsnapshot, trades, hhistory, hupdates⟩ :=
    stays_informed h₀ hengine h₁ h₂ horder halive hstays
  refine ⟨?_, ?_⟩
  · rintro front ⟨i, r⟩ snapshot rfl hsent hnone
    obtain ⟨g', hrun, hstep⟩ := h₁.last
    have hall := horder
    rw [List.map_append] at horder
    obtain ⟨htold, -⟩ := told_of_run h₀ hengine hrun hstep horder.front fun x hx =>
      halive x (List.mem_append_left _ hx)
    have hstill := hsnapshot snapshot (snapshot?_of_sent htold hsent) hnone
    exact shows_of_snapshot? hstill (sound_of_run h₀ hengine (h₁.append h₂) hall halive).2
  · rw [hupdates, hhistory, List.drop_left]

end Views

/-! ### Concrete runs -/

section Plays

variable (clock : Nat → Timestamp) (fuel : Nat) (G : ClientGateway → Happening → Prop)
  [∀ g i, Decidable (G g i)]

/-- Let happenings happen, as long as they meet the condition and the engine returns. -/
def play (g : ClientGateway) :
    List Happening → Option (List (Happening × Reporting) × ClientGateway)
  | [] => some ([], g)
  | i :: is =>
    if G g i then
      match happen clock fuel g i with
      | .error _ => none
      | .ok (r, g') => (play g' is).map fun x => ((i, r) :: x.1, x.2)
    else none

variable {clock fuel G}

theorem run_of_play {g g' : ClientGateway} {is : List Happening}
    {tr : List (Happening × Reporting)} (h : play clock fuel G g is = some (tr, g')) :
    Run (guarded G (Happens clock)) g tr g' := by
  induction is generalizing g tr with
  | nil =>
      obtain ⟨rfl, rfl⟩ := Prod.mk.inj (Option.some.inj h)
      exact .nil
  | cons i is ih =>
      unfold play at h
      split at h
      · rename_i hG
        split at h
        · simp at h
        · rename_i r g₁ hi
          obtain ⟨⟨tr, g'⟩, hplay, heq⟩ := Option.map_eq_some_iff.mp h
          obtain ⟨rfl, rfl⟩ := Prod.mk.inj heq
          exact (Run.nil.snoc ⟨hG, fuel, hi⟩).append (ih hplay)
      · simp at h

variable (G) in
/-- What has happened then, and the state it led to. -/
def played (g : ClientGateway) (is : List Happening) :
    List (Happening × Reporting) × ClientGateway :=
  (play (fun _ => 0) 10 G g is).getD ([], g)

theorem run_played {g : ClientGateway} {is : List Happening}
    (h : (play (fun _ => 0) 10 G g is).isSome = true) :
    Run (guarded G (Happens fun _ => 0)) g (played G g is).1 (played G g is).2 := by
  obtain ⟨x, hx⟩ := Option.isSome_iff_exists.mp h
  rw [played, hx]
  exact run_of_play hx

end Plays

/-- A packet of the client on 4. -/
def sends (data : List UInt8) : Happening := .packet 4 (fun _ => 0) data

/-- The client on 4 connects, logs in and subscribes to `A`. -/
def subscribes : List Happening :=
  [.connection 4, sends [0, 0, 76, 5, 0],
    sends [0, 0, 81, 16, 0, 65, 0, 0, 0, 0, 0, 0, 0, 0, 0, 1]]

/-- It sells five lots of `A` and buys three. -/
def tradesThree : List Happening :=
  [sends (smallRequest 1 7 65 0 1 1 5).units, sends (smallRequest 2 7 65 0 0 1 3).units]

/-- It sells nine lots of `B`. -/
def sellsNine : List Happening := [sends (smallRequest 3 7 66 0 1 1 9).units]

/-- The state in which it has subscribed. -/
def subscribed : List (Happening × Reporting) × ClientGateway :=
  played FreshHappening started subscribes

/-- What its orders in `A` lead to. -/
def traded : List (Happening × Reporting) × ClientGateway :=
  played FreshHappening subscribed.2 tradesThree

/-- What its order in `B` leads to then. -/
def sold : List (Happening × Reporting) × ClientGateway := played FreshHappening traded.2 sellsNine

/-- The snapshot of two lots of `A` at 100.0. -/
def twoLeft : MarketDataSnapshot :=
  { symbol := strncpy [65] 9
    numBids := 0
    numAsks := 1
    bids := []
    asks := [(.num 4636737291354636288, 2)] }

/-- The trade in `A` is told, and the sale in `B` leaves the snapshot of `A` current. -/
theorem views_current_tradesThree :
    (traded.1.flatMap (updatesFor 4 [65])).map (·.content) =
        [(strncpy [65] 9, .num 4636737291354636288, 3)] ∧
      sold.2.Shows [65] twoLeft := by
  have h₁ : FreshRun (fun _ => 0) started subscribed.1 subscribed.2 := run_played rfl
  have h₂ : FreshRun (fun _ => 0) subscribed.2 traded.1 traded.2 := run_played rfl
  have h₃ : FreshRun (fun _ => 0) traded.2 sold.1 sold.2 := run_played rfl
  have horder : InOrder (((subscribed.1 ++ traded.1) ++ sold.1).map Prod.fst) := by
    show InOrder ([] ++ [_] ++ [_] ++ [_] ++ [_] ++ [_] ++ [_])
    refine (((((InOrder.nil.snoc ?_).snoc ?_).snoc ?_).snoc ?_).snoc ?_).snoc ?_ <;> rfl
  have hstays₂ : Stays 4 [65] subscribed.1 traded.1 := by decide
  have hstays₃ : Stays 4 [65] (subscribed.1 ++ traded.1) sold.1 := by decide
  have halive : ∀ x ∈ (subscribed.1 ++ traded.1) ++ sold.1, x.2.fault = none := by decide
  refine ⟨?_, ?_⟩
  · have horder₂ : InOrder ((subscribed.1 ++ traded.1).map Prod.fst) := by
      rw [List.map_append] at horder
      exact horder.front
    have hupdates := (views_current idle_started ⟨[], .nil⟩ h₁ h₂ horder₂
      (fun x hx => halive x (List.mem_append_left _ hx)) hstays₂).2
    refine hupdates.trans ?_
    decide
  · have hshows := (views_current idle_started ⟨[], .nil⟩ (h₁.append h₂) h₃ horder halive hstays₃).1
    have hne : subscribed.1 ++ traded.1 ≠ [] := by decide
    refine hshows _ _ twoLeft (List.dropLast_append_getLast hne).symm rfl ?_
    decide

/-- Any happening may come. -/
def Anything (_ : ClientGateway) (_ : Happening) : Prop := True

instance (g : ClientGateway) (i : Happening) : Decidable (Anything g i) :=
  inferInstanceAs (Decidable True)

/-- It sells five lots of `A` twice under one id, and buys five at the market. -/
def sellsTwice : List Happening :=
  [sends (smallRequest 1 7 65 0 1 1 5).units, sends (smallRequest 1 7 65 0 1 1 5).units,
    sends (smallRequest 2 7 65 0 0 0 5).units]

/-- It sells nine and seven lots of `B`. -/
def sellsOther : List Happening :=
  [sends (smallRequest 3 7 66 0 1 1 9).units, sends (smallRequest 4 7 66 0 1 1 7).units]

/-- What the orders in `A` lead to. -/
def twiceSold : List (Happening × Reporting) × ClientGateway :=
  played Anything started (subscribes ++ sellsTwice)

/-- What the orders in `B` lead to then. -/
def otherSold : List (Happening × Reporting) × ClientGateway :=
  played Anything twiceSold.2 sellsOther

/-- The level of a filled order that is still there. -/
def noneLeft : MarketDataSnapshot := { twoLeft with asks := [(.num 4636737291354636288, 0)] }

/-- **A view that is not current**: the order that was filled is still in the book of `A`, and its
slot goes to the second order in `B`. The client is not sent a new snapshot of `A`, where there
seem to be seven lots now. -/
theorem view_stale :
    ∃ tr₁ g₁ tr₂ g front x, Run (Happens fun _ => 0) started tr₁ g₁ ∧
      Run (Happens fun _ => 0) g₁ tr₂ g ∧ InOrder ((tr₁ ++ tr₂).map Prod.fst) ∧
      (∀ y ∈ tr₁ ++ tr₂, y.2.fault = none) ∧ Stays 4 [65] tr₁ tr₂ ∧ tr₁ = front ++ [x] ∧
      (snapshotsFor 4 [65] x).getLast? = some noneLeft ∧
      (∀ y ∈ tr₂, snapshotsFor 4 [65] y = []) ∧ ¬ g.Shows [65] noneLeft := by
  have h₁ : Run (guarded Anything (Happens fun _ => 0)) started twiceSold.1 twiceSold.2 :=
    run_played rfl
  have h₂ : Run (guarded Anything (Happens fun _ => 0)) twiceSold.2 otherSold.1 otherSold.2 :=
    run_played rfl
  have hne : twiceSold.1 ≠ [] := by decide
  refine ⟨twiceSold.1, twiceSold.2, otherSold.1, otherSold.2, _, _, h₁.mono fun _ _ _ _ h => h.2,
    h₂.mono fun _ _ _ _ h => h.2, ?_, ?_, ?_, (List.dropLast_append_getLast hne).symm, rfl, ?_, ?_⟩
  · show InOrder ([] ++ [_] ++ [_] ++ [_] ++ [_] ++ [_] ++ [_] ++ [_] ++ [_])
    refine (((((((InOrder.nil.snoc ?_).snoc ?_).snoc ?_).snoc ?_).snoc ?_).snoc ?_).snoc ?_).snoc ?_
      <;> rfl
  · decide
  · decide
  · decide
  · intro hshows
    obtain ⟨book, hbook, -, hasks⟩ := hshows.quote
    obtain ⟨book', hbook', hasks'⟩ : ∃ book',
        otherSold.2.engine.getOrderBook [65] = some book' ∧
          (book'.getL2Quote otherSold.2.engine.cells 5).asks = [(.num 4636737291354636288, 7)] :=
      ⟨_, rfl, rfl⟩
    obtain rfl := Option.some.inj (hbook.symm.trans hbook')
    rw [hasks'] at hasks
    revert hasks
    decide

end ClientGateway

end OrderMatchingEngine
