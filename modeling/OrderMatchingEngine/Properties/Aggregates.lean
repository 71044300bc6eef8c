import OrderMatchingEngine.Properties.FokCompleteness
import OrderMatchingEngine.Refinement.Quotes

/-!
# OrderMatchingEngine.Properties.Aggregates

Are the totals of the engine exact?

Quantities are added as unsigned integers, and nothing bounds how many there are: a total is exact
as long as it fits. `volume_mod` says what the volume counter is in any case, and an entry of a
quote is exact where its level is (`ladder_exact_iff`). Runs here may reset the statistics between
calls.
-/

namespace OrderMatchingEngine

namespace MatchingEngine

variable {α : Type} [LinearOrder α] {clock : Nat → Timestamp}

/-! ### The volume of a call -/

/-- What trades add up to, as an unsigned sum. -/
def wrappedVolume (trades : List (Trade α)) : Quantity := (trades.map Trade.quantity).sum

omit [LinearOrder α] in
theorem wrappedVolume_append (trades trades' : List (Trade α)) :
    wrappedVolume (trades ++ trades') = wrappedVolume trades + wrappedVolume trades' := by
  rw [wrappedVolume, List.map_append, List.sum_append]
  rfl

omit [LinearOrder α] in
theorem toNat_wrappedVolume (trades : List (Trade α)) :
    (wrappedVolume trades).toNat = QueueBook.volume trades % 2 ^ 64 := by
  rw [wrappedVolume, QueueBook.toNat_sum, List.map_map]
  rfl

/-- A matching loop counts the trades it makes. -/
theorem matchAgainst_volume {sd : OrderSide} {fuel : Nat} {own : Slot} {book : OrderBook α}
    {e : MatchingEngine α} {s : Matching α} (h : matchAgainst clock sd fuel own book e = .ok s) :
    s.engine.stats.totalVolume = e.stats.totalVolume + wrappedVolume s.trades := by
  let I (s : Matching α) : Prop :=
    s.engine.stats.totalVolume = e.stats.totalVolume + wrappedVolume s.trades
  have htrade : ∀ (s : Matching α) best qty, I s → I (afterTrade clock sd own best qty s) := by
    intro s best qty hs
    show s.engine.stats.totalVolume + qty = _ + wrappedVolume (s.trades ++ [_])
    rw [wrappedVolume_append, ← UInt64.add_assoc, ← hs]
    exact congrArg _ (UInt64.add_zero qty).symm
  obtain ⟨s', hs, hdone⟩ := FuelLoop.run_invariant I (fun s s' hs hnext => by
    rcases matchBodyOf_cases clock sd own s with ⟨-, h⟩ | ⟨-, best, s₁, -, rfl, h | h | h⟩
    · simp [h] at hnext
    · rw [h] at hnext
      obtain rfl := FuelLoop.Iter.next.inj (Except.ok.inj hnext)
      exact htrade s best _ hs
    · obtain ⟨x, book, -, h⟩ := h
      rw [h] at hnext
      obtain rfl := FuelLoop.Iter.next.inj (Except.ok.inj hnext)
      exact htrade s best _ hs
    · obtain ⟨fault, -, h⟩ := h
      simp [h] at hnext) (UInt64.add_zero _).symm h
  rcases matchBodyOf_cases clock sd own s' with ⟨-, h⟩ | ⟨-, best, s₁, -, rfl, h | h | h⟩
  · rw [h] at hdone
    obtain rfl := FuelLoop.Iter.done.inj (Except.ok.inj hdone)
    exact hs
  · simp [h] at hdone
  · obtain ⟨x, book, -, h⟩ := h
    simp [h] at hdone
  · obtain ⟨fault, -, h⟩ := h
    simp [h] at hdone

/-- Settling counts no volume. -/
theorem settle_volume (own : Slot) (s : Matching α) :
    (settle own s).2.2.stats.totalVolume = s.engine.stats.totalVolume := by
  unfold settle
  dsimp only
  split
  · split
    · rfl
    · split <;> rfl
  · rfl

/-- **A call counts the trades it returns.** -/
theorem Returns.volume [Zero α] {e e' : MatchingEngine α} {c : Call α} {r : Ret α}
    (h : Returns clock e c r e') :
    e'.stats.totalVolume = e.stats.totalVolume + wrappedVolume r.trades := by
  obtain ⟨fuel, h⟩ := h
  cases c with
  | cancelOrder id symbol side =>
      obtain ⟨x, hc, rfl⟩ := call_cancel.mp h
      rw [cancelOrder_stats hc]
      exact (UInt64.add_zero _).symm
  | processNewOrder o =>
      obtain ⟨out, hp, rfl⟩ := call_process.mp h
      have haccepted : ∀ own rest, (accepted o own rest e).stats = e.stats := fun own rest =>
        getOrCreateOrderBook_stats (stored o own rest e) o.symbol
      cases processOrder_cases hp with
      | exhausted => exact (UInt64.add_zero _).symm
      | invalid => exact (UInt64.add_zero _).symm
      | killed =>
          rw [haccepted]
          exact (UInt64.add_zero _).symm
      | @settled own _ s _ _ hs =>
          show (settle own s).2.2.stats.totalVolume = e.stats.totalVolume + wrappedVolume s.trades
          rw [settle_volume, matchAgainst_volume hs, haccepted]

/-! ### Runs that reset the statistics -/

/-- What is done to an engine: a call, or `resetStats`. -/
inductive Operation (α : Type)
  | call (c : Call α)
  | resetStats

section Runs

variable [Zero α] {n : Nat} {e e' : MatchingEngine α} {op : Operation α} {trades : List (Trade α)}

/-- An operation returns these trades. -/
inductive Operates (clock : Nat → Timestamp) (e : MatchingEngine α) :
    Operation α → List (Trade α) → MatchingEngine α → Prop
  | call {c : Call α} {r : Ret α} {e' : MatchingEngine α} (h : Returns clock e c r e') :
      Operates clock e (.call c) r.trades e'
  | resetStats : Operates clock e .resetStats [] e.resetStats

/-- The trades since the statistics were reset the last time. -/
def sinceReset (tr : List (Operation α × List (Trade α))) : List (Trade α) :=
  tr.foldl (fun trades x =>
    match x.1 with
    | .call _ => trades ++ x.2
    | .resetStats => []) []

variable {G : MatchingEngine α → Operation α → Prop} {tr : List (Operation α × List (Trade α))}

/-- The operations of `tr` lead from a fresh engine with `n` slots to `e`. -/
def Operated (clock : Nat → Timestamp) (n : Nat) (G : MatchingEngine α → Operation α → Prop)
    (tr : List (Operation α × List (Trade α))) (e : MatchingEngine α) : Prop :=
  Trace.Run (Trace.guarded G (Operates clock)) (withPool n) tr e

omit [LinearOrder α] [Zero α] in
theorem bookView_resetStats (e : MatchingEngine α) (symbol : Symbol) :
    e.resetStats.bookOf symbol = e.bookOf symbol ∧
      e.resetStats.bookView symbol = e.bookView symbol := by
  have hbook : e.resetStats.bookOf symbol = e.bookOf symbol := e.bookOf_congr symbol rfl
  refine ⟨hbook, ?_⟩
  rw [bookView, bookView, hbook]
  rfl

/-- Resetting the statistics keeps the representation invariant, as the calls do. -/
theorem operated_inv (hG : ∀ e c, G e (.call c) → e.QueuesFresh c) (h : Operated clock n G tr e) :
    EngineInv e := by
  refine Trace.Run.invariant (fun _ e => EngineInv e) (.withPool n) ?_ h
  rintro tr e op trades e' - he ⟨hg, hop⟩
  cases hop with
  | call hr => exact (returns_spec he (hG e _ hg) hr).1
  | resetStats =>
      refine ⟨fun symbol => ?_, he.nodup, he.bounded⟩
      rw [(bookView_resetStats e symbol).1]
      exact he.book symbol

/-- What holds of an empty book and is kept by every step holds of every book. -/
theorem operated_bookView (hG : ∀ e c, G e (.call c) → e.QueuesFresh c) (I : QueueBook α → Prop)
    (hinit : I .empty)
    (hstep : ∀ (e : MatchingEngine α) (c : Call α) (r : Ret α) (b' : QueueBook α), G e (.call c) →
      QueueBook.WF c.symbol (e.bookView c.symbol) → I (e.bookView c.symbol) →
      QueueBook.Step (e.bookView c.symbol) c r b' → I b')
    (h : Operated clock n G tr e) (symbol : Symbol) : I (e.bookView symbol) := by
  have hall := Trace.Run.invariant (fun _ e => ∀ symbol, I (e.bookView symbol))
    (fun symbol => by rw [bookView_withPool]; exact hinit) ?_ h
  · exact hall symbol
  rintro tr e op trades e' hrun hI ⟨hg, hop⟩ symbol
  have he := operated_inv hG hrun
  cases hop with
  | @call c r _ hr =>
      obtain ⟨-, hf, hbook⟩ := returns_spec he (hG e c hg) hr
      by_cases hsym : symbol = c.symbol
      · subst hsym
        exact hstep e _ _ _ hg (he.wf _) (hI _) hbook
      · rw [hf.bookView hsym]
        exact hI symbol
  | resetStats =>
      rw [(bookView_resetStats e symbol).2]
      exact hI symbol

/-- **The volume counter** is the volume since the last reset, wrapped. -/
theorem volume_mod (h : Operated clock n G tr e) :
    e.stats.totalVolume.toNat = QueueBook.volume (sinceReset tr) % 2 ^ 64 := by
  have hcount := Trace.Run.invariant
    (fun tr e => e.stats.totalVolume = wrappedVolume (sinceReset tr)) rfl ?_ h
  · rw [hcount, toNat_wrappedVolume]
  rintro tr e op trades e' - hI ⟨-, hop⟩
  rw [sinceReset, List.foldl_append, ← sinceReset]
  cases hop with
  | call hr =>
      rw [hr.volume, hI]
      exact (wrappedVolume_append ..).symm
  | resetStats => rfl

/-- **The totals are exact exactly where they fit**: an entry of a quote where the orders at its
price fit in a quantity and the other orders of its level vanish in the sum, and the volume where
the trades since the last reset fit. Where no order was queued at a price that is not a number, an
entry is exact if its level fits. -/
theorem aggregates_exact (hG : ∀ e c, G e (.call c) → e.QueuesFresh c)
    (h : Operated clock n G tr e) :
    (∀ symbol book, e.getOrderBook symbol = some book → ∀ depth sd,
      ((∀ x ∈ (book.getL2Quote e.cells depth).entries sd,
          x.2.toNat = (e.bookView symbol).remainingAt sd x.1 ∧ 0 < x.2) ↔
        ∀ l ∈ ((e.bookView symbol).ranked sd).take depth, QueueBook.SumsExactly l) ∧
      ((∀ e c, G e (.call c) → c.QueuesNumber) →
        ((∀ x ∈ (book.getL2Quote e.cells depth).entries sd,
            x.2.toNat = (e.bookView symbol).remainingAt sd x.1 ∧ 0 < x.2) ↔
          ∀ l ∈ ((e.bookView symbol).ranked sd).take depth,
            (l.2.map Order.unfilled).sum < 2 ^ 64))) ∧
      (e.stats.totalVolume.toNat = QueueBook.volume (sinceReset tr) ↔
        QueueBook.volume (sinceReset tr) < 2 ^ 64) := by
  have he := operated_inv hG h
  have hl := operated_bookView hG QueueBook.Live .empty
    (fun _ _ _ _ _ hwf hl hs => QueueBook.step_live hwf hs hl) h
  refine ⟨?_, ?_⟩
  · intro symbol book hbook depth sd
    have hiff := QueueBook.ladder_exact_iff (he.wf symbol) (hl symbol) depth sd
    rw [e.bookView_eq symbol hbook, ← getL2Quote_entries, ← e.bookView_eq symbol hbook] at hiff
    refine ⟨hiff, ?_⟩
    intro hnumbers
    obtain ⟨hex, -⟩ := operated_bookView hG (fun b => QueueBook.Exact b ∧ QueueBook.Numbers b)
      ⟨.empty, .empty⟩ (fun e c _ _ hg hwf hI hs => QueueBook.step_exact hwf hs hI.1 hI.2
        fun _ hq => hq.price_ne_nan (hnumbers e c hg)) h symbol
    rw [hiff]
    exact forall₂_congr fun l hmem => QueueBook.sumsExactly_iff (he.wf symbol) hex
      (QueueBook.mem_ranked.mp (List.mem_of_mem_take hmem))
  · rw [volume_mod h]
    exact Nat.mod_eq_iff_lt (by decide)

/-- A run of calls alone. -/
theorem operated_of_reaches {G : MatchingEngine α → Call α → Prop} {tr : List (Call α × Ret α)}
    (h : Reaches clock n G tr e) : Operated clock n (fun e op => ∀ c, op = .call c → G e c)
      (tr.map fun x => (.call x.1, x.2.trades)) e := by
  refine Trace.Run.invariant (fun tr e => Operated clock n (fun e op => ∀ c, op = .call c → G e c)
    (tr.map fun x => (.call x.1, x.2.trades)) e) .nil ?_ h
  rintro tr e c r e' - hI ⟨hg, hr⟩
  rw [List.map_append]
  refine hI.snoc ⟨?_, .call hr⟩
  rintro c' hc
  obtain rfl := Operation.call.inj hc
  exact hg

end Runs

/-! ### Concrete orders -/

section Concrete

/-- Valid orders under fresh ids. -/
def Accepted (e : MatchingEngine Int) (c : Call Int) : Prop := e.QueuesFresh c ∧ c.opens = true

instance (e : MatchingEngine Int) (c : Call Int) : Decidable (Accepted e c) :=
  inferInstanceAs (Decidable (_ ∧ _))

/-- Two bids at 100, each for half of what a quantity can count. -/
def hugeBids : List (Call Int × Ret Int) × MatchingEngine Int :=
  ran (fun _ => 0) 10 100000 Accepted
    [.processNewOrder (orderOf 1 .buy .limit 100 9223372036854775808),
      .processNewOrder (orderOf 2 .buy .limit 100 9223372036854775808)]

/-- **The quote lists nothing at 100**, where two orders rest. -/
theorem totals_wrap :
    let e := hugeBids.2
    let book := e.bookOf [65]
    Reaches (fun _ => 0) 100000 Accepted hugeBids.1 e ∧ e.getOrderBook [65] = some book ∧
      (book.getL2Quote e.cells 1).bids = [(.num 100, 0)] ∧
      (e.bookView [65]).remainingAt .buy (.num 100) = 2 ^ 64 ∧
      ¬ ∀ x ∈ (book.getL2Quote e.cells 1).entries .buy,
        x.2.toNat = (e.bookView [65]).remainingAt .buy x.1 ∧ 0 < x.2 := by
  refine ⟨reaches_ran rfl, rfl, rfl, by decide, ?_⟩
  intro hall
  exact absurd (hall (.num 100, 0) List.mem_cons_self).2 (by decide)

/-- An offer of five at 100 of which three are sold. -/
def partlySold : List (Call Int × Ret Int) × MatchingEngine Int :=
  ran (fun _ => 0) 10 100000 Accepted
    [.processNewOrder (orderOf 1 .sell .limit 100 5),
      .processNewOrder (orderOf 2 .buy .limit 100 3)]

/-- The two that are left are listed, and the three are counted. -/
theorem aggregates_exact_partlySold :
    (∀ x ∈ ((partlySold.2.bookOf [65]).getL2Quote partlySold.2.cells 1).entries .sell,
        x.2.toNat = (partlySold.2.bookView [65]).remainingAt .sell x.1 ∧ 0 < x.2) ∧
      partlySold.2.stats.totalVolume.toNat =
        QueueBook.volume (partlySold.1.flatMap (·.2.trades)) := by
  have hreach : Reaches (fun _ => 0) 100000 Accepted partlySold.1 partlySold.2 := reaches_ran rfl
  have hbook : partlySold.2.getOrderBook [65] = some (partlySold.2.bookOf [65]) := rfl
  obtain ⟨hquotes, hvolume⟩ :=
    aggregates_exact (fun _ c hg => (hg c rfl).1) (operated_of_reaches hreach)
  refine ⟨(hquotes [65] _ hbook 1 .sell).1.mpr ?_, hvolume.mpr (by decide)⟩
  decide

end Concrete

end MatchingEngine

end OrderMatchingEngine
