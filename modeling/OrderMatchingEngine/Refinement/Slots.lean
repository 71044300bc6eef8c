import OrderMatchingEngine.Refinement.Runs

/-!
# OrderMatchingEngine.Refinement.Slots

Counting the pool's slots.

Every slot is free, holds a resting order, or was leaked by an earlier call. The count holds
of whole runs (`reaches_available`) and, for one call, of the book of its symbol alone
(`Frame.available_view`), so that two engines whose books agree can be compared slot by slot.
-/

namespace OrderMatchingEngine

/-- The slots that the calls of a run leaked. -/
def leaked {α : Type} (tr : List (Call α × Ret α)) : Nat := (tr.map fun x => x.2.leaks).sum

theorem leaked_snoc {α : Type} (tr : List (Call α × Ret α)) (c : Call α) (r : Ret α) :
    leaked (tr ++ [(c, r)]) = leaked tr + r.leaks := by
  simp [leaked]

namespace MatchingEngine

variable {α : Type}

/-- The number of orders that rest in all books. -/
def restingCount (e : MatchingEngine α) : Nat :=
  (e.orderBooks.entries.map fun entry => entry.2.getBuyOrders + entry.2.getSellOrders).sum

/-- A call that processes an order finds a free slot. -/
def HasSlot (e : MatchingEngine α) : Call α → Prop
  | .processNewOrder _ => e.orderPool.freeIndices ≠ []
  | .cancelOrder _ _ _ => True

instance (e : MatchingEngine α) : (c : Call α) → Decidable (e.HasSlot c)
  | .processNewOrder _ => inferInstanceAs (Decidable (e.orderPool.freeIndices ≠ []))
  | .cancelOrder _ _ _ => inferInstanceAs (Decidable True)

theorem restingCount_eq (e : MatchingEngine α) : e.restingCount = e.restingSlots.length := by
  rw [restingCount, restingSlots, List.length_flatMap]
  refine congrArg List.sum (List.map_congr_left ?_)
  intro entry _
  rw [OrderBook.getBuyOrders_eq, OrderBook.getSellOrders_eq, OrderBook.slots, List.length_map,
    OrderBook.allNodes, List.length_append]

/-- The resting orders are those of one book and those of the others. -/
theorem restingCount_view (e : MatchingEngine α) (symbol : Symbol) :
    e.restingCount = (e.bookView symbol).allOrders.length + (e.otherSlots symbol).length := by
  rw [restingCount_eq, (e.restingSlots_perm symbol).length_eq, List.length_append, bookView,
    OrderBook.view_allOrders, List.length_map, OrderBook.slots, List.length_map]

/-- Without other books there are no other slots. -/
theorem otherSlots_eq_nil {e : MatchingEngine α} {symbol : Symbol}
    (h : ∀ symbol' ≠ symbol, e.getOrderBook symbol' = none) : e.otherSlots symbol = [] := by
  refine List.flatMap_eq_nil_iff.mpr ?_
  intro entry hentry
  have hlookup := AList.mem_lookup_iff.mpr hentry
  by_cases hsym : entry.1 = symbol
  · rw [hsym, AList.lookup_erase] at hlookup
    simp at hlookup
  · have hnone := h entry.1 hsym
    unfold getOrderBook at hnone
    rw [AList.lookup_erase_ne hsym, hnone] at hlookup
    simp at hlookup

section Frame

variable {symbol : Symbol} {leaks : Nat} {trades : List (Trade α)} {e e' : MatchingEngine α}

/-- A call that leaks keeps fewer slots than before. -/
theorem Frame.available (hf : Frame symbol leaks trades e e') :
    leaks + (e'.orderPool.available + e'.restingCount) =
      e.orderPool.available + e.restingCount := by
  obtain ⟨leaked, hlen, hperm⟩ := hf.slots
  have hlength := hperm.length_eq
  rw [List.length_append, hlen, ownedSlots, ownedSlots, List.length_append,
    List.length_append] at hlength
  rw [restingCount_eq, restingCount_eq]
  exact hlength

/-- A call leaves the slots of the other books alone. -/
theorem Frame.otherSlots (hf : Frame symbol leaks trades e e') :
    (e'.otherSlots symbol).Perm (e.otherSlots symbol) := by
  refine List.Perm.flatMap_right _ ?_
  refine List.lookup_ext (AList.nodupKeys _) (AList.nodupKeys _) ?_
  intro symbol' book
  show book ∈ (e'.orderBooks.erase symbol).lookup symbol' ↔
    book ∈ (e.orderBooks.erase symbol).lookup symbol'
  by_cases hsym : symbol' = symbol
  · rw [hsym, AList.lookup_erase, AList.lookup_erase]
  · have hbook := hf.books symbol' hsym
    rw [getOrderBook, getOrderBook] at hbook
    rw [AList.lookup_erase_ne hsym, AList.lookup_erase_ne hsym, hbook]

/-- The free slots change by what the call leaks and what its book gains. -/
theorem Frame.available_view (hf : Frame symbol leaks trades e e') :
    leaks + (e'.orderPool.available + (e'.bookView symbol).allOrders.length) =
      e.orderPool.available + (e.bookView symbol).allOrders.length := by
  have havailable := hf.available
  rw [restingCount_view e symbol, restingCount_view e' symbol,
    hf.otherSlots.length_eq] at havailable
  omega

end Frame

section Runs

variable [LinearOrder α] [Zero α] {clock : Nat → Timestamp} {n : Nat}
  {G : MatchingEngine α → Call α → Prop} {tr : List (Call α × Ret α)} {e e' : MatchingEngine α}

/-- **Every slot is free, resting or leaked.** -/
theorem reaches_available (hG : ∀ e c, G e c → e.QueuesFresh c) (h : Reaches clock n G tr e) :
    leaked tr + (e.orderPool.available + e.restingCount) = n := by
  refine Trace.Run.invariant
    (fun tr e => leaked tr + (e.orderPool.available + e.restingCount) = n) ?_ ?_ h
  · exact (Nat.zero_add _).trans (length_indicesBelow n)
  · intro tr e c r e' hrun ih hs
    obtain ⟨-, hf, -⟩ := returns_spec (reaches_inv hG hrun) (hG _ _ hs.1) hs.2
    have havailable := hf.available
    rw [leaked_snoc]
    omega

/-- An order is refused for lack of a slot exactly when no slot is free. -/
theorem exhausted_iff (he : EngineInv e) {o : Order α} {out : Outcome α}
    (h : Returns clock e (.processNewOrder o) (.processed out) e') :
    out.exit = .exhausted ↔ e.orderPool.freeIndices = [] := by
  obtain ⟨out', hout, hcases⟩ := returns_process he h
  obtain rfl : out = out' := Ret.processed.inj hout
  rcases hcases with ⟨hfree, rfl, -⟩ | ⟨hfree, -, rfl⟩ | ⟨hfree, -, fuel, hs⟩
  · exact ⟨fun _ => hfree, fun _ => rfl⟩
  · exact ⟨fun h => by simp at h, fun h => absurd h hfree⟩
  · refine ⟨?_, fun h => absurd h hfree⟩
    intro hexit
    have hexit' : out.untimed.exit = .exhausted := hexit
    rcases QueueBook.submit_ok (he.wf o.symbol) hs with ⟨hout, -⟩ | ⟨b₁, hm⟩
    · simp [hout] at hexit'
    · rcases QueueBook.settle_cases hm.settled with ⟨h, -⟩ | ⟨-, ⟨h, -⟩ | ⟨h, -⟩ | ⟨h, -⟩⟩ <;>
        simp [h] at hexit'

end Runs

end MatchingEngine

end OrderMatchingEngine
