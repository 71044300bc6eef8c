import OrderMatchingEngine.Refinement.Slots

/-!
# OrderMatchingEngine.Refinement.Lifting

From steps of the observable book back to calls.

What a call answers depends on the observable book of its symbol alone, apart from the times
of its trades, as long as it finds a slot (`returns_of_step`). Two engines whose books agree
therefore give the same answers, wherever their orders happen to be stored. Calls are
moreover deterministic (`Returns.deterministic`).
-/

namespace OrderMatchingEngine

theorem Ret.leaks_untimed {α : Type} (r : Ret α) : r.untimed.leaks = r.leaks := by cases r <;> rfl

section Untimed

variable {α : Type}

/-- The calls of a run and their answers, without the times of trades. -/
def untimed (tr : List (Call α × Ret α)) : List (Call α × Ret α) :=
  tr.map fun x => (x.1, x.2.untimed)

theorem map_fst_untimed (tr : List (Call α × Ret α)) :
    (untimed tr).map Prod.fst = tr.map Prod.fst := by
  rw [untimed, List.map_map]
  rfl

theorem leaked_untimed (tr : List (Call α × Ret α)) : leaked (untimed tr) = leaked tr := by
  rw [leaked, untimed, List.map_map]
  exact congrArg List.sum (List.map_congr_left fun x _ => x.2.leaks_untimed)

end Untimed

/-- The book of its symbol exists after the call. -/
def Call.opens {α : Type} [LinearOrder α] [Zero α] : Call α → Bool
  | .processNewOrder order => MatchingEngine.validateOrder order
  | .cancelOrder _ _ _ => true

namespace MatchingEngine

variable {α : Type} [LinearOrder α] [Zero α] {clock : Nat → Timestamp} {e e' : MatchingEngine α}
  {c : Call α} {r : Ret α}

/-! ### Determinism -/

/-- A call that returns gives the same under every larger bound. -/
theorem call_mono {fuel fuel' : Nat} (hle : fuel ≤ fuel') {x : Ret α × MatchingEngine α}
    (h : call clock fuel e c = .ok x) : call clock fuel' e c = .ok x := by
  cases c with
  | cancelOrder id symbol side => exact h
  | processNewOrder o =>
      rcases hfree : e.orderPool.freeIndices with _ | ⟨own, rest⟩
      · rw [call, processOrder_exhausted hfree] at h ⊢
        exact h
      rcases hv : validateOrder o with _ | _
      · rw [call, processOrder_invalid hfree hv] at h ⊢
        exact h
      · rw [call, processOrder_accepted hfree hv] at h ⊢
        split
        · rename_i hkill
          rwa [if_pos hkill] at h
        · rename_i hkill
          rw [if_neg hkill] at h
          rcases hs : matchAgainst clock o.side fuel own (e.bookOf o.symbol) (accepted o own rest e)
            with fault | s
          · simp [hs, Except.map] at h
          · unfold matchAgainst at hs
            rw [matchAgainst, FuelLoop.run_mono hle hs]
            rwa [matchAgainst, hs] at h

/-- **Calls are deterministic.** -/
theorem Returns.deterministic {r' : Ret α} {e'' : MatchingEngine α} (h : Returns clock e c r e')
    (h' : Returns clock e c r' e'') : r = r' ∧ e' = e'' := by
  obtain ⟨fuel, h⟩ := h
  obtain ⟨fuel', h'⟩ := h'
  have heq := (call_mono (Nat.le_max_left fuel fuel') h).symm.trans
    (call_mono (Nat.le_max_right fuel fuel') h')
  exact Prod.mk.inj (Except.ok.inj heq)

/-- A run is determined by its calls. -/
theorem Reaches.deterministic {n : Nat} {G G' : MatchingEngine α → Call α → Prop}
    {tr tr' : List (Call α × Ret α)} (h : Reaches clock n G tr e) (h' : Reaches clock n G' tr' e')
    (hcalls : tr.map Prod.fst = tr'.map Prod.fst) : tr = tr' ∧ e = e' := by
  have hfree : ∀ {G : MatchingEngine α → Call α → Prop} {tr : List (Call α × Ret α)}
      {e : MatchingEngine α}, Reaches clock n G tr e →
      Trace.Run (Returns clock) (withPool n) tr e := fun hrun => hrun.mono fun _ _ _ _ hs => hs.2
  exact (hfree h).deterministic (fun _ _ _ _ _ _ hs hs' => hs.deterministic hs') (hfree h') hcalls

/-! ### Calls from steps -/

omit [LinearOrder α] [Zero α] in
/-- Whether an id is fresh is a question to the observable book. -/
theorem freshId_congr (h : e'.bookView c.symbol = e.bookView c.symbol) :
    e'.FreshId c ↔ e.FreshId c := by
  cases c with
  | cancelOrder id symbol side => exact Iff.rfl
  | processNewOrder o =>
      have hbook : e'.bookView o.symbol = e.bookView o.symbol := h
      rw [FreshId, FreshId, rests_iff, rests_iff, hbook]

/-- A call that finds a slot is served. -/
theorem Returns.served (he : EngineInv e) (hslot : e.HasSlot c) (h : Returns clock e c r e') :
    r.Served := by
  cases r with
  | cancelled x => trivial
  | processed out =>
      cases c with
      | processNewOrder o => exact fun hexit => hslot ((exhausted_iff he h).mp hexit)
      | cancelOrder id symbol side =>
          obtain ⟨fuel, h⟩ := h
          obtain ⟨x, -, hr⟩ := call_cancel.mp h
          simp at hr

/-- **What the book of its symbol can do, a call does**, if it finds a slot. -/
theorem returns_of_step (clock : Nat → Timestamp) (he : EngineInv e) (hslot : e.HasSlot c)
    {r₀ : Ret α} {b' : QueueBook α}
    (h : QueueBook.Step (e.bookView c.symbol) c r₀ b') (hserved : r₀.Served) :
    ∃ r e', Returns clock e c r e' ∧ r.untimed = r₀ ∧ e'.bookView c.symbol = b' := by
  cases h with
  | exhausted o => exact absurd rfl hserved
  | @invalid o hv =>
      obtain ⟨own, rest, hfree⟩ := List.exists_cons_of_ne_nil hslot
      exact ⟨_, _, .process (processOrder_invalid hfree hv 0), rfl, bookView_write he hfree _⟩
  | @submit o out _ fuel hv hs =>
      obtain ⟨own, rest, hfree⟩ := List.exists_cons_of_ne_nil hslot
      rw [Call.symbol, processOrder_view clock he hfree hv] at hs
      obtain ⟨⟨out', e'⟩, hp, hout⟩ := FuelLoop.map_eq_ok.mp hs
      obtain ⟨rfl, rfl⟩ := Prod.mk.inj hout
      exact ⟨_, _, .process hp, rfl, rfl⟩
  | @cancel id symbol side x _ hc =>
      rw [Call.symbol, cancelOrder_view he id symbol side] at hc
      obtain ⟨⟨x', e'⟩, hp, hx⟩ := FuelLoop.map_eq_ok.mp hc
      obtain ⟨rfl, rfl⟩ := Prod.mk.inj hx
      exact ⟨.cancelled x', e', ⟨0, call_cancel.mpr ⟨x', hp, rfl⟩⟩, rfl, rfl⟩

/-- **A valid order with a slot** returns what submitting it to its book returns. -/
theorem exists_returns_iff (clock : Nat → Timestamp) (he : EngineInv e) {o : Order α}
    (hslot : e.orderPool.freeIndices ≠ []) (hv : validateOrder o = true)
    (P : Outcome α → Prop) :
    (∃ out e', Returns clock e (.processNewOrder o) (.processed out) e' ∧ P out.untimed) ↔
      ∃ fuel out b', (e.bookView o.symbol).submit fuel o = .ok (out, b') ∧ P out := by
  constructor
  · intro h
    obtain ⟨out, e', hr, hP⟩ := h
    obtain ⟨fuel, hs⟩ := hr.submit he hslot hv
    exact ⟨fuel, _, _, hs, hP⟩
  · intro h
    obtain ⟨fuel, out, b', hs, hP⟩ := h
    have hserved : (Ret.processed out : Ret α).Served := by
      rcases QueueBook.submit_ok (he.wf o.symbol) hs with ⟨rfl, -⟩ | ⟨b₁, hm⟩
      · simp [Ret.Served]
      · intro hexit
        have hexit : out.exit = .exhausted := hexit
        rcases QueueBook.settle_cases hm.settled with h | ⟨-, h | h | h⟩ <;> simp [hexit] at h
    obtain ⟨r, e', hr, huntimed, -⟩ := returns_of_step clock he (c := .processNewOrder o) hslot
      (.submit fuel hv hs) hserved
    obtain ⟨out', rfl, rfl⟩ := Ret.untimed_eq_processed huntimed
    exact ⟨out', e', hr, hP⟩

/-- A call opens the book of its symbol unless it submits an invalid order. -/
theorem Returns.opens (hslot : e.HasSlot c) (h : Returns clock e c r e') :
    (e'.getOrderBook c.symbol).isSome = (c.opens || (e.getOrderBook c.symbol).isSome) := by
  obtain ⟨fuel, h⟩ := h
  have hset : ∀ (e : MatchingEngine α) symbol book,
      ((e.setBook symbol book).getOrderBook symbol).isSome = true := by
    intro e symbol book
    rw [getOrderBook, setBook, AList.lookup_insert]
    rfl
  cases c with
  | cancelOrder id symbol side =>
      obtain ⟨x, hp, rfl⟩ := call_cancel.mp h
      cases cancelOrder_cases hp with
      | missed => exact hset _ _ _
      | found => exact hset _ _ _
  | processNewOrder o =>
      obtain ⟨out, hp, rfl⟩ := call_process.mp h
      cases processOrder_cases hp with
      | exhausted hfree => exact absurd hfree hslot
      | invalid _ hv =>
          rw [Call.opens, hv]
          rfl
      | @killed own rest _ hv =>
          -- the book is opened all the same
          rw [Call.opens, hv, Call.symbol, accepted, getOrCreateOrderBook]
          rcases hl : (stored o own rest e).orderBooks.lookup o.symbol with _ | book
          · exact hset _ _ _
          · exact Option.isSome_iff_exists.mpr ⟨book, hl⟩
      | settled _ hv =>
          rw [Call.opens, hv]
          exact hset _ _ _

end MatchingEngine

end OrderMatchingEngine
