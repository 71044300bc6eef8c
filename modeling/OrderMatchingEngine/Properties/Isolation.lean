import Mathlib.Algebra.Order.Ring.Int
import OrderMatchingEngine.Refinement.Lifting

/-!
# OrderMatchingEngine.Properties.Isolation

Symbols do not influence each other.

The books share a pool of slots, a trade history and the table of books. As long as every
order finds a slot, none of this shows: what a symbol's calls answer, and the book they
leave, are those of a run in which only they are made. That the smaller run finds slots as
well follows from counting them: it has leaked no more and has no more orders resting.
-/

namespace OrderMatchingEngine

section About

variable {α : Type} {tr : List (Call α × Ret α)} {symbol : Symbol} {c : Call α} {r : Ret α}

/-- The calls of a run for one symbol and their answers, without the times of trades. -/
def about (symbol : Symbol) (tr : List (Call α × Ret α)) : List (Call α × Ret α) :=
  untimed (tr.filter fun x => x.1.symbol = symbol)

/-- The calls of a run for one symbol. -/
def callsFor (symbol : Symbol) (tr : List (Call α × Ret α)) : List (Call α) :=
  (tr.map Prod.fst).filter fun c => c.symbol = symbol

theorem about_snoc_of_eq (h : c.symbol = symbol) :
    about symbol (tr ++ [(c, r)]) = about symbol tr ++ [(c, r.untimed)] := by
  simp [about, untimed, h]

theorem about_snoc_of_ne (h : c.symbol ≠ symbol) :
    about symbol (tr ++ [(c, r)]) = about symbol tr := by
  simp [about, untimed, h]

theorem map_fst_about (symbol : Symbol) (tr : List (Call α × Ret α)) :
    (about symbol tr).map Prod.fst = callsFor symbol tr := by
  rw [about, map_fst_untimed, callsFor, List.filter_map]
  rfl

/-- The calls for one symbol leak no more than all calls. -/
theorem leaked_about_le (symbol : Symbol) (tr : List (Call α × Ret α)) :
    leaked (about symbol tr) ≤ leaked tr := by
  rw [about, leaked_untimed]
  exact (List.filter_sublist.map _).sum_le_sum fun _ _ => Nat.zero_le _

end About

namespace MatchingEngine

variable {α : Type} [LinearOrder α] [Zero α] {clock clock' : Nat → Timestamp} {n : Nat}
  {tr tr' : List (Call α × Ret α)} {e e' : MatchingEngine α} {symbol : Symbol}

/-- The calls of symbol isolation: ids are fresh, orders come unfilled and find a slot. -/
def Isolating (e : MatchingEngine α) (c : Call α) : Prop :=
  e.FreshId c ∧ c.Unfilled ∧ e.HasSlot c

instance (e : MatchingEngine α) (c : Call α) : Decidable (e.Isolating c) :=
  inferInstanceAs (Decidable (_ ∧ _ ∧ _))

omit [LinearOrder α] [Zero α] in
theorem Isolating.queuesFresh {c : Call α} (h : e.Isolating c) : e.QueuesFresh c := .of_freshId h.1

/-! ### The run of one symbol -/

/-- `e'` is the engine after the calls for `symbol` alone. -/
structure Alone (symbol : Symbol) (tr : List (Call α × Ret α)) (e : MatchingEngine α)
    (tr' : List (Call α × Ret α)) (e' : MatchingEngine α) : Prop where
  answers : untimed tr' = about symbol tr
  book : e'.bookView symbol = e.bookView symbol
  opened : (e'.getOrderBook symbol).isSome = (e.getOrderBook symbol).isSome
  others : ∀ symbol' ≠ symbol, e'.getOrderBook symbol' = none

/-- The smaller engine has a slot whenever the larger one has. -/
theorem Alone.available_le (ha : Alone symbol tr e tr' e') (h : Reaches clock n Isolating tr e)
    (h' : Reaches clock' n Isolating tr' e') : e.orderPool.available ≤ e'.orderPool.available := by
  have hG : ∀ (e : MatchingEngine α) c, e.Isolating c → e.QueuesFresh c := fun _ _ hg =>
    hg.queuesFresh
  have hall := reaches_available hG h
  have halone := reaches_available hG h'
  rw [restingCount_view e symbol] at hall
  rw [restingCount_view e' symbol, otherSlots_eq_nil ha.others, ha.book, List.length_nil] at halone
  have hleaked := leaked_about_le symbol tr
  rw [← ha.answers, leaked_untimed] at hleaked
  omega

/-- **One call**: it is repeated if it is for the symbol, and left out otherwise. -/
theorem Alone.step (ha : Alone symbol tr e tr' e') (h : Reaches clock n Isolating tr e)
    (h' : Reaches clock' n Isolating tr' e') {c : Call α} {r : Ret α} {e₁ : MatchingEngine α}
    (hc : e.Isolating c) (hr : Returns clock e c r e₁) :
    ∃ tr'' e'', Reaches clock' n Isolating tr'' e'' ∧
      Alone symbol (tr ++ [(c, r)]) e₁ tr'' e'' := by
  have hG : ∀ (e : MatchingEngine α) c, e.Isolating c → e.QueuesFresh c := fun _ _ hg =>
    hg.queuesFresh
  have he := reaches_inv hG h
  have he' := reaches_inv hG h'
  obtain ⟨-, hf, hstep⟩ := returns_spec he hc.queuesFresh hr
  by_cases hsym : c.symbol = symbol
  · subst hsym
    have hslot : e'.HasSlot c := by
      cases c with
      | cancelOrder id symbol side => trivial
      | processNewOrder o =>
          have hpos := List.length_pos_iff.mpr hc.2.2
          exact List.length_pos_iff.mp (Nat.lt_of_lt_of_le hpos (ha.available_le h h'))
    have hfresh : e'.FreshId c := (freshId_congr ha.book).mpr hc.1
    rw [← ha.book] at hstep
    obtain ⟨r', e'', hr', hanswer, hbook⟩ := returns_of_step clock' he' hslot hstep
      (r.served_untimed.mpr (hr.served he hc.2.2))
    obtain ⟨-, hf', -⟩ := returns_spec he' (.of_freshId hfresh) hr'
    refine ⟨_, _, h'.snoc ⟨⟨hfresh, hc.2.1, hslot⟩, hr'⟩, ?_, hbook, ?_, ?_⟩
    · rw [about_snoc_of_eq rfl, ← ha.answers, ← hanswer]
      exact List.map_append ..
    · rw [hr'.opens hslot, hr.opens hc.2.2, ha.opened]
    · intro symbol' hne
      rw [hf'.books symbol' hne]
      exact ha.others symbol' hne
  -- a call for another symbol is not repeated
  · refine ⟨tr', e', h', ?_, ?_, ?_, ha.others⟩
    · rw [about_snoc_of_ne hsym]
      exact ha.answers
    · rw [hf.bookView (Ne.symm hsym)]
      exact ha.book
    · rw [hf.books symbol (Ne.symm hsym)]
      exact ha.opened

/-- **The calls for one symbol can be run alone.** -/
theorem reaches_alone (h : Reaches clock n Isolating tr e) (symbol : Symbol)
    (clock' : Nat → Timestamp) :
    ∃ tr' e', Reaches clock' n Isolating tr' e' ∧ Alone symbol tr e tr' e' := by
  refine Trace.Run.simulate (Alone symbol) ⟨rfl, rfl, rfl, fun _ _ => rfl⟩ ?_ h
  intro tr e c r e₁ tr' e' hrun hrun' ha hs
  exact ha.step hrun hrun' hs.1 hs.2

/-! ### Isolation -/

/-- **Symbol isolation.** The calls for one symbol can be made alone on a fresh engine, and
every run in which the calls for that symbol are the same, whatever else it does and
however it interleaves them, gives the symbol the same answers and the same book. -/
theorem symbol_isolated (h : Reaches clock n Isolating tr e) (symbol : Symbol)
    (clock' : Nat → Timestamp) :
    (∃ tr' e', Reaches clock' n Isolating tr' e' ∧ tr'.map Prod.fst = callsFor symbol tr) ∧
      ∀ tr' e', Reaches clock' n Isolating tr' e' → callsFor symbol tr' = callsFor symbol tr →
        about symbol tr' = about symbol tr ∧ e'.bookView symbol = e.bookView symbol ∧
          (e'.getOrderBook symbol).isSome = (e.getOrderBook symbol).isSome := by
  obtain ⟨tr₁, e₁, h₁, ha₁⟩ := reaches_alone h symbol clock'
  have hcalls₁ : tr₁.map Prod.fst = callsFor symbol tr := by
    rw [← map_fst_untimed, ha₁.answers, map_fst_about]
  refine ⟨⟨tr₁, e₁, h₁, hcalls₁⟩, ?_⟩
  intro tr' e' h' hcalls
  -- both runs have the same run of the symbol alone
  obtain ⟨tr₂, e₂, h₂, ha₂⟩ := reaches_alone h' symbol clock'
  have hcalls₂ : tr₂.map Prod.fst = tr₁.map Prod.fst := by
    rw [← map_fst_untimed, ha₂.answers, map_fst_about, hcalls, hcalls₁]
  obtain ⟨rfl, rfl⟩ := h₂.deterministic h₁ hcalls₂
  exact ⟨ha₂.answers.symm.trans ha₁.answers, ha₂.book.symm.trans ha₁.book,
    ha₂.opened.symm.trans ha₁.opened⟩

section Concrete

/-- An order for one lot at 100. -/
def oneLot (symbol : Symbol) (id : OrderID) (side : OrderSide) : Order Int :=
  { id := id, symbol := symbol, userId := 1, side := side, type := .limit, price := .num 100,
    quantity := 1, timestamp := 0 }

/-- Calls for two symbols, in turns. -/
def twoSymbols : List (Call Int) :=
  [.processNewOrder (oneLot [65] 1 .sell), .processNewOrder (oneLot [66] 1 .sell),
    .processNewOrder (oneLot [65] 2 .buy), .cancelOrder 1 [66] 0]

/-- The run that makes them. -/
def twoSymbolsRun : List (Call Int × Ret Int) × MatchingEngine Int :=
  (execute (fun _ => 0) 10 Isolating init twoSymbols).getD ([], init)

theorem symbol_isolated_twoSymbols :
    (∃ tr' e', Reaches (fun _ => 0) 100000 Isolating tr' e' ∧
      tr'.map Prod.fst = callsFor [65] twoSymbolsRun.1) ∧
      ∀ tr' e', Reaches (fun _ => 0) 100000 Isolating tr' e' →
        callsFor [65] tr' = callsFor [65] twoSymbolsRun.1 →
        about [65] tr' = about [65] twoSymbolsRun.1 ∧
          e'.bookView [65] = twoSymbolsRun.2.bookView [65] ∧
          (e'.getOrderBook [65]).isSome = (twoSymbolsRun.2.getOrderBook [65]).isSome :=
  symbol_isolated (reaches_of_execute (fun _ => 0) 10 100000 twoSymbols rfl) [65] fun _ => 0

end Concrete

end MatchingEngine

end OrderMatchingEngine
