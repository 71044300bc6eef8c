import OrderMatchingEngine.Abstract.Liquidity

/-!
# OrderMatchingEngine.Abstract.Ladder

The best price levels of a side, as a quote shows them.

`ladder` lists the first levels in priority order, each with the total of what its orders have
left. Where the orders of a level have its price (`Exact`), these are the best prices at which
orders rest, and the totals are those of all orders at these prices (`ladder_best`).
-/

namespace OrderMatchingEngine

namespace QueueBook

variable {α : Type}

/-- The levels of a side, best first. -/
def ranked (b : QueueBook α) : OrderSide → List (Price α × List (Order α))
  | .buy => b.bids.reverse
  | .sell => b.asks

/-- A level as a quote shows it: its price and its total, an unsigned sum. -/
def quoteLevel (level : Price α × List (Order α)) : Price α × Quantity :=
  (level.1, (level.2.map Order.remainingQty).sum)

/-- The first order of a side as a quote shows it: its price and what it has left, or zeros. -/
def firstEntry [Zero α] (b : QueueBook α) (sd : OrderSide) : Price α × Quantity :=
  ((b.orders sd).head?.map fun o => (o.price, o.remainingQty)).getD (0, 0)

/-- The first levels of a side in a quote. -/
def ladder (depth : Nat) (b : QueueBook α) (sd : OrderSide) : List (Price α × Quantity) :=
  ((b.ranked sd).take depth).map quoteLevel

/-- **The best levels of a side**: at most so many prices, the best one first. Each is the price of
some order and comes with the total of the orders at it; an order at another price is behind a full
ladder. -/
structure BestLevels [LinearOrder α] (depth : Nat) (sd : OrderSide) (orders : List (Order α))
    (ladder : List (Price α × Quantity)) : Prop where
  length_le : ladder.length ≤ depth
  sorted : ladder.Pairwise fun x y => sd.better x.1 y.1
  exists_order : ∀ x ∈ ladder, ∃ o ∈ orders, o.price = x.1
  total : ∀ x ∈ ladder,
    x.2 = ((orders.filter fun o => o.price = x.1).map Order.remainingQty).sum
  behind : ∀ o ∈ orders, (∀ x ∈ ladder, x.1 ≠ o.price) →
    ladder.length = depth ∧ ∀ x ∈ ladder, sd.better x.1 o.price

/-- **The first levels of a side**, as many as there are and fit in: the best ones, the best one
first, each as a quote shows it. -/
structure FirstLevels [LT α] (depth : Nat) (sd : OrderSide)
    (levels : List (Price α × List (Order α))) (ladder : List (Price α × Quantity)) : Prop where
  length : ladder.length = min depth levels.length
  sorted : ladder.Pairwise fun x y => sd.better x.1 y.1
  level : ∀ x ∈ ladder, ∃ l ∈ levels, x = quoteLevel l
  behind : ∀ l ∈ levels, quoteLevel l ∈ ladder ∨
    (ladder.length = depth ∧ ∀ x ∈ ladder, sd.better x.1 l.1)

/-- A level whose total is small enough is quoted with it. -/
theorem quoteLevel_toNat {l : Price α × List (Order α)}
    (h : (l.2.map Order.unfilled).sum < 2 ^ 64) :
    (quoteLevel l).2.toNat = (l.2.map Order.unfilled).sum := by
  rw [quoteLevel, toNat_sum, List.map_map]
  exact Nat.mod_eq_of_lt h

theorem orders_ranked (b : QueueBook α) (sd : OrderSide) :
    b.orders sd = (b.ranked sd).flatMap Prod.snd := by cases sd <;> rfl

theorem mem_ranked {b : QueueBook α} {sd : OrderSide} {l : Price α × List (Order α)} :
    l ∈ b.ranked sd ↔ l ∈ b.levels sd := by
  cases sd
  · exact List.mem_reverse
  · exact Iff.rfl

theorem length_ranked (b : QueueBook α) (sd : OrderSide) :
    (b.ranked sd).length = (b.levels sd).length := by
  cases sd
  · exact List.length_reverse
  · rfl

variable [LinearOrder α] {symbol : Symbol} {b : QueueBook α}

theorem ranked_sorted (hb : WF symbol b) (sd : OrderSide) :
    (b.ranked sd).Pairwise fun x y => sd.better x.1 y.1 := by
  cases sd
  · exact List.pairwise_reverse.mpr (hb.levels .buy).sorted
  · exact (hb.levels .sell).sorted

/-- Levels of a side have different keys. -/
theorem ranked_keys (hb : WF symbol b) (sd : OrderSide) :
    (b.ranked sd).Pairwise fun x y => x.1 ≠ y.1 :=
  (ranked_sorted hb sd).imp fun {x y} (hxy : sd.better x.1 y.1) (heq : x.1 = y.1) =>
    OrderSide.better_irrefl (heq ▸ hxy)

/-- **The ladder shows the first levels.** -/
theorem ladder_first (hb : WF symbol b) (depth : Nat) (sd : OrderSide) :
    FirstLevels depth sd (b.levels sd) (b.ladder depth sd) := by
  have hsorted := ranked_sorted hb sd
  refine ⟨?_, ?_, ?_, ?_⟩
  · rw [ladder, List.length_map, List.length_take, length_ranked]
  · exact List.pairwise_map.mpr (hsorted.sublist (List.take_sublist _ _))
  · intro x hx
    obtain ⟨l, hl, rfl⟩ := List.mem_map.mp hx
    exact ⟨l, mem_ranked.mp (List.mem_of_mem_take hl), rfl⟩
  · intro l hl
    rw [← mem_ranked, ← List.take_append_drop depth (b.ranked sd)] at hl
    rcases List.mem_append.mp hl with htake | hdrop
    · exact .inl (List.mem_map_of_mem htake)
    -- the level is not among the first ones, so there are more than these
    · refine .inr ⟨?_, ?_⟩
      · have hlen := List.length_pos_of_mem hdrop
        rw [List.length_drop] at hlen
        rw [ladder, List.length_map, List.length_take]
        omega
      · intro x hx
        obtain ⟨l', hl', rfl⟩ := List.mem_map.mp hx
        rw [← List.take_append_drop depth (b.ranked sd)] at hsorted
        exact (List.pairwise_append.mp hsorted).2.2 l' hl' l hdrop

/-- What the orders of a side at a price have left, as a number. -/
def remainingAt (b : QueueBook α) (sd : OrderSide) (p : Price α) : Nat :=
  (((b.orders sd).filter fun o => o.price = p).map Order.unfilled).sum

/-- Some order of the level has its price; what these have left is a quantity, and what the others
have left vanishes in an unsigned sum. -/
def SumsExactly (level : Price α × List (Order α)) : Prop :=
  (∃ o ∈ level.2, o.price = level.1) ∧
    ((level.2.filter fun o => o.price = level.1).map Order.unfilled).sum < 2 ^ 64 ∧
    2 ^ 64 ∣ ((level.2.filter fun o => ¬ o.price = level.1).map Order.unfilled).sum

instance [DecidableEq α] (level : Price α × List (Order α)) : Decidable (SumsExactly level) :=
  inferInstanceAs (Decidable (_ ∧ _ ∧ _))

/-- Orders at the price of a level are in the level. -/
theorem remainingAt_level (hb : WF symbol b) {sd : OrderSide} {l : Price α × List (Order α)}
    (hl : l ∈ b.levels sd) : b.remainingAt sd l.1 =
      ((l.2.filter fun o => o.price = l.1).map Order.unfilled).sum := by
  rw [remainingAt, orders_ranked, LevelMap.filter_flatMap (ranked_keys hb sd) (mem_ranked.mpr hl)]
  intro l' hl' hne o ho
  have hmem := mem_ranked.mp hl'
  obtain ⟨hbelow, habove⟩ := (hb.levels sd).keyed l' hmem o ho
  rw [decide_eq_true_iff]
  intro hprice
  rw [hprice] at hbelow habove
  exact hne (by rw [LevelMap.eq_of_not_lt (hb.levels sd).sorted hmem hl hbelow habove])

/-- **The entry of a level is exact** where its sum is. -/
theorem quoteLevel_exact_iff (hb : WF symbol b) (hl : Live b) {sd : OrderSide}
    {l : Price α × List (Order α)} (hmem : l ∈ b.levels sd) :
    (quoteLevel l).2.toNat = b.remainingAt sd l.1 ∧ 0 < (quoteLevel l).2 ↔ SumsExactly l := by
  have hsum : (quoteLevel l).2.toNat =
      (((l.2.filter fun o => o.price = l.1).map Order.unfilled).sum +
        ((l.2.filter fun o => ¬ o.price = l.1).map Order.unfilled).sum) % 2 ^ 64 := by
    have hperm := List.filter_append_perm (fun o : Order α => decide (o.price = l.1)) l.2
    simp only [← decide_not] at hperm
    rw [quoteLevel, toNat_sum, List.map_map, ← List.sum_append, ← List.map_append,
      (hperm.map Order.unfilled).sum_eq]
    rfl
  have hsome : (∃ o ∈ l.2, o.price = l.1) ↔
      0 < ((l.2.filter fun o => o.price = l.1).map Order.unfilled).sum := by
    constructor
    · intro hex
      obtain ⟨o, ho, hprice⟩ := hex
      have hlive : o.Live := by
        refine hl sd o ?_
        rw [orders_ranked]
        exact List.mem_flatMap.mpr ⟨l, mem_ranked.mpr hmem, ho⟩
      exact hlive.unfilled_pos.trans_le (List.single_le_sum (by simp) _
        (List.mem_map_of_mem (List.mem_filter.mpr ⟨ho, decide_eq_true hprice⟩)))
    · intro hpos
      obtain ⟨o, ho⟩ := List.exists_mem_of_ne_nil (l.2.filter fun o => o.price = l.1) fun hnil => by
        simp [hnil] at hpos
      obtain ⟨ho, hprice⟩ := List.mem_filter.mp ho
      exact ⟨o, ho, of_decide_eq_true hprice⟩
  rw [SumsExactly, hsome, remainingAt_level hb hmem, UInt64.lt_iff_toNat_lt, hsum]
  simp only [UInt64.toNat_zero]
  omega

/-- Where orders rest at the price of their level, the entry is exact if the total fits. -/
theorem sumsExactly_iff (hb : WF symbol b) (he : Exact b) {sd : OrderSide}
    {l : Price α × List (Order α)} (hmem : l ∈ b.levels sd) :
    SumsExactly l ↔ (l.2.map Order.unfilled).sum < 2 ^ 64 := by
  have hprice : ∀ o ∈ l.2, o.price = l.1 := fun o ho => (he sd l hmem o ho).symm
  have hself : (l.2.filter fun o => o.price = l.1) = l.2 :=
    List.filter_eq_self.mpr fun o ho => decide_eq_true (hprice o ho)
  have hnone : (l.2.filter fun o => ¬ o.price = l.1) = [] :=
    List.filter_eq_nil_iff.mpr fun o ho => by simp [hprice o ho]
  obtain ⟨o, ho⟩ := List.exists_mem_of_ne_nil _ ((hb.levels sd).nonempty l hmem)
  rw [SumsExactly, hself, hnone]
  exact ⟨fun h => h.2.1, fun h => ⟨⟨o, ho, hprice o ho⟩, h, Nat.dvd_zero _⟩⟩

/-- **The entries of a ladder are exact and not zero exactly where** the sums of their levels
are. -/
theorem ladder_exact_iff (hb : WF symbol b) (hl : Live b) (depth : Nat) (sd : OrderSide) :
    (∀ x ∈ b.ladder depth sd, x.2.toNat = b.remainingAt sd x.1 ∧ 0 < x.2) ↔
      ∀ l ∈ (b.ranked sd).take depth, SumsExactly l := by
  rw [ladder, List.forall_mem_map]
  exact forall₂_congr fun l hmem =>
    quoteLevel_exact_iff hb hl (mem_ranked.mp (List.mem_of_mem_take hmem))

theorem orders_eq_nil_iff (hb : WF symbol b) (sd : OrderSide) :
    b.orders sd = [] ↔ b.ranked sd = [] := by
  rw [orders_ranked, List.flatMap_eq_nil_iff]
  constructor
  · intro hnone
    refine List.eq_nil_iff_forall_not_mem.mpr fun l hl => ?_
    exact (hb.levels sd).nonempty l (mem_ranked.mp hl) (hnone l hl)
  · intro hnone
    simp [hnone]

/-- **The first order is the first entry of a ladder exactly if** it is alone in its level and has
its price, as far as the total of the level does not wrap. -/
theorem firstEntry_eq_head_iff [Zero α] (hb : WF symbol b) (hl : Live b) {sd : OrderSide}
    {depth : Nat} (hdepth : 1 ≤ depth)
    (htotal : ∀ l ∈ b.levels sd, (l.2.map Order.unfilled).sum < 2 ^ 64) :
    (∀ entry, (b.ladder depth sd).head? = some entry → b.firstEntry sd = entry) ↔
      ∀ l, (b.ranked sd).head? = some l → ∃ o, l.2 = [o] ∧ o.price = l.1 := by
  have hladder : (b.ladder depth sd).head? = (b.ranked sd).head?.map quoteLevel := by
    rw [ladder, List.head?_map, List.head?_take, if_neg (by omega)]
  rw [hladder]
  rcases hranked : b.ranked sd with _ | ⟨l, m⟩
  · simp
  have hmem : l ∈ b.levels sd := mem_ranked.mp (hranked ▸ List.mem_cons_self)
  obtain ⟨o, os, hqueue⟩ := List.exists_cons_of_ne_nil ((hb.levels sd).nonempty l hmem)
  have horders : b.orders sd = o :: (os ++ m.flatMap Prod.snd) := by
    rw [orders_ranked, hranked, List.flatMap_cons, hqueue, List.cons_append]
  have hfirst : b.firstEntry sd = (o.price, o.remainingQty) := by
    rw [firstEntry, horders]
    rfl
  have hpos : ∀ x ∈ os, 0 < x.unfilled := by
    intro x hx
    refine (hl sd x ?_).unfilled_pos
    rw [horders]
    exact List.mem_cons_of_mem _ (List.mem_append_left _ hx)
  have hquote : (quoteLevel l).2.toNat = o.unfilled + (os.map Order.unfilled).sum := by
    rw [quoteLevel_toNat (htotal l hmem), hqueue, List.map_cons, List.sum_cons]
  simp only [List.head?_cons, Option.map_some, Option.some.injEq, forall_eq', hfirst]
  constructor
  · intro heq
    have hqty : o.unfilled = (quoteLevel l).2.toNat := congrArg (fun entry => entry.2.toNat) heq
    have hzero : (os.map Order.unfilled).sum = 0 := by omega
    refine ⟨o, ?_, congrArg Prod.fst heq⟩
    rcases os with _ | ⟨x, xs⟩
    · exact hqueue
    · have hx := hpos x List.mem_cons_self
      rw [List.map_cons, List.sum_cons] at hzero
      omega
  · intro hsingle
    obtain ⟨o', hqueue', hprice⟩ := hsingle
    obtain ⟨rfl, rfl⟩ := List.cons.inj (hqueue.symm.trans hqueue')
    refine Prod.ext hprice (UInt64.toNat_inj.mp ?_)
    rw [hquote]
    exact (Nat.add_zero _).symm

/-- **The ladder shows the best levels**, where orders rest at the price of their level. -/
theorem ladder_best (hb : WF symbol b) (he : Exact b) (depth : Nat) (sd : OrderSide) :
    BestLevels depth sd (b.orders sd) (b.ladder depth sd) := by
  have hfirst := ladder_first hb depth sd
  have hexact : LevelMap.Exact Order.price (b.ranked sd) := fun l hl => he sd l (mem_ranked.mp hl)
  refine ⟨?_, hfirst.sorted, ?_, ?_, ?_⟩
  · rw [hfirst.length]
    exact Nat.min_le_left _ _
  · intro x hx
    obtain ⟨l, hl, rfl⟩ := hfirst.level x hx
    obtain ⟨o, ho⟩ := List.exists_mem_of_ne_nil _ ((hb.levels sd).nonempty l hl)
    refine ⟨o, ?_, (he sd l hl o ho).symm⟩
    rw [orders_ranked]
    exact List.mem_flatMap.mpr ⟨l, mem_ranked.mpr hl, ho⟩
  · intro x hx
    obtain ⟨l, hl, rfl⟩ := hfirst.level x hx
    rw [orders_ranked]
    exact congrArg (fun queue => (queue.map Order.remainingQty).sum)
      (hexact.filter_flatMap (ranked_keys hb sd) (mem_ranked.mpr hl)).symm
  · intro o ho hout
    rw [orders_ranked] at ho
    obtain ⟨l, hl, hol⟩ := List.mem_flatMap.mp ho
    have hprice : l.1 = o.price := hexact l hl o hol
    rw [← hprice]
    exact (hfirst.behind l (mem_ranked.mp hl)).resolve_left fun hmem => hout _ hmem hprice

end QueueBook

end OrderMatchingEngine
